import Mathlib.Data.List.Sort

/-!
# Min-heaps

`BinaryHeap<Reverse<T>>` as its users see it: an ascending list.
-/

namespace NilVpn.Base

structure MinHeap (α : Type) [Ord α] where
  items : List α
  ascending : items.Pairwise fun a b => (compare a b).isLE=true

namespace MinHeap
variable {α : Type} [Ord α]
def empty : MinHeap α := ⟨[],List.Pairwise.nil⟩
def peek (h : MinHeap α) : Option α := h.items.head?
def pop (h : MinHeap α) : MinHeap α := ⟨h.items.tail,h.ascending.tail⟩

section
variable [Std.TransOrd α]
instance : Std.Total fun a b : α => (compare a b).isLE=true where
  total a b := by
    rw [Std.OrientedOrd.eq_swap (a := b)]
    cases compare a b with
    | lt | eq => exact Or.inl rfl
    | gt => exact Or.inr rfl

instance : IsTrans α fun a b => (compare a b).isLE=true where
  trans _ _ _ := Std.TransCmp.isLE_trans

def push (h : MinHeap α) (a : α) : MinHeap α :=
  ⟨h.items.orderedInsert (fun a b => (compare a b).isLE=true) a,h.ascending.orderedInsert a h.items⟩

lemma perm_push (h : MinHeap α) (a : α) : (h.push a).items.Perm (a::h.items) :=
  List.perm_orderedInsert _ _ _
end

lemma peek_eq_some {h : MinHeap α} {a : α} (ha : h.peek=some a) :
    h.items=a::h.pop.items ∧ ∀ b∈h.pop.items, (compare a b).isLE := by
  obtain ⟨items,hasc⟩ := h
  cases items with
  | nil => cases ha
  | cons b items =>
    cases ha
    exact ⟨rfl,(List.pairwise_cons.mp hasc).1⟩

lemma peek_eq_none {h : MinHeap α} (hn : h.peek=none) : h.items=[] := List.head?_eq_none_iff.mp hn
end MinHeap
end NilVpn.Base
