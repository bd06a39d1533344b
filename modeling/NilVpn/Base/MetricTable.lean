import Mathlib.Data.List.Basic

/-!
# Tables kept in the order of their metric

The entry of lowest metric is the one that an unspecific removal takes.
-/

namespace NilVpn.Base
open List

variable {A : Type}
@[ext] structure MetricTable (A : Type) where
  entries : List (ℕ × A)
  sorted : entries.Pairwise fun a b => a.1<b.1

namespace MetricTable
def setEntry (k : ℕ) (a : A) : List (ℕ × A) → List (ℕ × A)
  | [] => [(k,a)]
  | e::es =>
    if k<e.1 then (k,a)::e::es
    else if k=e.1 then (k,a)::es
    else e::setEntry k a es

lemma mem_setEntry {k : ℕ} {a : A} {e : ℕ × A} {es : List (ℕ × A)}
    (h : e∈setEntry k a es) : e=(k,a) ∨ e∈es := by
  induction es with
  | nil => exact Or.inl (mem_singleton.mp h)
  | cons d es ih =>
    rw [setEntry] at h
    split_ifs at h
    · grind
    · grind
    · grind

lemma sorted_setEntry (k : ℕ) (a : A) {es : List (ℕ × A)} (h : es.Pairwise fun a b => a.1<b.1) :
    (setEntry k a es).Pairwise fun a b => a.1<b.1 := by
  induction es with
  | nil => exact pairwise_singleton ..
  | cons d es ih =>
    obtain ⟨hd,hes⟩ := pairwise_cons.mp h
    rw [setEntry]
    split_ifs with hlt heq
    · refine pairwise_cons.mpr ⟨fun e he => ?_,h⟩
      rcases mem_cons.mp he with he | he
      · exact he ▸ hlt
      · exact Nat.lt_trans hlt (hd e he)
    · exact pairwise_cons.mpr ⟨fun e he => heq ▸ hd e he,hes⟩
    · refine pairwise_cons.mpr ⟨fun e he => ?_,ih hes⟩
      rcases mem_setEntry he with he | he
      · rw [he]
        show d.1<k
        omega
      · exact hd e he

lemma length_setEntry_le (k : ℕ) (a : A) (es : List (ℕ × A)) : (setEntry k a es).length≤es.length+1 := by
  induction es with
  | nil => simp [setEntry]
  | cons d es ih =>
    rw [setEntry]
    split_ifs <;> simp only [length_cons] <;> omega

lemma length_setEntry_zero {a : A} {es : List (ℕ × A)} {b : A}
    (h : (0,b)∈es) (hs : es.Pairwise fun a b => a.1<b.1) :
    (setEntry 0 a es).length=es.length := by
  cases es with
  | nil => cases h
  | cons d es =>
    have hz : d.1=0 := by
      rcases mem_cons.mp h with h | h
      · rw [← h]
      · have hlt:=(pairwise_cons.mp hs).1 _ h
        simp at hlt
    simp [setEntry,hz]

lemma setEntry_above {k : ℕ} {a : A} {es : List (ℕ × A)} (h : ∀ e∈es, e.1<k) :
    setEntry k a es=es++[(k,a)] := by
  induction es with
  | nil => rfl
  | cons d es ih =>
    have hd:=h d (mem_cons_self ..)
    rw [setEntry,if_neg (by omega),if_neg (by omega),
      ih fun e he => h e (mem_cons_of_mem _ he),cons_append]

def set (t : MetricTable A) (k : ℕ) (a : A) : MetricTable A :=
  ⟨setEntry k a t.entries,sorted_setEntry k a t.sorted⟩

def add (t : MetricTable A) (k : ℕ) (a : A) : Option (MetricTable A) :=
  if t.entries.any (·.1 == k) then none else some (t.set k a)

def dropLowest (t : MetricTable A) : Option (MetricTable A) :=
  match t with
  | ⟨[],_⟩ => none
  | ⟨_::es,h⟩ => some ⟨es,(List.pairwise_cons.mp h).2⟩

lemma add_next {t s : MetricTable A} {a r : List (ℕ × A)} {e : ℕ × A}
    (ht : t.entries=a++e::r) (hs : s.entries=a) :
    ∃ s', s.add e.1 e.2=some s' ∧ s'.entries=a++[e] := by
  have hso:=t.sorted
  rw [ht] at hso
  have hb : ∀ d∈a, d.1<e.1 := fun d hd => (pairwise_append.mp hso).2.2 d hd e (mem_cons_self ..)
  have hf : s.entries.any (·.1 == e.1)=false := by grind
  refine ⟨s.set e.1 e.2,?_,?_⟩
  · simp [add,hf]
  · simp only [set,hs]
    exact setEntry_above hb
end MetricTable
end NilVpn.Base
