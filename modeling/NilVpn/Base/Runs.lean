import Mathlib.Data.List.Pairwise

/-!
# Runs of a state machine
-/

namespace NilVpn.Base
open List

variable {S E : Type} (step : S → E → S)
def runFrom (s : S) (es : List E) : S := es.foldl step s

def Along (ok : S → E → Prop) : S → List E → Prop
  | _,[] => True
  | s,e::es => ok s e ∧ Along ok (step s e) es

instance Along.decide (ok : S → E → Prop) [∀ s e, Decidable (ok s e)] :
    ∀ (s : S) (es : List E), Decidable (Along step ok s es)
  | _,[] => .isTrue trivial
  | s,e::es =>
    have := Along.decide ok (step s e) es
    inferInstanceAs (Decidable (ok s e ∧ Along step ok (step s e) es))

variable {step} {ok : S → E → Prop}
variable {I : S → Prop}
lemma Along.invariant (hst : ∀ s e, I s → ok s e → I (step s e)) {s : S} (hs : I s) (es : List E)
    (h : Along step ok s es) : I (runFrom step s es) := by
  induction es generalizing s with
  | nil => exact hs
  | cons e es ih =>
    obtain ⟨he,hes⟩ := h
    exact ih (hst s e hs he) hes

lemma Along.mem {s : S} {es all : List E} (h : Along step ok s es) (hs : es ⊆ all) :
    Along step (fun s e => ok s e ∧ e∈all) s es := by
  induction es generalizing s with
  | nil => trivial
  | cons e es ih =>
    obtain ⟨he,hes⟩ := h
    exact ⟨⟨he,hs (mem_cons_self ..)⟩,ih hes fun x hx => hs (mem_cons_of_mem _ hx)⟩

lemma run_invariant (hst : ∀ s e, I s → I (step s e)) {s : S} (hs : I s) (es : List E) :
    I (runFrom step s es) := by
  induction es generalizing s with
  | nil => exact hs
  | cons e es ih => exact ih (hst s e hs)

lemma run_invariant_of_mem {ok : E → Prop} (hst : ∀ s e, ok e → I s → I (step s e)) {s : S} (hs : I s)
    (es : List E) (hok : ∀ e∈es, ok e) : I (runFrom step s es) := by
  induction es generalizing s with
  | nil => exact hs
  | cons e es ih =>
    obtain ⟨he,hes⟩ := forall_mem_cons.mp hok
    exact ih (hst s e he hs) hes

lemma pairwise_at {R : E → E → Prop} {es : List E} (h : es.Pairwise R) (hr : ∀ e, R e e)
    {i j : ℕ} {a b : E} (hij : i≤j) (hi : es[i]?=some a) (hj : es[j]?=some b) : R a b := by
  obtain ⟨hi',rfl⟩ := List.getElem?_eq_some_iff.mp hi
  obtain ⟨hj',rfl⟩ := List.getElem?_eq_some_iff.mp hj
  rcases Nat.lt_or_eq_of_le hij with hlt | rfl
  · exact pairwise_iff_getElem.mp h i j hi' hj' hlt
  · exact hr _

section
variable {A B : Type} {f : E → Option A} {g : E → Option B} {es : List E}
lemma eq_of_nodup_filterMap (h : (es.filterMap f).Nodup) {x y : E} (hx : x∈es) (hy : y∈es) {a : A}
    (hxa : f x=some a) (hya : f y=some a) : x=y := by
  have hp : es.Pairwise fun x y => ∀ a, f x=some a → f y=some a → x=y := by
    refine (pairwise_filterMap.mp h).imp ?_
    intro x y hne a hx hy
    exact absurd rfl (hne a hx a hy)
  have hs : Std.Symm fun x y => ∀ a, f x=some a → f y=some a → x=y :=
    ⟨fun x y hxy a hy hx => (hxy a hx hy).symm⟩
  exact List.Pairwise.forall_of_forall (fun x _ a _ _ => rfl) hp hx hy a hxa hya

/-- Events that agree in `f` agree in the key `g`, so `f` does not repeat either. -/
lemma nodup_filterMap_of_key (h : (es.filterMap g).Nodup)
    (hfg : ∀ x∈es, ∀ y∈es, ∀ a, f x=some a → f y=some a → ∃ b, g x=some b ∧ g y=some b) :
    (es.filterMap f).Nodup := by
  apply pairwise_filterMap.mpr
  refine (pairwise_filterMap.mp h).imp_of_mem ?_
  rintro x y hx hy hne a hxa a' hya rfl
  obtain ⟨b,hxb,hyb⟩ := hfg x hx y hy a hxa hya
  exact hne b hxb b hyb rfl
end

/-! ### Calls in flight

A state may hold a list of calls, of which one step replaces one. -/

section
variable {C : Type} {Q : C → Prop} {calls : List C} {c c' : C} {i : ℕ}
lemma forall_replaced (ho : ∀ d∈calls, Q d) (hc : Q c) : ∀ d∈calls.set i c, Q d := by grind

/-- What some call has done stays done, if the one that steps keeps it. -/
lemma exists_replaced (hi : calls[i]?=some c) (hk : Q c → Q c') (h : ∃ d∈calls, Q d) :
    ∃ d∈calls.set i c', Q d := by
  obtain ⟨d,hd,hQ⟩ := h
  obtain ⟨j,hj⟩ := mem_iff_getElem?.mp hd
  by_cases hij : i=j
  · rw [← hij,hi] at hj
    cases hj
    exact ⟨c',mem_set (List.getElem?_eq_some_iff.mp hi).1 c',hk hQ⟩
  · refine ⟨d,mem_iff_getElem?.mpr ⟨j,?_⟩,hQ⟩
    rw [List.getElem?_set_ne hij]
    exact hj
end
end NilVpn.Base
