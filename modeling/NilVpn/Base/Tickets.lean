import NilVpn.Base.Runs
import Mathlib.Data.List.Nodup
import Mathlib.Data.Nat.Init

/-!
# Positions in a run, and tickets that are issued once

A machine holds at most one ticket, whose key an event has to bring along, and no key is brought twice.
-/

namespace NilVpn.Base
open List

variable {S E : Type} (step : S → E → S)
def stateAt (s : S) (es : List E) (n : ℕ) : S := runFrom step s (es.take n)

variable {step} {s : S} {es : List E}
lemma stateAt_succ {n : ℕ} {e : E} (h : es[n]?=some e) :
    stateAt step s es (n+1)=step (stateAt step s es n) e := by
  simp [stateAt,runFrom,take_add_one,h,foldl_append,foldl_cons,foldl_nil]

lemma stateAt_succ_of_none {n : ℕ} (h : es[n]?=none) : stateAt step s es (n+1)=stateAt step s es n := by
  simp [stateAt,take_add_one,h,append_nil]

lemma Along.here {ok : S → E → Prop} {n : ℕ} {e : E} (h : Along step ok s es)
    (he : es[n]?=some e) : ok (stateAt step s es n) e := by
  induction es generalizing s n with
  | nil => cases he
  | cons x xs ih =>
    obtain ⟨hx,hxs⟩ := h
    cases n with
    | zero =>
      cases he
      exact hx
    | succ n => exact ih hxs he

lemma kept_between {I : S → Prop} {i j : ℕ} (hij : i≤j) (hi : I (stateAt step s es i))
    (hk : ∀ k e, i≤k → k<j → es[k]?=some e → I (stateAt step s es k) →
      I (step (stateAt step s es k) e)) : I (stateAt step s es j) := by
  induction j,hij using Nat.le_induction with
  | base => exact hi
  | succ j hij ih =>
    have hj : I (stateAt step s es j) := by
      apply ih
      intro k e hik hkj
      exact hk k e hik (by omega)
    cases he : es[j]? with
    | none =>
      rw [stateAt_succ_of_none he]
      exact hj
    | some e =>
      rw [stateAt_succ he]
      exact hk j e hij (by omega) he hj

lemma turned_between {I : S → Prop} {i j : ℕ} (hij : i≤j) (hi : ¬I (stateAt step s es i))
    (hj : I (stateAt step s es j)) :
    ∃ k e, i≤k ∧ k<j ∧ es[k]?=some e ∧ ¬I (stateAt step s es k) ∧ I (step (stateAt step s es k) e) := by
  by_contra hn
  push Not at hn
  have hs : ¬I (stateAt step s es j) := by
    apply kept_between (I := fun s => ¬I s) hij hi
    intro k e hik hkj he hk
    exact hn k e hik hkj he hk
  exact hs hj

section
variable {A K : Type} {cur : S → Option A} {key : A → K} {gen : E → List K}
/-- A step keeps the ticket, drops it, or takes one whose key the event brings. -/
def Ticketed (step : S → E → S) (cur : S → Option A) (key : A → K) (gen : E → List K) : Prop :=
  ∀ s e, cur (step s e)=cur s ∨ cur (step s e)=none ∨ ∃ a, cur (step s e)=some a ∧ key a∈gen e

def ticketKeys (cur : S → Option A) (key : A → K) (gen : E → List K) (s : S) (es : List E) : List K :=
  (cur s).toList.map key++es.flatMap gen

lemma brought_once (hn : (ticketKeys cur key gen s es).Nodup) {k m : ℕ} {e f : E} {x : K}
    (he : es[k]?=some e) (hf : es[m]?=some f) (hx : x∈gen e) (hx' : x∈gen f) : k=m := by
  have hp:=(nodup_flatMap.mp (nodup_append.mp hn).2.1).2
  obtain ⟨hk,rfl⟩ := List.getElem?_eq_some_iff.mp he
  obtain ⟨hm,rfl⟩ := List.getElem?_eq_some_iff.mp hf
  rcases Nat.lt_trichotomy k m with hlt | heq | hlt
  · exact absurd hx' (pairwise_iff_getElem.mp hp k m hk hm hlt hx)
  · exact heq
  · exact absurd hx (pairwise_iff_getElem.mp hp m k hm hk hlt hx')

lemma brought_fresh (hn : (ticketKeys cur key gen s es).Nodup) {k : ℕ} {e : E} {a : A}
    (he : es[k]?=some e) (hx : key a∈gen e) : cur s≠some a := by
  intro hs
  have hd:=(nodup_append.mp hn).2.2
  have hm : key a∈es.flatMap gen := mem_flatMap.mpr ⟨e,mem_of_getElem? he,hx⟩
  apply hd (key a) _ (key a) hm rfl
  simp [hs]

section
variable (h : Ticketed step cur key gen)
include h
lemma Ticketed.brought {i j : ℕ} {a : A} (hij : i≤j)
    (hi : cur (stateAt step s es i)≠some a) (hj : cur (stateAt step s es j)=some a) :
    ∃ k e, i≤k ∧ k<j ∧ es[k]?=some e ∧ key a∈gen e := by
  obtain ⟨k,e,hik,hkj,he,hk,hk'⟩ := turned_between (I := fun s => cur s=some a) hij hi hj
  refine ⟨k,e,hik,hkj,he,?_⟩
  rcases h (stateAt step s es k) e with hs | hn | ⟨b,hb,hg⟩
  · exact absurd (hs.symm.trans hk') hk
  · rw [hn] at hk'
    cases hk'
  · rw [hb] at hk'
    rw [← Option.some.inj hk']
    exact hg

section
variable (hn : (ticketKeys cur key gen s es).Nodup)
include hn
/-- Two tickets with one key are one ticket, held all the way between them. -/
lemma Ticketed.held_between {i j k : ℕ} {a b : A} (hij : i≤j) (hjk : j≤k)
    (hi : cur (stateAt step s es i)=some a) (hk : cur (stateAt step s es k)=some b)
    (hkey : key a=key b) : cur (stateAt step s es j)=some b := by
  by_contra hj
  obtain ⟨m,e,hjm,-,he,hgen⟩ := h.brought hjk hj hk
  rw [← hkey] at hgen
  by_cases hs : cur s=some a
  · exact brought_fresh hn he hgen hs
  · obtain ⟨m',e',-,hm',he',hgen'⟩ := h.brought (Nat.zero_le i) hs hi
    have hsm:=brought_once hn he he' hgen hgen'
    omega

lemma Ticketed.unique {i k : ℕ} {a b : A}
    (hi : cur (stateAt step s es i)=some a) (hk : cur (stateAt step s es k)=some b)
    (hkey : key a=key b) : a=b := by
  rcases Nat.le_total i k with hik | hki
  · have := h.held_between hn (Nat.le_refl i) hik hi hk hkey
    exact Option.some.inj (hi.symm.trans this)
  · have := h.held_between hn (Nat.le_refl k) hki hk hi hkey.symm
    exact Option.some.inj (this.symm.trans hk)

/-- A ticket that was given up does not come back. -/
lemma Ticketed.gone {i j k : ℕ} {a : A} (hij : i≤j) (hjk : j≤k)
    (hi : cur (stateAt step s es i)=some a) (hj : cur (stateAt step s es j)≠some a) :
    ∀ b, cur (stateAt step s es k)=some b → key b≠key a := by
  grind [h.held_between,h.unique]
end
end
end
end NilVpn.Base
