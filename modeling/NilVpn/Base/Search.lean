import Mathlib.Data.List.Basic
import Mathlib.Tactic.Ring

/-!
# Depth-first search with an undo stack
-/

namespace NilVpn.Base.Search
open List

variable {α : Type} (admits : List α → α → Bool)
/-- The candidates at one position: push, recurse, pop on a dead end. -/
def tryEach (recur : List α → Bool × List α) : List α → List α → Bool × List α
  | [],chosen => (false,chosen)
  | x::rest,chosen =>
    if admits chosen x then
      match recur (chosen++[x]) with
      | (true,found) => (true,found)
      | (false,back) => tryEach recur rest back.dropLast
    else tryEach recur rest chosen

/-- Fill the stack up to `depth`; the first argument bounds the recursion. -/
def extend (candidates : List α) (depth : ℕ) : ℕ → List α → Bool × List α
  | 0,chosen => (decide (chosen.length=depth),chosen)
  | fuel+1,chosen =>
    if chosen.length=depth then (true,chosen)
    else tryEach admits (extend candidates depth fuel) candidates chosen

def Steps : List α → List α → Prop
  | _,[] => True
  | chosen,x::ext => admits chosen x=true ∧ Steps (chosen++[x]) ext

structure Extension (candidates : List α) (need : ℕ) (chosen ext : List α) : Prop where
  length : ext.length=need
  drawn : ext ⊆ candidates
  steps : Steps admits chosen ext

structure Solves (candidates : List α) (need : ℕ) (chosen : List α) (r : Bool × List α) :
    Prop where
  found : r.1=true → ∃ ext, r.2=chosen++ext ∧ Extension admits candidates need chosen ext
  failed : r.1=false → r.2=chosen ∧ ∀ ext, ¬Extension admits candidates need chosen ext

variable {admits}
lemma tryEach_solves {candidates chosen : List α} {need : ℕ} {r : List α → Bool × List α}
    (hrec : ∀ x, Solves admits candidates need (chosen++[x]) (r (chosen++[x])))
    (rs : List α) (hr : rs ⊆ candidates) :
    ((tryEach admits r rs chosen).1 → ∃ ext, (tryEach admits r rs chosen).2=chosen++ext ∧
      Extension admits candidates (need+1) chosen ext) ∧
    ((tryEach admits r rs chosen).1=false →
      (tryEach admits r rs chosen).2=chosen ∧ ∀ x∈rs, admits chosen x →
        ∀ ext, ¬Extension admits candidates need (chosen++[x]) ext) := by
  induction rs with
  | nil =>
    refine ⟨nofun,fun _ => ⟨rfl,?_⟩⟩
    intro x hx
    cases hx
  | cons x rs ih =>
    have ih:=ih fun y hy => hr (mem_cons_of_mem x hy)
    rw [tryEach]
    split
    next hx =>
      have hs:=hrec x
      split
      next found he =>
        rw [he] at hs
        obtain ⟨ext,hf,hext⟩ := hs.found rfl
        have hp : found=chosen++x::ext := by grind
        refine ⟨fun _ => ⟨x::ext,hp,?_⟩,nofun⟩
        have hd : x::ext ⊆ candidates := by grind [hext.drawn]
        exact ⟨by rw [length_cons,hext.length],hd,hx,hext.steps⟩
      next back he =>
        rw [he] at hs
        obtain ⟨hb,hn⟩ := hs.failed rfl
        have hb : back=chosen++[x] := hb
        -- the pop undoes the push, so the loop goes on from the same stack
        have hpop : back.dropLast=chosen := by rw [hb,dropLast_concat]
        rw [hpop]
        refine ⟨ih.1,fun h => ⟨(ih.2 h).1,?_⟩⟩
        intro y hy ha
        rcases mem_cons.mp hy with rfl | hy
        · exact hn
        · exact (ih.2 h).2 y hy ha
    next hx => grind [absurd,ih.2]

lemma extend_solves {candidates : List α} {depth : ℕ} (left : ℕ) (c : List α) (h : c.length+left=depth) :
    Solves admits candidates left c (extend admits candidates depth left c) := by
  induction left generalizing c with
  | zero =>
    have hfu : c.length=depth := h
    have htr : (extend admits candidates depth 0 c).1 := decide_eq_true hfu
    refine ⟨fun _ => ⟨[],(append_nil c).symm,rfl,nil_subset _,trivial⟩,?_⟩
    intro hfl
    rw [htr] at hfl
    cases hfl
  | succ left ih =>
    have ho : ¬c.length=depth := by omega
    have hr : ∀ x, Solves admits candidates left (c++[x])
        (extend admits candidates depth left (c++[x])) := by
      intro x
      apply ih
      rw [length_append,length_singleton]
      omega
    obtain ⟨hfn,hfa⟩ := tryEach_solves hr candidates (List.Subset.refl _)
    rw [extend,if_neg ho]
    refine ⟨hfn,fun hf => ⟨(hfa hf).1,?_⟩⟩
    intro ext he
    cases ext with
    | nil => cases he.length
    | cons x ext =>
      have hm : x∈candidates := he.drawn mem_cons_self
      have ht : Extension admits candidates left (c++[x]) ext :=
        ⟨Nat.succ.inj he.length,fun y hy => he.drawn (mem_cons_of_mem x hy),he.steps.2⟩
      exact (hfa hf).2 x hm he.steps.1 ext ht

/-- When a step is admitted by its position and by each earlier entry alone, the
admitted lists are those with fitting positions and pairwise compatible entries. -/
lemma steps_iff_pairwise {f : ℕ → α → Prop} {apart : α → α → Prop} (ha : ∀ c x, admits c x=true ↔
      f c.length x ∧ ∀ y∈c, apart y x) (c ext : List α) :
    Steps admits c ext ↔ (∀ (i : ℕ) (x : α), ext[i]?=some x → f (c.length+i) x) ∧
      (∀ y∈c, ∀ x∈ext, apart y x) ∧ ext.Pairwise apart := by
  induction ext generalizing c with
  | nil => simp [Steps]
  | cons x ext ih =>
    have hl : (c++[x]).length=c.length+1 := length_append
    rw [Steps,ha,ih,hl,pairwise_cons]
    constructor
    · grind [Option.some.inj]
    · rintro ⟨hf,hc,hh,hp⟩
      refine ⟨⟨hf 0 x rfl,fun y hy => hc y hy x mem_cons_self⟩,?_,?_,hp⟩
      · intro i y hy
        have hi:=hf (i+1) y hy
        have hcm : c.length+1+i=c.length+(i+1) := by ring
        rwa [hcm]
      · grind
end NilVpn.Base.Search
