import Mathlib.Data.List.Basic
import Mathlib.Data.List.Forall2

/-!
# Fallible computations
-/

namespace NilVpn.Base
open Except

variable {ε α β : Type}
def ensure (c : Bool) (e : ε) : Except ε Unit := if c then .ok () else .error e

def okOr (o : Option α) (e : ε) : Except ε α :=
  match o with
  | some a => .ok a
  | none => .error e

@[simp] lemma ensure_true (e : ε) : ensure true e=.ok () := rfl

@[simp] lemma okOr_some (a : α) (e : ε) : okOr (some a) e=.ok a := rfl

lemma ensure_of (c : Bool) (e : ε) (h : c) : ensure c e=.ok () := if_pos h

lemma ensure_eq_ok {c : Bool} {e : ε} {u : Unit} (h : ensure c e=.ok u) : c := by
  unfold ensure at h
  split at h
  · assumption
  · cases h

variable {a : α} {f : ℕ → α → Except ε β} {n : ℕ} {as : List α} {bs : List β}
lemma okOr_eq_ok {o : Option α} {e : ε} (h : okOr o e=.ok a) : o=some a := by
  cases o with
  | none => cases h
  | some b => rw [ok.inj h]

variable {x : Except ε α}
lemma mapError_eq_ok {ε' : Type} {f : ε → ε'} (h : x.mapError f=.ok a) : x=.ok a := by
  cases x with
  | error e => cases h
  | ok b => rw [ok.inj h]

lemma map_eq_ok {f : α → β} {b : β} (h : x.map f=.ok b) : ∃ a, x=.ok a ∧ f a=b := by
  cases x with
  | error e => cases h
  | ok a => exact ⟨a,rfl,ok.inj h⟩

@[simp] lemma ok_bind (a : α) (f : α → Except ε β) : (ok a >>= f)=f a := rfl

lemma except_bind_ok {f : α → Except ε β} {b : β} (h : x.bind f=.ok b) : ∃ a, x=.ok a ∧ f a=.ok b :=
  match x,h with
  | .ok a,h => ⟨a,rfl,h⟩

lemma except_bind_ok₂ {γ : Type} {f : α → Except ε β} {g : α → β → Except ε γ} {c : γ}
    (h : (x.bind fun a => (f a).bind (g a))=.ok c) : ∃ a, x=.ok a ∧ ∃ b, f a=.ok b ∧ g a b=.ok c := by
  obtain ⟨a,ha,h⟩ := except_bind_ok h
  exact ⟨a,ha,except_bind_ok h⟩

lemma except_bind_ok₄ {γ δ η : Type} {f : α → Except ε β} {g : α → β → Except ε γ}
    {k : α → β → γ → Except ε δ} {l : α → β → γ → δ → Except ε η} {r : η}
    (h : (x.bind fun a => (f a).bind fun b => (g a b).bind fun c => (k a b c).bind (l a b c))=.ok r) :
    ∃ a, x=.ok a ∧ ∃ b, f a=.ok b ∧ ∃ c, g a b=.ok c ∧ ∃ d, k a b c=.ok d ∧ l a b c d=.ok r := by
  obtain ⟨a,ha,b,hb,h⟩ := except_bind_ok₂ h
  exact ⟨a,ha,b,hb,except_bind_ok₂ h⟩

/-- `iter().enumerate().map(f).collect()`, from index `n`; stops at the first error. -/
def collectIdx (f : ℕ → α → Except ε β) : ℕ → List α → Except ε (List β)
  | _,[] => .ok []
  | n,a::as => do
    let b ← f n a
    let bs ← collectIdx f (n+1) as
    .ok (b::bs)

section
variable (h : collectIdx f n as=.ok bs)
include h
lemma collectIdx_eq_ok :
    bs.length=as.length ∧ ∀ (i : ℕ) (b : β), bs[i]?=some b → ∃ a, as[i]?=some a ∧ f (n+i) a=.ok b := by
  induction as generalizing n bs with
  | nil =>
    rw [← ok.inj h]
    refine ⟨rfl,fun i b hb => ?_⟩
    cases hb
  | cons a as ih =>
    obtain ⟨b0,hb0,h⟩ := except_bind_ok h
    obtain ⟨bs0,hbs0,h⟩ := except_bind_ok h
    obtain ⟨hl,hat⟩ := ih hbs0
    rw [← ok.inj h]
    refine ⟨by rw [List.length_cons,List.length_cons,hl],?_⟩
    intro i b hb
    cases i with
    | zero =>
      rw [← Option.some.inj hb]
      exact ⟨a,rfl,hb0⟩
    | succ i => grind

lemma collectIdx_step {i : ℕ} (ha : as[i]?=some a) : ∃ b, bs[i]?=some b ∧ f (n+i) a=.ok b := by
  obtain ⟨hl,hat⟩ := collectIdx_eq_ok h
  have hi : i<bs.length := by
    rw [hl]
    exact (List.getElem?_eq_some_iff.mp ha).1
  obtain ⟨a',ha',hf⟩ := hat i bs[i] (List.getElem?_eq_getElem hi)
  have hs : a'=a := Option.some.inj (ha'.symm.trans ha)
  exact ⟨bs[i],List.getElem?_eq_getElem hi,hs ▸ hf⟩

lemma collectIdx_forall₂ : List.Forall₂ (fun b a => ∃ i, f i a=.ok b) bs as := by
  induction as generalizing n bs with
  | nil =>
    rw [← ok.inj h]
    exact List.Forall₂.nil
  | cons a as ih =>
    obtain ⟨b0,hb0,h⟩ := except_bind_ok h
    obtain ⟨bs0,hb,h⟩ := except_bind_ok h
    rw [← ok.inj h]
    exact List.Forall₂.cons ⟨n,hb0⟩ (ih hb)
end

lemma collectIdx_ok (h : ∀ (i : ℕ) (a : α), as[i]?=some a → ∃ b, f (n+i) a=.ok b) :
    ∃ bs, collectIdx f n as=.ok bs := by
  induction as generalizing n with
  | nil => exact ⟨[],rfl⟩
  | cons a as ih =>
    obtain ⟨b,hb⟩ := h 0 a rfl
    obtain ⟨bs,hbs⟩ : ∃ bs, collectIdx f (n+1) as=.ok bs := by
      apply ih
      intro i a' ha'
      have hs : n+(i+1)=n+1+i := by omega
      exact hs ▸ h (i+1) a' ha'
    have hb : f n a=.ok b := hb
    exact ⟨b::bs,by rw [collectIdx,hb,ok_bind,hbs,ok_bind]⟩
end NilVpn.Base
