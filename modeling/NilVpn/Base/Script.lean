import Mathlib.Data.List.Basic

/-!
# Programs that issue commands which may fail

`Safe I Q E`: every state entered is in `I`, a value is returned into `Q`, an error into `E`.
-/

namespace NilVpn.Base

structure Script.Outcome (σ ε α : Type) where
  result : Except ε α
  state : σ
  entered : List σ

def Script.Outcome.Meets {σ ε α : Type} (I : σ → Prop) (Q : α → σ → Prop) (E : ε → σ → Prop) :
    Script.Outcome σ ε α → Prop
  | ⟨.ok a,s,new⟩ => (∀ m∈new, I m) ∧ Q a s
  | ⟨.error e,s,new⟩ => (∀ m∈new, I m) ∧ E e s

def Script (σ ε α : Type) : Type := σ → Script.Outcome σ ε α

namespace Script
variable {σ ε α β : Type}
def bind (x : Script σ ε α) (f : α → Script σ ε β) : Script σ ε β := fun s =>
  match x s with
  | ⟨.ok a,s',new⟩ =>
    match f a s' with
    | ⟨r,s'',more⟩ => ⟨r,s'',new++more⟩
  | ⟨.error e,s',new⟩ => ⟨.error e,s',new⟩

instance : Monad (Script σ ε) where
  pure a := fun s => ⟨.ok a,s,[]⟩
  bind := bind

def throw (e : ε) : Script σ ε α := fun s => ⟨.error e,s,[]⟩
def view (f : σ → α) : Script σ ε α := fun s => ⟨.ok (f s),s,[]⟩
def update (f : σ → σ) : Script σ ε Unit := fun s => ⟨.ok (),f s,[f s]⟩

def attempt (x : Script σ ε α) : Script σ ε (Except ε α) := fun s =>
  match x s with
  | ⟨r,s',new⟩ => ⟨.ok r,s',new⟩

def mapError (g : ε → ε) (x : Script σ ε α) : Script σ ε α := fun s =>
  match x s with
  | ⟨r,s',new⟩ => ⟨r.mapError g,s',new⟩

def each (f : α → Script σ ε Unit) : List α → Script σ ε Unit
  | [] => pure ()
  | a::as => do
    f a
    each f as

/-- From `s`, every state entered is in `I` and the script returns into `Q` or errs into `E`. -/
def Safe (I : σ → Prop) (Q : α → σ → Prop) (E : ε → σ → Prop) (x : Script σ ε α) (s : σ) : Prop :=
  (x s).Meets I Q E

variable {I J : σ → Prop} {Q R : α → σ → Prop} {E F : ε → σ → Prop} {x : Script σ ε α} {s : σ}
lemma Safe.entered (h : Safe I Q E x s) : ∀ m∈(x s).entered, I m := by
  unfold Safe at h
  generalize x s=out at h
  obtain ⟨r,s',new⟩ := out
  cases r with
  | ok | error => exact h.1

lemma Safe.ok (h : Safe I Q E x s) {a : α} (ha : (x s).result=.ok a) : Q a (x s).state := by
  unfold Safe at h
  generalize x s=out at h ha
  obtain ⟨r,s',new⟩ := out
  cases ha
  exact h.2

lemma Safe.error (h : Safe I Q E x s) {e : ε} (he : (x s).result=.error e) : E e (x s).state := by
  unfold Safe at h
  generalize x s=out at h he
  obtain ⟨r,s',new⟩ := out
  cases he
  exact h.2

lemma Safe.state {B : σ → Prop} (h : Safe I (fun _ => B) (fun _ => B) x s) : B (x s).state := by
  cases hr : (x s).result with
  | ok a => exact h.ok hr
  | error e => exact h.error hr

lemma Safe.of_result (hI : ∀ m∈(x s).entered, I m) (ho : ∀ a, (x s).result=.ok a → Q a (x s).state)
    (he : ∀ e, (x s).result=.error e → E e (x s).state) : Safe I Q E x s := by
  unfold Safe
  generalize x s=out at hI ho he ⊢
  obtain ⟨r,s',new⟩ := out
  cases r with
  | ok a => exact ⟨hI,ho a rfl⟩
  | error e => exact ⟨hI,he e rfl⟩

lemma Safe.pure {a : α} (h : Q a s) : Safe I Q E (pure a) s := ⟨fun _ hm => (by cases hm),h⟩

lemma Safe.throw {e : ε} (h : E e s) : Safe I Q E (throw e) s := ⟨fun _ hm => (by cases hm),h⟩

lemma Safe.view {f : σ → α} (h : Q (f s) s) : Safe I Q E (view f) s := ⟨fun _ hm => (by cases hm),h⟩

lemma Safe.update {f : σ → σ} {Q : Unit → σ → Prop} (hI : I (f s)) (h : Q () (f s)) :
    Safe I Q E (update f) s :=
  ⟨fun m hm => (by rw [List.mem_singleton.mp hm]; exact hI),h⟩

lemma Safe.mono (h : Safe I R F x s) (hI : ∀ m, I m → J m) (hQ : ∀ a m, R a m → Q a m)
    (hE : ∀ e m, F e m → E e m) : Safe J Q E x s := by
  unfold Safe at h ⊢
  generalize x s=out at h ⊢
  obtain ⟨r,s',new⟩ := out
  cases r with
  | ok a => exact ⟨fun m hm => hI m (h.1 m hm),hQ a s' h.2⟩
  | error e => exact ⟨fun m hm => hI m (h.1 m hm),hE e s' h.2⟩

lemma Safe.imp (h : Safe I R F x s) (hQ : ∀ a m, R a m → Q a m) (hE : ∀ e m, F e m → E e m) :
    Safe I Q E x s :=
  h.mono (fun _ hI => hI) hQ hE

lemma Safe.imp_left (h : Safe I R E x s) (hQ : ∀ a m, R a m → Q a m) : Safe I Q E x s :=
  h.imp hQ fun _ _ hE => hE

lemma Safe.imp_right (h : Safe I Q F x s) (hE : ∀ e m, F e m → E e m) : Safe I Q E x s :=
  h.imp (fun _ _ hQ => hQ) hE

lemma Safe.bind {Q : β → σ → Prop} {f : α → Script σ ε β} (h : Safe I R E x s)
    (hf : ∀ a m, R a m → Safe I Q E (f a) m) : Safe I Q E (x >>= f) s := by
  show (Script.bind x f s).Meets I Q E
  unfold Safe at h
  unfold Script.bind
  generalize x s=out at h ⊢
  obtain ⟨r,s',new⟩ := out
  cases r with
  | error e => exact h
  | ok a =>
    have hr:=hf a s' h.2
    unfold Safe at hr
    simp only
    generalize f a s'=out at hr ⊢
    obtain ⟨r,s'',mo⟩ := out
    have ha (hm : ∀ m∈mo, I m) : ∀ m∈new++mo, I m := by grind [h.1]
    cases r with
    | ok | error => exact ⟨ha hr.1,hr.2⟩

lemma Safe.attempt {Q : Except ε α → σ → Prop}
    (h : Safe I (fun a => Q (.ok a)) (fun e => Q (.error e)) x s) : Safe I Q E (attempt x) s := by
  unfold Safe at h
  unfold Safe Script.attempt
  generalize x s=out at h ⊢
  obtain ⟨r,s',new⟩ := out
  cases r with
  | ok | error => exact h

lemma Safe.mapError {g : ε → ε} (h : Safe I Q (fun e => E (g e)) x s) : Safe I Q E (mapError g x) s := by
  unfold Safe at h
  unfold Safe Script.mapError
  generalize x s=out at h ⊢
  obtain ⟨r,s',new⟩ := out
  cases r with
  | ok | error => exact h

lemma Safe.each {f : α → Script σ ε Unit} {K : List α → σ → Prop}
    (hf : ∀ a as m, K (a::as) m → Safe I (fun _ => K as) E (f a) m) (as : List α)
    (h : K as s) : Safe I (fun _ => K []) E (each f as) s := by
  induction as generalizing s with
  | nil => exact Safe.pure h
  | cons a as ih => exact (hf a as s h).bind fun _ _ hm => ih hm

lemma Safe.and {R : α → σ → Prop} {F : ε → σ → Prop} (h : Safe I Q E x s) (h' : Safe J R F x s) :
    Safe (fun m => I m ∧ J m) (fun a m => Q a m ∧ R a m) (fun e m => E e m ∧ F e m) x s := by
  unfold Safe at h h' ⊢
  generalize x s=out at h h' ⊢
  obtain ⟨r,s',new⟩ := out
  cases r with
  | ok | error => exact ⟨fun m hm => ⟨h.1 m hm,h'.1 m hm⟩,h.2,h'.2⟩

lemma Safe.weaken (h : Safe I (fun _ => I) (fun _ => I) x s) (hJ : ∀ m, I m → J m) :
    Safe J (fun _ => J) (fun _ => J) x s := h.mono hJ (fun _ => hJ) fun _ => hJ

/-- `B` holds in every state that the script enters from a state in `B`. -/
def Keeps (B : σ → Prop) (x : Script σ ε α) : Prop := ∀ s, B s → Safe B (fun _ => B) (fun _ => B) x s

section
variable {B : σ → Prop}
lemma Keeps.and (hx : Keeps B x) (hs : B s) (h : Safe I Q E x s) :
    Safe B (fun a m => B m ∧ Q a m) (fun _ => B) x s :=
  ((hx s hs).and h).mono (fun _ hm => hm.1) (fun _ _ hm => hm) fun _ _ hm => hm.1

lemma Keeps.pure (a : α) : Keeps B (pure a : Script σ ε α) := fun _ h => Safe.pure h

lemma Keeps.throw (e : ε) : Keeps B (throw e : Script σ ε α) := fun _ h => Safe.throw h

lemma Keeps.view (f : σ → α) : Keeps B (view f : Script σ ε α) := fun _ h => Safe.view h

lemma Keeps.update {f : σ → σ} (hf : ∀ s, B s → B (f s)) : Keeps B (update f : Script σ ε Unit) :=
  fun s h => Safe.update (hf s h) (hf s h)

lemma Keeps.bind {f : α → Script σ ε β} (hx : Keeps B x) (hf : ∀ a, Keeps B (f a)) : Keeps B (x >>= f) :=
  fun s h => (hx s h).bind fun a m hm => hf a m hm

lemma Keeps.attempt (hx : Keeps B x) : Keeps B (attempt x) := fun s h => Safe.attempt (hx s h)

lemma Keeps.mapError {g : ε → ε} (hx : Keeps B x) : Keeps B (mapError g x) :=
  fun s h => Safe.mapError (hx s h)

lemma Keeps.ite {p : Prop} [Decidable p] {y : Script σ ε α} (hx : Keeps B x) (hy : Keeps B y) :
    Keeps B (if p then x else y) := by
  split
  · exact hx
  · exact hy

lemma Keeps.each {f : α → Script σ ε Unit} (hf : ∀ a, Keeps B (f a)) (as : List α) : Keeps B (each f as) :=
  fun _ h => Safe.each (fun a _ m hm => hf a m hm) as h
end
end Script

/-- Exit status 0, 1, and everything else (a command that cannot be started included). -/
inductive Exit (α : Type)
  | success (a : α)
  | absent
  | failure

inductive Fate
  | ok
  | failed (applied : Bool)
  deriving DecidableEq

/-- What the commands do, what the environment makes of the n-th one, and its complaint. -/
structure System (C : Type) (Out : C → Type) (H ε : Type) where
  exec : (c : C) → H → Exit (Out c) × H
  fate : ℕ → Fate
  complaint : C → ε

/-- `self` is the program's own data; the most recent command of `issued` comes first. -/
structure Moment (C H S : Type) where
  host : H
  self : S
  issued : List C

namespace Moment
variable {C H S : Type}
def issue (m : Moment C H S) (c : C) : Moment C H S := {m with issued := c::m.issued}

def settle (m : Moment C H S) (h : H) : Moment C H S := {m with host := h}
end Moment
namespace System
variable {C : Type} {Out : C → Type} {H S ε : Type}
def Faulty (sys : System C Out H ε) : Prop := ∃ n applied, sys.fate n=.failed applied

def issue (sys : System C Out H ε) (c : C) : Script (Moment C H S) ε (Exit (Out c)) := fun m =>
  match sys.fate m.issued.length,sys.exec c m.host with
  | .ok,(r,h) => ⟨.ok r,(m.issue c).settle h,[m.issue c,(m.issue c).settle h]⟩
  | .failed true,(_,h) => ⟨.ok .failure,(m.issue c).settle h,[m.issue c,(m.issue c).settle h]⟩
  | .failed false,_ => ⟨.ok .failure,m.issue c,[m.issue c]⟩

def run (sys : System C Out H ε) (c : C) : Script (Moment C H S) ε (Out c) := do
  match ← sys.issue c with
  | .success a => pure a
  | _ => Script.throw (sys.complaint c)

def present (sys : System C Out H ε) (c : C) : Script (Moment C H S) ε Bool := do
  match ← sys.issue c with
  | .success _ => pure true
  | .absent => pure false
  | .failure => Script.throw (sys.complaint c)

def Leaves (sys : System C Out H ε) (c : C) (h h' : H) : Prop := h'=h ∨ h'=(sys.exec c h).2

variable {sys : System C Out H ε} {c : C} {m : Moment C H S} {I : Moment C H S → Prop}
  {E : ε → Moment C H S → Prop}
section
variable (hI : ∀ h, sys.Leaves c m.host h → I ((m.issue c).settle h))
include hI
lemma issue_safe {Q : Exit (Out c) → Moment C H S → Prop}
    (hd : Q (sys.exec c m.host).1 ((m.issue c).settle (sys.exec c m.host).2))
    (hl : sys.Faulty → ∀ h, sys.Leaves c m.host h → Q .failure ((m.issue c).settle h)) :
    Script.Safe I Q E (sys.issue c) m := by
  have his : I (m.issue c) := hI m.host (.inl rfl)
  have hs:=hI _ (.inr rfl)
  have hb : ∀ n∈[m.issue c,(m.issue c).settle (sys.exec c m.host).2], I n := by grind
  unfold Script.Safe issue
  cases hv : sys.fate m.issued.length with
  | ok => exact ⟨hb,hd⟩
  | failed ap =>
    have hf : sys.Faulty := ⟨_,ap,hv⟩
    cases ap with
    | true => exact ⟨hb,hl hf _ (.inr rfl)⟩
    | false =>
      refine ⟨fun n hn => ?_,hl hf m.host (.inl rfl)⟩
      rw [List.mem_singleton.mp hn]
      exact his

lemma run_safe {Q : Out c → Moment C H S → Prop}
    (hok : ∀ a, (sys.exec c m.host).1=.success a → Q a ((m.issue c).settle (sys.exec c m.host).2))
    (he : (sys.Faulty ∨ ∀ a, (sys.exec c m.host).1≠.success a) →
      ∀ h, sys.Leaves c m.host h → E (sys.complaint c) ((m.issue c).settle h)) :
    Script.Safe I Q E (sys.run c) m := by
  refine Script.Safe.bind (issue_safe hI ?_ fun hf h hl => Script.Safe.throw (he (.inl hf) h hl))
    fun _ _ hr => hr
  cases hx : (sys.exec c m.host).1 with
  | success a => exact Script.Safe.pure (hok a hx)
  | absent | failure => exact Script.Safe.throw (he (.inr (by simp [hx])) _ (.inr rfl))

lemma present_safe {Q : Bool → Moment C H S → Prop}
    (hy : ∀ a, (sys.exec c m.host).1=.success a → Q true ((m.issue c).settle (sys.exec c m.host).2))
    (hno : (sys.exec c m.host).1=.absent → Q false ((m.issue c).settle (sys.exec c m.host).2))
    (he : (sys.Faulty ∨ (sys.exec c m.host).1=.failure) →
      ∀ h, sys.Leaves c m.host h → E (sys.complaint c) ((m.issue c).settle h)) :
    Script.Safe I Q E (sys.present c) m := by
  refine Script.Safe.bind (issue_safe hI ?_ fun hf h hl => Script.Safe.throw (he (.inl hf) h hl))
    fun _ _ hr => hr
  cases hx : (sys.exec c m.host).1 with
  | success a => exact Script.Safe.pure (hy a hx)
  | absent => exact Script.Safe.pure (hno hx)
  | failure => exact Script.Safe.throw (he (.inr hx) _ (.inr rfl))
end

def Stable (sys : System C Out H ε) (B : Moment C H S → Prop) (c : C) : Prop :=
  ∀ m, B m → ∀ h, sys.Leaves c m.host h → B ((m.issue c).settle h)

variable {B : Moment C H S → Prop}
lemma run_keeps (hc : sys.Stable B c) : Script.Keeps B (sys.run c) :=
  fun m hm => run_safe (hc m hm) (fun _ _ => hc m hm _ (.inr rfl)) fun _ => hc m hm

lemma present_keeps (hc : sys.Stable B c) : Script.Keeps B (sys.present c) :=
  fun m hm => present_safe (hc m hm) (fun _ _ => hc m hm _ (.inr rfl))
    (fun _ => hc m hm _ (.inr rfl)) fun _ => hc m hm
end System
end NilVpn.Base
