import NilVpn.Base.Prog

/-!
# Routines over several directories

Each directory is a volume of its own, and a machine crash restores every one independently. `SafeOn d` is
for a routine that works in `d` alone.
-/

namespace NilVpn.Base
open Program (Safe Reads)

variable {D N ε α β : Type}
abbrev Disks (D N : Type) := D → Volume N

def Disks.crash (w : Disks D N) (pickFile : D → ℕ → ℕ) (pickDir : D → ℕ) : Disks D N :=
  fun d => (w d).crash (pickFile d) (pickDir d)

section
variable [DecidableEq D]
def Disks.set (w : Disks D N) (d : D) (v : Volume N) : Disks D N := Function.update w d v

@[simp] lemma Disks.set_self (w : Disks D N) (d : D) (v : Volume N) : w.set d v d=v :=
  Function.update_self ..

lemma Disks.set_other (w : Disks D N) {d d' : D} (v : Volume N) (h : d'≠d) :
    w.set d v d'=w d' := Function.update_of_ne h ..

@[simp] lemma Disks.set_same (w : Disks D N) (d : D) : w.set d (w d)=w := Function.update_eq_self ..

abbrev Disks.Ret (x : D × Call N) : Type := x.2.Ret

instance [DecidableEq N] : Device (@Disks.Ret D N) (Disks D N) where
  exec x w := ((x.2.exec (w x.1)).1,w.set x.1 (x.2.exec (w x.1)).2)
  torn x n w := w.set x.1 (x.2.torn n (w x.1))

lemma Disks.exec_eq [DecidableEq N] (w : Disks D N) (d : D) (c : Call N) :
    Device.exec (d,c) w=((c.exec (w d)).1,w.set d (c.exec (w d)).2) := rfl
end

abbrev Routine (D N ε : Type) := Program (@Disks.Ret D N) ε

namespace Routine
def io (d : D) (wrap : IoError → ε) (c : Call N) : Routine D N ε c.Ret :=
  .call (d,c) fun
    | .ok r => .pure r
    | .error e => .throw (wrap e)

def attempt (d : D) (c : Call N) : Routine D N ε (Except IoError c.Ret) := .call (d,c) .pure

lemma io_calls {ok : D × Call N → Prop} {d : D} {wrap : IoError → ε} {c : Call N} (h : ok (d,c)) :
    (io d wrap c : Routine D N ε c.Ret).Calls ok := by
  refine ⟨h,fun r => ?_⟩
  cases r <;> trivial

/-- `J` of the directory `d`, and every other directory is as in `w`. -/
def On (d : D) (w : Disks D N) (J : Volume N → Prop) (w' : Disks D N) : Prop :=
  J (w' d) ∧ ∀ d', d'≠d → w' d'=w d'

variable {d : D} {w : Disks D N} {J : Volume N → Prop}
lemma On.mono {w' : Disks D N} {K : Volume N → Prop} (h : On d w J w') (hJK : ∀ v, J v → K v) :
    On d w K w' := ⟨hJK _ h.1,h.2⟩

lemma On.trans {w' w'' : Disks D N} {K : Volume N → Prop} (h : On d w J w') (h' : On d w' K w'') :
    On d w K w'' :=
  ⟨h'.1,fun d' hd => (h'.2 d' hd).trans (h.2 d' hd)⟩

variable [DecidableEq D]
lemma On.set {v : Volume N} (h : J v) : On d w J (w.set d v) := by
  refine ⟨?_,fun d' hd => Disks.set_other w v hd⟩
  rw [Disks.set_self]
  exact h

variable [DecidableEq N] {faults : D × Call N → Prop}
lemma io_reads {d : D} (wrap : IoError → ε) {c : Call N} {r : c.Ret}
    (he : c.exec (w d)=(.ok r,w d)) (ht : ∀ n, c.torn n (w d)=w d) :
    Reads faults (fun a => a=r) (io d wrap c) w := by
  refine ⟨?_,?_,?_⟩
  · intro n
    change w.set d (c.torn n (w d))=w
    rw [ht,Disks.set_same]
  · intro _ n
    change w.set d (c.torn n (w d))=w
    rw [ht,Disks.set_same]
  · rw [Disks.exec_eq,he,Disks.set_same]
    exact ⟨rfl,rfl⟩

def SafeOn (faults : D × Call N → Prop) (d : D) (I : Volume N → Prop) (Q : α → Volume N → Prop)
    (E : ε → Volume N → Prop) (p : Routine D N ε α) (w : Disks D N) : Prop :=
  Safe faults (On d w I) (fun a => On d w (Q a)) (fun e => On d w (E e)) p w

section
variable {d : D} {J : Volume N → Prop} {F : ε → Volume N → Prop}
variable {Q : α → Volume N → Prop} {p : Routine D N ε α} {w : Disks D N}
lemma SafeOn.mono {J' : Volume N → Prop} {Q' : α → Volume N → Prop} {F' : ε → Volume N → Prop}
    (h : SafeOn faults d J Q F p w) (hJ : ∀ v, J v → J' v) (hQ : ∀ a v, Q a v → Q' a v)
    (hF : ∀ e v, F e v → F' e v) : SafeOn faults d J' Q' F' p w :=
  Safe.mono h (fun _ hw => hw.mono hJ) (fun a _ hw => hw.mono (hQ a)) (fun e _ hw => hw.mono (hF e))

lemma SafeOn.andThen {Q' : β → Volume N → Prop} {f : α → Routine D N ε β}
    (h : SafeOn faults d J Q F p w) (hf : ∀ a w', Q a (w' d) → SafeOn faults d J Q' F (f a) w') :
    SafeOn faults d J Q' F (p >>= f) w := by
  apply Safe.andThen h
  intro a w' hw'
  exact Safe.mono (hf a w' hw'.1) (fun _ h => hw'.trans h) (fun _ _ h => hw'.trans h)
    (fun _ _ h => hw'.trans h)

lemma SafeOn.pure {a : α} (h : Q a (w d)) : SafeOn faults d J Q F (Pure.pure a) w := ⟨h,fun _ _ => rfl⟩

lemma SafeOn.io {wrap : IoError → ε} {c : Call N} {Q : c.Ret → Volume N → Prop}
    (hk : ∀ n, J (c.torn n (w d)))
    (hfl : faults (d,c) → ∀ n, F (wrap ioFailure) (c.torn n (w d)))
    (hok : ∀ r, (c.exec (w d)).1=.ok r → Q r (c.exec (w d)).2)
    (he : ∀ e, (c.exec (w d)).1=.error e → F (wrap e) (c.exec (w d)).2) :
    SafeOn faults d J Q F (io d wrap c) w := by
  refine ⟨fun n => On.set (hk n),fun hf n => On.set (hfl hf n),?_⟩
  cases h : (c.exec (w d)).1 with
  | ok r => exact On.set (hok r h)
  | error e => exact On.set (he e h)

lemma SafeOn.attempt {c : Call N} {Q : Except IoError c.Ret → Volume N → Prop}
    (hk : ∀ n, J (c.torn n (w d)))
    (hfl : faults (d,c) → ∀ n, Q (.error ioFailure) (c.torn n (w d)))
    (he : Q (c.exec (w d)).1 (c.exec (w d)).2) : SafeOn faults d J Q F (Routine.attempt d c) w :=
  ⟨fun n => On.set (hk n),fun hf n => On.set (hfl hf n),On.set he⟩

lemma SafeOn.orElse {G : ε → Volume N → Prop} {c : Routine D N ε Unit} (h : SafeOn faults d J Q G p w)
    (hc : ∀ e w', G e (w' d) → SafeOn faults d J (fun _ => F e) F c w') :
    SafeOn faults d J Q F (p.orElse c) w := by
  apply Safe.orElse h
  intro e w' hw'
  exact Safe.mono (hc e w' hw'.1) (fun _ h => hw'.trans h) (fun _ _ h => hw'.trans h)
    (fun _ _ h => hw'.trans h)

lemma SafeOn.afterReading {Q : β → Volume N → Prop} {R : α → Prop} {f : α → Routine D N ε β}
    (h : Reads faults R p w) (hJ : J (w d)) (hF : ∀ e, F e (w d))
    (hf : ∀ a, R a → SafeOn faults d J Q F (f a) w) :
    SafeOn faults d J Q F (p >>= f) w :=
  Safe.afterReading h ⟨hJ,fun _ _ => rfl⟩ (fun e => ⟨hF e,fun _ _ => rfl⟩) hf
end
end Routine
end NilVpn.Base
