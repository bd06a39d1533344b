import NilVpn.Base.Volume

/-!
# Programs of calls and a crash logic for them

What the calls do is a `Device`: a volume here, several of them in `Disks`. Running a program takes one
verdict per call; a write that fails or is killed may have put any part of its bytes into the file. `Safe` has three postconditions: for a value, for an error, and for a kill.
-/

namespace NilVpn.Base

inductive IoKind
  | notFound | alreadyExists | invalidInput | invalidData | wouldBlock | other
  deriving DecidableEq,Repr

structure IoError where
  kind : IoKind
  text : String
  deriving DecidableEq,Repr

def ioFailure : IoError := ⟨.other,"input/output error"⟩
def notFoundError : IoError := ⟨.notFound,"entity not found"⟩
def alreadyExistsError : IoError := ⟨.alreadyExists,"entity already exists"⟩
def unexpectedEof : IoError := ⟨.other,"failed to fill whole buffer"⟩

/-- Descriptors are inode numbers: no modelled program keeps an offset. -/
inductive Call (N : Type)
  | openAppend (n : N)
  | openTrunc (n : N)
  | openExisting (n : N)
  | createNew (n : N)
  | found (n : N)
  | setPermissions (fd : ℕ)
  | lock (fd : ℕ)
  | read (fd : ℕ)
  | readByte (fd pos : ℕ)
  | size (fd : ℕ)
  | write (fd : ℕ) (bs : Bytes)
  | setLen (fd n : ℕ)
  | fsync (fd : ℕ)
  | rename (a b : N)
  | remove (n : N)
  | syncDir
  | createDirAll
  deriving DecidableEq

namespace Call
variable {N : Type}
abbrev Ret : Call N → Type
  | openAppend _ | openTrunc _ | openExisting _ | createNew _ | size _ => ℕ
  | found _ => Bool
  | read _ => Bytes
  | readByte _ _ => UInt8
  | _ => Unit

/-- What is left of a call that fails or is killed: part of a write. -/
def torn (c : Call N) (n : ℕ) (v : Volume N) : Volume N :=
  match c with
  | write fd bs => v.append fd (bs.take n)
  | _ => v

variable [DecidableEq N]
def exec : (c : Call N) → Volume N → Except IoError c.Ret × Volume N
  | openAppend n,v => match v.dir.current n with
    | some i => (.ok i,v)
    | none => (.ok v.next,v.create n)
  | openTrunc n,v => match v.dir.current n with
    | some i => (.ok i,v.truncate i 0)
    | none => (.ok v.next,v.create n)
  | openExisting n,v => match v.dir.current n with
    | some i => (.ok i,v)
    | none => (.error notFoundError,v)
  | createNew n,v => match v.dir.current n with
    | some _ => (.error alreadyExistsError,v)
    | none => (.ok v.next,v.create n)
  | found n,v => (.ok (v.dir.current n).isSome,v)
  | setPermissions _,v => (.ok (),v)
  | lock _,v => (.ok (),v)
  | read fd,v => (.ok (v.file fd).current,v)
  | readByte fd pos,v => match (v.file fd).current[pos]? with
    | some b => (.ok b,v)
    | none => (.error unexpectedEof,v)
  | size fd,v => (.ok (v.file fd).current.length,v)
  | write fd bs,v => (.ok (),v.append fd bs)
  | setLen fd n,v => (.ok (),v.truncate fd n)
  | fsync fd,v => (.ok (),v.fsync fd)
  | rename a b,v => match v.dir.current a with
    | some i => (.ok (),v.rename a b i)
    | none => (.error notFoundError,v)
  | remove n,v => match v.dir.current n with
    | some _ => (.ok (),v.unlink n)
    | none => (.error notFoundError,v)
  | syncDir,v => (.ok (),v.syncDir)
  -- the directory of the volume exists
  | createDirAll,v => (.ok (),v)

def reads : Call N → Bool
  | openExisting _ | found _ | setPermissions _ | lock _ | read _ | readByte _ _ | size _ | createDirAll => true
  | openAppend _ | openTrunc _ | createNew _ | write _ _ | setLen _ _ | fsync _ | rename _ _ | remove _
  | syncDir => false

lemma unchanged_of_reads {c : Call N} (h : c.reads) (v : Volume N) :
    (∀ n, c.torn n v=v) ∧ (c.exec v).2=v := by
  cases c with
  | openExisting n =>
    refine ⟨fun _ => rfl,?_⟩
    cases hn : v.dir.current n with
    | none | some => simp only [exec,hn]
  | readByte fd pos =>
    refine ⟨fun _ => rfl,?_⟩
    cases hb : (v.file fd).current[pos]? with
    | none | some => simp only [exec,hb]
  | found n | setPermissions fd | lock fd | read fd | size fd | createDirAll => exact ⟨fun _ => rfl,rfl⟩
  | openAppend n | openTrunc n | createNew n | write fd bs | setLen fd n | fsync fd | rename a b | remove n
  | syncDir => cases h

lemma next_le (c : Call N) (v : Volume N) : (∀ n, v.next≤(c.torn n v).next) ∧ v.next≤(c.exec v).2.next := by
  refine ⟨?_,?_⟩
  · intro n
    cases c <;> exact Nat.le_refl _
  · cases c with
    | openAppend n | openTrunc n | createNew n =>
      cases hn : v.dir.current n with
      | none =>
        simp only [exec,hn]
        exact Nat.le_succ _
      | some i =>
        simp only [exec,hn]
        exact Nat.le_refl _
    | openExisting n | remove n =>
      cases hn : v.dir.current n with
      | none => simp [exec,hn]
      | some i =>
        simp only [exec,hn]
        exact Nat.le_refl _
    | rename a b =>
      cases hn : v.dir.current a with
      | none => simp [exec,hn]
      | some i =>
        simp only [exec,hn]
        exact Nat.le_refl _
    | readByte fd pos =>
      cases hb : (v.file fd).current[pos]? with
      | none | some => simp [exec,hb]
    | found n | setPermissions fd | lock fd | read fd | size fd | write fd bs | setLen fd n | fsync fd
    | syncDir | createDirAll => exact Nat.le_refl _

section
variable {n : N} {v : Volume N} {i : ℕ}
lemma exec_openExisting (h : v.dir.current n=some i) : (openExisting n).exec v=(.ok i,v) := by
  simp only [exec,h]

lemma exec_missing (h : v.dir.current n=none) : (openExisting n).exec v=(.error notFoundError,v) := by
  simp only [exec,h]

lemma exec_openAppend (h : v.dir.current n=some i) : (openAppend n).exec v=(.ok i,v) := by
  simp only [exec,h]

lemma exec_rename (m : N) (h : v.dir.current n=some i) : (rename n m).exec v=(.ok (),v.rename n m i) := by
  simp only [exec,h]
end

lemma openTrunc_exec (n : N) (v : Volume N) :
    ∃ i v', (openTrunc n).exec v=(.ok i,v') ∧ v'.dir.current n=some i := by
  cases h : v.dir.current n with
  | none => simp [exec,h,Volume.create,Cached.current_write,Function.update_self]
  | some i =>
    refine ⟨i,v.truncate i 0,?_,h⟩
    simp only [exec,h]
end Call

/-- What calls that return in `R` do to a state, and what is left of one that fails or is killed. -/
class Device {C : outParam Type} (R : outParam (C → Type)) (σ : Type) where
  exec : (c : C) → σ → Except IoError (R c) × σ
  torn : C → ℕ → σ → σ

open Device (exec torn)

inductive Program {C : Type} (R : C → Type) (ε α : Type)
  | pure (a : α)
  | throw (e : ε)
  | call (c : C) (k : Except IoError (R c) → Program R ε α)

instance {N : Type} [DecidableEq N] : Device (@Call.Ret N) (Volume N) := ⟨Call.exec,Call.torn⟩

/-- A program of file-system calls. -/
abbrev Prog (N : Type) := Program (@Call.Ret N) IoError

namespace Program
variable {C : Type} {R : C → Type} {ε α β : Type}
def bind : Program R ε α → (α → Program R ε β) → Program R ε β
  | pure a,f => f a
  | throw e,_ => throw e
  | call c k,f => call c fun r => (k r).bind f

instance : Monad (Program R ε) where
  pure := Program.pure
  bind := Program.bind

lemma bind_assoc {γ : Type} (p : Program R ε α) (f : α → Program R ε β) (g : β → Program R ε γ) :
    ((p >>= f) >>= g)=(p >>= fun a => f a >>= g) := by
  induction p with
  | pure | throw => rfl
  | call c k ih => exact congrArg (call c) (funext fun r => ih r)

def attempt : Program R ε α → Program R ε (Except ε α)
  | pure a => pure (.ok a)
  | throw e => pure (.error e)
  | call c k => call c fun r => (k r).attempt

def ofExcept : Except ε α → Program R ε α
  | .ok a => pure a
  | .error e => throw e

lemma ofExcept_ok_bind (a : α) (f : α → Program R ε β) : (ofExcept (.ok a) >>= f)=f a := rfl

/-- A guard that runs `cleanup` when `p` leaves with an error. -/
def orElse (p : Program R ε α) (cleanup : Program R ε Unit) : Program R ε α :=
  p.attempt.bind fun
    | .ok a => pure a
    | .error e => cleanup.bind fun _ => throw e

/-- Every call that the program may make is an `ok` one. -/
def Calls (ok : C → Prop) : Program R ε α → Prop
  | pure _ | throw _ => True
  | call c k => ok c ∧ ∀ r, (k r).Calls ok

section
variable {ok : C → Prop} {p : Program R ε α} {f : α → Program R ε β}
lemma Calls.bind (h : p.Calls ok) (hf : ∀ a, (f a).Calls ok) : (p >>= f).Calls ok := by
  induction p with
  | pure a => exact hf a
  | throw e => trivial
  | call c k ih => exact ⟨h.1,fun r => ih r (h.2 r)⟩

lemma Calls.attempt (h : p.Calls ok) : p.attempt.Calls ok := by
  induction p with
  | pure | throw => trivial
  | call c k ih => exact ⟨h.1,fun r => ih r (h.2 r)⟩

lemma Calls.orElse {cleanup : Program R ε Unit} (h : p.Calls ok) (hc : cleanup.Calls ok) :
    (p.orElse cleanup).Calls ok := by
  refine h.attempt.bind fun r => ?_
  cases r with
  | ok a => trivial
  | error e => exact hc.bind fun _ => trivial

lemma Calls.ofExcept (r : Except ε α) : (ofExcept r : Program R ε α).Calls ok := by
  cases r <;> trivial
end

inductive Verdict
  | ok
  | fail (n : ℕ)
  | kill (n : ℕ)
  deriving DecidableEq

inductive Outcome (ε α : Type)
  | done (a : α)
  | error (e : ε)
  | killed
  deriving DecidableEq

def Outcome.ofExcept : Except ε α → Outcome ε α
  | .ok a => done a
  | .error e => error e

variable {σ : Type} [Device R σ]
def run : Program R ε α → (ℕ → Verdict) → σ → Outcome ε α × σ
  | pure a,_,v => (.done a,v)
  | throw e,_,v => (.error e,v)
  | call c k,env,v =>
    match env 0 with
    | .ok => (k (exec c v).1).run (fun i => env (i+1)) (exec c v).2
    | .fail n => (k (.error ioFailure)).run (fun i => env (i+1)) (torn c n v)
    | .kill n => (.killed,torn c n v)

@[simp] lemma run_ofExcept (r : Except ε α) (env : ℕ → Verdict) (v : σ) :
    (ofExcept r : Program R ε α).run env v=(Outcome.ofExcept r,v) := by
  cases r with
  | ok | error => rfl

def failures : Program R ε α → (ℕ → Verdict) → σ → List C
  | pure _,_,_ => []
  | throw _,_,_ => []
  | call c k,env,v =>
    match env 0 with
    | .ok => (k (exec c v).1).failures (fun i => env (i+1)) (exec c v).2
    | .fail n => c::(k (.error ioFailure)).failures (fun i => env (i+1)) (torn c n v)
    | .kill _ => []

def Faulty (env : ℕ → Verdict) : Prop := ∃ i n, env i=.fail n

/-- A proposition as a condition on every call alike. -/
instance : Coe Prop (C → Prop) := ⟨Function.const C⟩

/-- From `v`, the program returns into `Q`, errs into `E`, and a kill at any of
its calls leaves a state in `I`; a call may fail only where `faults` allows it. -/
def Safe (faults : C → Prop) (I : σ → Prop) (Q : α → σ → Prop) (E : ε → σ → Prop) :
    Program R ε α → σ → Prop
  | pure a,v => Q a v
  | throw e,v => E e v
  | call c k,v =>
    (∀ n, I (torn c n v)) ∧
    (faults c → ∀ n, Safe faults I Q E (k (.error ioFailure)) (torn c n v)) ∧
    Safe faults I Q E (k (exec c v).1) (exec c v).2

def Meets (I : σ → Prop) (Q : α → σ → Prop) (E : ε → σ → Prop) : Outcome ε α × σ → Prop
  | (.done a,v) => Q a v
  | (.error e,v) => E e v
  | (.killed,v) => I v

section
variable {faults : C → Prop} {I : σ → Prop} {E : ε → σ → Prop} {Q : α → σ → Prop}
variable {p : Program R ε α} {v v' : σ} {f : α → Program R ε β} {c : C}
lemma Safe.run (h : Safe faults I Q E p v) (env : ℕ → Verdict) (he : ∀ c∈p.failures env v, faults c) :
    Meets I Q E (p.run env v) := by
  induction p generalizing v env with
  | pure | throw => exact h
  | call c k ih =>
    obtain ⟨hk,hf,hok⟩ := h
    simp only [Program.run]
    simp only [failures] at he
    split
    next h0 =>
      rw [h0] at he
      exact ih _ hok _ he
    next n h0 => simp_all
    next n _ => exact hk n

lemma faulty_of_failed {env : ℕ → Verdict} (h : c∈p.failures env v) : Faulty env := by
  induction p generalizing v env with
  | pure | throw => cases h
  | call d k ih =>
    simp only [failures] at h
    split at h
    · obtain ⟨i,n,hi⟩ := ih _ h
      exact ⟨i+1,n,hi⟩
    next n h0 => exact ⟨0,n,h0⟩
    · cases h

lemma Safe.invariant (h : Safe faults I (fun _ => I) (fun _ => I) p v) (env : ℕ → Verdict)
    (he : ∀ c∈p.failures env v, faults c) : I (p.run env v).2 := by
  have hm:=h.run env he
  cases hr : p.run env v with
  | mk o v' =>
    rw [hr] at hm
    cases o with
    | done | error | killed => exact hm

lemma Safe.mono {Q' : α → σ → Prop} {I' : σ → Prop} {E' : ε → σ → Prop}
    (h : Safe faults I Q E p v) (hI : ∀ v, I v → I' v) (hQ : ∀ a v, Q a v → Q' a v)
    (hE : ∀ e v, E e v → E' e v) : Safe faults I' Q' E' p v := by
  induction p generalizing v with
  | pure a => exact hQ a v h
  | throw e => exact hE e v h
  | call c k ih =>
    obtain ⟨hk,hfl,hok⟩ := h
    exact ⟨fun n => hI _ (hk n),fun hf n => ih _ (hfl hf n),ih _ hok⟩

lemma Safe.bind {Q : β → σ → Prop} (h : Safe faults I (fun a v => Safe faults I Q E (f a) v) E p v) :
    Safe faults I Q E (p >>= f) v := by
  induction p generalizing v with
  | pure | throw => exact h
  | call c k ih =>
    obtain ⟨hk,hfl,hok⟩ := h
    exact ⟨hk,fun hf n => ih _ (hfl hf n),ih _ hok⟩

lemma Safe.andThen {Q' : β → σ → Prop} (h : Safe faults I Q E p v)
    (hf : ∀ a v', Q a v' → Safe faults I Q' E (f a) v') : Safe faults I Q' E (p >>= f) v :=
  Safe.bind (h.mono (fun _ hv => hv) hf (fun _ _ hv => hv))

lemma Safe.attempt {Q : Except ε α → σ → Prop}
    (h : Safe faults I (fun a => Q (.ok a)) (fun e => Q (.error e)) p v) :
    Safe faults I Q E p.attempt v := by
  induction p generalizing v with
  | pure | throw => exact h
  | call c k ih =>
    obtain ⟨hk,hfl,hok⟩ := h
    exact ⟨hk,fun hf n => ih _ (hfl hf n),ih _ hok⟩

lemma Safe.orElse {F : ε → σ → Prop} {q : Program R ε Unit} (h : Safe faults I Q F p v)
    (hq : ∀ e v', F e v' → Safe faults I (fun _ => E e) E q v') : Safe faults I Q E (p.orElse q) v := by
  apply Safe.bind
  apply Safe.attempt
  refine h.mono (fun _ => id) (fun _ _ hv => hv) ?_
  intro e v' hv'
  exact Safe.bind (f := fun _ => throw e) (hq e v' hv')

lemma Safe.any (p : Program R ε α) (v : σ) :
    Safe faults (fun _ => True) (fun _ _ => True) (fun _ _ => True) p v := by
  induction p generalizing v with
  | pure | throw => trivial
  | call c k ih => exact ⟨fun _ => trivial,fun _ _ => ih _ _,ih _ _⟩

lemma Safe.attemptAny {Q : Except ε α → σ → Prop} (h : ∀ r v, Q r v) :
    Safe faults (fun _ => True) Q E p.attempt v :=
  Safe.attempt ((Safe.any p v).mono (fun _ => id) (fun _ v _ => h _ v) fun _ v _ => h _ v)

lemma Safe.ofExcept {r : Except ε α} (hok : ∀ a, r=.ok a → Q a v) (he : ∀ e, r=.error e → E e v) :
    Safe faults I Q E (Program.ofExcept r : Program R ε α) v := by
  cases h : r with
  | ok a => exact hok a h
  | error e => exact he e h

lemma Safe.and {I' : σ → Prop} {Q' : α → σ → Prop} {E' : ε → σ → Prop}
    (h : Safe faults I Q E p v) (h' : Safe faults I' Q' E' p v) :
    Safe faults (fun v => I v ∧ I' v) (fun a v => Q a v ∧ Q' a v) (fun e v => E e v ∧ E' e v)
      p v := by
  induction p generalizing v with
  | pure | throw => exact ⟨h,h'⟩
  | call c k ih =>
    obtain ⟨hk,ha,ho⟩ := h
    obtain ⟨hk',ha',ho'⟩ := h'
    exact ⟨fun n => ⟨hk n,hk' n⟩,fun hf n => ih _ (ha hf n) (ha' hf n),ih _ ho ho'⟩

/-- Every call of the program keeps `I`, and nothing more is known. -/
def Keeps (I : σ → Prop) (p : Program R ε α) : Prop :=
  ∀ v, I v → Safe True I (fun _ => I) (fun _ => I) p v

lemma Keeps.bind (hp : Keeps I p) (hf : ∀ a, Keeps I (f a)) :
    Keeps I (p >>= f) := fun v hv => (hp v hv).andThen fun a v' hv' => hf a v' hv'

lemma Keeps.attempt (hp : Keeps I p) : Keeps I p.attempt := fun v hv => Safe.attempt (hp v hv)

lemma Keeps.ofExcept (r : Except ε α) : Keeps I (Program.ofExcept r : Program R ε α) :=
  fun _ hv => Safe.ofExcept (fun _ _ => hv) (fun _ _ => hv)

/-- A failed call that `p` does not make is made by what follows. -/
lemma failed_later {env : ℕ → Verdict} (hx : c∈(p >>= f).failures env v) (h : Safe True I Q E p v)
    (hc : p.Calls fun d => c≠d) :
    ∃ a v' env', Q a v' ∧ c∈(f a).failures env' v' ∧ (p >>= f).run env v=(f a).run env' v' := by
  induction p generalizing v env with
  | pure a => exact ⟨a,v,env,h,hx,rfl⟩
  | throw e => cases hx
  | call d k ih =>
    obtain ⟨-,hf,hok⟩ := h
    change c∈(call d fun r => (k r).bind f).failures env v at hx
    change ∃ a v' env', Q a v' ∧ c∈(f a).failures env' v' ∧
      (call d fun r => (k r).bind f).run env v=(f a).run env' v'
    simp only [failures,Program.run] at hx ⊢
    split at hx
    · exact ih _ hx hok (hc.2 _)
    next n h0 =>
      obtain hx | hx := List.mem_cons.mp hx
      · exact absurd hx hc.1
      · exact ih _ hx (hf trivial n) (hc.2 _)
    · cases hx

/-- The program changes nothing, and what it returns is in `A`. -/
def Reads (faults : C → Prop) (A : α → Prop) (p : Program R ε α) (v : σ) : Prop :=
  Safe faults (fun v' => v'=v) (fun a v' => v'=v ∧ A a) (fun _ v' => v'=v) p v

variable {A : α → Prop}
lemma Reads.pure {a : α} (h : A a) : Reads faults A (Pure.pure a : Program R ε α) v := ⟨rfl,h⟩

lemma Reads.throw {e : ε} : Reads faults A (.throw e : Program R ε α) v := rfl

lemma Reads.mono {A' : α → Prop} (h : Reads faults A p v) (hA : ∀ a, A a → A' a) : Reads faults A' p v :=
  Safe.mono h (fun _ => id) (fun a _ hv => ⟨hv.1,hA a hv.2⟩) (fun _ _ hv => hv)

lemma Reads.ofExcept (r : Except ε α) :
    Reads faults (fun a => r=.ok a) (ofExcept r : Program R ε α) v := by
  cases r with
  | ok a => exact ⟨rfl,rfl⟩
  | error e => exact rfl

section
variable (h : Reads faults A p v)
include h
lemma Reads.attempt : Reads faults (fun r => ∀ a, r=.ok a → A a) p.attempt v := by
  apply Safe.attempt
  refine Safe.mono h (fun _ => id) ?_ ?_
  · grind
  · intro e v' hv
    refine ⟨hv,?_⟩
    intro a ha
    cases ha

lemma Safe.afterReading {Q : β → σ → Prop} (hI : I v) (hE : ∀ e, E e v)
    (hf : ∀ a, A a → Safe faults I Q E (f a) v) : Safe faults I Q E (p >>= f) v := by
  apply Safe.bind
  refine Safe.mono h ?_ ?_ ?_
  · rintro _ rfl
    exact hI
  · rintro a _ ⟨rfl,hA⟩
    exact hf a hA
  · rintro e _ rfl
    exact hE e

lemma Reads.andThen {B : β → Prop} (hf : ∀ a, A a → Reads faults B (f a) v) :
    Reads faults B (p >>= f) v :=
  Safe.afterReading h rfl (fun _ => rfl) hf
end
end

def calls : Program R ε α → (ℕ → Verdict) → σ → ℕ
  | pure _,_,_ => 0
  | throw _,_,_ => 0
  | call c k,env,v =>
    match env 0 with
    | .ok => (k (exec c v).1).calls (fun i => env (i+1)) (exec c v).2+1
    | .fail n => (k (.error ioFailure)).calls (fun i => env (i+1)) (torn c n v)+1
    | .kill _ => 1

/-- The second part runs from where the first returns, under the verdicts that are left. -/
lemma Meets.bind {I : σ → Prop} {Q : β → σ → Prop} {E : ε → σ → Prop}
    {p : Program R ε α} {f : α → Program R ε β} {env : ℕ → Verdict} {v : σ}
    (h : Meets I (fun a v' => Meets I Q E ((f a).run (fun i => env (i+p.calls env v)) v')) E (p.run env v)) :
    Meets I Q E ((p >>= f).run env v) := by
  induction p generalizing env v with
  | pure | throw => exact h
  | call c k ih =>
    change Meets I Q E (Program.run (call c fun r => k r >>= f) env v)
    simp only [Program.run,calls] at h ⊢
    cases hv : env 0 with
    | ok =>
      rw [hv] at h
      exact ih _ h
    | fail n =>
      rw [hv] at h
      exact ih _ h
    | kill n =>
      rw [hv] at h
      exact h

lemma run_ends (p : Program R ε α) {env : ℕ → Verdict} (hk : ∀ i n, env i≠.kill n) (v : σ) :
    (p.run env v).1≠.killed := by
  induction p generalizing env v with
  | pure | throw => rintro ⟨⟩
  | call c k ih =>
    have ht : ∀ i n, env (i+1)≠.kill n := fun i => hk (i+1)
    simp only [Program.run]
    split
    · exact ih _ ht _
    · exact ih _ ht _
    next n hn => exact absurd hn (hk 0 n)

lemma Safe.ends {faults : C → Prop} {I : σ → Prop} {Q : α → σ → Prop} {p : Program R ε α} {v : σ}
    (h : Safe faults I Q (fun _ _ => False) p v) {env : ℕ → Verdict} (hk : ∀ i n, env i≠.kill n)
    (hf : ∀ c∈p.failures env v, faults c) : ∃ a v', p.run env v=(.done a,v') ∧ Q a v' := by
  have hr:=h.run env hf
  have he:=run_ends p hk v
  generalize p.run env v=out at hr he ⊢
  obtain ⟨o,v'⟩ := out
  cases o with
  | done a => exact ⟨a,v',rfl,hr⟩
  | error e => exact False.elim hr
  | killed => exact absurd rfl he

lemma Safe.returns {I : σ → Prop} {Q : α → σ → Prop} {p : Program R ε α} {v : σ}
    (h : Safe False I Q (fun _ _ => False) p v) :
    ∃ a v', p.run (fun _ => .ok) v=(.done a,v') ∧ Q a v' := by
  refine h.ends (by rintro _ _ ⟨⟩) fun c hc => ?_
  obtain ⟨i,n,hi⟩ := faulty_of_failed hc
  cases hi

section
variable {N : Type}
def sys (c : Call N) : Prog N c.Ret :=
  call c fun
    | .ok r => pure r
    | .error e => throw e

variable [DecidableEq N] {faults : Call N → Prop} {I : Volume N → Prop} {E : IoError → Volume N → Prop}
variable {v v' : Volume N} {c : Call N}
variable {Q : c.Ret → Volume N → Prop}
lemma Safe.sys (hk : ∀ n, I (c.torn n v)) (hfl : faults c → ∀ n, E ioFailure (c.torn n v))
    (hok : ∀ r, (c.exec v).1=.ok r → Q r (c.exec v).2)
    (he : ∀ e, (c.exec v).1=.error e → E e (c.exec v).2) : Safe faults I Q E (Program.sys c) v := by
  refine ⟨hk,fun hf n => hfl hf n,?_⟩
  cases h : (c.exec v).1 with
  | ok r => exact hok r h
  | error e => exact he e h

lemma Safe.sys_ok {r : c.Ret} (hc : c.exec v=(.ok r,v')) (hk : ∀ n, I (c.torn n v))
    (hf : faults c → ∀ n, E ioFailure (c.torn n v)) (hok : Q r v') :
    Safe faults I Q E (Program.sys c) v := by
  refine Safe.sys hk hf ?_ ?_
  · intro r' hr'
    rw [hc] at hr' ⊢
    cases hr'
    exact hok
  · intro e he
    rw [hc] at he
    cases he

lemma Safe.sys_completes {r : c.Ret} (he : c.exec v=(.ok r,v')) (hok : Q r v') :
    Safe False (fun _ => True) Q E (Program.sys c) v :=
  Safe.sys_ok he (fun _ => trivial) (fun hf => hf.elim) hok

lemma Safe.sys_error {e : IoError} (hc : c.exec v=(.error e,v')) (hk : ∀ n, I (c.torn n v))
    (hf : faults c → ∀ n, E ioFailure (c.torn n v)) (herr : E e v') :
    Safe faults I Q E (Program.sys c) v := by
  refine Safe.sys hk hf ?_ ?_
  · intro r hr
    rw [hc] at hr
    cases hr
  · intro e' he
    rw [hc] at he ⊢
    cases he
    exact herr

lemma Keeps.sys (ht : ∀ n v, I v → I (c.torn n v)) (he : ∀ v, I v → I (c.exec v).2) :
    Keeps I (Program.sys c) := fun v hv =>
  Safe.sys (fun n => ht n v hv) (fun _ n => ht n v hv) (fun _ _ => he v hv) (fun _ _ => he v hv)

lemma Keeps.reads (hc : c.reads) : Keeps I (Program.sys c) := by
  refine Keeps.sys (fun n v hv => ?_) (fun v hv => ?_)
  · rw [(Call.unchanged_of_reads hc v).1 n]
    exact hv
  · rw [(Call.unchanged_of_reads hc v).2]
    exact hv

lemma run_next_le (p : Prog N α) (env : ℕ → Verdict) (v : Volume N) : v.next≤(p.run env v).2.next := by
  induction p generalizing env v with
  | pure | throw => exact Nat.le_refl _
  | call c k ih =>
    obtain ⟨ht,he⟩ := c.next_le v
    simp only [Program.run]
    split
    · exact he.trans (ih _ _ _)
    next n _ => exact (ht n).trans (ih _ _ _)
    next n _ => exact ht n
end
end Program
end NilVpn.Base
