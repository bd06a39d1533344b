import NilVpn.Portal.FileStore

/-!
# One store or the other
-/

namespace NilVpn.Portal
open Base
open Program (Safe Verdict Outcome)

inductive Backend
  | memory (state : StoreState)
  | file (store : FileStore) (volume : Volume FileName)

def Backend.state : Backend → StoreState
  | memory state => state
  | file store _ => store.inner

inductive Fate
  | ok
  | fail (n : ℕ)
  deriving DecidableEq

def Fate.verdict : Fate → Verdict
  | ok => .ok
  | fail n => .fail n

/-- What one store operation meets: the nonces it draws and the fate of its calls. -/
structure Io where
  draws : Draws
  fates : ℕ → Fate

def quietIo : Io := ⟨⟨fun _ => none,fun _ => none⟩,fun _ => .ok⟩
def blankCodec : Codec := ⟨⟨fun _ => none,fun _ => none⟩,⟨fun _ _ _ => none,fun _ _ _ => none⟩⟩

/-- The last two outcomes do not occur. -/
def Backend.ran {R : Type} (store : FileStore) :
    Outcome IoError (FileStore × Except StoreError R) × Volume FileName → Backend × Except StoreError R
  | (.done out,v) => (file out.1 v,out.2)
  | (.error e,v) => (file store v,.error (.backend e.text))
  | (.killed,v) => (file store v,.error (.backend "killed"))

def Backend.perform {R : Type} (codec : Codec) (io : Io)
    (refused : Option StoreError) (plan : StoreState → Plan R) :
    Backend → Backend × Except StoreError R
  | memory state =>
    let out:=InMemoryStore.perform refused plan state
    (memory out.1,out.2)
  | file store v =>
    ran store ((store.perform codec refused plan io.draws).run (fun i => (io.fates i).verdict) v)

inductive Performed {R : Type} (refused : Option StoreError) (plan : StoreState → Plan R)
    (s : StoreState) : StoreState → Except StoreError R → Prop
  | failed (e : StoreError) : Performed refused plan s s (.error e)
  | answered (state : StoreState) (reply : Except StoreError R) (hr : refused=none)
      (h : plan s=.answer state reply) : Performed refused plan s state reply
  | written (state : StoreState) (reply : R) (hr : refused=none) (h : plan s=.write state reply) :
      Performed refused plan s state (.ok reply)
  | uncertain (state : StoreState) (reply : R) (e : StoreError) (hr : refused=none)
      (h : plan s=.write state reply) : Performed refused plan s state (.error e)

lemma Performed.state_cases {R : Type} {refused : Option StoreError} {p : StoreState → Plan R}
    {s s' : StoreState} {r : Except StoreError R} (h : Performed refused p s s' r) :
    s'=s ∨ s'=(p s).state := by
  cases h with
  | failed e => exact .inl rfl
  | answered st r hr hp =>
    rw [hp]
    exact .inr rfl
  | written st r hr hp =>
    rw [hp]
    exact .inr rfl
  | uncertain st r e hr hp =>
    rw [hp]
    exact .inr rfl

section
variable {R : Type} (codec : Codec)
lemma InMemoryStore.perform_performed (r : Option StoreError) (p : StoreState → Plan R)
    (s : StoreState) : Performed r p s (InMemoryStore.perform r p s).1
      (InMemoryStore.perform r p s).2 := by
  unfold InMemoryStore.perform
  cases r with
  | some e => exact .failed e
  | none =>
    cases hp : p s with
    | answer st re => exact .answered st re rfl hp
    | write st re => exact .written st re rfl hp

/-- `persist` never throws, and afterwards nothing is known of the volume here. -/
lemma persist_total (d : Draws) (st : StoreState) (v : Volume FileName) :
    Safe True (fun _ => True) (fun _ _ => True) (fun _ _ => False) (persist codec d st) v := by
  refine Safe.bind (Safe.attemptAny fun r v1 => ?_)
  cases r with
  | ok _ => exact Safe.bind (Safe.attemptAny fun r _ => by cases r <;> trivial)
  | error _ => trivial

lemma ensureDurable_total (u : Bool) (v : Volume FileName) :
    Safe True (fun _ => True) (fun _ _ => True) (fun _ _ => False) (ensureDurable u) v := by
  unfold ensureDurable
  split
  · trivial
  · exact Safe.bind (Safe.attemptAny fun r _ => by cases r <;> trivial)

lemma FileStore.perform_performed (s : Option StoreError) (p : StoreState → Plan R)
    (d : Draws) (st : FileStore) (v : Volume FileName) :
    Safe True (fun _ => True)
      (fun out _ => Performed s p st.inner out.1.inner out.2)
      (fun _ _ => False) (st.perform codec s p d) v := by
  unfold FileStore.perform FileStore.performWith
  cases s with
  | some e => exact .failed e
  | none =>
    refine Safe.bind ((ensureDurable_total _ v).mono (fun _ h => h) ?_ (fun _ _ h => h))
    intro r v1 _
    cases r with
    | error e => exact .failed e
    | ok u =>
      cases hp : p st.inner with
      | answer sta rp => exact .answered sta rp rfl hp
      | write sta rp =>
        refine Safe.bind ((persist_total codec d sta v1).mono (fun _ h => h) ?_
          (fun _ _ h => h))
        intro out v2 _
        cases out with
        | ok u => exact .written sta rp rfl hp
        | error e =>
          dsimp only
          split
          · exact .uncertain sta rp _ rfl hp
          · exact .failed _

lemma Fate.verdict_ne_kill (f : Fate) (n : ℕ) : f.verdict≠.kill n := by
  cases f <;> rintro ⟨⟩

lemma run_done {N : Type} [DecidableEq N] {p : Prog N R} {v : Volume N} {I : Volume N → Prop}
    {Q : R → Volume N → Prop} (h : Safe True I Q (fun _ _ => False) p v) (f : ℕ → Fate) :
    ∃ r v', p.run (fun i => (f i).verdict) v=(.done r,v') ∧ Q r v' :=
  h.ends (fun i => (f i).verdict_ne_kill) fun _ _ => trivial

lemma Backend.perform_performed (io : Io) (r : Option StoreError)
    (p : StoreState → Plan R) (b : Backend) :
    Performed r p b.state (b.perform codec io r p).1.state
      (b.perform codec io r p).2 := by
  cases b with
  | memory st => exact InMemoryStore.perform_performed r p st
  | file sr v =>
    obtain ⟨out,v',hr,ho⟩ :=
      run_done (FileStore.perform_performed codec r p io.draws sr v) io.fates
    simp only [Backend.perform,hr]
    exact ho
end

def Plan.written {R : Type} : Plan R → Option StoreState
  | answer _ _ => none
  | write state _ => some state

section
variable {R : Type} (codec : Codec)
def encodes (draws : Draws) (s : StoreState) : Bool :=
  ((snapshotOf codec.cipher draws s).toOption.bind codec.json.toVec).isSome

/-- Every file-system call is carried out, and what is persisted has a snapshot. -/
def Backend.Undisturbed (io : Io) (plan : StoreState → Plan R) : Backend → Prop
  | memory _ => True
  | file store _ => (∀ i, io.fates i=.ok) ∧
      (plan store.inner).written.all (encodes codec io.draws)=true

variable {codec} {draws : Draws} {s : StoreState}
section
variable (h : encodes codec draws s)
include h
lemma exists_of_encodes :
    ∃ dto bytes, snapshotOf codec.cipher draws s=.ok dto ∧ codec.json.toVec dto=some bytes := by
  unfold encodes at h
  cases hd : snapshotOf codec.cipher draws s with
  | error e =>
    rw [hd] at h
    cases h
  | ok dto =>
    rw [hd] at h
    obtain ⟨bytes,hb⟩ := Option.isSome_iff_exists.mp h
    exact ⟨dto,bytes,rfl,hb⟩

lemma writeSnapshotAndRename_completes (v : Volume FileName) :
    Safe False (fun _ => True) (fun _ _ => True) (fun _ _ => False)
      (writeSnapshotAndRename codec draws s) v := by
  obtain ⟨dto,bt,hd,hb⟩ := exists_of_encodes h
  obtain ⟨i,v1,ho,hc⟩ := Call.openTrunc_exec FileName.tmp v
  have hs : ((v1.append i bt).fsync i).dir.current .tmp=some i := hc
  have hr : (Call.rename FileName.tmp FileName.snapshot).exec ((v1.append i bt).fsync i) =
      (.ok (),((v1.append i bt).fsync i).rename .tmp .snapshot i) := by
    simp only [Call.exec,hs]
  unfold writeSnapshotAndRename
  rw [hd,Program.ofExcept_ok_bind,hb,okOr_some,Program.ofExcept_ok_bind]
  apply Safe.bind
  apply Safe.sys_completes ho
  apply Safe.bind
  apply Safe.sys_completes (c := .write i bt) rfl
  apply Safe.bind
  apply Safe.sys_completes (c := .fsync i) rfl
  exact Safe.sys_completes hr trivial

lemma persist_completes (v : Volume FileName) :
    Safe False (fun _ => True) (fun r _ => r=.ok ()) (fun _ _ => False) (persist codec draws s) v := by
  refine Safe.bind (Safe.attempt ((writeSnapshotAndRename_completes h v).mono (fun _ h => h) ?_
    (fun _ _ h => h.elim)))
  intro _ v1 _
  exact Safe.bind (Safe.attempt (Safe.sys_completes rfl rfl))
end

lemma ensureDurable_completes (u : Bool) (v : Volume FileName) :
    Safe False (fun _ => True) (fun r _ => r=.ok ()) (fun _ _ => False) (ensureDurable u) v := by
  unfold ensureDurable
  split
  · rfl
  · exact Safe.bind (Safe.attempt (Safe.sys_completes rfl rfl))

lemma FileStore.performWith_completes (undo : StoreState → StoreState → StoreState)
    (refused : Option StoreError) {plan : StoreState → Plan R} {store : FileStore}
    (h : (plan store.inner).written.all (encodes codec draws)) (v : Volume FileName) :
    Safe False (fun _ => True)
      (fun out _ => (out.1.inner,out.2)=InMemoryStore.perform refused plan store.inner)
      (fun _ _ => False) (store.performWith codec undo refused plan draws) v := by
  unfold FileStore.performWith InMemoryStore.perform
  cases refused with
  | some e => rfl
  | none =>
    apply (ensureDurable_completes store.durabilityUncertain v).andThen
    rintro r v1 rfl
    cases hp : plan store.inner with
    | answer sta rp => rfl
    | write sta rp =>
      rw [hp] at h
      apply (persist_completes h v1).andThen
      rintro r v2 rfl
      rfl

lemma Backend.perform_undisturbed {io : Io} (r : Option StoreError)
    {p : StoreState → Plan R} {b : Backend} (h : b.Undisturbed codec io p) :
    ((b.perform codec io r p).1.state,(b.perform codec io r p).2) =
      InMemoryStore.perform r p b.state := by
  cases b with
  | memory st => rfl
  | file sr v =>
    obtain ⟨hf,he⟩ := h
    have henv : (fun i => (io.fates i).verdict)=fun _ => .ok := funext fun i => by rw [hf]; rfl
    obtain ⟨out,v',hr,ho⟩ :=
      (FileStore.performWith_completes (fun before _ => before) r he v).returns
    simp only [Backend.perform,FileStore.perform,henv,hr]
    exact ho
end
end NilVpn.Portal
