import NilVpn.Base.Runs
import NilVpn.Portal.FileStoreSpec

/-!
# Records survive what the file store answers

A record is known from the first `Ok` that finds it in memory until an operation changes it.
-/

namespace NilVpn.Portal.Survival
open Base List
open Program (Verdict Outcome)

structure World where
  volume : Volume FileName
  live : Option FileStore
  known : List Record

inductive Event
  | openStore (draws : Draws) (env : ℕ → Verdict)
  | perform (op : Op) (draws : Draws) (env : ℕ → Verdict)
  | kill
  | crash (pickFile : ℕ → ℕ) (pickDir : ℕ)

def World.opened (w : World) : Outcome IoError FileStore × Volume FileName → World
  | (.done store,v) => {w with volume := v,live := some store}
  | (.error _,v) | (.killed,v) => {w with volume := v,live := none}

/-- An operation killed after its rename has changed what it planned to change; the
store's programs do not err otherwise. -/
def World.performed (w : World) (op : Op) (store : FileStore) :
    Outcome IoError (FileStore × Except StoreError op.Reply) × Volume FileName → World
  | (.done out,v) => ⟨v,some out.1,knownAfter w.known out⟩
  | (.error _,v) => ⟨v,none,w.known⟩
  | (.killed,v) =>
    ⟨v,none,if v.visible .snapshot=w.volume.visible .snapshot then w.known
      else w.known.filter (Record.isIn (op.plan store.inner).state)⟩

section
variable (codec : Codec) (path : String) (nested : Bool)
/-- A second open while a store is live does not get the lock. -/
def World.step (w : World) : Event → World
  | .openStore draws env =>
    match w.live with
    | some _ => w
    | none => w.opened ((openWithResultKey codec path nested draws).run env w.volume)
  | .perform op draws env =>
    match w.live with
    | none => w
    | some store =>
      w.performed op store ((store.perform codec op.refused op.plan draws).run env w.volume)
  | .kill => {w with live := none}
  | .crash pickFile pickDir => {w with volume := w.volume.crash pickFile pickDir,live := none}

def World.run (w : World) (es : List Event) : World := runFrom (World.step codec path nested) w es

/-- Opens find nothing that a crash would undo; signatures have their size. -/
def World.steady (w : World) : Event → Bool
  | .openStore _ _ => w.live.isSome||w.volume.isFixed .snapshot
  | .perform op _ _ => op.wellSized
  | _ => true

def World.start (v : Volume FileName) : World := ⟨v,none,[]⟩
end
section
variable (codec : Codec)
def World.Sound (w : World) : Prop :=
  match w.live with
  | none => Guarded .snapshot .tmp (Keeps codec w.known) w.volume
  | some store => Live codec w.known store w.volume

variable {codec} {w : World}
lemma World.Sound.guarded (h : w.Sound codec) :
    Guarded .snapshot .tmp (Keeps codec w.known) w.volume := by
  unfold World.Sound at h
  split at h
  · exact h
  · exact h.guarded

section
variable (hc : codec.Faithful)
include hc
lemma opened_sound (h : Guarded .snapshot .tmp (Keeps codec w.known) w.volume)
    (hf : w.volume.isFixed .snapshot) (path : String) (nested : Bool) (draws : Draws)
    (env : ℕ → Verdict) :
    (w.opened ((openWithResultKey codec path nested draws).run env w.volume)).Sound codec := by
  have hb : Guarded .snapshot .tmp
      (fun o => Keeps codec w.known o ∧ o=w.volume.visible .snapshot) w.volume :=
    ⟨h.holds.and (of_decide_eq_true hf),h.scratch⟩
  have hr:=(openWithResultKey_safe hc hb (fun _ ho => ho.1) path nested draws).run env
    fun _ _ => trivial
  rcases hu : (openWithResultKey codec path nested draws).run env w.volume with ⟨outcome,v⟩
  rw [hu] at hr
  cases outcome with
  | done st => exact hr.2 fun _ ho => ho.2
  | error | killed => exact hr

lemma performed_sound {st : FileStore}
    (h : Live codec w.known st w.volume) (op : Op) (hs : op.wellSized)
    (draws : Draws) (env : ℕ → Verdict) :
    (w.performed op st ((st.perform codec op.refused op.plan draws).run env
      w.volume)).Sound codec := by
  have hr:=(op.perform_safe hc hs h draws).run env fun _ _ => trivial
  rcases ho : (st.perform codec op.refused op.plan draws).run env w.volume with ⟨outcome,v⟩
  rw [ho] at hr
  cases outcome with
  | done out => exact hr
  | error e => exact hr.elim
  | killed =>
    obtain ⟨hc,hsm⟩ := hr
    simp only [World.performed,World.Sound]
    split
    next hv => exact hsm hv
    · exact hc

lemma step_sound (path : String) (nested : Bool)
    (hw : w.Sound codec) (e : Event) (he : w.steady e) :
    (w.step codec path nested e).Sound codec := by
  cases e with
  | openStore dr env =>
    simp only [World.step]
    cases hv : w.live with
    | some st => exact hw
    | none =>
      have hf : w.volume.isFixed .snapshot := by
        simpa only [World.steady,hv,Option.isSome_none,Bool.false_or] using he
      exact opened_sound hc hw.guarded hf path nested dr env
  | perform op dr env =>
    simp only [World.step]
    cases hv : w.live with
    | none => exact hw
    | some st =>
      have hl : Live codec w.known st w.volume := by simpa only [World.Sound,hv] using hw
      exact performed_sound hc hl op he dr env
  | kill => exact hw.guarded
  | crash pf pd => exact hw.guarded.crash pf pd

lemma run_sound (path : String) (nested : Bool)
    (hw : w.Sound codec) (es : List Event)
    (hs : Along (World.step codec path nested) (fun w e => w.steady e=true) w es) :
    (w.run codec path nested es).Sound codec :=
  Along.invariant (I := World.Sound codec) (fun _ e hw he => step_sound hc path nested hw e he) hw es hs
end

lemma start_sound {v : Volume FileName} (hv : v.Scratch .tmp .snapshot) :
    (World.start v).Sound codec := by
  have hn : ∀ o, Keeps codec [] o := by
    intro o s re _ r hr
    cases hr
  refine ⟨?_,hv⟩
  intro d _
  cases d .snapshot with
  | none => exact hn none
  | some i => exact fun c _ => hn (some c)
end

/-- Every known record is in every store that opens, whatever the open meets. -/
theorem known_records_survive (codec : Codec) (hcodec : codec.Faithful) (path : String)
    (nested : Bool) (v : Volume FileName)
    (hv : v.Scratch .tmp .snapshot) (es : List Event)
    (hes : Along (World.step codec path nested) (fun w e => w.steady e=true) (World.start v) es)
    (draws : Draws)
    (env : ℕ → Verdict) (store : FileStore) (v' : Volume FileName)
    (hopen : (openWithResultKey codec path nested draws).run env
      ((World.start v).run codec path nested es).volume=(.done store,v')) :
    ∀ r∈((World.start v).run codec path nested es).known, r.isIn store.inner=true := by
  have hsound:=run_sound hcodec path nested (start_sound hv) es hes
  have hrun:=(openWithResultKey_safe hcodec hsound.guarded (fun _ ho => ho) path nested draws).run
    env fun _ _ => trivial
  rw [hopen] at hrun
  exact hrun.1

def oneSnapshot (dto : SnapshotDto) : SnapshotJson where
  toVec d := if d=dto then some [1] else none
  fromSlice bytes := if bytes=[1] then some (.snapshot dto) else none

lemma oneSnapshot_roundTrips (dto : SnapshotDto) : (oneSnapshot dto).RoundTrips := by
  intro d bt _ h
  simp only [oneSnapshot] at h ⊢
  split at h
  next hd =>
    cases h
    refine ⟨cons_ne_nil _ _,dto,if_pos rfl,?_⟩
    rw [hd]
    exact ⟨rfl,.refl _,.refl _,.refl _,rfl⟩
  · cases h

def tagOnly : ResultCipher where
  encrypt _ _ plaintext := some (plaintext++List.replicate resultTagLen 0)
  decrypt _ _ sealedText := some (sealedText.take (sealedText.length - resultTagLen))

lemma tagOnly_opens : tagOnly.Opens := by
  intro en kind key hash ex plaintext st h
  unfold ResultCipher.sealResult at h
  split at h
  · cases h
  next hs =>
    cases en with
    | none => cases h
    | some no =>
      cases h
      simp only [Bool.or_eq_true,List.isEmpty_iff,decide_eq_true_eq,not_or,not_lt] at hs
      obtain ⟨hne,hm⟩ := hs
      have hl : (no.val++(plaintext++List.replicate resultTagLen 0)).length =
          resultNonceLen+plaintext.length+resultTagLen := by
        rw [length_append,length_append,no.length_val,length_replicate,Nat.add_assoc]
      have hd : (no.val++(plaintext++List.replicate resultTagLen 0)).drop resultNonceLen =
          plaintext++List.replicate resultTagLen 0 := drop_left' no.length_val
      rw [ResultCipher.openResult,if_neg]
      · simp_all [tagOnly,List.isEmpty_iff,decide_eq_true_eq,not_lt]
      · simp only [Bool.or_eq_true,decide_eq_true_eq,hl]
        omega

def claimKey : Hash := Block.fill 32 1
def claim : IssuanceResult := ⟨Block.fill 32 2,List.replicate 256 5,100⟩

def oneClaim : SnapshotDto :=
  ⟨[],[],[(hex32 claimKey,⟨hex32 claim.requestHash,
    toHex (List.replicate 12 0++claim.blindSig++List.replicate 16 0),[],100⟩)],[],[]⟩

def zeroNonces : Draws := ⟨fun _ => some (Block.fill 12 0),fun _ => some (Block.fill 12 0)⟩

/-- The commit is killed at its directory sync, the next process replays its result,
and the machine goes down. -/
def replayThenCrash : List Event :=
  [.openStore zeroNonces fun _ => .ok,
    .perform (.commitIssuance claimKey claim 10) zeroNonces fun i => if i=4 then .kill 0 else .ok,
    .openStore zeroNonces fun _ => .ok,
    .perform (.lookupIssuance claimKey claim.requestHash 20) zeroNonces fun _ => .ok,
    .crash (fun _ => 0) 1]

def oneCodec : Codec := ⟨oneSnapshot oneClaim,tagOnly⟩

lemma oneCodec_faithful : oneCodec.Faithful := ⟨oneSnapshot_roundTrips oneClaim,tagOnly_opens⟩

def World.reopened (codec : Codec) (w : World) : Option FileStore :=
  match (openWithResultKey codec "accounts.json" false zeroNonces).run (fun _ => .ok) w.volume with
  | (.done store,_) => some store
  | _ => none

theorem replayed_result_lost : oneCodec.Faithful ∧
    (Volume.empty : Volume FileName).Scratch .tmp .snapshot ∧
    let w:=(World.start Volume.empty).run oneCodec "accounts.json" false
      replayThenCrash
    Record.issuance claimKey claim∈w.known ∧ (w.reopened oneCodec).map
        (fun store => (Record.issuance claimKey claim).isIn store.inner)=some false :=
  ⟨oneCodec_faithful,Volume.scratch_empty _ _,by decide +kernel⟩

/-- The same with a crash after the kill: the second open finds a settled directory. -/
def crashThenRetry : List Event :=
  [.openStore zeroNonces fun _ => .ok,
    .perform (.commitIssuance claimKey claim 10) zeroNonces fun i => if i=4 then .kill 0 else .ok,
    .crash (fun _ => 0) 1,
    .openStore zeroNonces fun _ => .ok,
    .perform (.commitIssuance claimKey claim 10) zeroNonces fun i => if i=4 then .fail 0 else .ok,
    .perform (.lookupIssuance claimKey claim.requestHash 20) zeroNonces fun _ => .ok,
    .kill,.crash (fun _ => 0) 1]

theorem retried_result_survives :
    let w:=(World.start Volume.empty).run oneCodec "accounts.json" false
      crashThenRetry
    ∃ store v', (openWithResultKey oneCodec "accounts.json" false zeroNonces).run
        (fun _ => .ok) w.volume=(.done store,v') ∧
      (Record.issuance claimKey claim).isIn store.inner=true := by
  intro w
  have hs : (w.reopened oneCodec).isSome=true := by decide +kernel
  unfold World.reopened at hs
  split at hs
  next store v' ho =>
    refine ⟨store,v',ho,?_⟩
    exact known_records_survive oneCodec oneCodec_faithful "accounts.json" false Volume.empty
      (Volume.scratch_empty _ _) crashThenRetry (by decide +kernel) zeroNonces (fun _ => .ok) store v' ho _ (by decide +kernel)
  · cases hs
end NilVpn.Portal.Survival
