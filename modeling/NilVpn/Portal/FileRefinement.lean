import NilVpn.Portal.Backend
import NilVpn.Portal.StoreAgreement
import NilVpn.Portal.Survival

/-!
# The file store refines the memory store

Runs without kills and crashes. Any call on the way to the rename of a snapshot may fail, and the store may
be dropped and opened again.
-/

namespace NilVpn.Portal.Refinement
open StoreState Base Option Table
open Program (sys Safe)

section
variable {K V : Type} [DecidableEq K]
def putBack (t : Table K V) (k : K) : Option V → Table K V
  | none => t.erase k
  | some previous => t.insert k previous

lemma get_putBack (t : Table K V) (k j : K) (p : Option V) :
    (putBack t k p).get j=if j=k then p else t.get j := by
  cases p with
  | none => exact get_erase t k j
  | some v => exact get_insert t k j v

lemma get_putBack_changed {t t' : Table K V} {k : K} (h : ∀ j≠k, t'.get j=t.get j) (j : K) :
    (putBack t' k (t.get k)).get j=t.get j := by
  rw [get_putBack]
  split
  next hj => rw [hj]
  next hj => exact h j hj

lemma get_erase_inserted {t : Table K V} {k : K} (hk : t.get k=none) (v : V) (j : K) :
    ((t.insert k v).erase k).get j=t.get j := by
  have hb:=get_putBack_changed (fun j hj => get_insert_ne t k j v hj) j
  rw [hk] at hb
  exact hb
end

/-- What each operation puts back when its snapshot was not written: `state` are the
maps after its change, `before` those its copies were taken from. -/
def rolledBack (before state : StoreState) : Op → StoreState
  | .insert record => {state with accounts := state.accounts.erase record.accountNumber}
  | .activateSubscription accountNumber activationKey _ _ => { state with
      activationResults := state.activationResults.erase activationKey
      accounts := (before.accounts.get accountNumber).elim state.accounts fun previous =>
        state.accounts.modify accountNumber fun record =>
          {record with entitlement := previous.entitlement} }
  | .commitIssuance issuanceKey _ _ => {state with issuanceResults := state.issuanceResults.erase issuanceKey}
  | .pruneIssuanceResults _ => {state with issuanceResults := before.issuanceResults}
  | .lookupMint requestKey _ _ => { state with
      mintResults := putBack state.mintResults requestKey (before.mintResults.get requestKey) }
  | .commitMint requestKey _ quota now => { state with
      mintResults := putBack (state.mintResults.erase requestKey) requestKey
        ((before.mintResults.get requestKey).filter fun existing => existing.expiresAt≤now)
      mintQuotas := putBack state.mintQuotas (quota.quotaKey,quota.windowStart)
        (before.mintQuotas.get (quota.quotaKey,quota.windowStart)) }
  | .pruneMintResults _ => {state with mintResults := before.mintResults,mintQuotas := before.mintQuotas}
  -- these never have anything to persist
  | .get _ | .lookupIssuance _ _ _ => state

section
variable {s st : StoreState}
lemma rolledBack_insert {r : AccountRecord} {u : Unit} (h : s.insert r=.write st u) :
    s.Agrees (rolledBack s st (.insert r)) := by
  unfold StoreState.insert at h
  split at h
  · cases h
  next hn =>
    cases h
    rw [Table.contains,Bool.not_eq_true,isSome_eq_false_iff,isNone_iff_eq_none] at hn
    exact ⟨get_erase_inserted hn r,fun _ => rfl,fun _ => rfl,fun _ => rfl,fun _ => rfl⟩

lemma rolledBack_activateSubscription {account key : Hash} {now bySecs : UInt64}
    {r : Option SubscriptionActivation}
    (h : s.activateSubscription account key now bySecs=.write st r) :
    s.Agrees (rolledBack s st (.activateSubscription account key now bySecs)) := by
  unfold activateSubscription at h
  cases hr : s.accounts.get account with
  | none =>
    rw [hr] at h
    cases h
  | some re =>
    rw [hr] at h
    cases hy : s.activationResults.get key with
    | some u =>
      simp only [hy] at h
      cases h
    | none =>
      simp only [hy] at h
      cases h
      refine ⟨?_,get_erase_inserted hy _,fun _ => rfl,fun _ => rfl,fun _ => rfl⟩
      intro k
      simp only [rolledBack,hr,elim_some,get_modify,get_insert]
      split
      next hk => rw [hk,hr,map_some]
      · rfl

variable {now : UInt64}
lemma rolledBack_commitIssuance {key : Hash} {r : IssuanceResult} {i : IssuanceCommit}
    (h : s.commitIssuance key r now=.write st i) :
    s.Agrees (rolledBack s st (.commitIssuance key r now)) := by
  unfold commitIssuance at h
  cases hk : s.issuanceResults.get key with
  | some ex =>
    rw [hk] at h
    cases h
  | none =>
    rw [hk] at h
    cases h
    exact ⟨fun _ => rfl,fun _ => rfl,get_erase_inserted hk r,fun _ => rfl,fun _ => rfl⟩

lemma rolledBack_lookupMint {key hash : Hash} {r : MintLookup} (h : s.lookupMint key hash now=.write st r) :
    s.Agrees (rolledBack s st (.lookupMint key hash now)) := by
  unfold lookupMint at h
  split at h
  · cases h
    refine ⟨fun _ => rfl,fun _ => rfl,fun _ => rfl,?_,fun _ => rfl⟩
    refine get_putBack_changed ?_
    intro j hj
    exact (get_erase ..).trans (if_neg hj)
  · cases h

lemma chargeMint_write {key : Hash} {r : MintResult} {q : MintQuota} {m : MintCommit}
    (h : s.chargeMint key r q now=.write st m) : ∃ row, st={ s with
      mintResults := s.mintResults.insert key r
      mintQuotas := s.mintQuotas.insert (q.quotaKey,q.windowStart) row } := by
  unfold chargeMint at h
  split at h
  · cases h
  split at h
  · cases h
  dsimp only at h
  split at h
  · cases h
  split at h
  · cases h
  split at h
  · cases h
  · cases h
    exact ⟨_,rfl⟩

/-- The commit found no live result, so what it put aside is all its key had. -/
lemma rolledBack_commitMint {requestKey : Hash} {r : MintResult} {q : MintQuota} {reply : MintCommit}
    (h : s.commitMint requestKey r q now=.write st reply) :
    s.Agrees (rolledBack s st (.commitMint requestKey r q now)) := by
  have hl : (s.living requestKey now).mintResults.get requestKey=none ∧
      (s.living requestKey now).chargeMint requestKey r q now=.write st reply := by
    simp only [commitMint] at h
    split at h
    · cases h
    next hn => exact ⟨hn,h⟩
  obtain ⟨hn,hc⟩ := hl
  obtain ⟨row,rfl⟩ := chargeMint_write hc
  obtain ⟨hac,ha,his,hq⟩ := @living_same s requestKey now
  have he : (s.mintResults.get requestKey).filter (fun ex => ex.expiresAt≤now) =
      s.mintResults.get requestKey := by
    rw [living_get] at hn
    cases hr : s.mintResults.get requestKey with
    | none => rfl
    | some ex => simp_all [liveMint,filter_some]
  refine ⟨?_,?_,?_,?_,?_⟩
  · intro k
    exact congrArg (Table.get · k) hac
  · intro k
    exact congrArg (Table.get · k) ha
  · intro k
    exact congrArg (Table.get · k) his
  · intro k
    simp only [rolledBack,he]
    refine get_putBack_changed ?_ k
    intro j hj
    rw [get_erase,if_neg hj,get_insert_ne _ _ _ _ hj,living_get_ne hj]
  · intro k
    simp only [rolledBack,hq]
    exact get_putBack_changed (fun j hj => get_insert_ne _ _ _ _ hj) k

lemma rolledBack_agrees (op : Op) {r : op.Reply} (h : op.plan s=.write st r) :
    s.Agrees (rolledBack s st op) := by
  cases op with
  | insert rc => exact rolledBack_insert h
  | get an => cases h
  | activateSubscription an ak now bs => exact rolledBack_activateSubscription h
  | lookupIssuance ik rh now => cases h
  | commitIssuance ik re now => exact rolledBack_commitIssuance h
  | pruneIssuanceResults now =>
    simp only [Op.plan,pruneIssuanceResults] at h
    split at h
    · cases h
    · cases h
      exact ⟨fun _ => rfl,fun _ => rfl,fun _ => rfl,fun _ => rfl,fun _ => rfl⟩
  | lookupMint rk rh now => exact rolledBack_lookupMint h
  | commitMint rk re q now => exact rolledBack_commitMint h
  | pruneMintResults now =>
    simp only [Op.plan,pruneMintResults] at h
    split at h
    · cases h
    · cases h
      exact ⟨fun _ => rfl,fun _ => rfl,fun _ => rfl,fun _ => rfl,fun _ => rfl⟩

lemma storable_of_agrees {s s' : StoreState} (hs : s.Storable) (h : s.Agrees s') : s'.Storable := by
  refine ⟨?_,?_,?_⟩
  · intro k r hr
    rw [h.accounts] at hr
    exact hs.accounts k r hr
  · intro k r hr
    rw [h.issuance] at hr
    exact hs.issuance k r hr
  · intro k row ho
    rw [h.quotas] at ho
    exact hs.quotas k row ho
end

structure World where
  store : FileStore
  volume : Volume FileName

inductive Event
  | perform (op : Op) (io : Io)
  | reopen (draws : Draws)

def Event.clock : Event → Option UInt64
  | perform op _ => op.clock
  | reopen _ => none

/-- The operation had something to persist and failed: its snapshot did not get to the path. -/
def Op.unsaved (op : Op) (s : StoreState) (reply : Except StoreError op.Reply) : Bool :=
  op.refused.isNone&&(op.plan s).written.isSome&&!reply.isOk

section
variable (codec : Codec) (path : String) (nested : Bool)
def operate (op : Op) (draws : Draws) (store : FileStore) :
    FileProg (FileStore × Except StoreError op.Reply) :=
  store.performWith codec (fun before state => rolledBack before state op) op.refused op.plan draws

def openAt (draws : Draws) (v : Volume FileName) : Option World :=
  match (openWithResultKey codec path nested draws).run (fun _ => .ok) v with
  | (.done store,v') => some ⟨store,v'⟩
  | _ => none

/-- The programs of the store end in `done` where there are no kills. -/
def World.perform (w : World) (op : Op) (io : Io) : World × Except StoreError op.Reply :=
  match (operate codec op io.draws w.store).run (fun i => (io.fates i).verdict) w.volume with
  | (.done out,v) => (⟨out.1,v⟩,out.2)
  | (.error e,v) => (⟨w.store,v⟩,.error (.backend e.text))
  | (.killed,v) => (⟨w.store,v⟩,.error (.backend "killed"))

/-- The answers of a run, without those of operations whose snapshot was not
written; `none` once an open fails. -/
def World.run (w : World) : List Event → Option (List Answer)
  | [] => some []
  | .perform op io::es =>
    let out:=w.perform codec op io
    (out.1.run es).map fun answers =>
      if Op.unsaved op w.store.inner out.2 then answers else ⟨op,out.2⟩::answers
  | .reopen draws::es => (openAt codec path nested draws w.volume).bind fun w' => w'.run es

/-- Signatures have their size, and no directory sync fails after a rename. -/
def World.steady (w : World) : List Event → Bool
  | [] => true
  | .perform op io::es =>
    let out:=w.perform codec op io
    op.wellSized&&!out.1.store.durabilityUncertain&&out.1.steady es
  | .reopen draws::es => (openAt codec path nested draws w.volume).all fun w' => w'.steady es
end
section
variable (codec : Codec)
def Loads (now : UInt64) (m : StoreState) (contents : Option Bytes) : Prop :=
  ∃ s, loadContents codec contents=.ok (s,false) ∧ s.AgreesAt now m

structure Tracks (now : UInt64) (w : World) (m : StoreState) : Prop where
  clear : w.store.durabilityUncertain=false
  storable : w.store.inner.Storable
  agrees : w.store.inner.AgreesAt now m
  backed : Guarded .snapshot .tmp (Loads codec now m) w.volume

variable {codec} {now t : UInt64} {m m' s : StoreState} {v : Volume FileName} {w : World}
lemma Loads.mono {contents : Option Bytes} (h : Loads codec now m contents) (hle : now≤t)
    (hm : m.AgreesAt t m') : Loads codec t m' contents := by
  obtain ⟨s,hl,ha⟩ := h
  exact ⟨s,hl,(ha.mono hle).trans hm⟩

lemma Tracks.later (h : Tracks codec now w m) (hl : now≤t) :
    Tracks codec t w m :=
  ⟨h.clear,h.storable,h.agrees.mono hl,h.backed.mono fun _ ho => ho.mono hl (.refl m)⟩

lemma writes_loads (hc : codec.Faithful) (hs : s.Storable)
    (ha : s.AgreesAt now m) (draws : Draws) :
    Writes codec draws s (Loads codec now m) := by
  intro dto bt hd hb
  obtain ⟨s',hl,hsm⟩ := loadContents_snapshot hc hs hd hb
  exact ⟨s',hl,(StoreState.AgreesAt.of_agrees hsm).symm.trans ha⟩

section
variable (h : Guarded .snapshot .tmp (Loads codec now m) v)
include h
lemma openWithResultKey_loads (path : String) (nested : Bool) (d : Draws) :
    Safe False (fun _ => True) (fun store v' => Tracks codec now ⟨store,v'⟩ m) (fun _ _ => False)
      (openWithResultKey codec path nested d) v := by
  have hd : Safe False (fun _ => True) (fun _ v' => v'=v) (fun _ _ => False)
      (if nested then sys .createDirAll else pure () : FileProg Unit) v := by
    split
    · exact Safe.sys_completes (c := .createDirAll) rfl rfl
    · rfl
  apply hd.andThen
  rintro - v1 rfl
  apply Safe.bind
  apply (openProcessLock_safe h path).mono (fun _ _ => trivial) ?_ (fun _ _ h => h.2)
  rintro - v2 ⟨h2,-⟩
  apply Safe.bind
  apply (readSnapshot_safe h2).mono (fun _ _ => trivial) ?_ (fun _ _ h => h.2)
  rintro co v3 ⟨rfl,hc⟩
  obtain ⟨s,hl,ha⟩ := h2.holds.visible
  rw [hc,hl,Program.ofExcept_ok_bind]
  exact ⟨rfl,loadContents_storable hl,ha,h2⟩

lemma openAt_tracks (path : String) (nested : Bool) (d : Draws) :
    ∃ w, openAt codec path nested d v=some w ∧ Tracks codec now w m := by
  obtain ⟨sr,v',hr,ht⟩ := (openWithResultKey_loads h path nested d).returns
  exact ⟨⟨sr,v'⟩,by rw [openAt,hr],ht⟩
end

def Follows (codec : Codec) (now : UInt64) (op : Op) (s m : StoreState)
    (w : World) (reply : Except StoreError op.Reply) : Prop :=
  let out:=InMemoryStore.perform op.refused op.plan m
  if Op.unsaved op s reply then Tracks codec now w m
  else out.2.map op.uncounted=reply.map op.uncounted ∧ Tracks codec now w out.1

lemma Tracks.alike (h : Tracks codec t w m) (op : Op) (ht : op.clock.getD t=t) :
    Plan.Alike t op.uncounted (op.plan w.store.inner) (op.plan m) := by
  have hag : w.store.inner.AgreesAt (op.clock.getD t) m := by
    rw [ht]
    exact h.agrees
  have ha:=hag.plan op
  rw [ht] at ha
  exact ha

lemma follows_answer {op : Op} (hr : op.refused=none) (h : Tracks codec t w m)
    (hsz : op.wellSized) (ht : op.clock.getD t=t) {state : StoreState}
    {reply : Except StoreError op.Reply} (hp : op.plan w.store.inner=.answer state reply) :
    Follows codec t op w.store.inner m ⟨⟨state,false⟩,w.volume⟩ reply := by
  have hsv : Op.unsaved op w.store.inner reply=false := by
    rw [Op.unsaved,hp,Plan.written,Option.isSome_none,Bool.and_false,Bool.false_and]
  have hn : w.store.inner.AgreesAt (op.clock.getD t) state := .answer op hp
  have ha:=h.alike op ht
  have hs:=op.plan_storable hsz h.storable
  rw [hp] at ha hs
  rw [ht] at hn
  simp only [Follows,hsv,Bool.false_eq_true,if_false,hr,InMemoryStore.perform_none]
  refine ⟨ha.reply,rfl,hs,ha.state,?_⟩
  -- the path still holds the maps of before, which agree with the new ones
  have hm : m.AgreesAt t (op.plan m).state := (h.agrees.symm.trans hn).trans ha.state
  exact h.backed.mono fun _ ho => ho.mono (UInt64.le_refl t) hm

section
variable (hf : codec.Faithful)
include hf
lemma commitWrite_follows {op : Op}
    (hr : op.refused=none) (h : Tracks codec t w m) (hsz : op.wellSized)
    (ht : op.clock.getD t=t) {st : StoreState} {r : op.Reply}
    (hp : op.plan w.store.inner=.write st r) (draws : Draws) :
    Safe True (fun _ => True)
      (fun out v' => out.1.durabilityUncertain=false →
        Follows codec t op w.store.inner m ⟨out.1,v'⟩ out.2)
      (fun _ _ => False) (commitWrite codec draws (rolledBack w.store.inner st op) st r) w.volume := by
  have ha:=h.alike op ht
  have hs:=op.plan_storable hsz h.storable
  rw [hp] at ha hs
  have hw:=writes_loads hf hs ha.state draws
  refine Safe.bind ((persist_writes (Q := fun _ => True) (fun _ _ => trivial) (fun _ _ => trivial) hw
    h.backed).mono (fun _ _ => trivial) ?_ (fun _ _ h => h))
  intro re v' hre
  match re,hre with
  | .ok (),⟨hg,hh⟩ =>
    intro _
    have hsv : Op.unsaved op w.store.inner (.ok r)=false := by
      rw [Op.unsaved,Except.isOk,Except.toBool,Bool.not_true,Bool.and_false]
    simp only [Follows,hsv,Bool.false_eq_true,if_false,hr,InMemoryStore.perform_none]
    exact ⟨ha.reply,rfl,hs,ha.state,hh,hg.scratch⟩
  | .error ⟨e,true⟩,_ =>
    intro hcl
    cases hcl
  | .error ⟨e,false⟩,hg =>
    intro _
    have hu : Op.unsaved op w.store.inner (.error (.backend e.text)) := by
      rw [Op.unsaved,hr,hp]
      rfl
    have hb:=rolledBack_agrees op hp
    simp only [Follows,hu,if_true]
    exact ⟨rfl,storable_of_agrees h.storable hb,(StoreState.AgreesAt.of_agrees hb).symm.trans h.agrees,hg⟩

lemma perform_follows (op : Op)
    (h : Tracks codec t w m) (hs : op.wellSized) (ht : op.clock.getD t=t)
    (draws : Draws) :
    Safe True (fun _ => True)
      (fun out v' => out.1.durabilityUncertain=false →
        Follows codec t op w.store.inner m ⟨out.1,v'⟩ out.2)
      (fun _ _ => False) (operate codec op draws w.store) w.volume := by
  unfold operate FileStore.performWith
  cases hr : op.refused with
  | some e =>
    intro _
    have hsv : Op.unsaved op w.store.inner (.error e)=false := by
      rw [Op.unsaved,hr]
      rfl
    simp only [Follows,hsv,Bool.false_eq_true,if_false,hr]
    exact ⟨rfl,h⟩
  | none =>
    rw [h.clear]
    cases hp : op.plan w.store.inner with
    | answer sta re =>
      simp only [ensureDurable]
      intro _
      exact follows_answer hr h hs ht hp
    | write sta re => exact commitWrite_follows hf hr h hs ht hp draws

lemma performed_follows (op : Op) (io : Io)
    (h : Tracks codec now w m) (hs : op.wellSized) (hle : now≤op.clock.getD now)
    (hc : (w.perform codec op io).1.store.durabilityUncertain=false) :
    Follows codec (op.clock.getD now) op w.store.inner m (w.perform codec op io).1
      (w.perform codec op io).2 := by
  have ht : op.clock.getD (op.clock.getD now)=op.clock.getD now := by
    cases op.clock with
    | none | some => rfl
  obtain ⟨out,v',hr,hw⟩ := run_done (perform_follows hf op (h.later hle) hs ht io.draws) io.fates
  unfold World.perform at hc ⊢
  rw [hr] at hc ⊢
  exact hw hc

lemma run_refines (path : String) (nested : Bool)
    (h : Tracks codec now w m) (es : List Event)
    (hs : w.steady codec path nested es)
    (hc : Forward now (es.filterMap Event.clock)) :
    ∃ an, w.run codec path nested es=some an ∧
      an.map Answer.uncounted=(memoryRun m (an.map Answer.op)).map Answer.uncounted := by
  induction es generalizing now w m with
  | nil => exact ⟨[],rfl,rfl⟩
  | cons e es ih =>
    cases e with
    | reopen dr =>
      obtain ⟨w',ho,ht⟩ := openAt_tracks h.backed path nested dr
      rw [World.steady,ho,all_some] at hs
      rw [World.run,ho,bind_some]
      exact ih ht hs hc
    | perform op io =>
      simp only [World.steady,Bool.and_eq_true,Bool.not_eq_true'] at hs
      obtain ⟨⟨hsz,hcl⟩,hr⟩ := hs
      have hn:=hc.next
      have hp:=performed_follows hf op io h hsz hn.1 hcl
      rw [World.run]
      unfold Follows at hp
      dsimp only at hp ⊢
      cases hu : Op.unsaved op w.store.inner (w.perform codec op io).2 with
      | true =>
        rw [hu,if_pos rfl] at hp
        obtain ⟨an,hru,hm⟩ := ih hp hr hn.2
        refine ⟨an,?_,hm⟩
        rw [hru,map_some,if_pos rfl]
      | false =>
        rw [hu,if_neg Bool.false_ne_true] at hp
        obtain ⟨hrp,ht⟩ := hp
        obtain ⟨an,hru,hm⟩ := ih ht hr hn.2
        refine ⟨⟨op,(w.perform codec op io).2⟩::an,?_,?_⟩
        · rw [hru,map_some,if_neg Bool.false_ne_true]
        · simp only [List.map_cons,memoryRun,hm,Answer.uncounted,hrp]
end
end

lemma World.saved {w : World} {op : Op} {io : Io}
    (h : (Backend.file w.store w.volume).Undisturbed codec io op.plan) :
    Op.unsaved op w.store.inner (w.perform codec op io).2=false := by
  obtain ⟨hf,he⟩ := h
  have henv : (fun i => (io.fates i).verdict)=fun _ => .ok := funext fun i => by rw [hf]; rfl
  obtain ⟨out,v',hr,ho⟩ := (FileStore.performWith_completes
    (fun before state => rolledBack before state op) op.refused he w.volume).returns
  simp only [World.perform,operate,henv,hr]
  cases hre : op.refused with
  | some e => simp [Op.unsaved,hre]
  | none =>
    rw [hre,InMemoryStore.perform_none] at ho
    rw [(Prod.mk.inj ho).2]
    cases hp : op.plan w.store.inner with
    | answer state reply => simp [Op.unsaved,hp,Plan.written]
    | write state reply => simp [Op.unsaved,Plan.reply,Except.isOk,Except.toBool]

def Fresh (v : Volume FileName) : Prop := Guarded .snapshot .tmp (fun contents => contents=none) v

theorem file_store_refines_memory_store (codec : Codec) (hcodec : codec.Faithful)
    (path : String) (nested : Bool)
    (v : Volume FileName) (hv : Fresh v) (draws : Draws) (es : List Event)
    (hclocks : (es.filterMap Event.clock).Pairwise (·≤·)) :
    (∃ w, openAt codec path nested draws v=some w ∧ (w.steady codec path nested es=true →
        ∃ answers, w.run codec path nested es=some answers ∧ answers.map Answer.uncounted =
            (memoryRun StoreState.empty (answers.map Answer.op)).map Answer.uncounted)) ∧
      -- an operation is left out of the answers only after a failed call
      ∀ (w : World) (op : Op) (io : Io),
        (Backend.file w.store w.volume).Undisturbed codec io op.plan →
        Op.unsaved op w.store.inner (w.perform codec op io).2=false := by
  have hg : Guarded .snapshot .tmp (Loads codec 0 empty) v := by
    refine hv.mono ?_
    rintro o rfl
    exact ⟨empty,rfl,.refl _⟩
  obtain ⟨w,ho,ht⟩ := openAt_tracks hg path nested draws
  refine ⟨⟨w,ho,?_⟩,fun _ _ _ => World.saved⟩
  intro hs
  apply run_refines hcodec path nested ht es hs
  exact .start hclocks

open Survival (claimKey claim oneCodec oneCodec_faithful zeroNonces)

/-- The write of the first commit fails half way; the second is written, and its
result found by the next incarnation. -/
def failedThenReopened : List Event :=
  [.perform (.commitIssuance claimKey claim 10) ⟨zeroNonces,fun i => if i=1 then .fail 1 else .ok⟩,
    .perform (.lookupIssuance claimKey claim.requestHash 11) ⟨zeroNonces,fun _ => .ok⟩,
    .perform (.commitIssuance claimKey claim 12) ⟨zeroNonces,fun _ => .ok⟩,
    .reopen zeroNonces,
    .perform (.lookupIssuance claimKey claim.requestHash 20) ⟨zeroNonces,fun _ => .ok⟩]

theorem failed_then_reopened_refines :
    ((openAt oneCodec "accounts.json" false zeroNonces Volume.empty).bind
      fun w => w.run oneCodec "accounts.json" false failedThenReopened).map
        List.length=some 3 ∧
    ∃ w answers, openAt oneCodec "accounts.json" false zeroNonces Volume.empty=some w ∧
      w.run oneCodec "accounts.json" false failedThenReopened=some answers ∧
      answers.map Answer.uncounted =
        (memoryRun StoreState.empty (answers.map Answer.op)).map Answer.uncounted := by
  refine ⟨by decide +kernel,?_⟩
  have hf : Fresh Volume.empty := by
    refine ⟨?_,Volume.scratch_empty _ _⟩
    intro d hd
    rw [List.mem_singleton.mp hd]
    rfl
  have hs : (openAt oneCodec "accounts.json" false zeroNonces Volume.empty).all
      (fun w => w.steady oneCodec "accounts.json" false failedThenReopened)=true := by
    decide +kernel
  obtain ⟨⟨w,ho,hr⟩,-⟩ := file_store_refines_memory_store oneCodec oneCodec_faithful
    "accounts.json" false Volume.empty hf
    zeroNonces failedThenReopened (by decide +kernel)
  rw [ho,all_some] at hs
  obtain ⟨answers,hu,ha⟩ := hr hs
  exact ⟨w,answers,ho,hu,ha⟩
end NilVpn.Portal.Refinement
