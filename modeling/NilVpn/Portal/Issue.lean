import NilVpn.Base.Runs
import NilVpn.Portal.Backend

/-!
# One-shot issuance (nil-portal/src/tokens.rs:155-289)

Calls interleave wherever `issue_logic` consults something, with one another and with pruning. SHA-256 is a
parameter, assumed to have no collision among the blinded messages of a run.
-/

namespace NilVpn.Portal.Issue
open StoreState IssuanceResult Base List Table Function

def issuanceResultTtlSecs : UInt64 := 24*60*60+60*60

structure IssueRequest where
  (paymentId blindMsg : Bytes)

inductive IssueError
  | unknownReference
  | unpaid
  | alreadyIssued
  | malformed
  | unavailable
  | issuer (text : String)
  deriving DecidableEq

def decodeBlindMsg (req : IssueRequest) : Option Bytes :=
  (fromHex req.blindMsg).filter fun message => message.length*2=blindTokenHexLen

def paymentDomain : Bytes := ascii "nil/one-shot-issuance/payment/v1"++[0]

def blindRequestDomain : Bytes := ascii "nil/one-shot-issuance/blind-request/v1"++[0]

/-- What a call saw at each check it passed through. -/
inductive Check
  | lookup (found : Except StoreError IssuanceLookup)
  | pending (known : Bool)
  | issued (present : Bool)
  | watcher (confirmed : Bool)

inductive Phase
  | looking
  | checkingPending
  | checkingIssued
  | checkingPayment
  | signing
  | committing (blindSig : Bytes)
  | done (result : Except IssueError Bytes)
  deriving DecidableEq

/-- `stored` are the keys the call's own commit put into the ledger. -/
structure Call where
  request : IssueRequest
  now : UInt64
  phase : Phase
  trail : List Check
  stored : List Hash

def Call.message (c : Call) : Bytes := (decodeBlindMsg c.request).getD []

structure World where
  backend : Backend
  pending : Table Bytes UInt64
  issued : Table Bytes Unit
  watcher : Bytes → Bool
  calls : List Call

/-- `step` lets one call take its next step; `io` and `signed` are what the store and
the signer do if that step asks them. The pending set changes by checkouts and
prunes, the watcher with the chain: both arbitrarily. -/
inductive Event
  | start (request : IssueRequest) (now : UInt64)
  | step (i : ℕ) (io : Io) (signed : Except String Bytes)
  | pruneIssuanceResults (now : UInt64) (io : Io)
  | setPending (pending : Table Bytes UInt64)
  | setWatcher (watcher : Bytes → Bool)

def startPhase (req : IssueRequest) : Phase :=
  match decodeBlindMsg req with
  | some _ => .looking
  | none => .done (.error .malformed)

def lookupPhase : Except StoreError IssuanceLookup → Phase
  | .error _ => .done (.error .unavailable)
  | .ok (.replay blindSig) => .done (.ok blindSig)
  | .ok .conflict => .done (.error .alreadyIssued)
  | .ok .missing => .checkingPending

def signedPhase : Except String Bytes → Phase
  | .error text => .done (.error (.issuer text))
  | .ok blindSig =>
    if blindSig.length*2≠blindTokenHexLen then
      .done (.error (.issuer "signer returned a wrong-length blind signature"))
    else .committing blindSig

def commitPhase (blindSig : Bytes) : Except StoreError IssuanceCommit → Phase
  | .error _ => .done (.error .unavailable)
  | .ok .stored => .done (.ok blindSig)
  | .ok (.replay cached) => .done (.ok cached)
  | .ok .conflict => .done (.error .alreadyIssued)

section
variable (codec : Codec) (sha256 : Bytes → Hash)
def issuanceKey (paymentId : Bytes) : Hash := sha256 (paymentDomain++paymentId)
def issuanceRequestHash (blindMsg : Bytes) : Hash := sha256 (blindRequestDomain++blindMsg)
def Call.key (c : Call) : Hash := issuanceKey sha256 c.request.paymentId
def Call.requestHash (c : Call) : Hash := issuanceRequestHash sha256 c.message

def Call.result (c : Call) (blindSig : Bytes) : IssuanceResult :=
  ⟨c.requestHash sha256,blindSig,saturatingAdd c.now issuanceResultTtlSecs⟩

def lookup (b : Backend) (c : Call) (io : Io) : Backend × Except StoreError IssuanceLookup :=
  b.perform codec io none fun s => s.lookupIssuance (c.key sha256) (c.requestHash sha256) c.now

def commit (b : Backend) (c : Call) (blindSig : Bytes) (io : Io) :
    Backend × Except StoreError IssuanceCommit :=
  b.perform codec io (refuseIssuance (c.result sha256 blindSig) c.now) fun s =>
    s.commitIssuance (c.key sha256) (c.result sha256 blindSig) c.now

def World.advance (w : World) (c : Call) (io : Io) (signed : Except String Bytes) : Backend × Call :=
  match c.phase with
  | .looking =>
    let r:=lookup codec sha256 w.backend c io
    (r.1,{c with phase := lookupPhase r.2,trail := c.trail++[.lookup r.2]})
  | .checkingPending =>
    let known:=w.pending.contains c.request.paymentId
    (w.backend,{ c with
      phase := if known then .checkingIssued else .done (.error .unknownReference)
      trail := c.trail++[.pending known] })
  | .checkingIssued =>
    let present:=w.issued.contains c.request.paymentId
    (w.backend,{ c with
      phase := if present then .done (.error .alreadyIssued) else .checkingPayment
      trail := c.trail++[.issued present] })
  | .checkingPayment =>
    let confirmed:=w.watcher c.request.paymentId
    (w.backend,{ c with
      phase := if confirmed then .signing else .done (.error .unpaid)
      trail := c.trail++[.watcher confirmed] })
  | .signing => (w.backend,{c with phase := signedPhase signed})
  | .committing blindSig =>
    let r:=commit codec sha256 w.backend c blindSig io
    (r.1,{ c with
      phase := commitPhase blindSig r.2
      stored := c.stored++w.backend.state.issuanceResults.keysAdded r.1.state.issuanceResults })
  | .done _ => (w.backend,c)

def World.step (w : World) : Event → World
  | .start request now => {w with calls := w.calls++[⟨request,now,startPhase request,[],[]⟩]}
  | .step i io signed =>
    match w.calls[i]? with
    | none => w
    | some c =>
      let r:=w.advance codec sha256 c io signed
      {w with backend := r.1,calls := w.calls.set i r.2}
  | .pruneIssuanceResults now io =>
    {w with backend := (w.backend.perform codec io none fun s => s.pruneIssuanceResults now).1}
  | .setPending pending => {w with pending := pending}
  | .setWatcher watcher => {w with watcher := watcher}

def World.run (w : World) (es : List Event) : World := runFrom (World.step codec sha256) w es
end

abbrev Results := Table Hash IssuanceResult
def Backend.results (b : Backend) : Results := b.state.issuanceResults

/-- Claims stay bound to their request; a signature is at most scrubbed. -/
def Evolves (t t' : Results) : Prop :=
  ∀ k r, t.get k=some r → ∃ r', t'.get k=some r' ∧ r'.requestHash=r.requestHash ∧
    (r'.blindSig=r.blindSig ∨ r'.blindSig=[])

lemma Evolves.refl (t : Results) : Evolves t t := fun _ r hr => ⟨r,hr,rfl,Or.inl rfl⟩

lemma evolves_insert {t : Results} {k : Hash} (r : IssuanceResult) (h : t.get k=none) :
    Evolves t (t.insert k r) := by
  intro j s hs
  have hne : j≠k := by
    intro hj
    rw [hj,h] at hs
    cases hs
  refine ⟨s,?_,rfl,.inl rfl⟩
  rw [get_insert_ne _ _ _ _ hne]
  exact hs

lemma scrub_cases (now : UInt64) (r : IssuanceResult) : (r.scrub now).requestHash=r.requestHash ∧
      ((r.scrub now).blindSig=r.blindSig ∨ (r.scrub now).blindSig=[]) := by
  grind [scrub]

lemma replays_iff {r : IssuanceResult} {h : Hash} {now : UInt64} (hr : r.replays h now) :
    r.requestHash=h ∧ r.blindSig≠[] := by
  simp_all [replays,decide_eq_true_eq,isEmpty_eq_false_iff]

section
variable (codec : Codec) (sha256 : Bytes → Hash)
variable (b : Backend)
lemma lookup_spec (c : Call) (io : Io) :
    Backend.results (lookup codec sha256 b c io).1=Backend.results b ∧
      ∀ bs, (lookup codec sha256 b c io).2=.ok (.replay bs) →
        ∃ r, (Backend.results b).get (c.key sha256)=some r ∧ r.requestHash=c.requestHash sha256 ∧
          r.blindSig=bs ∧ bs≠[] := by
  have h:=Backend.perform_performed codec io none
    (fun s => s.lookupIssuance (c.key sha256) (c.requestHash sha256) c.now) b
  unfold lookup Backend.results
  generalize b.perform codec io none _=out at h ⊢
  obtain ⟨b',re⟩ := out
  dsimp only at h ⊢
  generalize b'.state=s' at h ⊢
  cases h with
  | failed e => exact ⟨rfl,nofun⟩
  | written st re hr hp => cases hp
  | uncertain st re e hr hp => cases hp
  | answered st re hr hp =>
    cases hp
    refine ⟨rfl,?_⟩
    intro bs hrp
    cases hg : b.state.issuanceResults.get (c.key sha256) with
    | none =>
      rw [hg] at hrp
      cases hrp
    | some r => grind [replays_iff]

inductive Committed (t : Results) (k : Hash) (result : IssuanceResult) (now : UInt64) :
    Results → Except StoreError IssuanceCommit → Prop
  | failed (e : StoreError) : Committed t k result now t (.error e)
  | answered (existing : IssuanceResult) (h : t.get k=some existing) : Committed t k result now t
      (.ok (if existing.replays result.requestHash now then .replay existing.blindSig else .conflict))
  | stored (h : t.get k=none) : Committed t k result now (t.insert k result) (.ok .stored)
  | uncertain (e : StoreError) (h : t.get k=none) :
      Committed t k result now (t.insert k result) (.error e)

lemma commit_spec (c : Call) (bs : Bytes) (io : Io) :
    Committed (Backend.results b) (c.key sha256) (c.result sha256 bs) c.now
      (Backend.results (commit codec sha256 b c bs io).1)
      (commit codec sha256 b c bs io).2 := by
  have h:=Backend.perform_performed codec io (refuseIssuance (c.result sha256 bs) c.now)
    (fun s => s.commitIssuance (c.key sha256) (c.result sha256 bs) c.now) b
  unfold commit Backend.results
  generalize b.perform codec io _ _=out at h ⊢
  obtain ⟨b',re⟩ := out
  dsimp only at h ⊢
  generalize b'.state=s' at h ⊢
  cases h with
  | failed e => exact .failed e
  | answered st re hr hp =>
    unfold commitIssuance at hp
    split at hp
    next ex hg =>
      cases hp
      exact .answered ex hg
    · cases hp
  | written st re hr hp =>
    unfold commitIssuance at hp
    split at hp
    · cases hp
    next hg =>
      cases hp
      exact .stored hg
  | uncertain st re e hr hp =>
    unfold commitIssuance at hp
    split at hp
    · cases hp
    next hg =>
      cases hp
      exact .uncertain e hg

lemma prune_spec (now : UInt64) (io : Io) :
    Backend.results (b.perform codec io none fun s => s.pruneIssuanceResults now).1 =
      Backend.results b ∨
    Backend.results (b.perform codec io none fun s => s.pruneIssuanceResults now).1 =
      (Backend.results b).mapVal (scrub now) := by
  have hp : (b.state.pruneIssuanceResults now).state.issuanceResults =
      b.state.issuanceResults.mapVal (scrub now) := by
    simp only [pruneIssuanceResults]
    split
    · rfl
    · rfl
  rcases (Backend.perform_performed codec io none _ b).state_cases with h | h
  · exact .inl (congrArg issuanceResults h)
  · exact .inr ((congrArg issuanceResults h).trans hp)
end

def passed : Phase → Option (List Check)
  | .looking => some []
  | .checkingPending => some [.lookup (.ok .missing)]
  | .checkingIssued => some [.lookup (.ok .missing),.pending true]
  | .checkingPayment => some [.lookup (.ok .missing),.pending true,.issued false]
  | .signing | .committing _ => some [.lookup (.ok .missing),.pending true,.issued false,.watcher true]
  | .done _ => none

def allChecks : List Check := [.lookup (.ok .missing),.pending true,.issued false,.watcher true]

def Bound (origin : Hash → Bytes) (t : Results) : Prop :=
  ∀ k r, t.get k=some r → r.blindSig=origin k ∨ r.blindSig=[]

section
variable (sha256 : Bytes → Hash)
structure CallSound (origin : Hash → Bytes) (t : Results) (c : Call) : Prop where
  decoded : decodeBlindMsg c.request=none → c.phase=.done (.error .malformed)
  underway : ∀ checks, passed c.phase=some checks → c.trail=checks ∧ c.stored=[]
  answered : ∀ blindSig, c.phase=.done (.ok blindSig) → blindSig=origin (c.key sha256) ∧
    ∃ r, t.get (c.key sha256)=some r ∧ r.requestHash=c.requestHash sha256
  stored : ∀ k∈c.stored, k=c.key sha256 ∧ c.trail=allChecks

variable {sha256} {origin origin' : Hash → Bytes} {t t' : Results}
variable {c c' : Call} {checks : List Check} {w : World}
lemma Bound.evolve (h : Bound origin t) (ht : Evolves t t')
    (hb : ∀ k r', t'.get k=some r' → ∃ r, t.get k=some r) : Bound origin t' := by
  intro k r' hr'
  obtain ⟨r,hr⟩ := hb k r' hr'
  obtain ⟨r1,hr1,-,hs⟩ := ht k r hr
  rw [hr'] at hr1
  cases hr1
  rcases hs with hs | hs
  · rw [hs]
    exact h k r hr
  · exact .inr hs

lemma Bound.insert (h : Bound origin t) {k : Hash} (r : IssuanceResult) :
    Bound (Function.update origin k r.blindSig) (t.insert k r) := by
  intro j s hs
  by_cases hj : j=k
  · simp_all [get_insert_self,update_self,Or.inl]
  · rw [get_insert_ne _ _ _ _ hj] at hs
    rw [update_of_ne hj]
    exact h j s hs

lemma mapVal_scrub_evolves (now : UInt64) (t : Results) : Evolves t (t.mapVal (scrub now)) := by
  intro k r hr
  obtain ⟨hh,hs⟩ := scrub_cases now r
  refine ⟨r.scrub now,?_,hh,hs⟩
  rw [get_mapVal,hr]
  rfl

section
variable (h : CallSound sha256 origin t c)
include h
lemma CallSound.later (ht : Evolves t t')
    (ho : ∀ k r, t.get k=some r → origin' k=origin k) : CallSound sha256 origin' t' c := by
  refine ⟨h.decoded,h.underway,?_,h.stored⟩
  intro bs hd
  obtain ⟨hs,r,hr,hh⟩ := h.answered bs hd
  obtain ⟨r',hr',hh',-⟩ := ht _ r hr
  exact ⟨hs.trans (ho _ r hr).symm,r',hr',hh'.trans hh⟩

section
variable (ho : passed c.phase=some checks)
include ho
lemma CallSound.refuse (hr : c'.request=c.request) {e : IssueError} (hd : c'.phase=.done (.error e))
    (hs : c'.stored=c.stored) : CallSound sha256 origin t c' := by
  obtain ⟨-,hn⟩ := h.underway checks ho
  refine ⟨?_,?_,?_,?_⟩
  · intro hc
    rw [hr] at hc
    rw [h.decoded hc] at ho
    cases ho
  · intro l hl
    rw [hd] at hl
    cases hl
  · intro bs hok
    rw [hd] at hok
    cases hok
  · intro k hk
    rw [hs,hn] at hk
    cases hk

lemma CallSound.pass {checks' : List Check} (hr : c'.request=c.request)
    (ho' : passed c'.phase=some checks') (htr : c.trail=checks → c'.trail=checks')
    (hs : c'.stored=c.stored) : CallSound sha256 origin t c' := by
  obtain ⟨ht,hn⟩ := h.underway checks ho
  refine ⟨?_,?_,?_,?_⟩
  · intro hd
    rw [hr] at hd
    rw [h.decoded hd] at ho
    cases ho
  · grind
  · intro bs hok
    rw [hok] at ho'
    cases ho'
  · intro k hk
    rw [hs,hn] at hk
    cases hk

lemma CallSound.answer (hq : c'.request=c.request) {bs : Bytes} (hd : c'.phase=.done (.ok bs))
    {r : IssuanceResult} (hr : t'.get (c.key sha256)=some r) (hh : r.requestHash=c.requestHash sha256)
    (hsig : bs=origin' (c.key sha256)) (hs : ∀ k∈c'.stored, k=c.key sha256 ∧ c'.trail=allChecks) :
    CallSound sha256 origin' t' c' := by
  have hy : c'.key sha256=c.key sha256 := by rw [Call.key,hq,Call.key]
  have hh' : c'.requestHash sha256=c.requestHash sha256 := by
    rw [Call.requestHash,Call.message,hq]
    rfl
  refine ⟨?_,?_,?_,?_⟩
  · intro hc
    rw [hq] at hc
    rw [h.decoded hc] at ho
    cases ho
  · intro l hl
    rw [hd] at hl
    cases hl
  · intro bs' hok
    rw [hd] at hok
    cases hok
    rw [hy,hh']
    exact ⟨hsig,r,hr,hh⟩
  · intro k hk
    rw [hy]
    exact hs k hk
end
end

def StepSound (sha256 : Bytes → Hash) (origin : Hash → Bytes) (t t' : Results) (c' : Call) : Prop :=
  ∃ origin', Bound origin' t' ∧ CallSound sha256 origin' t' c' ∧ Evolves t t' ∧
    ∀ k r, t.get k=some r → origin' k=origin k

section
variable (hb : Bound origin t)
include hb
lemma StepSound.same (hc : CallSound sha256 origin t c') : StepSound sha256 origin t t c' :=
  ⟨origin,hb,hc,Evolves.refl t,fun _ _ _ => rfl⟩

lemma StepSound.insert {key : Hash} {r : IssuanceResult} (hg : t.get key=none)
    (hc : CallSound sha256 (Function.update origin key r.blindSig) (t.insert key r) c') :
    StepSound sha256 origin t (t.insert key r) c' := by
  refine ⟨_,hb.insert r,hc,evolves_insert r hg,?_⟩
  intro k r' hr
  apply update_of_ne
  intro hk
  rw [hk,hg] at hr
  cases hr

lemma lookup_sound (hc : CallSound sha256 origin t c) (hp : c.phase=.looking)
    {i : Except StoreError IssuanceLookup}
    (hrp : ∀ bs, i=.ok (.replay bs) → ∃ r, t.get (c.key sha256)=some r ∧
      r.requestHash=c.requestHash sha256 ∧ r.blindSig=bs ∧ bs≠[]) :
    StepSound sha256 origin t t {c with phase := lookupPhase i,trail := c.trail++[.lookup i]} := by
  have ho : passed c.phase=some [] := by
    rw [hp]
    rfl
  apply StepSound.same hb
  cases i with
  | error e => exact hc.refuse ho rfl rfl rfl
  | ok f =>
    cases f with
    | missing =>
      refine hc.pass ho rfl rfl ?_ rfl
      intro ht
      dsimp only
      rw [ht]
      rfl
    | conflict => exact hc.refuse ho rfl rfl rfl
    | replay bs =>
      obtain ⟨r,hr,hh,hs,hne⟩ := hrp bs rfl
      have hor : bs=origin (c.key sha256) := by
        rcases hb _ r hr with h | h
        · rw [← hs,h]
        · exact absurd (hs.symm.trans h) hne
      refine hc.answer ho rfl rfl hr hh hor ?_
      intro k hk
      rw [(hc.underway _ ho).2] at hk
      cases hk

lemma commit_sound (hc : CallSound sha256 origin t c) {bs : Bytes} (hp : c.phase=.committing bs)
    {r : Except StoreError IssuanceCommit}
    (h : Committed t (c.key sha256) (c.result sha256 bs) c.now t' r) : StepSound sha256 origin t t'
      {c with phase := commitPhase bs r,stored := c.stored++t.keysAdded t'} := by
  have ho : passed c.phase=some allChecks := by
    rw [hp]
    rfl
  obtain ⟨ht,hn⟩ := hc.underway _ ho
  cases h with
  | failed e =>
    apply StepSound.same hb
    refine hc.refuse ho rfl rfl ?_
    rw [keysAdded_self,append_nil]
  | answered ex hg =>
    apply StepSound.same hb
    rw [keysAdded_self,append_nil]
    split
    next hr =>
      obtain ⟨hh,hne⟩ := replays_iff hr
      have hor : ex.blindSig=origin (c.key sha256) := by
        rcases hb _ ex hg with h | h
        · exact h
        · exact absurd h hne
      refine hc.answer ho rfl rfl hg hh hor ?_
      intro k hk
      rw [hn] at hk
      cases hk
    · exact hc.refuse ho rfl rfl rfl
  | stored hg =>
    have hg' : (t.insert (c.key sha256) (c.result sha256 bs)).get (c.key sha256) =
        some (c.result sha256 bs) := get_insert_self ..
    have hor : bs=Function.update origin (c.key sha256) bs (c.key sha256) := by rw [update_self]
    refine StepSound.insert hb hg (hc.answer ho rfl rfl hg' rfl hor ?_)
    intro k hk
    rw [hn,nil_append] at hk
    exact ⟨mem_keysAdded_insert hk,ht⟩
  | uncertain e hg =>
    -- the claim is in the ledger although the call reports a failure
    refine StepSound.insert hb hg ⟨?_,?_,?_,?_⟩
    · intro hd
      rw [hc.decoded hd] at ho
      cases ho
    · intro l hl
      cases hl
    · intro sig hok
      cases hok
    · intro k hk
      rw [hn,nil_append] at hk
      exact ⟨mem_keysAdded_insert hk,ht⟩
end

variable (codec : Codec)
lemma advance_sound (hb : Bound origin (Backend.results w.backend))
    (hc : CallSound sha256 origin (Backend.results w.backend) c) (io : Io)
    (s : Except String Bytes) :
    StepSound sha256 origin (Backend.results w.backend)
      (Backend.results (w.advance codec sha256 c io s).1)
      (w.advance codec sha256 c io s).2 := by
  cases hp : c.phase with
  | looking => grind [World.advance,lookup_spec,lookup_sound]
  | checkingPending =>
    simp only [World.advance,hp]
    apply StepSound.same hb
    cases w.pending.contains c.request.paymentId with
    | false => exact hc.refuse (by rw [hp]; rfl) rfl rfl rfl
    | true => exact hc.pass (by rw [hp]; rfl) rfl rfl (fun h => by dsimp only; rw [h]; rfl) rfl
  | checkingIssued =>
    simp only [World.advance,hp]
    apply StepSound.same hb
    cases w.issued.contains c.request.paymentId with
    | false => exact hc.pass (by rw [hp]; rfl) rfl rfl (fun h => by dsimp only; rw [h]; rfl) rfl
    | true => exact hc.refuse (by rw [hp]; rfl) rfl rfl rfl
  | checkingPayment =>
    simp only [World.advance,hp]
    apply StepSound.same hb
    cases w.watcher c.request.paymentId with
    | false => exact hc.refuse (by rw [hp]; rfl) rfl rfl rfl
    | true => exact hc.pass (by rw [hp]; rfl) rfl rfl (fun h => by dsimp only; rw [h]; rfl) rfl
  | signing =>
    simp only [World.advance,hp]
    apply StepSound.same hb
    cases s with
    | error text => exact hc.refuse (by rw [hp]; rfl) rfl rfl rfl
    | ok bs =>
      by_cases hl : bs.length*2≠blindTokenHexLen
      · exact hc.refuse (by rw [hp]; rfl) rfl (if_pos hl) rfl
      · refine hc.pass (by rw [hp]; rfl) rfl ?_ id rfl
        simp only [signedPhase,if_neg hl]
        rfl
  | committing bs =>
    have hs:=commit_spec codec sha256 w.backend c bs io
    simp only [World.advance,hp]
    exact commit_sound hb hc hp hs
  | done re =>
    simp only [World.advance,hp]
    exact StepSound.same hb hc

def World.Sound (sha256 : Bytes → Hash) (w : World) : Prop :=
  ∃ origin, Bound origin (Backend.results w.backend) ∧
    ∀ c∈w.calls, CallSound sha256 origin (Backend.results w.backend) c

lemma start_sound (r : IssueRequest) (now : UInt64) :
    CallSound sha256 origin t ⟨r,now,startPhase r,[],[]⟩ := by
  unfold startPhase
  cases hd : decodeBlindMsg r with
  | none =>
    refine ⟨fun _ => rfl,?_,?_,?_⟩
    · intro checks h
      cases h
    · intro bs h
      cases h
    · intro k hk
      cases hk
  | some m =>
    refine ⟨?_,?_,?_,?_⟩
    · intro h
      rw [hd] at h
      cases h
    · intro checks h
      cases h
      exact ⟨rfl,rfl⟩
    · intro bs h
      cases h
    · intro k hk
      cases hk

lemma prune_sound (hw : w.Sound sha256) (now : UInt64) (io : Io) :
    (w.step codec sha256 (.pruneIssuanceResults now io)).Sound sha256 := by
  obtain ⟨origin,hb,hl⟩ := hw
  rcases prune_spec codec w.backend now io with h | h
  · refine ⟨origin,?_,?_⟩
    · rw [World.step,h]
      exact hb
    · intro c hc
      rw [World.step,h]
      exact hl c hc
  · have hev:=mapVal_scrub_evolves now (Backend.results w.backend)
    refine ⟨origin,?_,?_⟩
    · grind [World.step,get_mapVal,hb.evolve,Option.map_eq_some_iff.mp]
    · intro c hc
      rw [World.step,h]
      exact (hl c hc).later hev fun _ _ _ => rfl

lemma step_sound (hw : w.Sound sha256) (e : Event) : (w.step codec sha256 e).Sound sha256 := by
  cases e with
  | start re now =>
    obtain ⟨origin,hb,hl⟩ := hw
    refine ⟨origin,hb,?_⟩
    intro c hc
    rcases mem_append.mp hc with h | h
    · exact hl c h
    · rw [mem_singleton.mp h]
      exact start_sound re now
  | step i io si =>
    simp only [World.step]
    cases hi : w.calls[i]? with
    | none => exact hw
    | some c =>
      obtain ⟨origin,hb,hl⟩ := hw
      have hc:=hl c (mem_of_getElem? hi)
      obtain ⟨origin',hb',hc',hev,ho⟩ := advance_sound codec hb hc io si
      exact ⟨origin',hb',forall_replaced (fun d hd => (hl d hd).later hev ho) hc'⟩
  | pruneIssuanceResults now io => exact prune_sound codec hw now io
  | setPending | setWatcher => exact hw

lemma run_sound (hw : w.Sound sha256) (es : List Event) : (w.run codec sha256 es).Sound sha256 :=
  run_invariant (I := World.Sound sha256) (fun _ e hw => step_sound codec hw e) hw es

lemma advance_frame (sha256 : Bytes → Hash) (w : World)
    (c : Call) (io : Io) (s : Except String Bytes) :
    (w.advance codec sha256 c io s).2.request=c.request ∧
      (∀ k∈c.stored, k∈(w.advance codec sha256 c io s).2.stored) ∧
      ∀ k, (Backend.results (w.advance codec sha256 c io s).1).get k≠none →
        (Backend.results w.backend).get k≠none ∨ k∈(w.advance codec sha256 c io s).2.stored := by
  cases hp : c.phase with
  | looking => grind [World.advance,lookup_spec]
  | committing bs =>
    simp only [World.advance,hp]
    refine ⟨trivial,fun _ h => mem_append_left _ h,?_⟩
    intro k hk
    by_cases hb : (Backend.results w.backend).get k=none
    · exact .inr (mem_append_right _ (mem_keysAdded.mpr ⟨hk,hb⟩))
    · exact .inl hb
  | checkingPending | checkingIssued | checkingPayment | signing | done re =>
    simp only [World.advance,hp]
    exact ⟨trivial,fun _ h => h,fun _ h => .inl h⟩

def Event.request : Event → Option IssueRequest
  | .start request _ => some request
  | _ => none

/-- Every call is for one of `requests`; every claim was in `t` or was stored by a call. -/
structure World.Accounted (requests : List IssueRequest) (t : Results) (w : World) : Prop where
  requested : ∀ c∈w.calls, c.request∈requests
  credited : ∀ k, (Backend.results w.backend).get k≠none → t.get k≠none ∨ ∃ c∈w.calls, k∈c.stored

lemma step_accounted (sha256 : Bytes → Hash) {r : List IssueRequest} (h : w.Accounted r t) (e : Event)
    (he : ∀ re, e.request=some re → re∈r) :
    (w.step codec sha256 e).Accounted r t := by
  cases e with
  | start re now =>
    refine ⟨?_,?_⟩
    · intro c hc
      rcases mem_append.mp hc with hc | hc
      · exact h.requested c hc
      · rw [mem_singleton.mp hc]
        exact he re rfl
    · intro k hk
      rcases h.credited k hk with hk | ⟨c,hc,hk⟩
      · exact .inl hk
      · exact .inr ⟨c,mem_append_left _ hc,hk⟩
  | step i io si =>
    simp only [World.step]
    cases hi : w.calls[i]? with
    | none => exact h
    | some c =>
      obtain ⟨hr,hkp,hw⟩ := advance_frame codec sha256 w c io si
      refine ⟨?_,?_⟩
      · apply forall_replaced h.requested
        rw [hr]
        exact h.requested c (mem_of_getElem? hi)
      · intro k hk
        rcases hw k hk with hk | hk
        · rcases h.credited k hk with hk | hcl
          · exact .inl hk
          · exact .inr (exists_replaced hi (hkp k) hcl)
        · have hlt : i<w.calls.length := (List.getElem?_eq_some_iff.mp hi).1
          exact .inr ⟨_,mem_set hlt _,hk⟩
  | pruneIssuanceResults now io =>
    refine ⟨h.requested,?_⟩
    intro k hk
    apply h.credited k
    intro hn
    apply hk
    rcases prune_spec codec w.backend now io with hp | hp
    · rw [World.step,hp,hn]
    · rw [World.step,hp,get_mapVal,hn]
      rfl
  | setPending | setWatcher => exact ⟨h.requested,h.credited⟩

lemma run_accounted (sha256 : Bytes → Hash)
    {r : List IssueRequest} (h : w.Accounted r t) (es : List Event)
    (hes : ∀ e∈es, ∀ request, e.request=some request → request∈r) :
    (w.run codec sha256 es).Accounted r t :=
  run_invariant_of_mem (I := World.Accounted r t)
    (fun _ e he h => step_accounted codec sha256 h e he) h es hes
end

def BlindRequestsDistinct (sha256 : Bytes → Hash) (requests : List IssueRequest) : Prop :=
  ∀ r∈requests, ∀ r'∈requests, ∀ message∈decodeBlindMsg r, ∀ message'∈decodeBlindMsg r',
    issuanceRequestHash sha256 message=issuanceRequestHash sha256 message' → message=message'

lemma CallSound.answered_message {sha256 : Bytes → Hash} {origin : Hash → Bytes} {t : Results}
    {c : Call} (h : CallSound sha256 origin t c) {bs : Bytes} (hd : c.phase=.done (.ok bs)) :
    decodeBlindMsg c.request=some c.message := by
  cases hc : decodeBlindMsg c.request with
  | none =>
    rw [h.decoded hc] at hd
    cases hd
  | some m =>
    rw [Call.message,hc]
    rfl

theorem one_token_per_payment (codec : Codec) (sha256 : Bytes → Hash)
    (w : World) (hstart : w.calls=[]) (es : List Event)
    (hsha : BlindRequestsDistinct sha256 (es.filterMap Event.request)) :
    let w':=w.run codec sha256 es
    (∀ c∈w'.calls, ∀ d∈w'.calls, c.request.paymentId=d.request.paymentId →
      ∀ blindSig blindSig', c.phase=.done (.ok blindSig) → d.phase=.done (.ok blindSig') →
        blindSig=blindSig' ∧ ∃ message, decodeBlindMsg c.request=some message ∧
          decodeBlindMsg d.request=some message) ∧
    (∀ c∈w'.calls, ∀ k∈c.stored, k=issuanceKey sha256 c.request.paymentId ∧
      c.trail=[.lookup (.ok .missing),.pending true,.issued false,.watcher true]) ∧
    ∀ k, w'.backend.state.issuanceResults.get k≠none →
      w.backend.state.issuanceResults.get k≠none ∨ ∃ c∈w'.calls, k∈c.stored := by
  have hsound : w.Sound sha256 := by
    refine ⟨fun k => (((Backend.results w.backend).get k).map blindSig).getD [],?_,?_⟩
    · intro k r hr
      dsimp only
      rw [hr]
      exact .inl rfl
    · rw [hstart]
      intro c hc
      cases hc
  have ho : w.Accounted (es.filterMap Event.request) (Backend.results w.backend) := by
    refine ⟨?_,fun k hk => .inl hk⟩
    rw [hstart]
    intro c hc
    cases hc
  obtain ⟨origin,-,ha⟩ := run_sound codec hsound es
  obtain ⟨hq,ht⟩ := run_accounted codec sha256 ho es
    fun e he re hr => mem_filterMap.mpr ⟨e,he,hr⟩
  refine ⟨?_,fun c hc => (ha c hc).stored,ht⟩
  intro c hc d hd hpay blindSig blindSig' hcd hn
  have hkey : c.key sha256=d.key sha256 := by rw [Call.key,Call.key,hpay]
  obtain ⟨hcsig,r,hr,hchash⟩ := (ha c hc).answered blindSig hcd
  obtain ⟨hdsig,r',hr',hdhash⟩ := (ha d hd).answered blindSig' hn
  have hcmsg:=(ha c hc).answered_message hcd
  have hdmsg:=(ha d hd).answered_message hn
  rw [hkey,hr'] at hr
  cases hr
  have hmessage : c.message=d.message :=
    hsha _ (hq c hc) _ (hq d hd) _ hcmsg _ hdmsg (hchash.symm.trans hdhash)
  refine ⟨?_,c.message,hcmsg,?_⟩
  · rw [hcsig,hdsig,hkey]
  · rw [hmessage]
    exact hdmsg

def paidCheckout : World :=
  ⟨.memory StoreState.empty,Table.empty.insert [7] 0,Table.empty,fun id => id=[7],[]⟩

def zerosRequest : IssueRequest := ⟨[7],List.replicate 512 48⟩
def otherRequest : IssueRequest := ⟨[7],List.replicate 511 48++[49]⟩

/-- Two requests for one payment race past every check; the loser is refused at its
commit, and the winner's retry replays. -/
def racingRequests (io : Io) (blindSig : Bytes) : List Event :=
  let go:=fun i => Event.step i io (.ok blindSig)
  [.start zerosRequest 10,.start otherRequest 10,go 0,go 1,go 0,go 1,go 0,go 1,go 0,go 1,
    go 0,go 1,go 1,go 0,.pruneIssuanceResults 20 io,.start otherRequest 30,go 2]

theorem racing_requests_one_token :
    let lastByte : Bytes → Hash := fun text => Block.fill 32 (text.getLastD 0)
    let es:=racingRequests quietIo (List.replicate 256 5)
    let w':=paidCheckout.run blankCodec lastByte es
    w'.calls.map Call.phase=[.done (.error .alreadyIssued),.done (.ok (List.replicate 256 5)),
      .done (.ok (List.replicate 256 5))] ∧
    ∀ c∈w'.calls, ∀ k∈c.stored, k=issuanceKey lastByte c.request.paymentId ∧
      c.trail=[.lookup (.ok .missing),.pending true,.issued false,.watcher true] := by
  refine ⟨by decide +kernel,?_⟩
  have hs : let requests:=(racingRequests quietIo (List.replicate 256 5)).filterMap Event.request
      let lastByte : Bytes → Hash := fun text => Block.fill 32 (text.getLastD 0)
      ∀ r∈requests, ∀ r'∈requests, ∀ m∈decodeBlindMsg r, ∀ m'∈decodeBlindMsg r',
        issuanceRequestHash lastByte m=issuanceRequestHash lastByte m' → m=m' := by decide +kernel
  exact (one_token_per_payment _ _ paidCheckout rfl _
    fun r hr r' hr' m hm m' hm' => hs r hr r' hr' m hm m' hm').2.1
end NilVpn.Portal.Issue
