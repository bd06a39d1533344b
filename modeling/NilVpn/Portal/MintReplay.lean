import NilVpn.Base.Tickets
import NilVpn.Portal.Mint
import NilVpn.Portal.StoreAgreement

/-!
# A stored batch answers its request again (nil-portal/src/mint.rs:84-165, 305-330)

Every request and every pruning brings its own clock value, in any order. The key of a request stands for
its random id, the hash for account and messages.
-/

namespace NilVpn.Portal.Mint
open StoreState InMemoryStore Base Option List Table

def keyDomain (v : UInt8) : Bytes := ascii "nil/subscription-mint/request-key/v"++[v,0]

def hashDomain (v : UInt8) : Bytes := ascii "nil/subscription-mint/request/v"++[v,0]

structure Batch where
  messages : List Bytes
  nonempty : messages≠[]
  bounded : messages.length ≤ maxMintBatchSize
  sized : ∀ m∈messages, m.length*2=blindTokenHexLen

inductive Submission
  | v1 (record : AccountRecord) (message : Bytes) (sized : message.length*2=blindTokenHexLen)
  | v2 (record : AccountRecord) (requestId : Block 32) (batch : Batch)

def framed (m : Bytes) : Bytes := beBytes 8 m.length++m

def requestText (domain : Bytes) (account : Hash) (messages : List Bytes) : Bytes :=
  domain++(account.val++(beBytes 8 messages.length++messages.flatMap framed))

namespace Submission
def record : Submission → AccountRecord
  | v1 record _ _ | v2 record _ _ => record

def messages : Submission → List Bytes
  | v1 _ message _ => [message]
  | v2 _ _ batch => batch.messages

def batchCost : Submission → UInt32
  | v1 _ _ _ => 1
  | v2 _ _ batch => UInt32.ofNat batch.messages.length

def keyText : Submission → Bytes
  | v1 record message _ => keyDomain 49 ++ (record.accountNumber.val++message)
  | v2 _ requestId _ => keyDomain 50 ++ requestId.val

def version : Submission → UInt8
  | v1 _ _ _ => 49
  | v2 _ _ _ => 50

def hashText (s : Submission) : Bytes :=
  requestText (hashDomain s.version) s.record.accountNumber s.messages

def request (sha256 : Bytes → Hash) (s : Submission) : MintRequest :=
  ⟨s.record,sha256 s.keyText,sha256 s.hashText,s.messages,s.batchCost⟩

def SameBatch (s t : Submission) : Prop :=
  s.record.accountNumber=t.record.accountNumber ∧ s.messages=t.messages

variable (s : Submission)
lemma messages_ne_nil : s.messages≠[] := by
  cases s with
  | v1 re m si => exact cons_ne_nil _ _
  | v2 re ri ba => exact ba.nonempty

lemma length_le : s.messages.length ≤ maxMintBatchSize := by
  cases s with
  | v1 re m si =>
    show 1≤16
    omega
  | v2 re ri ba => exact ba.bounded

lemma message_length : ∀ m∈s.messages, m.length=256 := by
  have hl : blindTokenHexLen=512 := rfl
  intro m hm
  cases s with
  | v1 re me si =>
    rw [mem_singleton.mp hm]
    omega
  | v2 re ri ba =>
    have := ba.sized m hm
    omega

lemma batchCost_toNat : s.batchCost.toNat=s.messages.length := by
  cases s with
  | v1 re m si => rfl
  | v2 re ri ba =>
    have hle : ba.messages.length≤16 := ba.bounded
    exact UInt32.toNat_ofNat_of_lt' (by
      show ba.messages.length<2^32
      omega)
end Submission

lemma framed_append_inj {x y r r' : Bytes} (hx : x.length<256^8) (hy : y.length<256^8)
    (h : framed x++r=framed y++r') : x=y ∧ r=r' := by
  grind [framed,append_assoc,beBytes_length,ofBe_beBytes,append_inj]

lemma flatMap_framed_inj {xs ys : List Bytes} (hs : ∀ m∈xs, m.length<256^8)
    (hys : ∀ m∈ys, m.length<256^8) (hl : xs.length=ys.length)
    (h : xs.flatMap framed=ys.flatMap framed) : xs=ys := by
  induction xs generalizing ys with
  | nil => exact (length_eq_zero_iff.mp hl.symm).symm
  | cons x xs ih =>
    cases ys with
    | nil => cases hl
    | cons y ys =>
      obtain ⟨hx,hs⟩ := forall_mem_cons.mp hs
      obtain ⟨hy,hys⟩ := forall_mem_cons.mp hys
      rw [flatMap_cons,flatMap_cons] at h
      obtain ⟨hh,ht⟩ := framed_append_inj hx hy h
      rw [hh,ih hs hys (Nat.succ.inj hl) ht]

lemma requestText_inj {domain : Bytes} {account account' : Hash} {xs ys : List Bytes}
    (hxs : ∀ m∈xs, m.length<256^8) (hys : ∀ m∈ys, m.length<256^8)
    (hx : xs.length<256^8) (hy : ys.length<256^8)
    (h : requestText domain account xs=requestText domain account' ys) :
    account=account' ∧ xs=ys := by
  have hr:=append_cancel_left h
  obtain ⟨ha,hr⟩ := Block.append_inj hr
  obtain ⟨hc,hf⟩ := append_inj hr (by rw [beBytes_length,beBytes_length])
  have hl : xs.length=ys.length := by rw [← ofBe_beBytes 8 xs.length hx,hc,ofBe_beBytes 8 ys.length hy]
  exact ⟨ha,flatMap_framed_inj hxs hys hl hf⟩

namespace Submission
lemma message_bound (s : Submission) : ∀ m∈s.messages, m.length<256^8 := by
  intro m hm
  rw [s.message_length m hm]
  norm_num

lemma length_bound (s : Submission) : s.messages.length<256^8 := s.length_le.trans_lt (by decide)

lemma keyText_v1_ne_v2 (r : AccountRecord) (m x : Bytes) :
    keyDomain 49 ++ (r.accountNumber.val++m)≠keyDomain 50 ++ x := by
  intro h
  have hd:=(append_inj h rfl).1
  exact absurd hd (by decide)

lemma version_eq {s t : Submission} (hk : s.keyText=t.keyText) : s.version=t.version := by
  cases s with
  | v1 re m si =>
    cases t with
    | v1 re' m' si' => rfl
    | v2 re' ri' ba' => exact absurd hk (keyText_v1_ne_v2 re m _)
  | v2 re ri ba =>
    cases t with
    | v1 re' m' si' => exact absurd hk.symm (keyText_v1_ne_v2 re' m' _)
    | v2 re' ri' ba' => rfl

/-- Among requests of one key the hash stands for account and messages. -/
lemma hashText_eq_iff {s t : Submission} (hk : s.keyText=t.keyText) :
    s.hashText=t.hashText ↔ s.SameBatch t := by
  rw [hashText,hashText,version_eq hk]
  constructor
  · exact requestText_inj s.message_bound t.message_bound s.length_bound t.length_bound
  · rintro ⟨ha,hm⟩
    rw [ha,hm]
end Submission

inductive Act
  | start (submission : Submission) (now : UInt64)
  | step (i : ℕ) (admitted : Bool) (sign : ℕ → Bytes → Option Bytes)
  | pruneMintResults (now : UInt64)

def Act.texts : Act → List Bytes
  | start submission _ => [submission.keyText,submission.hashText]
  | step _ _ _ | pruneMintResults _ => []

structure Service where
  codec : Codec
  io : Io
  sha256 : Bytes → Hash
  accountRateMax : UInt32

namespace Service
variable (p : Service)
def act (w : World) : Act → World
  | .start submission now =>
    {w with calls := w.calls++[⟨submission.request p.sha256,now,.looking,none⟩]}
  | .step i admitted sign => w.step p.codec p.sha256 p.accountRateMax (.step i p.io admitted sign)
  | .pruneMintResults now => {w with backend := (prune p.codec w.backend now p.io).1}

def worldAt (w : World) (acts : List Act) (k : ℕ) : World := stateAt p.act w acts k

def Takes (w : World) (acts : List Act) (k : ℕ) (c c' : Call) : Prop :=
  ∃ i admitted sign, acts[k]?=some (.step i admitted sign) ∧ (p.worldAt w acts k).calls[i]?=some c ∧
    (p.worldAt w acts (k+1)).calls[i]?=some c'

/-- The clock of act number `k` is below `expiresAt`, if it touches the results of `key`. -/
def Below (w : World) (acts : List Act) (key : Hash) (expiresAt : UInt64) (k : ℕ) : Prop :=
  (∀ c c', p.Takes w acts k c c' → c.request.requestKey=key → c.now<expiresAt) ∧
    ∀ now, acts[k]?=some (.pruneMintResults now) → now<expiresAt
end Service

def Phase.asks : Phase → Bool
  | looking | committing _ _ => true
  | _ => false

section
variable {codec : Codec} {io : Io} {sha256 : Bytes → Hash}
  {cap : UInt32} {s : StoreState} {clock : UInt64} {calls : List Call} {c : Call}
  {admitted : Bool} {sign : ℕ → Bytes → Option Bytes}
lemma result_expires (hn : c.now.toNat+1<2^64) (signatures : List Bytes) :
    refuseMint (c.result signatures) c.now=none := by
  have hlt : c.now<saturatingAdd c.now mintResultTtlSecs := by
    rw [UInt64.lt_iff_toNat_lt,saturatingAdd_toNat]
    have ht : mintResultTtlSecs.toNat=90000 := rfl
    omega
  rw [refuseMint,Call.result,if_neg (UInt64.not_le.mpr hlt)]

variable {signatures : List Bytes} {quota : MintQuota} {result : MintResult}
lemma commit_refused {e : StoreError} (h : refuseMint (c.result signatures) c.now=some e) :
    commit codec (.memory s) c signatures quota io=(.memory s,.error e) := by
  rw [commit,h]
  rfl

section
variable (h : refuseMint (c.result signatures) c.now=none)
include h
lemma commit_answer {st : StoreState} {r : Except StoreError MintCommit}
    (hp : s.commitMint c.request.requestKey (c.result signatures) quota c.now=.answer st r) :
    commit codec (.memory s) c signatures quota io=(.memory st,r) := by
  rw [commit,h,Backend.perform,perform,hp]

lemma commit_write {st : StoreState} {r : MintCommit}
    (hp : s.commitMint c.request.requestKey (c.result signatures) quota c.now=.write st r) :
    commit codec (.memory s) c signatures quota io=(.memory st,.ok r) := by
  rw [commit,h,Backend.perform,perform,hp]
end

lemma advance_live (hr : s.mintResults.get c.request.requestKey=some result)
    (hl : c.now < result.expiresAt) (ha : c.phase.asks) :
    ∃ reply, World.advance codec sha256 cap ⟨.memory s,clock,calls⟩ c io admitted sign =
      (.memory s,{ c with
        phase := .done (if result.replays c.request.requestHash then .ok result.blindSigs else .error .conflict)
        reply := reply }) ∧ (reply=c.reply ∨ reply≠some (.ok .stored)) := by
  have hk:=mintExpired_of_live hr hl
  have hn : c.now.toNat+1<2^64 := by
    have := UInt64.lt_iff_toNat_lt.mp hl
    have := result.expiresAt.toNat_lt
    omega
  cases hp : c.phase with
  | looking =>
    refine ⟨c.reply,?_,.inl rfl⟩
    simp only [World.advance,hp,lookup,Backend.perform,perform,
      lookupMint,hk,Bool.false_eq_true,if_false,mintLookup,hr]
    split
    · rfl
    · rfl
  | committing signatures quota =>
    have hc : commit codec (.memory s) c signatures quota io =
        (.memory s,.ok (if result.replays c.request.requestHash then .replay result.blindSigs
          else .conflict)) := by
      apply commit_answer (result_expires hn signatures)
      rw [commitMint,hk]
      simp only [Bool.false_eq_true,if_false,hr]
      rfl
    refine ⟨some (.ok (if result.replays c.request.requestHash then .replay result.blindSigs
      else .conflict)),?_,.inr ?_⟩
    · simp only [World.advance,hp,hc]
      split
      · rfl
      · rfl
    · split
      · intro h
        cases h
      · intro h
        cases h
  | admitting =>
    rw [hp] at ha
    cases ha
  | signing =>
    rw [hp] at ha
    cases ha
  | done r =>
    rw [hp] at ha
    cases ha

inductive Charged (s : StoreState) (key : Hash) (result : MintResult) (q : MintQuota) :
    Plan MintCommit → Prop
  | refused (e : StoreError) : Charged s key result q (.answer s (.error e))
  | exceeded : Charged s key result q (.answer s (.ok .quotaExceeded))
  | stored (state : StoreState) (hresults : state.mintResults=s.mintResults.insert key result)
      (hquotas : Charges s.mintQuotas q state.mintQuotas) : Charged s key result q (.write state .stored)

lemma chargeMint_charged (s : StoreState) (key : Hash) (result : MintResult) (q : MintQuota)
    (now : UInt64) : Charged s key result q (s.chargeMint key result q now) := by
  have hp:=chargeMint_plan s key result q now
  unfold chargeMint at hp ⊢
  split
  · exact .refused _
  next hf =>
    rw [if_neg hf] at hp
    split
    · exact .exceeded
    next hc =>
      rw [if_neg hc] at hp
      dsimp only at hp ⊢
      split
      · exact .refused _
      next hr =>
        rw [if_neg hr] at hp
        split
        · exact .exceeded
        next ht =>
          rw [if_neg ht] at hp
          split
          · exact .exceeded
          next hm =>
            rw [if_neg hm] at hp
            exact .stored _ rfl hp.1

lemma living_live {s : StoreState} {key : Hash} {now : UInt64}
    (h : (s.living key now).mintResults.get key=some result) :
    s.mintResults.get key=some result ∧ now < result.expiresAt :=
  liveMint_eq_some.mp (living_get.symm.trans h)

lemma living_none {s : StoreState} {key : Hash} {now : UInt64}
    (h : (s.living key now).mintResults.get key=none) (hr : s.mintResults.get key=some result) :
    result.expiresAt≤now := by
  by_contra hl
  rw [living_eq_self (mintExpired_of_live hr (UInt64.not_le.mp hl)),hr] at h
  cases h

inductive Advanced (s : StoreState) (c : Call) : Backend × Call → Prop
  | answered (result : MintResult) (reply : Option (Except StoreError MintCommit))
      (hasks : c.phase.asks=true) (hrow : s.mintResults.get c.request.requestKey=some result)
      (hlive : c.now < result.expiresAt) (hreply : reply=c.reply ∨ reply≠some (.ok .stored)) :
      Advanced s c (.memory s,{ c with
        phase := .done (if result.replays c.request.requestHash then .ok result.blindSigs else .error .conflict)
        reply := reply })
  | quiet (state : StoreState) (phase : Phase) (reply : Option (Except StoreError MintCommit))
      (hstate : state=s ∨ state=s.living c.request.requestKey c.now)
      (hphase : ∀ r, phase=.done (.ok r) → c.phase=phase)
      (hreply : reply=c.reply ∨ reply≠some (.ok .stored))
      (hidle : c.phase.asks=true → ∀ result, s.mintResults.get c.request.requestKey=some result →
        result.expiresAt ≤ c.now) :
      Advanced s c (.memory state,{c with phase := phase,reply := reply})
  | stored (signatures : List Bytes) (quota : MintQuota) (state : StoreState)
      (hphase : c.phase=.committing signatures quota)
      (hrow : (s.living c.request.requestKey c.now).mintResults.get c.request.requestKey=none)
      (hresults : state.mintResults=(s.living c.request.requestKey c.now).mintResults.insert
        c.request.requestKey (c.result signatures))
      (hquotas : Charges s.mintQuotas quota state.mintQuotas) :
      Advanced s c (.memory state,{c with phase := .done (.ok signatures),reply := some (.ok .stored)})

lemma live_advanced (ha : c.phase.asks) {result : MintResult}
    (hw : (s.living c.request.requestKey c.now).mintResults.get c.request.requestKey=some result) :
    Advanced s c (World.advance codec sha256 cap ⟨.memory s,clock,calls⟩ c io admitted sign) := by
  obtain ⟨hw,hl⟩ := living_live hw
  obtain ⟨re,ho,hr⟩ := advance_live hw hl ha
  rw [ho]
  exact .answered result re ha hw hl hr

lemma looked_advanced (hp : c.phase=.looking) :
    Advanced s c (World.advance codec sha256 cap ⟨.memory s,clock,calls⟩ c io admitted sign) := by
  cases hw : (s.living c.request.requestKey c.now).mintResults.get c.request.requestKey with
  | some result => exact live_advanced (by rw [hp]; rfl) hw
  | none =>
    have ho : World.advance codec sha256 cap ⟨.memory s,clock,calls⟩ c io admitted sign =
        (.memory (s.living c.request.requestKey c.now),{c with phase := .admitting}) := by
      simp only [World.advance,hp,lookup,Backend.perform,perform,lookupMint]
      unfold living at hw ⊢
      cases he : s.mintExpired c.request.requestKey c.now with
      | true =>
        simp only [he,if_true] at hw ⊢
        rw [mintLookup,hw]
        rfl
      | false =>
        simp only [he,Bool.false_eq_true,if_false] at hw ⊢
        rw [mintLookup,hw]
        rfl
    rw [ho]
    refine .quiet _ .admitting c.reply (.inr rfl) ?_ (.inl rfl) fun _ _ => living_none hw
    intro r h
    cases h

lemma committed_advanced (hp : c.phase=.committing signatures quota) :
    Advanced s c (World.advance codec sha256 cap ⟨.memory s,clock,calls⟩ c io admitted sign) := by
  have he : ∀ (st : StoreState) (re : Except StoreError MintCommit) (e : ApiError),
      st=s ∨ st=s.living c.request.requestKey c.now → re≠.ok .stored →
      (∀ result, s.mintResults.get c.request.requestKey=some result → result.expiresAt ≤ c.now) →
      Advanced s c (.memory st,{c with phase := .done (.error e),reply := some re}) := by
    intro st re e hs hr hid
    refine .quiet st _ _ hs ?_ (.inr fun h => hr (Option.some.inj h)) fun _ => hid
    intro r h
    cases h
  cases hf : refuseMint (c.result signatures) c.now with
  | some e =>
    simp only [World.advance,hp,commit_refused hf]
    refine he s _ .internal (.inl rfl) ?_ ?_
    · intro h
      cases h
    · intro result _
      by_contra hl
      have := UInt64.lt_iff_toNat_lt.mp (UInt64.not_le.mp hl)
      have := result.expiresAt.toNat_lt
      rw [result_expires (by omega)] at hf
      cases hf
  | none =>
    cases hw : (s.living c.request.requestKey c.now).mintResults.get c.request.requestKey with
    | some result => exact live_advanced (by rw [hp]; rfl) hw
    | none =>
      have hpl:=chargeMint_charged (s.living c.request.requestKey c.now) c.request.requestKey
        (c.result signatures) quota c.now
      have hc : s.commitMint c.request.requestKey (c.result signatures) quota c.now =
          (s.living c.request.requestKey c.now).chargeMint c.request.requestKey (c.result signatures)
            quota c.now := by
        simp only [commitMint]
        unfold living at hw ⊢
        rw [hw]
      simp only [World.advance,hp]
      generalize (s.living c.request.requestKey c.now).chargeMint _ _ _ _=plan at hpl hc
      cases hpl with
      | refused e =>
        rw [commit_answer hf hc]
        refine he _ _ .internal (.inr rfl) ?_ fun _ => living_none hw
        intro h
        cases h
      | exceeded =>
        rw [commit_answer hf hc]
        refine he _ _ .tooManyRequests (.inr rfl) ?_ fun _ => living_none hw
        intro h
        cases h
      | stored st hre hq =>
        rw [commit_write hf hc]
        rw [living_same.2.2.2] at hq
        exact .stored signatures quota st hp hw hre hq

lemma advance_advanced :
    Advanced s c (World.advance codec sha256 cap ⟨.memory s,clock,calls⟩ c io admitted sign) := by
  have hd : c.phase.asks=false → c.phase.asks →
      ∀ result, s.mintResults.get c.request.requestKey=some result → result.expiresAt ≤ c.now := by
    intro hq ha
    exact absurd (hq.symm.trans ha) (by decide)
  cases hp : c.phase with
  | looking => exact looked_advanced hp
  | committing signatures quota => exact committed_advanced hp
  | admitting =>
    simp only [World.advance,hp]
    refine .quiet s _ c.reply (.inl rfl) ?_ (.inl rfl) (hd (by rw [hp]; rfl))
    intro r h
    unfold admitPhase at h
    split at h
    · cases h
    · split at h
      · cases h
      · cases h
  | signing =>
    simp only [World.advance,hp]
    refine .quiet s _ c.reply (.inl rfl) ?_ (.inl rfl) (hd (by rw [hp]; rfl))
    intro r h
    unfold signedPhase at h
    split at h
    · cases h
    · split at h
      · cases h
      · cases h
  | done result =>
    simp only [World.advance,hp]
    exact .quiet s c.phase c.reply (.inl rfl) (fun _ _ => rfl) (.inl rfl) (hd (by rw [hp]; rfl))
end
section
variable {p : Service} {w : World} {acts : List Act} {n k l : ℕ} {c c' d d' : Call} {key : Hash}
/-- A signer of the run gave the signatures, one for each message and in their order. -/
def SignedIn (acts : List Act) (messages signatures : List Bytes) : Prop :=
  ∃ i admitted sign, .step i admitted sign∈acts ∧ collectIdx (signOne sign) 0 messages=.ok signatures

/-- At its commit a request carries its quota and, in the order of the messages, what the signer gave. -/
def Service.Ready (p : Service) (acts : List Act) (c : Call) (phase : Phase) : Prop :=
  ∀ signatures q, phase=.committing signatures q →
    mintQuota p.sha256 c.request.record.accountNumber c.request.batchCost p.accountRateMax c.now=.ok q ∧
      SignedIn acts c.request.blindMessages signatures

/-- A request comes from an endpoint and is ready at its commit. -/
structure Service.Formed (p : Service) (acts : List Act) (c : Call) : Prop where
  submitted : ∃ submission, .start submission c.now∈acts ∧ c.request=submission.request p.sha256
  pending : c.phase.isDone=false → c.reply=none
  ready : p.Ready acts c c.phase

structure Service.Kept (p : Service) (acts : List Act) (w : World) : Prop where
  memory : ∃ s, w.backend=.memory s
  calls : ∀ c∈w.calls, p.Formed acts c

variable {sign : ℕ → Bytes → Option Bytes} {s s' : StoreState} {result : MintResult}
lemma signedPhase_signed {signatures : List Bytes} {q : MintQuota}
    (h : signedPhase p.sha256 p.accountRateMax c sign=.committing signatures q) :
    collectIdx (signOne sign) 0 c.request.blindMessages=.ok signatures := by
  unfold signedPhase at h
  split at h
  · cases h
  next hs =>
    split at h
    · cases h
    · cases h
      exact hs

lemma Service.Formed.move (h : p.Formed acts c) (ho : c.phase.isDone=false) {n : Phase}
    (hr : p.Ready acts c n) : p.Formed acts {c with phase := n} :=
  ⟨h.submitted,fun _ => h.pending ho,hr⟩

lemma Service.Formed.finish (h : p.Formed acts c) {n : Phase} (hd : n.isDone)
    (r : Option (Except StoreError MintCommit)) :
    p.Formed acts {c with phase := n,reply := r} := by
  refine ⟨h.submitted,?_,?_⟩
  · intro ho
    exact absurd (hd.symm.trans ho) (by decide)
  · rintro signatures q rfl
    cases hd

lemma Service.Formed.advance (h : p.Formed acts c) (w : World) {i : ℕ} {admitted : Bool}
    (ha : .step i admitted sign∈acts) :
    p.Formed acts (w.advance p.codec p.sha256 p.accountRateMax c p.io admitted sign).2 := by
  cases hp : c.phase with
  | looking =>
    simp only [World.advance,hp]
    apply h.move (by rw [hp]; rfl)
    intro signatures q hq
    exact absurd hq (lookupPhase_not_committing _ signatures q)
  | admitting =>
    simp only [World.advance,hp]
    apply h.move (by rw [hp]; rfl)
    intro signatures q hq
    exact absurd hq (admitPhase_not_committing c admitted signatures q)
  | signing =>
    simp only [World.advance,hp]
    apply h.move (by rw [hp]; rfl)
    intro signatures q hq
    exact ⟨signedPhase_quoted hq,i,admitted,sign,ha,signedPhase_signed hq⟩
  | committing signatures quota =>
    simp only [World.advance,hp]
    exact h.finish (commitPhase_isDone signatures _) _
  | done result =>
    simp only [World.advance,hp]
    exact h

lemma act_kept (h : p.Kept acts w) {a : Act} (ha : a∈acts) : p.Kept acts (p.act w a) := by
  obtain ⟨⟨s,hs⟩,hl⟩ := h
  cases a with
  | start su now =>
    refine ⟨⟨s,hs⟩,?_⟩
    intro c hc
    rcases mem_append.mp hc with hc | hc
    · exact hl c hc
    · rw [mem_singleton.mp hc]
      exact ⟨⟨su,ha,rfl⟩,fun _ => rfl,nofun⟩
  | step i am sign =>
    simp only [Service.act,World.step]
    cases hi : w.calls[i]? with
    | none => exact ⟨⟨s,hs⟩,hl⟩
    | some c =>
      have hc:=hl c (mem_of_getElem? hi)
      refine ⟨?_,forall_replaced hl (hc.advance w ha)⟩
      obtain ⟨ba,cc,cs⟩ := w
      cases hs
      have ho : Advanced s c (World.advance p.codec p.sha256 p.accountRateMax
          ⟨.memory s,cc,cs⟩ c p.io am sign) := advance_advanced
      dsimp only
      generalize World.advance _ _ _ _ _ _ _ _=out at ho ⊢
      cases ho with
      | answered => exact ⟨s,rfl⟩
      | quiet st => exact ⟨st,rfl⟩
      | stored _ _ st => exact ⟨st,rfl⟩
  | pruneMintResults now =>
    refine ⟨?_,hl⟩
    simp only [Service.act,hs,prune,Backend.perform]
    exact ⟨_,rfl⟩

lemma worldAt_kept (h : p.Kept acts w) (k : ℕ) : p.Kept acts (p.worldAt w acts k) := by
  apply kept_between (I := fun w : World => p.Kept acts w) (Nat.zero_le k) h
  intro j a _ _ ha hj
  exact act_kept hj (mem_of_getElem? ha)

lemma Service.Takes.advanced (h : p.Takes w acts k c c') (hw : p.Kept acts w) :
    ∃ s s', (p.worldAt w acts k).backend=.memory s ∧ (p.worldAt w acts (k+1)).backend=.memory s' ∧
      Advanced s c (.memory s',c') := by
  obtain ⟨i,am,sign,ha,hc,hc'⟩ := h
  obtain ⟨s,hs⟩ := (worldAt_kept hw k).memory
  have hn : p.worldAt w acts (k+1)=p.act (p.worldAt w acts k) (.step i am sign) := stateAt_succ ha
  rw [hn] at hc' ⊢
  generalize p.worldAt w acts k=v at hs hc hc' ⊢
  obtain ⟨ba,cc,cs⟩ := v
  cases hs
  have hlt : i<cs.length := (List.getElem?_eq_some_iff.mp hc).1
  simp only [Service.act,World.step,hc,List.getElem?_set_self hlt,Option.some.injEq] at hc' ⊢
  have ho : Advanced s c (World.advance p.codec p.sha256 p.accountRateMax
      ⟨.memory s,cc,cs⟩ c p.io am sign) := advance_advanced
  rw [← hc']
  generalize World.advance _ _ _ _ _ _ _ _=out at ho ⊢
  obtain ⟨ba,c''⟩ := out
  cases ho with
  | answered result re has hro hl hr => exact ⟨s,s,rfl,rfl,.answered result re has hro hl hr⟩
  | quiet st ph re hst hp hr hid => exact ⟨s,st,rfl,rfl,.quiet st ph re hst hp hr hid⟩
  | stored signatures quota st hp hro hre hq =>
    exact ⟨s,st,rfl,rfl,.stored signatures quota st hp hro hre hq⟩

/-- A step of a request whose key has a live result: the store stays, and what asks
it is answered from the result. -/
structure Replayed (s : StoreState) (result : MintResult) (c : Call) (s' : StoreState) (c' : Call) :
    Prop where
  state : s'=s
  reply : c'.reply=c.reply ∨ c'.reply≠some (.ok .stored)
  asked : c.phase.asks=true →
    c'.phase=.done (if result.replays c.request.requestHash then .ok result.blindSigs else .error .conflict)
  quiet : c.phase.asks=false → ∀ r, c'.phase=.done (.ok r) → c.phase=c'.phase

section
variable (h : Advanced s c (.memory s',c'))
include h
lemma Advanced.live (ho : s.mintResults.get c.request.requestKey=some result) (hl : c.now < result.expiresAt) :
    Replayed s result c s' c' := by
  have hk:=mintExpired_of_live ho hl
  cases h with
  | answered f re ha hf _ hr =>
    rw [ho] at hf
    cases hf
    exact ⟨rfl,hr,fun _ => rfl,fun hq => absurd (hq.symm.trans ha) (by decide)⟩
  | quiet _ ph re hs hp hr hid =>
    refine ⟨?_,hr,?_,fun _ => hp⟩
    · grind [living_eq_self]
    · grind
  | stored signatures quota _ hp hn =>
    rw [living_eq_self hk,ho] at hn
    cases hn

lemma Advanced.absent (ho : s.mintResults.get c.request.requestKey=none)
    (hr : c.phase.isDone=false → c'.reply≠some (.ok .stored)) :
    s'=s ∧ ∀ r, c'.phase=.done (.ok r) → c.phase=c'.phase := by
  have hk : s.mintExpired c.request.requestKey c.now=false := mintExpired_of_absent ho
  cases h with
  | answered f re ha hf =>
    rw [ho] at hf
    cases hf
  | quiet _ ph re hs hp => grind [living_eq_self]
  | stored signatures quota _ hp =>
    refine absurd rfl (hr ?_)
    rw [hp]
    rfl

lemma Advanced.get_ne (hk : key≠c.request.requestKey) :
    s'.mintResults.get key=s.mintResults.get key := by
  cases h with
  | answered => rfl
  | quiet _ ph re hs => grind [living_get_ne]
  | stored signatures quota _ hp hn hr => rw [hr,get_insert_ne _ _ _ _ hk,living_get_ne hk]
end

lemma takes_of_step {i : ℕ} {admitted : Bool} (ha : acts[k]?=some (.step i admitted sign))
    (hc : (p.worldAt w acts k).calls[i]?=some c) :
    ∃ c', p.Takes w acts k c c' := by
  have hn : p.worldAt w acts (k+1)=p.act (p.worldAt w acts k) (.step i admitted sign) := stateAt_succ ha
  have hlt : i<(p.worldAt w acts k).calls.length := (List.getElem?_eq_some_iff.mp hc).1
  have hg : ∃ c', (p.worldAt w acts (k+1)).calls[i]?=some c' := by grind [Service.act,World.step]
  obtain ⟨c',hc'⟩ := hg
  exact ⟨c',i,admitted,sign,ha,hc,hc'⟩

lemma prune_results (s : StoreState) (now : UInt64) :
    (prune p.codec (.memory s) now p.io).1.state.mintResults =
      s.mintResults.retain fun _ r => now < r.expiresAt := by
  simp only [prune,Backend.perform,perform,pruneMintResults]
  generalize s.mintResults.retain _=re
  split
  next h =>
    split at h
    · cases h
      rfl
    · cases h
  next h =>
    split at h
    · cases h
    · cases h
      rfl

lemma worldAt_cases (hw : p.Kept acts w) (k : ℕ) :
    (p.worldAt w acts (k+1)).backend=(p.worldAt w acts k).backend ∨
    (∃ c c', p.Takes w acts k c c') ∨
    ∃ now, acts[k]?=some (.pruneMintResults now) ∧ (p.worldAt w acts (k+1)).backend.state.mintResults =
        (p.worldAt w acts k).backend.state.mintResults.retain fun _ r => now < r.expiresAt := by
  cases ha : acts[k]? with
  | none =>
    left
    rw [Service.worldAt,stateAt_succ_of_none ha]
    rfl
  | some a =>
    have hn : p.worldAt w acts (k+1)=p.act (p.worldAt w acts k) a := stateAt_succ ha
    cases a with
    | start su now =>
      left
      rw [hn]
      rfl
    | step i am sign =>
      cases hi : (p.worldAt w acts k).calls[i]? with
      | none =>
        left
        rw [hn]
        simp only [Service.act,World.step,hi]
      | some c => exact .inr (.inl ⟨c,takes_of_step ha hi⟩)
    | pruneMintResults now =>
      refine .inr (.inr ⟨now,rfl,?_⟩)
      obtain ⟨s,hs⟩ := (worldAt_kept hw k).memory
      rw [hn,hs]
      simp only [Service.act,hs,prune_results]
      rfl

/-- What is stored lives on as long as no clock reaches its expiry. -/
lemma row_kept (hw : p.Kept acts w) (hn : n≤l)
    (hr : (p.worldAt w acts n).backend.state.mintResults.get key=some result)
    (hb : ∀ k, n≤k → k<l → p.Below w acts key result.expiresAt k) :
    (p.worldAt w acts l).backend.state.mintResults.get key=some result := by
  induction l,hn using Nat.le_induction with
  | base => exact hr
  | succ l hn ih =>
    have hl:=ih fun k hnk hkl => hb k hnk (by omega)
    obtain ⟨hst,hpr⟩ := hb l hn (by omega)
    rcases worldAt_cases hw l with hsm | ⟨c,c',ht⟩ | ⟨now,ha,hp⟩
    · rw [hsm]
      exact hl
    · obtain ⟨s,s',hs,hs',ho⟩ := ht.advanced hw
      rw [hs] at hl
      rw [hs']
      by_cases hk : key=c.request.requestKey
      · have hlv:=hst c c' ht hk.symm
        rw [hk] at hl ⊢
        rw [(ho.live hl hlv).state]
        exact hl
      · exact (ho.get_ne hk).trans hl
    · rw [hp,get_retain,hl,filter_some,if_pos (decide_eq_true (hpr now ha))]

lemma row_absent (hw : p.Kept acts w) (hr : w.backend.state.mintResults.get key=none)
    (hn : ∀ k c c', k<n → p.Takes w acts k c c' → c.request.requestKey=key →
      c.phase.isDone=false → c'.reply≠some (.ok .stored)) (hkn : k≤n) :
    (p.worldAt w acts k).backend.state.mintResults.get key=none := by
  induction k with
  | zero => exact hr
  | succ k ih =>
    have hk:=ih (by omega)
    rcases worldAt_cases hw k with hsm | ⟨c,c',ht⟩ | ⟨now,ha,hp⟩
    · rw [hsm]
      exact hk
    · have hf:=hn k c c' (by omega) ht
      obtain ⟨s,s',hs,hs',ho⟩ := ht.advanced hw
      rw [hs] at hk
      rw [hs']
      by_cases hy : key=c.request.requestKey
      · rw [hy] at hk ⊢
        rw [(ho.absent hk (hf hy.symm)).1]
        exact hk
      · exact (ho.get_ne hy).trans hk
    · rw [hp,get_retain,hk,filter_none]

def Call.SameBatch (c d : Call) : Prop :=
  c.request.record.accountNumber=d.request.record.accountNumber ∧
    c.request.blindMessages=d.request.blindMessages

/-- What the commit of `c` at act number `n` means for the requests of its key: its
signatures follow the messages and its charge is the size of the batch; up to act
number `l` nothing more is stored or charged for the key, and who asks gets the
signatures for the same batch, a conflict for any other. Before a first result
nobody was answered or charged. -/
structure Service.Reused (p : Service) (w : World) (acts : List Act) (n l : ℕ) (c c' : Call)
    (signatures : List Bytes) : Prop where
  answered : c'.phase=.done (.ok signatures)
  ordered : SignedIn acts c.request.blindMessages signatures
  charged : usedAt (Backend.quotas (p.worldAt w acts (n+1)).backend) (c.quotaRow p.sha256) =
    usedAt (Backend.quotas (p.worldAt w acts n).backend) (c.quotaRow p.sha256) +
      c.request.blindMessages.length
  others : ∀ row≠c.quotaRow p.sha256, (Backend.quotas (p.worldAt w acts (n+1)).backend).get row =
    (Backend.quotas (p.worldAt w acts n).backend).get row
  once : ∀ k d d', n<k → k<l → p.Takes w acts k d d' → d.request.requestKey=c.request.requestKey →
    d.phase.isDone=false → d'.reply≠some (.ok .stored)
  uncharged : ∀ k d d', n<k → k<l → p.Takes w acts k d d' → d.request.requestKey=c.request.requestKey →
    Backend.quotas (p.worldAt w acts (k+1)).backend=Backend.quotas (p.worldAt w acts k).backend
  same : ∀ k d d' r, n<k → k<l → p.Takes w acts k d d' →
    d.request.requestKey=c.request.requestKey → d.phase.isDone=false → d'.phase=.done (.ok r) →
    r=signatures ∧ d.SameBatch c
  replay : ∀ k d d', n<k → k<l → p.Takes w acts k d d' →
    d.request.requestKey=c.request.requestKey → d.phase.asks=true → d.SameBatch c →
    d'.phase=.done (.ok signatures)
  conflict : ∀ k d d', n<k → k<l → p.Takes w acts k d d' →
    d.request.requestKey=c.request.requestKey → d.phase.asks=true → ¬d.SameBatch c →
    d'.phase=.done (.error .conflict)
  first : w.backend.state.mintResults.get c.request.requestKey=none →
    (∀ k d d', k<n → p.Takes w acts k d d' → d.request.requestKey=c.request.requestKey →
      d.phase.isDone=false → d'.reply≠some (.ok .stored)) →
    ∀ k d d', k<n → p.Takes w acts k d d' → d.request.requestKey=c.request.requestKey →
      Backend.quotas (p.worldAt w acts (k+1)).backend=Backend.quotas (p.worldAt w acts k).backend ∧
        (d.phase.isDone=false → ∀ r, d'.phase≠.done (.ok r))

lemma Service.Takes.formed (h : p.Takes w acts k c c') (hw : p.Kept acts w) : p.Formed acts c := by
  obtain ⟨i,am,sign,ha,hc,hc'⟩ := h
  exact (worldAt_kept hw k).calls c (mem_of_getElem? hc)

lemma requestHash_eq_iff (ha : Set.InjOn p.sha256 {x | x∈acts.flatMap Act.texts})
    (hc : p.Formed acts c) (hd : p.Formed acts d) (hk : d.request.requestKey=c.request.requestKey) :
    d.request.requestHash=c.request.requestHash ↔ d.SameBatch c := by
  obtain ⟨s,hs,hcs⟩ := hc.submitted
  obtain ⟨t,ht,hdt⟩ := hd.submitted
  have hm : ∀ {u : Submission} {now : UInt64}, .start u now∈acts →
      u.keyText∈acts.flatMap Act.texts ∧ u.hashText∈acts.flatMap Act.texts := by
    intro u now hu
    refine ⟨mem_flatMap.mpr ⟨_,hu,?_⟩,mem_flatMap.mpr ⟨_,hu,?_⟩⟩
    · exact mem_cons_self
    · exact mem_cons_of_mem _ mem_cons_self
  rw [hcs,hdt] at hk
  have hx : t.keyText=s.keyText := ha (hm ht).1 (hm hs).1 hk
  rw [Call.SameBatch,hcs,hdt]
  constructor
  · intro hh
    exact (Submission.hashText_eq_iff hx).mp (ha (hm ht).2 (hm hs).2 hh)
  · intro hb
    exact congrArg p.sha256 ((Submission.hashText_eq_iff hx).mpr hb)

lemma Service.Takes.stores (h : p.Takes w acts n c c') (hw : p.Kept acts w) {signatures : List Bytes}
    {q : MintQuota} (hp : c.phase=.committing signatures q)
    (hst : c'.reply=some (.ok .stored)) :
    c'.phase=.done (.ok signatures) ∧
    (p.worldAt w acts (n+1)).backend.state.mintResults.get c.request.requestKey=some (c.result signatures) ∧
    Charges (Backend.quotas (p.worldAt w acts n).backend) q
      (Backend.quotas (p.worldAt w acts (n+1)).backend) := by
  have hpe:=(h.formed hw).pending (by rw [hp]; rfl)
  obtain ⟨s,s',hs,hs',ho⟩ := h.advanced hw
  rw [hs,hs']
  have hn : ∀ re, re=c.reply ∨ re≠some (.ok .stored) → re≠some (.ok MintCommit.stored) := by grind
  cases ho with
  | answered result re ha hro hl hr => exact absurd hst (hn _ hr)
  | quiet _ ph re ht _ hr => exact absurd hst (hn _ hr)
  | stored f quota _ hf hro hre hq =>
    rw [hp] at hf
    cases hf
    refine ⟨rfl,?_,hq⟩
    show s'.mintResults.get _=_
    rw [hre,get_insert_self]

lemma Service.Takes.replayed (h : p.Takes w acts k d d') (hw : p.Kept acts w)
    (hr : (p.worldAt w acts k).backend.state.mintResults.get d.request.requestKey=some result)
    (hl : d.now < result.expiresAt) :
    ∃ s s', (p.worldAt w acts k).backend=.memory s ∧ (p.worldAt w acts (k+1)).backend=.memory s' ∧
      Replayed s result d s' d' := by
  obtain ⟨s,s',hs,hs',ho⟩ := h.advanced hw
  rw [hs] at hr
  exact ⟨s,s',hs,hs',ho.live hr hl⟩

lemma Replayed.ok {r : List Bytes} (h : Replayed s result d s' d')
    (ho : d.phase.isDone=false) (hd' : d'.phase=.done (.ok r)) :
    r=result.blindSigs ∧ result.replays d.request.requestHash := by
  cases ha : d.phase.asks with
  | true => grind [h.asked]
  | false =>
    rw [h.quiet ha r hd',hd'] at ho
    cases ho

theorem stored_batch_reused (p : Service) (acts : List Act) (s : StoreState) (clock : UInt64)
    (hsha : Set.InjOn p.sha256 {x | x∈acts.flatMap Act.texts}) {n l : ℕ} {c c' : Call}
    {signatures : List Bytes} {q : MintQuota} (hstep : p.Takes ⟨.memory s,clock,[]⟩ acts n c c')
    (hphase : c.phase=.committing signatures q) (hstored : c'.reply=some (.ok .stored))
    (hlive : ∀ k, n<k → k<l → p.Below ⟨.memory s,clock,[]⟩ acts c.request.requestKey
      (c.result signatures).expiresAt k) :
    p.Reused ⟨.memory s,clock,[]⟩ acts n l c c' signatures := by
  have hw : p.Kept acts ⟨.memory s,clock,[]⟩ := ⟨⟨s,rfl⟩,nofun⟩
  have hformed:=hstep.formed hw
  obtain ⟨hquota,hsigned⟩ := hformed.ready signatures q hphase
  obtain ⟨hquotaKey,hstart,-,hcost,-⟩ := mintQuota_eq_ok hquota
  have hrowOf : (q.quotaKey,q.windowStart)=c.quotaRow p.sha256 := by
    rw [hquotaKey,hstart]
    rfl
  obtain ⟨hdone,hrow,next,hnext,-,hquotas⟩ := hstep.stores hw hphase hstored
  rw [hrowOf] at hnext hquotas
  obtain ⟨su,-,hsub⟩ := hformed.submitted
  have hsigs : signatures≠[] := by
    obtain ⟨_,_,sign,_,hsign⟩ := hsigned
    rw [← length_pos_iff,(collectIdx_eq_ok hsign).1,hsub]
    exact length_pos_iff.mpr su.messages_ne_nil
  -- the result is there at every later act, and lives for every request of its key
  have hkept : ∀ k, n<k → k<l → (p.worldAt ⟨.memory s,clock,[]⟩ acts k).backend.state.mintResults.get
      c.request.requestKey=some (c.result signatures) := by
    intro k hn hl
    exact row_kept hw hn hrow fun j hnj hjk => hlive j hnj (hjk.trans hl)
  have hp : ∀ {k d d'}, n<k → k<l → p.Takes ⟨.memory s,clock,[]⟩ acts k d d' →
      d.request.requestKey=c.request.requestKey →
      ∃ s₁ s₂, (p.worldAt ⟨.memory s,clock,[]⟩ acts k).backend=.memory s₁ ∧
        (p.worldAt ⟨.memory s,clock,[]⟩ acts (k+1)).backend=.memory s₂ ∧
        Replayed s₁ (c.result signatures) d s₂ d' := by
    intro k d d' hn hl ht hk
    refine ht.replayed hw ?_ ((hlive k hn hl).1 d d' ht hk)
    rw [hk]
    exact hkept k hn hl
  have hbatch : ∀ {k d d'}, p.Takes ⟨.memory s,clock,[]⟩ acts k d d' →
      d.request.requestKey=c.request.requestKey →
      ((c.result signatures).replays d.request.requestHash=true ↔ d.SameBatch c) := by
    intro k d d' ht hk
    rw [← requestHash_eq_iff hsha hformed (ht.formed hw) hk,MintResult.replays,Call.result,
      Bool.eq_false_iff.mpr fun h => hsigs (isEmpty_iff.mp h),Bool.not_false,Bool.and_true,
      decide_eq_true_eq]
    exact eq_comm
  constructor
  case answered => exact hdone
  case ordered => exact hsigned
  case charged =>
    have hsize : q.cost.toNat=c.request.blindMessages.length := by
      rw [hcost,hsub]
      exact su.batchCost_toNat
    rw [hquotas,usedAt,get_insert_self,elim_some,hnext,hsize]
  case others =>
    intro row hne
    rw [hquotas,get_insert_ne _ _ _ _ hne]
  case once =>
    intro k d d' hn hl ht hk hopen
    obtain ⟨s₁,s₂,-,-,ho⟩ := hp hn hl ht hk
    rcases ho.reply with hreply | hreply
    · rw [hreply,(ht.formed hw).pending hopen]
      intro h
      cases h
    · exact hreply
  case uncharged =>
    intro k d d' hn hl ht hk
    obtain ⟨s₁,s₂,hs₁,hs₂,ho⟩ := hp hn hl ht hk
    rw [hs₁,hs₂,ho.state]
  case same =>
    intro k d d' r hn hl ht hk hopen hd'
    obtain ⟨s₁,s₂,-,-,ho⟩ := hp hn hl ht hk
    obtain ⟨hr,hreplays⟩ := ho.ok hopen hd'
    exact ⟨hr,(hbatch ht hk).mp hreplays⟩
  case replay =>
    intro k d d' hn hl ht hk hasks hsame
    obtain ⟨s₁,s₂,-,-,ho⟩ := hp hn hl ht hk
    rw [ho.asked hasks,if_pos ((hbatch ht hk).mpr hsame)]
    rfl
  case conflict =>
    intro k d d' hn hl ht hk hasks hother
    obtain ⟨s₁,s₂,-,-,ho⟩ := hp hn hl ht hk
    rw [ho.asked hasks,if_neg fun hreplays => hother ((hbatch ht hk).mp hreplays)]
  case first =>
    intro hnone hfree k d d' hkn ht hk
    obtain ⟨s₁,s₂,hs₁,hs₂,ho⟩ := ht.advanced hw
    have habsent:=row_absent hw hnone hfree hkn.le
    rw [hs₁,← hk] at habsent
    obtain ⟨hstate,hok⟩ := ho.absent habsent (hfree k d d' hkn ht hk)
    refine ⟨by rw [hs₁,hs₂,hstate],?_⟩
    intro hopen r hd'
    rw [hok r hd',hd'] at hopen
    cases hopen
end

def uniform (b : UInt8) : Batch :=
  ⟨[List.replicate 256 b],List.cons_ne_nil _ _,Nat.le_of_ble_eq_true rfl,by
    intro m hm
    rw [List.mem_singleton.mp hm,List.length_replicate]
    rfl⟩

def subscriber : AccountRecord := ⟨Block.fill 32 1,.active 200000,Block.fill 32 2⟩

def tagService : Service :=
  ⟨blankCodec,quietIo,fun text => Block.fill 32 (text.getLastD 0),4⟩

def uniformStart (b : UInt8) (now : UInt64) : Act := .start (.v2 subscriber (Block.fill 32 3) (uniform b)) now
def signStep (i : ℕ) : Act := .step i true fun _ _ => some (List.replicate 256 5)

/-- The batch is stored, then asked for again, and its id used with another batch. -/
def askedAgain : List Act :=
  [uniformStart 7 0,uniformStart 7 9,uniformStart 8 9,signStep 0,signStep 0,signStep 0,signStep 0,
    .pruneMintResults 9,signStep 1,signStep 2]

/-- The batch is asked for again when its first result has expired. -/
def storedAgain : List Act :=
  [uniformStart 7 0,signStep 0,signStep 0,signStep 0,signStep 0,
    uniformStart 7 90000,signStep 1,signStep 1,signStep 1,signStep 1]

theorem expired_batch_stored_again :
    (tagService.worldAt ⟨.memory StoreState.empty,0,[]⟩ storedAgain 10).calls.map
        (fun c => (c.request.requestKey,c.now))=[(Block.fill 32 3,0),(Block.fill 32 3,90000)] ∧
    (tagService.worldAt ⟨.memory StoreState.empty,0,[]⟩ storedAgain 10).calls.map Call.reply =
      [some (.ok .stored),some (.ok .stored)] ∧
    ((tagService.worldAt ⟨.memory StoreState.empty,0,[]⟩ storedAgain 10).backend.state.mintResults.get
      (Block.fill 32 3)).map MintResult.expiresAt=some 180000 :=
  ⟨by decide +kernel,by decide +kernel,by decide +kernel⟩

def storingCall : Call :=
  ⟨(Submission.v2 subscriber (Block.fill 32 3) (uniform 7)).request tagService.sha256,0,
    .committing [List.replicate 256 5] ⟨Block.fill 32 1,0,3600,1,4⟩,none⟩

def storedCall : Call :=
  {storingCall with phase := .done (.ok [List.replicate 256 5]),reply := some (.ok .stored)}

theorem batch_asked_again_reused :
    ((tagService.worldAt ⟨.memory StoreState.empty,0,[]⟩ askedAgain 10).calls.map Call.phase) =
      [.done (.ok [List.replicate 256 5]),.done (.ok [List.replicate 256 5]),.done (.error .conflict)] ∧
    tagService.Reused ⟨.memory StoreState.empty,0,[]⟩ askedAgain 6 10 storingCall storedCall
      [List.replicate 256 5] := by
  refine ⟨by decide +kernel,?_⟩
  have hs : ∀ x∈askedAgain.flatMap Act.texts, ∀ y∈askedAgain.flatMap Act.texts,
      tagService.sha256 x=tagService.sha256 y → x=y := by decide +kernel
  have hl : ∀ k<10, ∀ c∈(tagService.worldAt ⟨.memory empty,0,[]⟩ askedAgain k).calls,
      c.now<90000 := by decide +kernel
  apply stored_batch_reused tagService askedAgain empty 0
    (fun x hx y hy h => hs x hx y hy h) ⟨0,true,_,rfl,by decide +kernel,by decide +kernel⟩ rfl rfl
  intro k _ hk
  refine ⟨?_,?_⟩
  · rintro c c' ⟨i,_,_,_,hc,_⟩ _
    exact hl k hk c (mem_of_getElem? hc)
  · intro now hn
    have hm : Act.pruneMintResults now∈askedAgain := mem_of_getElem? hn
    simp only [askedAgain,uniformStart,signStep,mem_cons,not_mem_nil,or_false,
      reduceCtorEq,false_or,Act.pruneMintResults.injEq] at hm
    rw [hm]
    decide +kernel
end NilVpn.Portal.Mint
