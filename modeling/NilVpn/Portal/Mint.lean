import NilVpn.Portal.Auth

/-!
# Subscription minting and its quota (nil-portal/src/mint.rs:167-348)

A request reads the clock once, at its start; its commit may come later. Requests interleave with one
another and with pruning, under a clock that does not go back.
-/

namespace NilVpn.Portal.Mint
open StoreState Base Option List Table

def mintAccountRateWindow : UInt64 := 3600
def mintResultTtlSecs : UInt64 := 24*60*60+60*60

structure MintRequest where
  record : AccountRecord
  (requestKey requestHash : Hash)
  blindMessages : List Bytes
  batchCost : UInt32
  deriving DecidableEq

def quotaDomain : Bytes := ascii "nil/subscription-mint/quota/v1"++[0]

def windowStart (now : UInt64) : UInt64 := now - now % mintAccountRateWindow

def signOne (sign : ℕ → Bytes → Option Bytes) (i : ℕ) (message : Bytes) : Except ApiError Bytes :=
  match sign i message with
  | none => .error .internal
  | some signature =>
    if signature.length*2≠blindTokenHexLen then .error .internal else .ok signature

inductive Phase
  | looking
  | admitting
  | signing
  | committing (signatures : List Bytes) (quota : MintQuota)
  | done (result : Except ApiError (List Bytes))
  deriving DecidableEq

def Phase.isDone : Phase → Bool
  | done _ => true
  | _ => false

/-- `reply` is what its `commit_mint` returned. -/
structure Call where
  request : MintRequest
  now : UInt64
  phase : Phase
  reply : Option (Except StoreError MintCommit)
  deriving DecidableEq

structure World where
  backend : Backend
  clock : UInt64
  calls : List Call

/-- `admitted` is the verdict of the process-local limiter, `sign` the signer by
position in the batch: both arbitrary. -/
inductive Event
  | tick (now : UInt64)
  | start (request : MintRequest)
  | step (i : ℕ) (io : Io) (admitted : Bool) (sign : ℕ → Bytes → Option Bytes)
  | pruneMintResults (io : Io)

def lookupPhase : Except StoreError MintLookup → Phase
  | .error _ => .done (.error .internal)
  | .ok (.replay blindSigs) => .done (.ok blindSigs)
  | .ok .conflict => .done (.error .conflict)
  | .ok .missing => .admitting

def admitPhase (c : Call) (admitted : Bool) : Phase :=
  if (c.request.record.entitlement.activeUntil c.now).isNone then .done (.error .paymentRequired)
  else if !admitted then .done (.error .tooManyRequests)
  else .signing

def commitPhase (signatures : List Bytes) : Except StoreError MintCommit → Phase
  | .error _ => .done (.error .internal)
  | .ok .stored => .done (.ok signatures)
  | .ok (.replay blindSigs) => .done (.ok blindSigs)
  | .ok .conflict => .done (.error .conflict)
  | .ok .quotaExceeded => .done (.error .tooManyRequests)

section
variable (codec : Codec) (sha256 : Bytes → Hash) (accountRateMax : UInt32)
def quotaKey (account : Hash) : Hash := sha256 (quotaDomain++account.val)

def mintQuota (account : Hash) (cost max : UInt32) (now : UInt64) : Except ApiError MintQuota := do
  let windowEnd ← okOr (checkedAdd (windowStart now) mintAccountRateWindow) .internal
  .ok ⟨quotaKey sha256 account,windowStart now,windowEnd,cost,max⟩

def signedPhase (c : Call) (sign : ℕ → Bytes → Option Bytes) : Phase :=
  match collectIdx (signOne sign) 0 c.request.blindMessages with
  | .error e => .done (.error e)
  | .ok signatures =>
    match mintQuota sha256 c.request.record.accountNumber c.request.batchCost accountRateMax c.now with
    | .error e => .done (.error e)
    | .ok quota => .committing signatures quota

def Call.result (c : Call) (signatures : List Bytes) : MintResult :=
  ⟨c.request.requestHash,signatures,saturatingAdd c.now mintResultTtlSecs⟩

def lookup (b : Backend) (c : Call) (io : Io) : Backend × Except StoreError MintLookup :=
  b.perform codec io none fun s => s.lookupMint c.request.requestKey c.request.requestHash c.now

def commit (b : Backend) (c : Call) (signatures : List Bytes) (quota : MintQuota) (io : Io) :
    Backend × Except StoreError MintCommit :=
  b.perform codec io (refuseMint (c.result signatures) c.now) fun s =>
    s.commitMint c.request.requestKey (c.result signatures) quota c.now

def prune (b : Backend) (now : UInt64) (io : Io) : Backend × Except StoreError ℕ :=
  b.perform codec io none fun s => s.pruneMintResults now

def World.advance (w : World) (c : Call) (io : Io) (admitted : Bool)
    (sign : ℕ → Bytes → Option Bytes) : Backend × Call :=
  match c.phase with
  | .looking =>
    let r:=lookup codec w.backend c io
    (r.1,{c with phase := lookupPhase r.2})
  | .admitting => (w.backend,{c with phase := admitPhase c admitted})
  | .signing => (w.backend,{c with phase := signedPhase sha256 accountRateMax c sign})
  | .committing signatures quota =>
    let r:=commit codec w.backend c signatures quota io
    (r.1,{c with phase := commitPhase signatures r.2,reply := some r.2})
  | .done _ => (w.backend,c)

def World.step (w : World) : Event → World
  | .tick now => if w.clock≤now then {w with clock := now} else w
  | .start request => {w with calls := w.calls++[⟨request,w.clock,.looking,none⟩]}
  | .step i io admitted sign =>
    match w.calls[i]? with
    | none => w
    | some c =>
      let r:=w.advance codec sha256 accountRateMax c io admitted sign
      {w with backend := r.1,calls := w.calls.set i r.2}
  | .pruneMintResults io => {w with backend := (prune codec w.backend w.clock io).1}

def World.run (w : World) (es : List Event) : World :=
  runFrom (World.step codec sha256 accountRateMax) w es
end

def World.spent (w : World) (account : Hash) (n : ℕ) : ℕ :=
  ((w.calls.filter fun c => c.request.record.accountNumber=account &&
      c.now.toNat / mintAccountRateWindow.toNat=n&&c.reply=some (.ok .stored)).map
    fun c => c.request.batchCost.toNat).sum

abbrev Quotas := Table (Hash × UInt64) QuotaRow
def Backend.quotas (b : Backend) : Quotas := b.state.mintQuotas
def usedAt (t : Quotas) (k : Hash × UInt64) : ℕ := (t.get k).elim 0 fun row => row.used.toNat

def Charges (t : Quotas) (q : MintQuota) (t' : Quotas) : Prop :=
  ∃ next : UInt32, next.toNat=usedAt t (q.quotaKey,q.windowStart)+q.cost.toNat ∧
    next.toNat≤q.max.toNat ∧ t'=t.insert (q.quotaKey,q.windowStart) ⟨q.windowEnd,next,q.max⟩

def CommitPlan (t : Quotas) (q : MintQuota) : Plan MintCommit → Prop
  | .answer state reply => state.mintQuotas=t ∧ reply≠.ok .stored
  | .write state reply => Charges t q state.mintQuotas ∧ reply=.stored

lemma chargeMint_plan (s : StoreState) (key : Hash) (r : MintResult) (q : MintQuota)
    (now : UInt64) : CommitPlan s.mintQuotas q (s.chargeMint key r q now) := by
  unfold chargeMint
  split
  · exact ⟨rfl,(by simp)⟩
  split
  · exact ⟨rfl,(by simp)⟩
  dsimp only
  split
  · exact ⟨rfl,(by simp)⟩
  split
  · exact ⟨rfl,(by simp)⟩
  next hf =>
    split
    · exact ⟨rfl,(by simp)⟩
    next hm =>
      refine ⟨⟨_,?_,?_,rfl⟩,rfl⟩
      · rw [UInt32.toNat_add,Nat.mod_eq_of_lt (not_le.mp hf),usedAt]
        cases s.mintQuotas.get (q.quotaKey,q.windowStart) with
        | none | some => rfl
      · exact UInt32.le_iff_toNat_le.mp (UInt32.not_lt.mp hm)

lemma commitMint_plan (s : StoreState) (key : Hash) (r : MintResult) (q : MintQuota)
    (now : UInt64) : CommitPlan s.mintQuotas q (s.commitMint key r q now) := by
  have hs : (s.living key now).mintQuotas=s.mintQuotas := living_same.2.2.2
  simp only [commitMint]
  split
  · refine ⟨hs,?_⟩
    intro h
    split at h
    · cases h
    · cases h
  · rw [← hs]
    exact chargeMint_plan _ key r q now

section
variable (codec : Codec)
variable (b : Backend)
lemma lookup_spec (c : Call) (io : Io) : Backend.quotas (lookup codec b c io).1=Backend.quotas b := by
  have hp : (b.state.lookupMint c.request.requestKey c.request.requestHash c.now).state.mintQuotas =
      b.state.mintQuotas := by
    unfold lookupMint
    split
    · rfl
    · rfl
  rcases (Backend.perform_performed codec io none
      (fun s => s.lookupMint c.request.requestKey c.request.requestHash c.now) b).state_cases with h | h
  · exact congrArg mintQuotas h
  · exact (congrArg mintQuotas h).trans hp

lemma commit_spec (c : Call) (sigs : List Bytes) (q : MintQuota) (io : Io) :
    (Backend.quotas (commit codec b c sigs q io).1=Backend.quotas b ∧
      (commit codec b c sigs q io).2≠.ok .stored) ∨
    Charges (Backend.quotas b) q (Backend.quotas (commit codec b c sigs q io).1) := by
  have hpl:=commitMint_plan b.state c.request.requestKey (c.result sigs) q c.now
  have h:=Backend.perform_performed codec io (refuseMint (c.result sigs) c.now)
    (fun s => s.commitMint c.request.requestKey (c.result sigs) q c.now) b
  unfold commit Backend.quotas
  generalize b.perform codec io _ _=out at h ⊢
  obtain ⟨b',re⟩ := out
  dsimp only at h ⊢
  generalize b'.state=s' at h ⊢
  cases h with
  | failed e => exact .inl ⟨rfl,nofun⟩
  | answered st re hr hp =>
    rw [hp] at hpl
    exact .inl hpl
  | written st re hr hp =>
    rw [hp] at hpl
    exact .inr hpl.1
  | uncertain st re e hr hp =>
    rw [hp] at hpl
    exact .inr hpl.1

lemma prune_spec (now : UInt64) (io : Io) : Backend.quotas (prune codec b now io).1=Backend.quotas b ∨
    Backend.quotas (prune codec b now io).1 =
      (Backend.quotas b).retain fun _ row => now < row.windowEnd := by
  have hp : (b.state.pruneMintResults now).state.mintQuotas =
      b.state.mintQuotas.retain fun _ row => now < row.windowEnd := by
    simp only [pruneMintResults]
    split
    · rfl
    · rfl
  rcases (Backend.perform_performed codec io none
      (fun s => s.pruneMintResults now) b).state_cases with h | h
  · exact .inl (congrArg mintQuotas h)
  · exact .inr ((congrArg mintQuotas h).trans hp)
end

lemma rateWindow_toNat : mintAccountRateWindow.toNat=3600 := rfl

lemma windowStart_toNat (now : UInt64) : (windowStart now).toNat=now.toNat / 3600*3600 := by
  have hle : now % mintAccountRateWindow≤now := by
    rw [UInt64.le_iff_toNat_le,UInt64.toNat_mod]
    exact Nat.mod_le _ _
  rw [windowStart,UInt64.toNat_sub_of_le _ _ hle,UInt64.toNat_mod,rateWindow_toNat]
  have := Nat.div_add_mod now.toNat 3600
  omega

lemma sum_map_set {α : Type} (f : α → ℕ) {l : List α} {i : ℕ} {a : α} (h : l[i]?=some a) (b : α) :
    ((l.set i b).map f).sum+f a=(l.map f).sum+f b := by
  induction l generalizing i with
  | nil => cases h
  | cons x l ih =>
    cases i with
    | zero | succ => grind

section
variable (sha256 : Bytes → Hash) (accountRateMax : UInt32)
def Call.quotaRow (c : Call) : Hash × UInt64 :=
  (quotaKey sha256 c.request.record.accountNumber,windowStart c.now)

def Call.charge (k : Hash × UInt64) (c : Call) : ℕ :=
  if c.quotaRow sha256=k ∧ c.reply=some (.ok .stored) then c.request.batchCost.toNat else 0

def World.charged (w : World) (k : Hash × UInt64) : ℕ := (w.calls.map (Call.charge sha256 k)).sum

structure Call.Ok (c : Call) : Prop where
  pending : c.phase.isDone=false → c.reply=none
  quoted : ∀ signatures q, c.phase=.committing signatures q →
    mintQuota sha256 c.request.record.accountNumber c.request.batchCost accountRateMax c.now=.ok q

/-- A row that is gone was never charged, or its window is over and with it every
request that could charge it. -/
structure World.Sound (w : World) : Prop where
  calls : ∀ c∈w.calls, c.Ok sha256 accountRateMax
  capped : ∀ k, w.charged sha256 k≤accountRateMax.toNat
  present : ∀ k row, (Backend.quotas w.backend).get k=some row → w.charged sha256 k ≤ row.used.toNat ∧
      (w.charged sha256 k=0 ∨ row.windowEnd.toNat=k.2.toNat+3600)
  gone : ∀ k, (Backend.quotas w.backend).get k=none → w.charged sha256 k=0 ∨
    (k.2.toNat+3600≤w.clock.toNat ∧ ∀ c∈w.calls, c.quotaRow sha256=k → c.phase.isDone=true)

variable {sha256 accountRateMax}
lemma mintQuota_eq_ok {account : Hash} {c max : UInt32} {now : UInt64} {q : MintQuota}
    (h : mintQuota sha256 account c max now=.ok q) :
    q.quotaKey=quotaKey sha256 account ∧ q.windowStart=windowStart now ∧
      q.windowEnd.toNat=(windowStart now).toNat+3600 ∧ q.cost=c ∧ q.max=max := by
  unfold mintQuota at h
  obtain ⟨we,he,hq⟩ := except_bind_ok h
  have hs:=checkedAdd_eq_some.mp (okOr_eq_ok he)
  rw [rateWindow_toNat] at hs
  rw [← Except.ok.inj hq]
  exact ⟨rfl,rfl,hs,rfl,rfl⟩

lemma Call.charge_of_pending {c : Call} (h : c.reply=none) (k : Hash × UInt64) : c.charge sha256 k=0 := by
  apply if_neg
  rintro ⟨-,hr⟩
  rw [h] at hr
  cases hr

def World.put (w : World) (i : ℕ) (r : Backend × Call) : World :=
  {w with backend := r.1,calls := w.calls.set i r.2}

section
variable {w : World} {i : ℕ} {c : Call} {r : Backend × Call}
section
variable (hw : w.Sound sha256 accountRateMax)
include hw
lemma World.Sound.calls_put (hr : r.2.Ok sha256 accountRateMax) :
    ∀ d∈(w.put i r).calls, d.Ok sha256 accountRateMax :=
  forall_replaced hw.calls hr

section
variable (hi : w.calls[i]?=some c)
include hi
lemma World.Sound.charged_put (ho : c.phase.isDone=false) (k : Hash × UInt64) :
    (w.put i r).charged sha256 k=w.charged sha256 k+r.2.charge sha256 k := by
  have hp:=(hw.calls c (mem_of_getElem? hi)).pending ho
  have hs:=sum_map_set (Call.charge sha256 k) hi r.2
  rw [Call.charge_of_pending hp] at hs
  exact hs

lemma World.Sound.gone_put (hon : c.phase.isDone=false) (hr : r.2.quotaRow sha256=c.quotaRow sha256)
    {k : Hash × UInt64} (hn : (Backend.quotas w.backend).get k=none)
    (hc : r.2.charge sha256 k=0) :
    (w.put i r).charged sha256 k=0 ∨ (k.2.toNat+3600≤w.clock.toNat ∧
      ∀ d∈(w.put i r).calls, d.quotaRow sha256=k → d.phase.isDone) := by
  rcases hw.gone k hn with h | ⟨ho,hdn⟩
  · left
    rw [hw.charged_put hi hon,h,hc]
  · right
    refine ⟨ho,?_⟩
    intro d hd hk
    rcases mem_or_eq_of_mem_set hd with h | h
    · exact hdn d h hk
    · grind

section
variable (ho : c.phase.isDone=false)
include ho
lemma World.Sound.keep (hrow : r.2.quotaRow sha256=c.quotaRow sha256) (hr : r.2.reply≠some (.ok .stored))
    (hok : r.2.Ok sha256 accountRateMax) (hq : Backend.quotas r.1=Backend.quotas w.backend) :
    (w.put i r).Sound sha256 accountRateMax := by
  have hc : ∀ k, r.2.charge sha256 k=0 := by
    intro k
    apply if_neg
    rintro ⟨-,h⟩
    exact hr h
  have hs : ∀ k, (w.put i r).charged sha256 k=w.charged sha256 k := by
    intro k
    rw [hw.charged_put hi ho,hc,Nat.add_zero]
  refine ⟨hw.calls_put hok,?_,?_,?_⟩
  · intro k
    rw [hs]
    exact hw.capped k
  · intro k row hg
    rw [hs]
    apply hw.present k row
    rw [← hq]
    exact hg
  · intro k hg
    have hn : (Backend.quotas w.backend).get k=none := by
      rw [← hq]
      exact hg
    exact hw.gone_put hi ho hrow hn (hc k)

lemma World.Sound.charged_le_usedAt :
    w.charged sha256 (c.quotaRow sha256)≤usedAt (Backend.quotas w.backend) (c.quotaRow sha256) := by
  unfold usedAt
  cases hg : (Backend.quotas w.backend).get (c.quotaRow sha256) with
  | some row => exact (hw.present _ row hg).1
  | none =>
    rcases hw.gone _ hg with h | ⟨-,hd⟩
    · exact h.le
    · rw [hd c (mem_of_getElem? hi) rfl] at ho
      cases ho

lemma World.Sound.charge (hre : r.2.request=c.request) (hnow : r.2.now=c.now)
    (hok : r.2.Ok sha256 accountRateMax) {q : MintQuota}
    (hq : mintQuota sha256 c.request.record.accountNumber c.request.batchCost accountRateMax c.now=.ok q)
    (h : Charges (Backend.quotas w.backend) q (Backend.quotas r.1)) :
    (w.put i r).Sound sha256 accountRateMax := by
  obtain ⟨hkey,hs,he,hc,hm⟩ := mintQuota_eq_ok hq
  obtain ⟨next,hn,hf,hin⟩ := h
  have hr : r.2.quotaRow sha256=c.quotaRow sha256 := by rw [Call.quotaRow,hre,hnow,Call.quotaRow]
  have hk : (q.quotaKey,q.windowStart)=c.quotaRow sha256 := by rw [hkey,hs,Call.quotaRow]
  rw [hk,hc] at hn
  rw [hk] at hin
  rw [hm] at hf
  have hu:=hw.charged_le_usedAt hi ho
  have hch : r.2.charge sha256 (c.quotaRow sha256) ≤ c.request.batchCost.toNat := by
    unfold Call.charge
    rw [hre]
    split
    · exact le_rfl
    · exact Nat.zero_le _
  have ht : ∀ k, k≠c.quotaRow sha256 → r.2.charge sha256 k=0 := by
    intro k hne
    apply if_neg
    rintro ⟨h,-⟩
    exact hne (h.symm.trans hr)
  have hnew : (w.put i r).charged sha256 (c.quotaRow sha256)≤next.toNat := by
    rw [hw.charged_put hi ho,hn]
    omega
  refine ⟨hw.calls_put hok,?_,?_,?_⟩
  · intro k
    by_cases hne : k=c.quotaRow sha256
    · rw [hne]
      exact hnew.trans hf
    · rw [hw.charged_put hi ho,ht k hne,Nat.add_zero]
      exact hw.capped k
  · intro k row hg
    change (Backend.quotas r.1).get k=some row at hg
    rw [hin] at hg
    by_cases hne : k=c.quotaRow sha256
    · grind [get_insert_self]
    · simp_all [get_insert_ne,hw.charged_put,hw.present]
  · intro k hg
    change (Backend.quotas r.1).get k=none at hg
    rw [hin] at hg
    by_cases hne : k=c.quotaRow sha256
    · rw [hne,get_insert_self] at hg
      cases hg
    · rw [get_insert_ne _ _ _ _ hne] at hg
      exact hw.gone_put hi ho hr hg (ht k hne)
end
end
end
end

lemma signedPhase_quoted {c : Call} {s : ℕ → Bytes → Option Bytes} {sigs : List Bytes}
    {q : MintQuota} (h : signedPhase sha256 accountRateMax c s=.committing sigs q) :
    mintQuota sha256 c.request.record.accountNumber c.request.batchCost accountRateMax c.now=.ok q := by
  unfold signedPhase at h
  split at h
  · cases h
  · split at h
    · cases h
    next hq =>
      cases h
      exact hq

lemma commitPhase_isDone (sigs : List Bytes) (r : Except StoreError MintCommit) :
    (commitPhase sigs r).isDone := by
  cases r with
  | error e => rfl
  | ok co =>
    cases co with
    | stored | replay | conflict | quotaExceeded => rfl

lemma lookupPhase_not_committing (r : Except StoreError MintLookup) (sigs : List Bytes)
    (q : MintQuota) : lookupPhase r≠.committing sigs q := by
  cases r with
  | error e =>
    intro h
    cases h
  | ok f =>
    cases f with
    | missing | replay | conflict =>
      intro h
      cases h

lemma admitPhase_not_committing (c : Call) (admitted : Bool) (sigs : List Bytes)
    (q : MintQuota) : admitPhase c admitted≠.committing sigs q := by
  unfold admitPhase
  intro h
  split at h
  · cases h
  · split at h
    · cases h
    · cases h

variable {w : World}
/-- Before its commit a request has no reply, so only the phase can break `Call.Ok`. -/
lemma World.Sound.move {i : ℕ} {c : Call} (hw : w.Sound sha256 accountRateMax) (hi : w.calls[i]?=some c)
    (ho : c.phase.isDone=false) {b : Backend} {n : Phase}
    (hn : ∀ sg q, n=.committing sg q →
      mintQuota sha256 c.request.record.accountNumber c.request.batchCost accountRateMax c.now=.ok q)
    (hb : Backend.quotas b=Backend.quotas w.backend) :
    (w.put i (b,{c with phase := n})).Sound sha256 accountRateMax := by
  have hr:=(hw.calls c (mem_of_getElem? hi)).pending ho
  exact hw.keep hi ho rfl (by simp [hr]) ⟨fun _ => hr,hn⟩ hb

lemma advance_sound (codec : Codec) {i : ℕ} {c : Call} (hw : w.Sound sha256 accountRateMax)
    (hi : w.calls[i]?=some c) (io : Io) (admitted : Bool) (sign : ℕ → Bytes → Option Bytes) :
    (w.put i (w.advance codec sha256 accountRateMax c io admitted sign)).Sound sha256
      accountRateMax := by
  cases hp : c.phase with
  | looking =>
    simp only [World.advance,hp]
    refine hw.move hi (by rw [hp]; rfl) ?_ (lookup_spec ..)
    exact fun sg q h => absurd h (lookupPhase_not_committing _ sg q)
  | admitting =>
    simp only [World.advance,hp]
    refine hw.move hi (by rw [hp]; rfl) ?_ rfl
    exact fun sg q h => absurd h (admitPhase_not_committing c admitted sg q)
  | signing =>
    simp only [World.advance,hp]
    exact hw.move hi (by rw [hp]; rfl) (fun _ _ h => signedPhase_quoted (c := c) h) rfl
  | committing sg qu =>
    have ho : c.phase.isDone=false := by rw [hp]; rfl
    have hs:=commit_spec codec w.backend c sg qu io
    simp only [World.advance,hp]
    generalize commit codec w.backend c sg qu io=out at hs ⊢
    have hd:=commitPhase_isDone sg out.2
    have hk : Call.Ok sha256 accountRateMax
        {c with phase := commitPhase sg out.2,reply := some out.2} := by
      refine ⟨?_,?_⟩
      · intro h
        rw [hd] at h
        cases h
      · intro ss q h
        rw [show commitPhase sg out.2=.committing ss q from h] at hd
        cases hd
    rcases hs with ⟨hsm,hr⟩ | hch
    · exact hw.keep hi ho rfl (fun h => hr (Option.some.inj h)) hk hsm
    · exact hw.charge hi ho rfl rfl hk ((hw.calls c (mem_of_getElem? hi)).quoted _ _ hp) hch
  | done re =>
    have hsl : w.calls.set i c=w.calls := by
      obtain ⟨hlt,hg⟩ := List.getElem?_eq_some_iff.mp hi
      rw [← hg]
      exact set_getElem_self hlt
    simp only [World.advance,hp,World.put,hsl]
    exact hw

lemma tick_sound (hw : w.Sound sha256 accountRateMax) {now : UInt64} (h : w.clock≤now) :
    World.Sound sha256 accountRateMax {w with clock := now} := by
  refine ⟨hw.calls,hw.capped,hw.present,?_⟩
  intro k hn
  rcases hw.gone k hn with hz | ⟨ho,hd⟩
  · exact .inl hz
  · exact .inr ⟨ho.trans (UInt64.le_iff_toNat_le.mp h),hd⟩

lemma start_sound (hw : w.Sound sha256 accountRateMax) (r : MintRequest) :
    World.Sound sha256 accountRateMax {w with calls := w.calls++[⟨r,w.clock,.looking,none⟩]} := by
  have hs : ∀ k, World.charged sha256 {w with calls := w.calls++[⟨r,w.clock,.looking,none⟩]} k =
      w.charged sha256 k := by
    intro k
    simp only [World.charged,map_append,map_cons,map_nil,sum_append,
      sum_cons,sum_nil,Call.charge_of_pending,Nat.add_zero]
  refine ⟨?_,?_,?_,?_⟩
  · intro c hc
    rcases mem_append.mp hc with h | h
    · exact hw.calls c h
    · rw [mem_singleton.mp h]
      exact ⟨fun _ => rfl,nofun⟩
  · intro k
    rw [hs]
    exact hw.capped k
  · intro k row hg
    rw [hs]
    exact hw.present k row hg
  · intro k hg
    rw [hs]
    rcases hw.gone k hg with hz | ⟨ho,hd⟩
    · exact .inl hz
    · refine .inr ⟨ho,?_⟩
      intro c hc hk
      rcases mem_append.mp hc with h | h
      · exact hd c h hk
      · exfalso
        rw [mem_singleton.mp h] at hk
        have hst:=windowStart_toNat w.clock
        have hlt:=Nat.lt_div_mul_add (a := w.clock.toNat) (b := 3600) (by decide)
        rw [← hk] at ho
        simp only [Call.quotaRow] at ho
        omega

/-- No row that is due belongs to a request that has yet to answer. -/
def World.prunesSafely (sha256 : Bytes → Hash) (w : World) : Event → Bool
  | .pruneMintResults _ => w.calls.all fun c => c.phase.isDone ||
      (w.backend.state.mintQuotas.get (c.quotaRow sha256)).all fun row => w.clock < row.windowEnd
  | _ => true

lemma pruned_sound (hw : w.Sound sha256 accountRateMax) {io : Io}
    (hs : w.prunesSafely sha256 (.pruneMintResults io)) {b : Backend}
    (hb : Backend.quotas b=(Backend.quotas w.backend).retain fun _ row => w.clock < row.windowEnd) :
    World.Sound sha256 accountRateMax {w with backend := b} := by
  refine ⟨hw.calls,hw.capped,?_,?_⟩
  · intro k row hg
    rw [hb,get_retain] at hg
    exact hw.present k row (filter_eq_some_iff.mp hg).1
  · intro k hg
    change (Backend.quotas b).get k=none at hg
    rw [hb,get_retain] at hg
    cases hr : (Backend.quotas w.backend).get k with
    | none => exact hw.gone k hr
    | some row =>
      rw [hr,filter_some] at hg
      have hd : row.windowEnd≤w.clock := by simp_all
      rcases (hw.present k row hr).2 with hz | he
      · exact .inl hz
      · refine .inr ⟨?_,?_⟩
        · rw [← he]
          exact UInt64.le_iff_toNat_le.mp hd
        · intro c hc hk
          by_contra ho
          have hkp:=List.all_eq_true.mp hs c hc
          rw [Bool.eq_false_iff.mpr ho,Bool.false_or,hk,
            show w.backend.state.mintQuotas.get k=some row from hr,all_some] at hkp
          exact absurd (of_decide_eq_true hkp) (UInt64.not_lt.mpr hd)

lemma step_sound (codec : Codec) (hw : w.Sound sha256 accountRateMax) (e : Event)
    (hs : w.prunesSafely sha256 e) :
    (w.step codec sha256 accountRateMax e).Sound sha256 accountRateMax := by
  cases e with
  | tick now =>
    simp only [World.step]
    split
    next h => exact tick_sound hw h
    · exact hw
  | start re => exact start_sound hw re
  | step i io ad si =>
    simp only [World.step]
    cases hi : w.calls[i]? with
    | none => exact hw
    | some c => exact advance_sound codec hw hi io ad si
  | pruneMintResults io =>
    rcases prune_spec codec w.backend w.clock io with h | h
    · simp only [World.step]
      refine ⟨hw.calls,hw.capped,?_,?_⟩
      · intro k row hg
        rw [h] at hg
        exact hw.present k row hg
      · intro k hg
        rw [h] at hg
        exact hw.gone k hg
    · exact pruned_sound hw hs h
end
section
variable (codec : Codec) (sha256 : Bytes → Hash) (accountRateMax : UInt32)
lemma run_sound {w : World} (hw : w.Sound sha256 accountRateMax) (es : List Event)
    (hs : Along (World.step codec sha256 accountRateMax) (fun w e => w.prunesSafely sha256 e=true) w es) :
    (w.run codec sha256 accountRateMax es).Sound sha256 accountRateMax :=
  Along.invariant (I := World.Sound sha256 accountRateMax)
    (fun _ e hw he => step_sound codec hw e he) hw es hs

lemma sum_filter_map_le {α : Type} {p : α → Bool} {f g : α → ℕ} (l : List α)
    (h : ∀ a, p a → f a≤g a) : ((l.filter p).map f).sum≤(l.map g).sum := by
  induction l with
  | nil => exact le_rfl
  | cons a l ih => grind [Nat.add_le_add,ih.trans]

lemma spent_le_charged (w : World) (account : Hash) (n : ℕ) :
    w.spent account n≤w.charged sha256 (quotaKey sha256 account,UInt64.ofNat (n*3600)) := by
  apply sum_filter_map_le
  intro c hc
  simp only [Bool.and_eq_true,decide_eq_true_eq] at hc
  obtain ⟨⟨ha,hw⟩,hr⟩ := hc
  rw [rateWindow_toNat] at hw
  have hs : windowStart c.now=UInt64.ofNat (n*3600) := by
    rw [← hw,← windowStart_toNat,UInt64.ofNat_toNat]
  have ho : c.quotaRow sha256=(quotaKey sha256 account,UInt64.ofNat (n*3600)) := by rw [Call.quotaRow,ha,hs]
  rw [Call.charge,if_pos ⟨ho,hr⟩]

theorem stored_mints_within_cap (w : World) (hstart : w.calls=[]) (es : List Event)
    (hsafe : Along (World.step codec sha256 accountRateMax) (fun w e => w.prunesSafely sha256 e=true)
      w es) (account : Hash) (n : ℕ) :
    (w.run codec sha256 accountRateMax es).spent account n≤accountRateMax.toNat := by
  have hz : ∀ k, w.charged sha256 k=0 := by
    intro k
    rw [World.charged,hstart]
    rfl
  have hw : w.Sound sha256 accountRateMax := by
    refine ⟨?_,?_,?_,?_⟩
    · rw [hstart]
      intro c hc
      cases hc
    · intro k
      rw [hz]
      exact Nat.zero_le _
    · intro k row _
      rw [hz]
      exact ⟨Nat.zero_le _,.inl rfl⟩
    · intro k _
      exact .inl (hz k)
  have hrun:=run_sound codec sha256 accountRateMax hw es hsafe
  exact (spent_le_charged sha256 _ account n).trans (hrun.capped _)
end

def lastSecond : World := ⟨.memory StoreState.empty,3599,[]⟩

def oneToken (key : UInt8) : MintRequest :=
  ⟨⟨Block.fill 32 1,.active 10000,Block.fill 32 2⟩,Block.fill 32 key,Block.fill 32 key,[[key]],1⟩

def mintStep (i : ℕ) : Event :=
  .step i quietIo true fun _ _ => some (List.replicate 256 5)

def pruneStep : Event := .pruneMintResults quietIo

/-- Two requests start in the hour; the second commits after the hour's row is pruned. -/
def lateCommit : List Event :=
  [.start (oneToken 3),.start (oneToken 4),mintStep 0,mintStep 0,mintStep 0,mintStep 0,
    mintStep 1,mintStep 1,mintStep 1,.tick 3600,pruneStep,mintStep 1]

def earlyPrune : List Event :=
  [.start (oneToken 3),.start (oneToken 4),mintStep 0,mintStep 0,mintStep 0,mintStep 0,
    mintStep 1,mintStep 1,mintStep 1,pruneStep,.tick 3600,mintStep 1,pruneStep]

theorem late_commit_over_cap :
    (lastSecond.run blankCodec
      (fun text => Block.fill 32 (text.getLastD 0)) 1 lateCommit).spent (Block.fill 32 1) 0=2 := by
  decide +kernel

theorem early_prune_within_cap :
    (lastSecond.run blankCodec
      (fun text => Block.fill 32 (text.getLastD 0)) 1 earlyPrune).calls.map Call.phase =
      [.done (.ok [List.replicate 256 5]),.done (.error .tooManyRequests)] ∧
    (lastSecond.run blankCodec
      (fun text => Block.fill 32 (text.getLastD 0)) 1 earlyPrune).spent (Block.fill 32 1) 0≤1 :=
  ⟨by decide +kernel,stored_mints_within_cap _ _ 1 lastSecond rfl earlyPrune (by decide +kernel) _ 0⟩
end NilVpn.Portal.Mint
