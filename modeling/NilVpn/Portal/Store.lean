import NilVpn.Base.Block
import NilVpn.Base.Table

/-!
# The Portal's store (nil-portal/src/store/mod.rs, memory.rs)

The code that `InMemoryStore` and `FileStore` share is written once, as a `Plan`: what an operation does to
the maps, and whether the change has to be persisted.
-/

namespace NilVpn.Portal
open Base

abbrev Hash := Block 32

inductive Entitlement
  | none
  | active (untilSecs : UInt64)
  | expired
  deriving DecidableEq

namespace Entitlement
def resolved (e : Entitlement) (now : UInt64) : Entitlement :=
  match e with
  | active untilSecs => if untilSecs≤now then expired else active untilSecs
  | other => other

def activeUntil (e : Entitlement) (now : UInt64) : Option UInt64 :=
  match e.resolved now with
  | active untilSecs => some untilSecs
  | _ => Option.none

/-- When the account lapses; an account without a running period has none to add to. -/
def expiry : Entitlement → ℕ
  | active untilSecs => untilSecs.toNat
  | none | expired => 0

/-- What a period is added to is the greater one of the clock and the held expiry. -/
lemma base_toNat (e : Entitlement) (now : UInt64) :
    ((e.activeUntil now).getD now).toNat=max now.toNat e.expiry := by
  cases e with
  | none | expired => exact (Nat.max_eq_left (Nat.zero_le _)).symm
  | active untilSecs =>
    by_cases h : untilSecs≤now
    · have hle:=UInt64.le_iff_toNat_le.mp h
      simp only [activeUntil,resolved,if_pos h,Option.getD_none,expiry]
      omega
    · have hlt : now.toNat<untilSecs.toNat := by
        rw [UInt64.le_iff_toNat_le] at h
        omega
      simp only [activeUntil,resolved,if_neg h,Option.getD_some,expiry]
      omega
end Entitlement

structure AccountRecord where
  accountNumber : Hash
  entitlement : Entitlement
  authPubkey : Hash
  deriving DecidableEq

inductive StoreError
  | duplicate
  | backend (text : String)
  deriving DecidableEq

inductive SubscriptionActivation
  | newlyActivated (untilSecs : UInt64)
  | replay (untilSecs : UInt64)
  deriving DecidableEq

structure IssuanceResult where
  requestHash : Hash
  blindSig : Bytes
  replayUntil : UInt64
  deriving DecidableEq

inductive IssuanceLookup
  | missing
  | replay (blindSig : Bytes)
  | conflict
  deriving DecidableEq

inductive IssuanceCommit
  | stored
  | replay (blindSig : Bytes)
  | conflict
  deriving DecidableEq

structure MintResult where
  requestHash : Hash
  blindSigs : List Bytes
  expiresAt : UInt64
  deriving DecidableEq

inductive MintLookup
  | missing
  | replay (blindSigs : List Bytes)
  | conflict
  deriving DecidableEq

inductive MintCommit
  | stored
  | replay (blindSigs : List Bytes)
  | conflict
  | quotaExceeded
  deriving DecidableEq

structure MintQuota where
  quotaKey : Hash
  (windowStart windowEnd : UInt64)
  (cost max : UInt32)
  deriving DecidableEq

def MintQuota.isWellFormed (q : MintQuota) (now : UInt64) : Bool :=
  q.windowStart≤now&&now<q.windowEnd&&q.cost≠0&&q.max≠0

structure QuotaRow where
  windowEnd : UInt64
  (used max : UInt32)
  deriving DecidableEq

structure StoreState where
  accounts : Table Hash AccountRecord
  activationResults : Table Hash UInt64
  issuanceResults : Table Hash IssuanceResult
  mintResults : Table Hash MintResult
  mintQuotas : Table (Hash × UInt64) QuotaRow

def StoreState.empty : StoreState := ⟨Table.empty,Table.empty,Table.empty,Table.empty,Table.empty⟩

/-- `answer` leaves the given maps in memory and persists nothing; `write` answers
once the maps are persisted, and puts the old maps back if that fails early. -/
inductive Plan (R : Type)
  | answer (state : StoreState) (reply : Except StoreError R)
  | write (state : StoreState) (reply : R)

def Plan.state {R : Type} : Plan R → StoreState
  | answer state _ | write state _ => state

namespace StoreState
variable (s : StoreState)
def insert (record : AccountRecord) : Plan Unit :=
  if s.accounts.contains record.accountNumber then .answer s (.error .duplicate)
  else .write {s with accounts := s.accounts.insert record.accountNumber record} ()

def get (accountNumber : Hash) : Plan (Option AccountRecord) :=
  .answer s (.ok (s.accounts.get accountNumber))

def activateSubscription (accountNumber activationKey : Hash) (now bySecs : UInt64) :
    Plan (Option SubscriptionActivation) :=
  match s.accounts.get accountNumber with
  | none => .answer s (.ok none)
  | some record =>
    match s.activationResults.get activationKey with
    | some untilSecs => .answer s (.ok (some (.replay untilSecs)))
    | none =>
      let base:=(record.entitlement.activeUntil now).getD now
      let untilSecs:=saturatingAdd base bySecs
      .write { s with
        accounts := s.accounts.insert accountNumber {record with entitlement := .active untilSecs}
        activationResults := s.activationResults.insert activationKey untilSecs }
        (some (.newlyActivated untilSecs))
end StoreState

def IssuanceResult.replays (r : IssuanceResult) (requestHash : Hash) (now : UInt64) : Bool :=
  r.requestHash=requestHash&&now < r.replayUntil&&!r.blindSig.isEmpty

/-- An expired signature is scrubbed; the request-bound claim stays. -/
def IssuanceResult.scrub (now : UInt64) (r : IssuanceResult) : IssuanceResult :=
  if r.replayUntil≤now&&!r.blindSig.isEmpty then {r with blindSig := []} else r

def MintResult.replays (r : MintResult) (requestHash : Hash) : Bool :=
  r.requestHash=requestHash&&!r.blindSigs.isEmpty

namespace StoreState
variable (s : StoreState)
def lookupIssuance (issuanceKey requestHash : Hash) (now : UInt64) : Plan IssuanceLookup :=
  .answer s (.ok (match s.issuanceResults.get issuanceKey with
    | none => .missing
    | some result => if result.replays requestHash now then .replay result.blindSig else .conflict))

def commitIssuance (issuanceKey : Hash) (result : IssuanceResult) (now : UInt64) : Plan IssuanceCommit :=
  match s.issuanceResults.get issuanceKey with
  | some existing =>
    .answer s (.ok (if existing.replays result.requestHash now then .replay existing.blindSig else .conflict))
  | none => .write {s with issuanceResults := s.issuanceResults.insert issuanceKey result} .stored

def pruneIssuanceResults (now : UInt64) : Plan ℕ :=
  let removed:=s.issuanceResults.entries.countP fun e => e.2.replayUntil≤now&&!e.2.blindSig.isEmpty
  let state:={s with issuanceResults := s.issuanceResults.mapVal (IssuanceResult.scrub now)}
  if removed=0 then .answer state (.ok 0) else .write state removed

def mintLookup (requestKey requestHash : Hash) : MintLookup :=
  match s.mintResults.get requestKey with
  | none => .missing
  | some result => if result.replays requestHash then .replay result.blindSigs else .conflict

def mintExpired (requestKey : Hash) (now : UInt64) : Bool :=
  (s.mintResults.get requestKey).any fun result => result.expiresAt≤now

def dropMint (requestKey : Hash) : StoreState := {s with mintResults := s.mintResults.erase requestKey}

def lookupMint (requestKey requestHash : Hash) (now : UInt64) : Plan MintLookup :=
  if s.mintExpired requestKey now then
    .write (s.dropMint requestKey) ((s.dropMint requestKey).mintLookup requestKey requestHash)
  else .answer s (.ok (s.mintLookup requestKey requestHash))

def chargeMint (requestKey : Hash) (result : MintResult) (quota : MintQuota) (now : UInt64) :
    Plan MintCommit :=
  if !quota.isWellFormed now then .answer s (.error (.backend "invalid mint quota window"))
  else if quota.max<quota.cost then .answer s (.ok .quotaExceeded)
  else
    let row:=(s.mintQuotas.get (quota.quotaKey,quota.windowStart)).getD ⟨quota.windowEnd,0,quota.max⟩
    if row.windowEnd≠quota.windowEnd ∨ row.max≠quota.max then
      .answer s (.error (.backend "mint quota window/max conflicts with persisted state"))
    else if 2^32 ≤ row.used.toNat+quota.cost.toNat then .answer s (.ok .quotaExceeded)
    else if quota.max < row.used+quota.cost then .answer s (.ok .quotaExceeded)
    else .write { s with
      mintResults := s.mintResults.insert requestKey result
      mintQuotas := s.mintQuotas.insert (quota.quotaKey,quota.windowStart)
        ⟨quota.windowEnd,row.used+quota.cost,quota.max⟩ } .stored

/-- The maps once an expired result of the key is out of the way. -/
def living (requestKey : Hash) (now : UInt64) : StoreState :=
  if s.mintExpired requestKey now then s.dropMint requestKey else s

lemma living_same {s : StoreState} {requestKey : Hash} {now : UInt64} :
    let t:=s.living requestKey now
    t.accounts=s.accounts ∧ t.activationResults=s.activationResults ∧
      t.issuanceResults=s.issuanceResults ∧ t.mintQuotas=s.mintQuotas := by
  unfold living
  split
  · exact ⟨rfl,rfl,rfl,rfl⟩
  · exact ⟨rfl,rfl,rfl,rfl⟩

/-- An expired row leaves memory even where nothing is persisted afterwards. -/
def commitMint (requestKey : Hash) (result : MintResult) (quota : MintQuota) (now : UInt64) :
    Plan MintCommit :=
  let state:=if s.mintExpired requestKey now then s.dropMint requestKey else s
  match state.mintResults.get requestKey with
  | some existing =>
    .answer state (.ok (if existing.replays result.requestHash then .replay existing.blindSigs else .conflict))
  | none => state.chargeMint requestKey result quota now

def pruneMintResults (now : UInt64) : Plan ℕ :=
  let state:={ s with
    mintResults := s.mintResults.retain fun _ result => now < result.expiresAt
    mintQuotas := s.mintQuotas.retain fun _ row => now < row.windowEnd }
  let removed:=(s.mintResults.len - state.mintResults.len)+(s.mintQuotas.len - state.mintQuotas.len)
  if removed=0 then .answer state (.ok 0) else .write state removed
end StoreState

/-- Commits of an already expired or empty result are refused before the lock is taken. -/
def refuseIssuance (result : IssuanceResult) (now : UInt64) : Option StoreError :=
  if result.replayUntil≤now||result.blindSig.isEmpty then
    some (.backend "refusing to store an expired or empty issuance result")
  else none

def refuseMint (result : MintResult) (now : UInt64) : Option StoreError :=
  if result.expiresAt≤now then some (.backend "refusing to store an already-expired mint result")
  else none

namespace InMemoryStore
def perform {R : Type} (refused : Option StoreError) (plan : StoreState → Plan R) (s : StoreState) :
    StoreState × Except StoreError R :=
  match refused with
  | some e => (s,.error e)
  | none =>
    match plan s with
    | .answer state reply => (state,reply)
    | .write state reply => (state,.ok reply)
end InMemoryStore
end NilVpn.Portal
