import NilVpn.Base.Sql
import NilVpn.Portal.StoreAgreement

/-!
# The Postgres store (nil-portal/src/store/postgres.rs)

Operations run one at a time and the database does not fail. A transaction that is dropped or rolled back
leaves the tables it began with.
-/

namespace NilVpn.Portal.Postgres
open Base Base.Sql

structure AccountRow where
  (entitlement authPubkey : Bytes)
  deriving DecidableEq

structure IssuanceRow where
  requestHash : Bytes
  resultBlob : Option Bytes
  replayUntil : ℤ
  deriving DecidableEq

structure MintRow where
  requestHash : Bytes
  resultBlob : Option Bytes
  expiresAt : ℤ
  deriving DecidableEq

structure MintQuotaRow where
  (windowEnd used maxValue : ℤ)
  deriving DecidableEq

structure Db where
  accounts : Table Bytes AccountRow
  subscriptionActivations : Table Bytes ℤ
  oneShotIssuances : Table Bytes IssuanceRow
  mintResults : Table Bytes MintRow
  mintQuotas : Table (Bytes × ℤ) MintQuotaRow

def Db.empty : Db := ⟨Table.empty,Table.empty,Table.empty,Table.empty,Table.empty⟩

section
variable (db : Db)
def currentUntil (entitlement : Bytes) : Except SqlError ℤ :=
  let part:=splitPart colon entitlement 1
  if part=[] then .ok 0 else castBigint part

def extendedRow (now bySecs : ℤ) (row : AccountRow) : Except SqlError AccountRow := do
  let current ← currentUntil row.entitlement
  let untilSecs ← bigint (max now current+bySecs)
  .ok {row with entitlement := activeText++colon::bigintText untilSecs}

def extendSubscription (accountNumber : Bytes) (now bySecs : ℤ) :
    Except SqlError (Option AccountRow × Db) := do
  let (row,accounts) ← updateKey db.accounts accountNumber (extendedRow now bySecs)
  .ok (row,{db with accounts := accounts})

def claimActivation (key : Bytes) : ℕ × Db :=
  let out:=insertOrIgnore db.subscriptionActivations key 0
  (out.1,{db with subscriptionActivations := out.2})

def finishActivation (key : Bytes) (untilSecs : ℤ) : ℕ × Db :=
  match db.subscriptionActivations.get key with
  | none => (0,db)
  | some _ => (1,{db with subscriptionActivations := db.subscriptionActivations.insert key untilSecs})

def insertIssuance (key : Bytes) (row : IssuanceRow) : ℕ × Db :=
  let out:=insertOrIgnore db.oneShotIssuances key row
  (out.1,{db with oneShotIssuances := out.2})

def pruneIssuance (now : ℤ) : ℕ × Db :=
  let out:=updateWhere db.oneShotIssuances (fun row => row.replayUntil≤now&&row.resultBlob.isSome)
    fun row => {row with resultBlob := none}
  (out.1,{db with oneShotIssuances := out.2})

def deleteExpiredMintKey (key : Bytes) (now : ℤ) : ℕ × Db :=
  let out:=deleteWhere db.mintResults fun k row => k=key&&row.expiresAt≤now
  (out.1,{db with mintResults := out.2})

def pruneMint (now : ℤ) : ℕ × Db :=
  let out:=deleteWhere db.mintResults fun _ row => row.expiresAt≤now
  (out.1,{db with mintResults := out.2})

def insertMint (key : Bytes) (row : MintRow) (now : ℤ) : ℕ × Db :=
  let out:=upsert db.mintResults key row fun old => if old.expiresAt≤now then some row else none
  (if out.1.isSome then 1 else 0,{db with mintResults := out.2})

/-- `RETURNING used`; the constraint is checked on the row that is proposed. -/
def chargeMintQuota (quotaKey : Bytes) (windowStart : ℤ) (row : MintQuotaRow) :
    Except SqlError (Option ℤ × Db) :=
  if 0≤windowStart ∧ windowStart < row.windowEnd ∧ 0 ≤ row.used ∧ 0 < row.maxValue then
    let out:=upsert db.mintQuotas (quotaKey,windowStart) row fun old =>
      if old.windowEnd=row.windowEnd ∧ old.maxValue=row.maxValue ∧ old.used ≤ row.maxValue - row.used
      then some {old with used := old.used+row.used} else none
    .ok (out.1.map MintQuotaRow.used,{db with mintQuotas := out.2})
  else .error .checkViolation

def pruneMintQuota (now : ℤ) : ℕ × Db :=
  let out:=deleteWhere db.mintQuotas fun _ row => row.windowEnd≤now
  (out.1,{db with mintQuotas := out.2})
end

def columns (r : AccountRecord) : Bytes × AccountRow :=
  (hex32 r.accountNumber,⟨entStr r.entitlement,authStr r.authPubkey⟩)

def fromColumns (account : Bytes) (row : AccountRow) : Option AccountRecord := do
  let accountNumber ← unhex32 account
  let entitlement ← entFrom row.entitlement
  let authPubkey ← authFrom row.authPubkey
  return ⟨accountNumber,entitlement,authPubkey⟩

def backend {α : Type} (text : String) : Except StoreError α := .error (.backend text)

def sqlFailed {α : Type} (during : String) : Except SqlError α → Except StoreError α
  | .ok a => .ok a
  | .error e => backend (during++e.text)

section
variable (cipher : ResultCipher)
def issuanceFromRow (row : IssuanceRow) (issuanceKey expectedHash : Hash) (now : UInt64) :
    Except StoreError IssuanceLookup := do
  let storedHash ← okOr (unhex32 row.requestHash) (.backend "one_shot_issuances.request_hash is malformed")
  if storedHash≠expectedHash then return .conflict
  let replayUntil ← okOr (toUnsigned row.replayUntil) (.backend "one_shot_issuances.replay_until is negative")
  if replayUntil≤now then return .conflict
  match row.resultBlob with
  | none => return .conflict
  | some blob =>
    match cipher.openResult .oneShot issuanceKey storedHash replayUntil blob with
    | .ok value => return if value.length*2=blindTokenHexLen then .replay value else .conflict
    | .error _ => return .conflict

def mintFromRow (row : MintRow) (requestKey expectedHash : Hash) (now : UInt64) :
    Except StoreError MintLookup := do
  let storedHash ← okOr (unhex32 row.requestHash) (.backend "mint_results.request_hash is malformed")
  let expiresAt ← okOr (toUnsigned row.expiresAt) (.backend "mint_results.expires_at is negative")
  if expiresAt≤now then return .missing
  if storedHash≠expectedHash then return .conflict
  match row.resultBlob with
  | none => return .conflict
  | some blob =>
    match (cipher.openResult .subscriptionMint requestKey storedHash expiresAt blob).bind
        decodeMintPayload with
    | .ok signatures => return .replay signatures
    | .error _ => return .conflict

def clockParam (now : UInt64) : ℤ := (ofUnsigned now.toNat).getD (2^63 - 1)

variable (db : Db)
def insert (record : AccountRecord) : Except StoreError Unit × Db :=
  let out:=insertOrIgnore db.accounts (columns record).1 (columns record).2
  (if out.1=0 then .error .duplicate else .ok (),{db with accounts := out.2})

def get (accountNumber : Hash) : Except StoreError (Option AccountRecord) :=
  match db.accounts.get (hex32 accountNumber) with
  | none => .ok none
  | some row => (okOr (fromColumns (hex32 accountNumber) row)
      (.backend "malformed row in accounts table")).map some

def activateClaimed (claimed : Db) (accountNumber activationKey : Hash) (now bySecs : UInt64) :
    Except StoreError (Option (SubscriptionActivation × Db)) := do
  let (row,extended) ← sqlFailed "postgres activate_subscription extend: "
    (extendSubscription claimed (hex32 accountNumber) (clockParam now) (clockParam bySecs))
  match row with
  | none => return none
  | some row =>
    let untilSecs ← okOr ((entFrom row.entitlement).bind fun e => e.activeUntil now)
      (.backend "activation produced a non-active entitlement")
    let param ← okOr (ofUnsigned untilSecs.toNat) (.backend "activation expiry exceeds Postgres bigint")
    let (finished,finishedDb) := finishActivation extended (hex32 activationKey) param
    ensure (finished=1) (.backend s!"activation result write affected {finished} rows")
    return some (.newlyActivated untilSecs,finishedDb)

def activationReplay (claimed : Db) (activationKey : Hash) : Except StoreError UInt64 := do
  let stored ← okOr (claimed.subscriptionActivations.get (hex32 activationKey))
    (.backend "activation conflict resolved without a persisted result")
  okOr (toUnsigned stored) (.backend "subscription_activations.until is negative")

def activateSubscription (accountNumber activationKey : Hash) (now bySecs : UInt64) :
    Except StoreError (Option SubscriptionActivation) × Db :=
  let (claimed,claimedDb) := claimActivation db (hex32 activationKey)
  if claimed=0 then
    match activationReplay claimedDb activationKey with
    | .error e => (.error e,db)
    | .ok untilSecs => (.ok (some (.replay untilSecs)),claimedDb)
  else match activateClaimed claimedDb accountNumber activationKey now bySecs with
    | .error e => (.error e,db)
    -- no such account: the claim is rolled back
    | .ok none => (.ok none,db)
    | .ok (some (activation,finished)) => (.ok (some activation),finished)

def lookupIssuance (issuanceKey requestHash : Hash) (now : UInt64) : Except StoreError IssuanceLookup :=
  match db.oneShotIssuances.get (hex32 issuanceKey) with
  | none => .ok .missing
  | some row => issuanceFromRow cipher row issuanceKey requestHash now

def issuanceCommitOf : IssuanceLookup → Except StoreError IssuanceCommit
  | .replay blindSig => .ok (.replay blindSig)
  | .conflict => .ok .conflict
  | .missing => backend "issuance conflict resolved without a persisted row"

def issuanceRow (nonce : Option (Block resultNonceLen)) (issuanceKey : Hash) (result : IssuanceResult)
    (now : UInt64) : Except StoreError IssuanceRow := do
  ensure (now < result.replayUntil ∧ result.blindSig.length*2=blindTokenHexLen)
    (.backend "refusing to persist an expired or wrong-length issuance result")
  let blob ← cipher.sealResult nonce .oneShot issuanceKey result.requestHash result.replayUntil result.blindSig
  let replayUntil ← okOr (ofUnsigned result.replayUntil.toNat)
    (.backend "issuance replay bound exceeds Postgres bigint")
  return ⟨hex32 result.requestHash,some blob,replayUntil⟩

def commitIssuance (nonce : Option (Block resultNonceLen)) (issuanceKey : Hash) (result : IssuanceResult)
    (now : UInt64) : Except StoreError IssuanceCommit × Db :=
  match issuanceRow cipher nonce issuanceKey result now with
  | .error e => (.error e,db)
  | .ok row =>
    let (affected,inserted) := insertIssuance db (hex32 issuanceKey) row
    if affected=1 then (.ok .stored,inserted)
    else match inserted.oneShotIssuances.get (hex32 issuanceKey) with
      | none => (backend "postgres commit_issuance replay: query returned an unexpected number of rows",inserted)
      | some stored =>
        ((issuanceFromRow cipher stored issuanceKey result.requestHash now).bind issuanceCommitOf,inserted)

def pruneIssuanceResults (now : UInt64) : Except StoreError ℕ × Db :=
  let (affected,pruned) := pruneIssuance db (clockParam now)
  (.ok affected,pruned)

def lookupMint (requestKey requestHash : Hash) (now : UInt64) : Except StoreError MintLookup × Db :=
  match db.mintResults.get (hex32 requestKey) with
  | none => (.ok .missing,db)
  | some row =>
    match mintFromRow cipher row requestKey requestHash now with
    | .error e => (.error e,db)
    | .ok .missing => (.ok .missing,(deleteExpiredMintKey db (hex32 requestKey) (clockParam now)).2)
    | .ok found => (.ok found,db)

def mintCommitOf : MintLookup → Except StoreError MintCommit
  | .replay blindSigs => .ok (.replay blindSigs)
  | .conflict => .ok .conflict
  | .missing => backend "mint conflict resolved without a live result"

def mintRows (nonce : Option (Block resultNonceLen)) (requestKey : Hash) (result : MintResult)
    (quota : MintQuota) : Except StoreError (MintRow × ℤ × MintQuotaRow) := do
  let payload ← encodeMintPayload result.blindSigs
  let blob ← cipher.sealResult nonce .subscriptionMint requestKey result.requestHash result.expiresAt payload
  let expiresAt ← okOr (ofUnsigned result.expiresAt.toNat) (.backend "mint expiry exceeds Postgres bigint")
  let windowStart ← okOr (ofUnsigned quota.windowStart.toNat)
    (.backend "mint quota window start exceeds Postgres bigint")
  let windowEnd ← okOr (ofUnsigned quota.windowEnd.toNat)
    (.backend "mint quota window end exceeds Postgres bigint")
  return (⟨hex32 result.requestHash,some blob,expiresAt⟩,windowStart,
    ⟨windowEnd,quota.cost.toNat,quota.max.toNat⟩)

def chargeRefused (stored : Option MintQuotaRow) (row : MintQuotaRow) : Except StoreError MintCommit :=
  match stored with
  | none => backend "mint quota charge failed without a persisted quota row"
  | some stored =>
    if stored.windowEnd≠row.windowEnd ∨ stored.maxValue≠row.maxValue then
      backend "mint quota window/max conflicts with persisted state"
    else .ok .quotaExceeded

def commitMintRows (requestKey requestHash : Hash) (now : UInt64) (quotaKey : Bytes)
    (rows : MintRow × ℤ × MintQuotaRow) : Except StoreError MintCommit × Db :=
  let (affected,written) := insertMint db (hex32 requestKey) rows.1 (clockParam now)
  if affected=1 then
    match sqlFailed "postgres mint quota charge: " (chargeMintQuota written quotaKey rows.2.1 rows.2.2) with
    | .error e => (.error e,db)
    | .ok (none,charged) => (chargeRefused (charged.mintQuotas.get (quotaKey,rows.2.1)) rows.2.2,db)
    | .ok (some _,charged) => (.ok .stored,charged)
  else match written.mintResults.get (hex32 requestKey) with
    | none => (backend "postgres commit_mint replay: query returned an unexpected number of rows",db)
    | some stored =>
      match (mintFromRow cipher stored requestKey requestHash now).bind mintCommitOf with
      | .error e => (.error e,db)
      | .ok outcome => (.ok outcome,written)

def commitMint (nonce : Option (Block resultNonceLen)) (requestKey : Hash) (result : MintResult)
    (quota : MintQuota) (now : UInt64) : Except StoreError MintCommit × Db :=
  if result.expiresAt≤now then (backend "refusing to store an already-expired mint result",db)
  else if !quota.isWellFormed now then (backend "invalid mint quota window",db)
  else if quota.max<quota.cost then (.ok .quotaExceeded,db)
  else match mintRows cipher nonce requestKey result quota with
    | .error e => (.error e,db)
    | .ok rows => commitMintRows cipher db requestKey result.requestHash now (hex32 quota.quotaKey) rows

def pruneMintResults (now : UInt64) : Except StoreError ℕ × Db :=
  let (results,pruned) := pruneMint db (clockParam now)
  let (quotas,prunedQuotas) := pruneMintQuota pruned (clockParam now)
  (.ok (results+quotas),prunedQuotas)

def perform (nonce : Option (Block resultNonceLen)) : (op : Op) → Except StoreError op.Reply × Db
  | .insert record => insert db record
  | .get accountNumber => (get db accountNumber,db)
  | .activateSubscription accountNumber activationKey now bySecs =>
    activateSubscription db accountNumber activationKey now bySecs
  | .lookupIssuance issuanceKey requestHash now => (lookupIssuance cipher db issuanceKey requestHash now,db)
  | .commitIssuance issuanceKey result now => commitIssuance cipher db nonce issuanceKey result now
  | .pruneIssuanceResults now => pruneIssuanceResults db now
  | .lookupMint requestKey requestHash now => lookupMint cipher db requestKey requestHash now
  | .commitMint requestKey result quota now => commitMint cipher db nonce requestKey result quota now
  | .pruneMintResults now => pruneMintResults db now
end
end NilVpn.Portal.Postgres
