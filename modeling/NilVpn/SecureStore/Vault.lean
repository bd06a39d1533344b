import NilVpn.Coordinator.Redeem
import NilVpn.Portal.FileStore

/-!
# The credential vault (client/src-tauri/src/securestore.rs, tokens.rs, authstore.rs)

A `Vault` is a plaintext that passes the check made whenever it is read or written.
-/

namespace NilVpn.SecureStore
open Base
open Coordinator (isV2Message v2MessageIsCurrent)
open Portal (blindTokenHexLen maxMintBatchSize)

inductive VaultError
  | sealer (text : String)
  | authentication
  | io (operation : String) (source : IoError)
  | unsafeFile (text : String)
  | tooLarge (kind : String) (max : ℕ)
  | envelope (text : String)
  | envelopeVersion (version : UInt8)
  | schemaVersion (version : UInt8)
  | parse (text : String)
  | validation (text : String)
  | migrationVerification
  | noPendingReservation
  | reservationMismatch
  | noPendingMint
  | mintRequestMismatch
  | noPendingPaidIssue
  | paidIssueMismatch
  deriving DecidableEq,Repr

def VaultError.display : VaultError → String
  | sealer text => "protected-storage operation failed: " ++ text
  | authentication => "sealed vault authentication failed"
  | io operation source => "secure vault I/O during " ++ operation ++ ": " ++ source.text
  | unsafeFile text => "unsafe secure-vault file: " ++ text
  | tooLarge kind max => s!"secure-vault {kind} exceeds the {max}-byte limit"
  | envelope text => "invalid secure-vault envelope: " ++ text
  | envelopeVersion version => s!"unsupported secure-vault envelope version {version}"
  | schemaVersion version => s!"unsupported secure-vault schema version {version}"
  | parse text => "invalid secure-vault JSON: " ++ text
  | validation text => "invalid secure-vault value: " ++ text
  | migrationVerification => "secure-vault migration verification failed"
  | noPendingReservation => "no pending token reservation exists"
  | reservationMismatch => "stale token-reservation completion refused"
  | noPendingMint => "no pending subscription mint exists"
  | mintRequestMismatch => "stale subscription-mint completion refused"
  | noPendingPaidIssue => "no pending paid token issuance exists"
  | paidIssueMismatch => "stale paid token-issuance completion refused"

def tokenModulusBits : ℕ := 2048
def requestIdHexLen : ℕ := 64
def accountNumberHexLen : ℕ := 64
def tokenMessageHexLen : ℕ := 64
def blindingFactorHexLen : ℕ := tokenModulusBits / 4
def maxIssuerDerHexLen : ℕ := 8*1024
def maxPaymentReferenceLen : ℕ := 256

structure AccountAuthMaterial where
  (accountNumber authSeed : Bytes)
  deriving DecidableEq,Repr

structure StoredToken where
  (msg token : Bytes)
  deriving DecidableEq,Repr

structure PendingBlindRequest where
  (blindMsg msg secret : Bytes)
  msgRandomizer : Option Bytes
  deriving DecidableEq,Repr

structure PendingMintBatch where
  (requestId accountNumber issuerPublicDer : Bytes)
  requests : List PendingBlindRequest
  deriving DecidableEq,Repr

structure PendingPaidIssue where
  (paymentId issuerPublicDer : Bytes)
  request : PendingBlindRequest
  deriving DecidableEq,Repr

/-- `u8::from_str_radix(_, 16)` of two characters, which allows a leading `+`. -/
def radixByte (hi lo : UInt8) : Option UInt8 :=
  if hi=43 then (nib lo).map UInt8.ofNat
  else (nib hi).bind fun h => (nib lo).map fun l => UInt8.ofNat (16*h+l)

def radixPairs : Bytes → Option Bytes
  | [] => some []
  | [_] => none
  | hi::lo::rest => do
    let b ← radixByte hi lo
    let bs ← radixPairs rest
    some (b::bs)

/-- `from_hex` of tokens.rs. Slicing inside a character would panic there; a vault that
passed its check holds no such text. -/
def tokenFromHex (s : Bytes) : Option Bytes := radixPairs (trim s)

def isExactLowerHex (value : Bytes) (expectedLen : ℕ) : Bool :=
  value.length=expectedLen&&value.all isLowerHex

def StoredToken.isRedeemableAt (t : StoredToken) (now : UInt64) : Bool :=
  match tokenFromHex t.msg with
  | none => false
  | some msg => if isV2Message msg then v2MessageIsCurrent msg now else msg.length=32

def PendingBlindRequest.wellFormed (r : PendingBlindRequest) : Bool :=
  isExactLowerHex r.blindMsg blindTokenHexLen&&isExactLowerHex r.msg tokenMessageHexLen &&
    isExactLowerHex r.secret blindingFactorHexLen &&
    !r.msgRandomizer.any fun value => !isExactLowerHex value tokenMessageHexLen

def PendingBlindRequest.isCurrentAt (r : PendingBlindRequest) (now : UInt64) : Bool :=
  (tokenFromHex r.msg).any fun message => isV2Message message&&v2MessageIsCurrent message now

def issuerKeyWellFormed (der : Bytes) : Bool :=
  !(der.isEmpty||maxIssuerDerHexLen<der.length||der.length % 2≠0||!der.all isLowerHex)

def PendingMintBatch.validate (b : PendingMintBatch) : Except String Unit := do
  ensure (isExactLowerHex b.requestId requestIdHexLen)
    "pending mint request_id must be 32 bytes of lowercase hex"
  ensure (isExactLowerHex b.accountNumber accountNumberHexLen)
    "pending mint account_number must be 32 bytes of lowercase hex"
  ensure (issuerKeyWellFormed b.issuerPublicDer) "pending mint issuer key is malformed"
  ensure (1≤b.requests.length&&b.requests.length ≤ maxMintBatchSize) "pending mint batch size is invalid"
  ensure (b.requests.all PendingBlindRequest.wellFormed) "pending mint blinding state is malformed"

def PendingMintBatch.isRecoverableAt (b : PendingMintBatch) (now : UInt64) : Bool :=
  !b.requests.isEmpty&&b.requests.all (·.isCurrentAt now)

def isAsciiControl (b : UInt8) : Bool := b<32||b=127

def PendingPaidIssue.validate (p : PendingPaidIssue) : Except String Unit := do
  ensure (!(p.paymentId.isEmpty||maxPaymentReferenceLen<p.paymentId.length ||
    p.paymentId.any isAsciiControl)) "pending paid-issuance reference is malformed"
  ensure (issuerKeyWellFormed p.issuerPublicDer) "pending paid-issuance issuer key is malformed"
  ensure p.request.wellFormed "pending paid-issuance blinding state is malformed"

def PendingPaidIssue.isRecoverableAt (p : PendingPaidIssue) (now : UInt64) : Bool :=
  p.request.isCurrentAt now

def vaultSchemaV1 : UInt8 := 1
def maxStoredTokens : ℕ := 16384
def authHexLen : ℕ := 64
def tokenSignatureHexLen : ℕ := tokenModulusBits / 4
def reservationIdHexLen : ℕ := 64

structure PendingRedemption where
  reservationId : Bytes
  token : StoredToken
  deriving DecidableEq,Repr

structure VaultV1 where
  schema : UInt8
  auth : Option AccountAuthMaterial
  tokens : List StoredToken
  pendingMint : Option PendingMintBatch
  pendingPaidIssue : Option PendingPaidIssue
  lastPaidIssueHash : Option Bytes
  pendingRedemption : Option PendingRedemption
  lastRedemptionId : Option Bytes
  deriving DecidableEq,Repr

namespace VaultV1
def empty : VaultV1 := ⟨vaultSchemaV1,none,[],none,none,none,none,none⟩
def clearSensitive (v : VaultV1) : VaultV1 := {empty with schema := v.schema}

def messages (v : VaultV1) : List Bytes := v.tokens.map StoredToken.msg
end VaultV1

def validateLowerHex (value : Bytes) (expectedLen : ℕ) (field : String) : Except VaultError Unit := do
  ensure (value.length=expectedLen)
    (.validation s!"{field} must be exactly {expectedLen} lowercase hex characters")
  ensure (value.all isLowerHex) (.validation s!"{field} must contain lowercase hex only")

def checkSome {ε α : Type} (o : Option α) (check : α → Except ε Unit) : Except ε Unit :=
  match o with
  | none => .ok ()
  | some a => check a

/-- The loop over the queue; `messages` is the set of messages met so far. -/
def validateTokens (messages : List Bytes) : ℕ → List StoredToken → Except VaultError Unit
  | _,[] => .ok ()
  | index,token::rest => do
    validateLowerHex token.msg tokenMessageHexLen s!"tokens[{index}].msg"
    validateLowerHex token.token tokenSignatureHexLen s!"tokens[{index}].token"
    ensure (!messages.contains token.msg)
      (.validation s!"tokens[{index}].msg duplicates another bearer token")
    validateTokens (token.msg::messages) (index+1) rest

namespace VaultV1
def validateAuth (auth : AccountAuthMaterial) : Except VaultError Unit := do
  validateLowerHex auth.accountNumber authHexLen "auth.account_number"
  validateLowerHex auth.authSeed authHexLen "auth.auth_seed"

def validatePending (v : VaultV1) (p : PendingRedemption) : Except VaultError Unit := do
  validateLowerHex p.reservationId reservationIdHexLen "pending_redemption.reservation_id"
  validateLowerHex p.token.msg tokenMessageHexLen "pending_redemption.token.msg"
  validateLowerHex p.token.token tokenSignatureHexLen "pending_redemption.token.token"
  ensure (!v.messages.contains p.token.msg)
    (.validation "pending_redemption.msg duplicates a queued bearer token")
  ensure (v.lastRedemptionId≠some p.reservationId)
    (.validation "pending and completed redemption ids must differ")

def validate (v : VaultV1) : Except VaultError Unit := do
  ensure (v.schema=vaultSchemaV1) (.schemaVersion v.schema)
  ensure (v.tokens.length+v.pendingRedemption.toList.length ≤ maxStoredTokens)
    (.validation s!"token count exceeds {maxStoredTokens}")
  checkSome v.auth validateAuth
  checkSome v.pendingMint fun b => b.validate.mapError .validation
  checkSome v.pendingPaidIssue fun p => p.validate.mapError .validation
  checkSome v.lastPaidIssueHash fun receipt => validateLowerHex receipt 64 "last_paid_issue_hash"
  validateTokens [] 0 v.tokens
  checkSome v.pendingRedemption v.validatePending
  checkSome v.lastRedemptionId fun id => validateLowerHex id reservationIdHexLen "last_redemption_id"
end VaultV1

/-- A plaintext that passes its check. -/
def Vault : Type := {v : VaultV1 // v.validate=.ok ()}

instance : DecidableEq Vault := inferInstanceAs (DecidableEq {v : VaultV1 // v.validate=.ok ()})

def Vault.check (v : VaultV1) : Except VaultError Vault :=
  match h : v.validate with
  | .ok () => .ok ⟨v,h⟩
  | .error e => .error e

def Vault.empty : Vault := ⟨VaultV1.empty,rfl⟩

/-- The callback of `SecureVault::mutate` and the check of what it leaves. -/
abbrev Mutation (R : Type) := VaultV1 → Except VaultError (VaultV1 × R)

def transact {R : Type} (mutation : Mutation R) (v : Vault) : Except VaultError (Vault × R) := do
  let (next,result) ← mutation v.val
  let vault ← Vault.check next
  .ok (vault,result)

lemma Vault.check_eq_ok {v : VaultV1} {w : Vault} (h : Vault.check v=.ok w) : w.val=v := by
  unfold Vault.check at h
  split at h
  · rw [← Except.ok.inj h]
  · cases h

lemma Vault.check_val (v : Vault) : Vault.check v.val=.ok v := by
  unfold Vault.check
  split
  · rfl
  next e he =>
    rw [v.property] at he
    cases he

lemma transact_eq_ok {R : Type} {m : Mutation R} {v w : Vault} {r : R}
    (h : transact m v=.ok (w,r)) : m v.val=.ok (w.val,r) := by
  obtain ⟨⟨next,result⟩,hm,vault,hc,h⟩ := except_bind_ok₂ h
  obtain ⟨rfl,rfl⟩ := Prod.mk.inj (Except.ok.inj h)
  rw [hm,Vault.check_eq_ok hc]

lemma checkSome_some {ε α : Type} {o : Option α} {c : α → Except ε Unit} {u : Unit} {a : α}
    (h : checkSome o c=.ok u) (ho : o=some a) : c a=.ok () := by
  rw [ho] at h
  exact h

lemma Vault.pending_notMem (v : Vault) {p : PendingRedemption}
    (hp : v.val.pendingRedemption=some p) : p.token.msg∉v.val.messages := by
  have h:=v.property
  obtain ⟨_,-,_,-,_,-,_,-,h⟩ := except_bind_ok₄ h
  obtain ⟨_,-,_,-,h⟩ := except_bind_ok₂ h
  obtain ⟨_,-,h⟩ := except_bind_ok h
  obtain ⟨_,hpe,-⟩ := except_bind_ok h
  have hpe:=checkSome_some hpe hp
  obtain ⟨_,-,_,-,hpe⟩ := except_bind_ok₂ hpe
  obtain ⟨_,-,hpe⟩ := except_bind_ok hpe
  obtain ⟨_,hq,-⟩ := except_bind_ok hpe
  simpa using ensure_eq_ok hq
end NilVpn.SecureStore
