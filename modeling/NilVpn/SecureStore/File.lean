import NilVpn.Base.Staging
import NilVpn.SecureStore.Vault

/-!
# The vault file (client/src-tauri/src/securestore.rs)

Serde and the platform sealer are parameters, and so is what one call draws from `getrandom`. Files are
regular and private to the owner.
-/

namespace NilVpn.SecureStore
open Base
open Routine (io attempt)
open Program (ofExcept)

inductive Dir
  | vault
  | legacy
  deriving DecidableEq

/-- The vault's directory has `vault` and the temporary files, the other the legacy files. -/
inductive FileName
  | vault
  | temp (pid id : ℕ)
  | auth
  | tokens
  deriving DecidableEq

abbrev VaultRoutine (α : Type) := Routine Dir FileName VaultError α
def ioError (operation : String) : IoError → VaultError := VaultError.io operation

/-- `pending_redemption` as it is read: the first development shape was the token alone. -/
inductive StrictPendingWire
  | bound (pending : PendingRedemption)
  | legacy (token : StoredToken)

structure StrictVaultWire where
  schema : UInt8
  auth : Option AccountAuthMaterial
  tokens : List StoredToken
  pendingMint : Option PendingMintBatch
  pendingPaidIssue : Option PendingPaidIssue
  lastPaidIssueHash : Option Bytes
  pendingRedemption : Option StrictPendingWire
  lastRedemptionId : Option Bytes

def StrictPendingWire.intoPending (entropy : Option (Block 32)) :
    StrictPendingWire → Except VaultError PendingRedemption
  | bound pending => .ok pending
  | legacy token => do
    let bytes ← okOr entropy (.sealer "reservation-id entropy unavailable")
    .ok ⟨toHex bytes.val,token⟩

def StrictVaultWire.intoVault (entropy : Option (Block 32)) (wire : StrictVaultWire) :
    Except VaultError VaultV1 := do
  let pendingRedemption ← match wire.pendingRedemption with
    | none => .ok none
    | some pending => (pending.intoPending entropy).map some
  .ok ⟨wire.schema,wire.auth,wire.tokens,wire.pendingMint,wire.pendingPaidIssue,
    wire.lastPaidIssueHash,pendingRedemption,wire.lastRedemptionId⟩

def VaultV1.toWire (v : VaultV1) : StrictVaultWire :=
  ⟨v.schema,v.auth,v.tokens,v.pendingMint,v.pendingPaidIssue,v.lastPaidIssueHash,
    v.pendingRedemption.map .bound,v.lastRedemptionId⟩

structure Json where
  toVec : VaultV1 → Except String Bytes
  fromSlice : Bytes → Except String StrictVaultWire
  authFromSlice : Bytes → Except String AccountAuthMaterial
  tokensFromSlice : Bytes → Except String (List StoredToken)

def Json.Faithful (json : Json) : Prop :=
  ∀ v bytes, json.toVec v=.ok bytes → bytes≠[] ∧ json.fromSlice bytes=.ok v.toWire

/-- `sealBytes nonce plaintext aad` and `openBytes ciphertext aad`. -/
structure Sealer where
  sealBytes : Bytes → Bytes → Bytes → Except VaultError Bytes
  openBytes : Bytes → Bytes → Except VaultError Bytes

def Sealer.Correct (sealer : Sealer) : Prop :=
  ∀ nonce plaintext aad ciphertext, sealer.sealBytes nonce plaintext aad=.ok ciphertext →
    sealer.openBytes ciphertext aad=.ok plaintext

def vaultAad : Bytes := ascii "com.nilvpn.client/secure-vault/v1"

def fileMagic : Bytes := ascii "NILVLT01"
def fileVersion : UInt8 := 1
def fileHeaderLen : ℕ := fileMagic.length+1+4
def maxVaultFileBytes : ℕ := 16*1024*1024
def maxVaultPlaintextBytes : ℕ := 8*1024*1024

def encodeEnvelope (ciphertext : Bytes) : Except VaultError Bytes := do
  ensure (!ciphertext.isEmpty) (.envelope "empty ciphertext")
  ensure (fileHeaderLen+ciphertext.length ≤ maxVaultFileBytes&&ciphertext.length<2^32)
    (.tooLarge "ciphertext" (maxVaultFileBytes - fileHeaderLen))
  .ok (fileMagic++fileVersion::(beBytes 4 ciphertext.length++ciphertext))

def decodeEnvelope (file : Bytes) : Except VaultError Bytes := do
  ensure (file.length ≤ maxVaultFileBytes) (.tooLarge "file" maxVaultFileBytes)
  ensure (fileHeaderLen≤file.length) (.envelope "truncated header")
  ensure (file.take fileMagic.length=fileMagic) (.envelope "bad magic")
  ensure (file.getD fileMagic.length 0=fileVersion) (.envelopeVersion (file.getD fileMagic.length 0))
  ensure (ofBe ((file.drop (fileMagic.length+1)).take 4)≠0) (.envelope "empty ciphertext")
  ensure (fileHeaderLen+ofBe ((file.drop (fileMagic.length+1)).take 4)=file.length)
    (.envelope "declared ciphertext length does not match the file")
  .ok (file.drop fileHeaderLen)

def readOptionalPrivateFile (d : Dir) (n : FileName) (kind : String) (max : ℕ) :
    VaultRoutine (Option Bytes) := do
  match ← attempt d (.openExisting n) with
  | .error e => if e.kind=.notFound then pure none else .throw (.io "open file" e)
  | .ok fd =>
    let len ← io d (ioError "inspect opened file") (.size fd)
    ofExcept (ensure (len ≤ max) (.tooLarge kind max))
    let bytes ← io d (ioError "read file") (.read fd)
    ofExcept (ensure ((bytes.take (max+1)).length ≤ max) (.tooLarge kind max))
    pure (some (bytes.take (max+1)))

def regularFileExists (d : Dir) (n : FileName) : VaultRoutine Bool :=
  io d (ioError "inspect file") (.found n)

def syncParent (d : Dir) : VaultRoutine Unit := io d (ioError "sync vault directory") .syncDir

def cleanupTemp (temp : FileName) : VaultRoutine Unit := do
  let _ ← attempt .vault (.remove temp)
  pure ()

def replaceFile (temp : FileName) (body : Bytes) : VaultRoutine Unit := do
  let fd ← io .vault (ioError "create vault temporary file") (.createNew temp)
  io .vault (ioError "write vault temporary file") (.write fd body)
  io .vault (ioError "sync vault temporary file") (.fsync fd)
  io .vault (ioError "replace vault") (.rename temp .vault)

def atomicWritePrivate (temp : FileName) (body : Bytes) : VaultRoutine Unit := do
  ofExcept (ensure (body.length ≤ maxVaultFileBytes) (.tooLarge "file" maxVaultFileBytes))
  io .vault (ioError "create vault directory") .createDirAll
  -- the directory's metadata: like the call before, it changes nothing in an existing directory
  io .vault (ioError "inspect vault directory") .createDirAll
  let _ ← regularFileExists .vault .vault
  (replaceFile temp body).orElse (cleanupTemp temp)
  syncParent .vault

variable (json : Json) (sealer : Sealer)
def decodeVault (entropy : Option (Block 32)) (file : Bytes) : Except VaultError Vault := do
  let ciphertext ← decodeEnvelope file
  let plaintext ← sealer.openBytes ciphertext vaultAad
  ensure (plaintext.length ≤ maxVaultPlaintextBytes) (.tooLarge "plaintext" maxVaultPlaintextBytes)
  ensure (!plaintext.isEmpty) (.envelope "empty plaintext")
  let wire ← (json.fromSlice plaintext).mapError .parse
  let vault ← (wire.intoVault entropy).mapError fun e => .parse e.display
  Vault.check vault

def encodeVault (nonce : Bytes) (v : VaultV1) : Except VaultError Bytes := do
  v.validate
  let plaintext ← (json.toVec v).mapError .parse
  ensure (plaintext.length ≤ maxVaultPlaintextBytes) (.tooLarge "plaintext" maxVaultPlaintextBytes)
  let ciphertext ← sealer.sealBytes nonce plaintext vaultAad
  encodeEnvelope ciphertext

def loadLocked (entropy : Option (Block 32)) : VaultRoutine Vault := do
  match ← readOptionalPrivateFile .vault .vault "vault" maxVaultFileBytes with
  | none => pure Vault.empty
  | some file => ofExcept (decodeVault json sealer entropy file)

def persistLocked (nonce : Bytes) (temp : FileName) (v : VaultV1) : VaultRoutine Unit := do
  let envelope ← ofExcept (encodeVault json sealer nonce v)
  atomicWritePrivate temp envelope

structure Draws where
  entropy : Option (Block 32)
  nonce : Bytes
  (pid id : ℕ)

def Draws.temp (draws : Draws) : FileName := .temp draws.pid draws.id

def mutate {R : Type} (draws : Draws) (mutation : Mutation R) : VaultRoutine R := do
  let vault ← loadLocked json sealer draws.entropy
  let (next,result) ← ofExcept (transact mutation vault)
  persistLocked json sealer draws.nonce draws.temp next.val
  pure result

def maxLegacyAuthBytes : ℕ := 16*1024
def maxLegacyTokensBytes : ℕ := maxVaultPlaintextBytes

inductive MigrationOutcome
  | noLegacyData
  | vaultAlreadyPresent
  | migrated (hadAuth : Bool) (tokenCount : ℕ)
  deriving DecidableEq

def readLegacyAuth : VaultRoutine (Bool × Option AccountAuthMaterial) := do
  match ← readOptionalPrivateFile .legacy .auth "legacy auth" maxLegacyAuthBytes with
  | none => pure (false,none)
  | some bytes =>
    let auth ← ofExcept ((json.authFromSlice bytes).mapError fun e => .parse ("legacy auth: " ++ e))
    pure (true,some auth)

def readLegacyTokens : VaultRoutine (Bool × List StoredToken) := do
  match ← readOptionalPrivateFile .legacy .tokens "legacy tokens" maxLegacyTokensBytes with
  | none => pure (false,[])
  | some bytes =>
    let tokens ← ofExcept
      ((json.tokensFromSlice bytes).mapError fun e => .parse ("legacy tokens: " ++ e))
    pure (true,tokens)

def removeLegacyIfPresent (n : FileName) : VaultRoutine Unit := do
  let present ← regularFileExists .legacy n
  if present then
    io .legacy (ioError "remove legacy file") (.remove n)
    syncParent .legacy
  else pure ()

def removeLegacy : VaultRoutine Unit := do
  removeLegacyIfPresent .auth
  removeLegacyIfPresent .tokens

def legacyVault (auth : Option AccountAuthMaterial) (tokens : List StoredToken) : VaultV1 :=
  {VaultV1.empty with auth := auth,tokens := tokens}

/-- Reopen the vault just written and compare; otherwise take its file away again. -/
def verifyWritten (entropy : Option (Block 32)) (vault : VaultV1) : VaultRoutine Unit := do
  match ← Program.attempt (loadLocked json sealer entropy) with
  | .error e =>
    let _ ← attempt .vault (.remove .vault)
    .throw e
  | .ok verified =>
    if verified.val≠vault then
      let _ ← attempt .vault (.remove .vault)
      .throw .migrationVerification
    else pure ()

/-- The three paths are distinct, so the check of that is left out. -/
def migrateLegacy (draws : Draws) : VaultRoutine MigrationOutcome := do
  let present ← regularFileExists .vault .vault
  if present then
    let _ ← loadLocked json sealer draws.entropy
    removeLegacy
    pure .vaultAlreadyPresent
  else
    let (authPresent,auth) ← readLegacyAuth json
    let (tokensPresent,tokens) ← readLegacyTokens json
    if !authPresent&&!tokensPresent then pure .noLegacyData
    else
      let vault ← ofExcept (Vault.check (legacyVault auth tokens))
      persistLocked json sealer draws.nonce draws.temp vault.val
      verifyWritten json sealer draws.entropy vault.val
      removeLegacy
      pure (.migrated auth.isSome tokens.length)
end NilVpn.SecureStore
