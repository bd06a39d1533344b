import NilVpn.Base.Prog
import NilVpn.Base.Result
import NilVpn.Portal.Store

/-!
# The file-backed store (nil-portal/src/store/file.rs)

Serde is a parameter, and so is AES-256-GCM under the result key. The temporary name is the path with the
extension `tmp`, so the path itself is taken to have another.
-/

namespace NilVpn.Portal
open Base
open Program (sys ofExcept)

def hex32 (b : Hash) : Bytes := toHex b.val

def unhex32 (s : Bytes) : Option Hash :=
  if s.length≠64 then none else (fromHex s).bind (Block.ofBytes 32)

def noneText : Bytes := ascii "none"
def expiredText : Bytes := ascii "expired"
def activeText : Bytes := ascii "active"
def colon : UInt8 := 58

def entStr : Entitlement → Bytes
  | .none => noneText
  | .active untilSecs => activeText++colon::decimal untilSecs.toNat
  | .expired => expiredText

/-- A bare `active` is a row from before expiries: it reads as lapsed. -/
def entFrom (s : Bytes) : Option Entitlement :=
  if s=noneText then some .none
  else if s=expiredText then some .expired
  else if s=activeText then some .expired
  else if (activeText++[colon]).isPrefixOf s then
    (parseUnsigned (2^64) (s.drop 7)).map fun n => .active (UInt64.ofNat n)
  else none

def authStr (pk : Hash) : Bytes := hex32 pk

/-- An empty column is a row from before the key: the all-zero sentinel. -/
def authFrom (s : Bytes) : Option Hash :=
  if s=[] then some (Block.fill 32 0) else unhex32 s

def unhexBytes (value : Bytes) : Option Bytes :=
  if value.length % 2≠0||!value.all isLowerHex then none else fromHex value

def blindTokenHexLen : ℕ := 512
def maxMintBatchSize : ℕ := 16
def resultNonceLen : ℕ := 12
def resultTagLen : ℕ := 16
def rawSignatureBytes : ℕ := blindTokenHexLen / 2
def maxResultPlaintextBytes : ℕ := 1+maxMintBatchSize*rawSignatureBytes

def resultAadDomain : Bytes := ascii "nilvpn.portal-result.v1"

inductive ResultKind
  | oneShot
  | subscriptionMint

def ResultKind.byte : ResultKind → UInt8
  | oneShot => 1
  | subscriptionMint => 2

structure ResultCipher where
  encrypt : Block resultNonceLen → Bytes → Bytes → Option Bytes
  decrypt : Bytes → Bytes → Bytes → Option Bytes

namespace ResultCipher
def aad (kind : ResultKind) (operationKey requestHash : Hash) (expiresAt : UInt64) : Bytes :=
  resultAadDomain++kind.byte::(operationKey.val++requestHash.val++beBytes 8 expiresAt.toNat)

def sealResult (cipher : ResultCipher) (entropy : Option (Block resultNonceLen)) (kind : ResultKind)
    (operationKey requestHash : Hash) (expiresAt : UInt64) (plaintext : Bytes) :
    Except StoreError Bytes :=
  if plaintext.isEmpty||maxResultPlaintextBytes<plaintext.length then
    .error (.backend "portal replay result is empty or exceeds its fixed bound")
  else match entropy with
    | none => .error (.backend "portal replay nonce entropy unavailable")
    | some nonce =>
      match cipher.encrypt nonce (aad kind operationKey requestHash expiresAt) plaintext with
      | none => .error (.backend "encrypt portal replay result")
      | some encrypted => .ok (nonce.val++encrypted)

def openResult (cipher : ResultCipher) (kind : ResultKind) (operationKey requestHash : Hash)
    (expiresAt : UInt64) (stored : Bytes) : Except StoreError Bytes :=
  if stored.length < resultNonceLen+resultTagLen ||
      resultNonceLen+resultTagLen+maxResultPlaintextBytes<stored.length then
    .error (.backend "portal replay ciphertext has an invalid length")
  else match cipher.decrypt (stored.take resultNonceLen)
      (aad kind operationKey requestHash expiresAt) (stored.drop resultNonceLen) with
    | none => .error (.backend "portal replay authentication failed")
    | some plaintext =>
      if plaintext.isEmpty||maxResultPlaintextBytes<plaintext.length then
        .error (.backend "portal replay plaintext has an invalid length")
      else .ok plaintext

def Opens (cipher : ResultCipher) : Prop :=
  ∀ entropy kind operationKey requestHash expiresAt plaintext stored,
    cipher.sealResult entropy kind operationKey requestHash expiresAt plaintext=.ok stored →
    cipher.openResult kind operationKey requestHash expiresAt stored=.ok plaintext
end ResultCipher

def encodeMintPayload (signatures : List Bytes) : Except StoreError Bytes :=
  if signatures.isEmpty||maxMintBatchSize<signatures.length then
    .error (.backend "refusing to persist an invalid mint signature batch size")
  else if signatures.any fun signature => signature.length≠rawSignatureBytes then
    .error (.backend "refusing to persist a wrong-length mint signature")
  else .ok (UInt8.ofNat signatures.length::signatures.flatten)

def signatureChunks : ℕ → Bytes → List Bytes
  | 0,_ => []
  | n+1,bytes => bytes.take rawSignatureBytes::signatureChunks n (bytes.drop rawSignatureBytes)

def decodeMintPayload (payload : Bytes) : Except StoreError (List Bytes) :=
  match payload with
  | [] => .error (.backend "mint replay payload is empty")
  | count::signatures =>
    if count=0||maxMintBatchSize<count.toNat||signatures.length≠count.toNat*rawSignatureBytes then
      .error (.backend "mint replay payload has an invalid shape")
    else .ok (signatureChunks count.toNat signatures)

def StoreError.display : StoreError → String
  | .duplicate => "account already exists"
  | .backend text => "store backend error: " ++ text

structure RecordDto where
  (accountNumber entitlement authPubkey : Bytes)
  deriving DecidableEq

/-- `blindSig` is only read: a cleartext payload from before encryption. -/
structure IssuanceDto where
  (requestHash resultBlob blindSig : Bytes)
  replayUntil : UInt64
  deriving DecidableEq

structure MintDto where
  (requestHash resultBlob : Bytes)
  blindSigs : List Bytes
  expiresAt : UInt64
  deriving DecidableEq

structure MintQuotaDto where
  quotaKey : Bytes
  (windowStart windowEnd : UInt64)
  (used maxValue : UInt32)
  deriving DecidableEq

structure SnapshotDto where
  accounts : List RecordDto
  activationResults : List (Bytes × UInt64)
  issuanceResults : List (Bytes × IssuanceDto)
  mintResults : List (Bytes × MintDto)
  mintQuotas : List MintQuotaDto
  deriving DecidableEq

inductive DiskDto
  | snapshot (dto : SnapshotDto)
  | legacyAccounts (accounts : List RecordDto)

structure SnapshotJson where
  toVec : SnapshotDto → Option Bytes
  fromSlice : Bytes → Option DiskDto

def RecordDto.fromRecord (r : AccountRecord) : RecordDto :=
  ⟨hex32 r.accountNumber,entStr r.entitlement,authStr r.authPubkey⟩

def RecordDto.toRecord (dto : RecordDto) : Option AccountRecord := do
  let accountNumber ← unhex32 dto.accountNumber
  let entitlement ← entFrom dto.entitlement
  let authPubkey ← authFrom dto.authPubkey
  return ⟨accountNumber,entitlement,authPubkey⟩

structure Draws where
  (issuance mint : ℕ → Option (Block resultNonceLen))

def sealError (e : StoreError) : IoError := ⟨.other,e.display⟩

def issuanceBlob (cipher : ResultCipher) (draws : Draws) (i : ℕ) (row : Hash × IssuanceResult) :
    Except IoError Bytes :=
  if row.2.blindSig.isEmpty then .ok []
  else ((cipher.sealResult (draws.issuance i) .oneShot row.1 row.2.requestHash row.2.replayUntil
    row.2.blindSig).mapError sealError).map toHex

def issuanceDto (cipher : ResultCipher) (draws : Draws) (i : ℕ) (row : Hash × IssuanceResult) :
    Except IoError (Bytes × IssuanceDto) := do
  let blob ← issuanceBlob cipher draws i row
  .ok (hex32 row.1,⟨hex32 row.2.requestHash,blob,[],row.2.replayUntil⟩)

def mintBlob (cipher : ResultCipher) (draws : Draws) (i : ℕ) (row : Hash × MintResult) :
    Except IoError Bytes :=
  if row.2.blindSigs.isEmpty then .ok []
  else do
    let payload ← (encodeMintPayload row.2.blindSigs).mapError sealError
    ((cipher.sealResult (draws.mint i) .subscriptionMint row.1 row.2.requestHash row.2.expiresAt
      payload).mapError sealError).map toHex

def mintDto (cipher : ResultCipher) (draws : Draws) (i : ℕ) (row : Hash × MintResult) :
    Except IoError (Bytes × MintDto) := do
  let blob ← mintBlob cipher draws i row
  .ok (hex32 row.1,⟨hex32 row.2.requestHash,blob,[],row.2.expiresAt⟩)

def quotaDto (row : (Hash × UInt64) × QuotaRow) : MintQuotaDto :=
  ⟨hex32 row.1.1,row.1.2,row.2.windowEnd,row.2.used,row.2.max⟩

def snapshotOf (cipher : ResultCipher) (draws : Draws) (state : StoreState) :
    Except IoError SnapshotDto := do
  let issuance ← collectIdx (issuanceDto cipher draws) 0 state.issuanceResults.entries
  let mint ← collectIdx (mintDto cipher draws) 0 state.mintResults.entries
  .ok {
    accounts := state.accounts.entries.map fun e => RecordDto.fromRecord e.2
    activationResults := state.activationResults.entries.map fun e => (hex32 e.1,e.2)
    issuanceResults := issuance
    mintResults := mint
    mintQuotas := state.mintQuotas.entries.map quotaDto }

def invalidData (text : String) : IoError := ⟨.invalidData,text⟩

def loadEach {α K V : Type} [DecidableEq K] (row : α → Except IoError (K × V)) :
    List α → Table K V → Except IoError (Table K V)
  | [],t => .ok t
  | a::as,t => do
    let e ← row a
    loadEach row as (t.insert e.1 e.2)

def loadAccount (dto : RecordDto) : Except IoError (Hash × AccountRecord) := do
  let record ← okOr dto.toRecord (invalidData "account store contains an invalid record")
  .ok (record.accountNumber,record)

def loadActivation (row : Bytes × UInt64) : Except IoError (Hash × UInt64) := do
  let key ← okOr (unhex32 row.1) (invalidData "account store contains an invalid activation key")
  .ok (key,row.2)

/-- A payload that does not open, or not to a signature, leaves a spent claim. -/
def openIssuance (cipher : ResultCipher) (key requestHash : Hash) (replayUntil : UInt64) (blob : Bytes) :
    Except IoError Bytes :=
  if blob.isEmpty then .ok []
  else do
    let stored ← okOr (unhexBytes blob)
      (invalidData "account store contains an invalid issuance result ciphertext")
    match cipher.openResult .oneShot key requestHash replayUntil stored with
    | .ok signature => .ok (if signature.length*2=blindTokenHexLen then signature else [])
    | .error _ => .ok []

def loadIssuance (cipher : ResultCipher) (row : Bytes × IssuanceDto) :
    Except IoError (Hash × IssuanceResult) := do
  let key ← okOr (unhex32 row.1) (invalidData "account store contains an invalid issuance key")
  let requestHash ← okOr (unhex32 row.2.requestHash)
    (invalidData "account store contains an invalid issuance request hash")
  let blindSig ← openIssuance cipher key requestHash row.2.replayUntil row.2.resultBlob
  .ok (key,⟨requestHash,blindSig,row.2.replayUntil⟩)

def openMint (cipher : ResultCipher) (key requestHash : Hash) (expiresAt : UInt64) (blob : Bytes) :
    Except IoError (List Bytes) :=
  if blob.isEmpty then .ok []
  else do
    let stored ← okOr (unhexBytes blob)
      (invalidData "account store contains an invalid mint result ciphertext")
    match (cipher.openResult .subscriptionMint key requestHash expiresAt stored).bind
        decodeMintPayload with
    | .ok signatures => .ok signatures
    | .error _ => .ok []

def loadMint (cipher : ResultCipher) (row : Bytes × MintDto) : Except IoError (Hash × MintResult) := do
  let key ← okOr (unhex32 row.1) (invalidData "account store contains an invalid mint request key")
  let requestHash ← okOr (unhex32 row.2.requestHash)
    (invalidData "account store contains an invalid mint request hash")
  let blindSigs ← openMint cipher key requestHash row.2.expiresAt row.2.resultBlob
  .ok (key,⟨requestHash,blindSigs,row.2.expiresAt⟩)

def loadQuota (dto : MintQuotaDto) : Except IoError ((Hash × UInt64) × QuotaRow) := do
  let quotaKey ← okOr (unhex32 dto.quotaKey) (invalidData "invalid mint quota key")
  ensure (dto.windowStart<dto.windowEnd) (invalidData "invalid mint quota window")
  .ok ((quotaKey,dto.windowStart),⟨dto.windowEnd,dto.used,dto.maxValue⟩)

def loadSnapshot (cipher : ResultCipher) (dto : SnapshotDto) : Except IoError StoreState := do
  let accounts ← loadEach loadAccount dto.accounts Table.empty
  let activationResults ← loadEach loadActivation dto.activationResults Table.empty
  let issuanceResults ← loadEach (loadIssuance cipher) dto.issuanceResults Table.empty
  let mintResults ← loadEach (loadMint cipher) dto.mintResults Table.empty
  let mintQuotas ← loadEach loadQuota dto.mintQuotas Table.empty
  .ok ⟨accounts,activationResults,issuanceResults,mintResults,mintQuotas⟩

/-- Cleartext payloads on disk call for an immediate rewrite. -/
def SnapshotDto.rewriteNeeded (dto : SnapshotDto) : Bool :=
  (dto.issuanceResults.any fun row => !row.2.blindSig.isEmpty) ||
  (dto.mintResults.any fun row => !row.2.blindSigs.isEmpty)

def DiskDto.snapshotDto : DiskDto → SnapshotDto
  | snapshot dto => dto
  | legacyAccounts accounts => ⟨accounts,[],[],[],[]⟩

structure Codec where
  json : SnapshotJson
  cipher : ResultCipher

/-- The maps of the file's contents, and whether to rewrite them. The text of a
parse error is serde's own and is not modelled. -/
def loadContents (codec : Codec) : Option Bytes → Except IoError (StoreState × Bool)
  | none | some [] => .ok (StoreState.empty,false)
  | some bytes => do
    let disk ← okOr (codec.json.fromSlice bytes) (invalidData "account store is not a snapshot")
    let state ← loadSnapshot codec.cipher disk.snapshotDto
    .ok (state,disk.snapshotDto.rewriteNeeded)

inductive FileName
  | snapshot | tmp | lock
  deriving DecidableEq

abbrev FileProg := Prog FileName

/-- The maps in memory, and whether a rename still waits for its directory sync. -/
structure FileStore where
  inner : StoreState
  durabilityUncertain : Bool

/-- `committedToPath` once the rename has installed the new snapshot. -/
structure PersistError where
  error : IoError
  committedToPath : Bool

section
variable (codec : Codec)
def writeSnapshotAndRename (draws : Draws) (state : StoreState) : FileProg Unit := do
  let dto ← ofExcept (snapshotOf codec.cipher draws state)
  let bytes ← ofExcept (okOr (codec.json.toVec dto) (invalidData "snapshot does not serialize"))
  let fd : ℕ ← sys (.openTrunc .tmp)
  sys (.write fd bytes)
  sys (.fsync fd)
  sys (.rename .tmp .snapshot)

def persist (draws : Draws) (state : StoreState) : FileProg (Except PersistError Unit) := do
  match ← (writeSnapshotAndRename codec draws state).attempt with
  | .error e => return .error ⟨e,false⟩
  | .ok () =>
    match ← (sys .syncDir).attempt with
    | .error e => return .error ⟨e,true⟩
    | .ok () => return .ok ()

def ensureDurable (uncertain : Bool) : FileProg (Except StoreError Unit) :=
  if !uncertain then pure (.ok ())
  else do
    match ← (sys .syncDir).attempt with
    | .error e => return .error (.backend
        ("account-store durability remains uncertain after rename: " ++ e.text))
    | .ok () => return .ok ()

def commitWrite {R : Type} (draws : Draws) (before state : StoreState) (reply : R) :
    FileProg (FileStore × Except StoreError R) := do
  match ← persist codec draws state with
  | .ok () => return (⟨state,false⟩,.ok reply)
  | .error e =>
    if e.committedToPath then return (⟨state,true⟩,.error (.backend e.error.text))
    else return (⟨before,false⟩,.error (.backend e.error.text))

/-- `undo before state` are the maps put back when the snapshot of `state` was not written. -/
def FileStore.performWith {R : Type} (undo : StoreState → StoreState → StoreState)
    (refused : Option StoreError) (plan : StoreState → Plan R) (draws : Draws) (store : FileStore) :
    FileProg (FileStore × Except StoreError R) :=
  match refused with
  | some e => pure (store,.error e)
  | none => do
    match ← ensureDurable store.durabilityUncertain with
    | .error e => return (store,.error e)
    | .ok () =>
      match plan store.inner with
      | .answer state reply => return (⟨state,false⟩,reply)
      | .write state reply => commitWrite codec draws (undo store.inner state) state reply

/-- Puts back the maps of before; what each operation does is `Refinement.rolledBack`. -/
def FileStore.perform {R : Type} (refused : Option StoreError) (plan : StoreState → Plan R)
    (draws : Draws) (store : FileStore) : FileProg (FileStore × Except StoreError R) :=
  store.performWith codec (fun before _ => before) refused plan draws

def openProcessLock (path : String) : FileProg Unit := do
  let fd : ℕ ← sys (.openAppend .lock)
  match ← (sys (.lock fd)).attempt with
  | .ok () => return ()
  | .error e =>
    let text:=e.text
    .throw ⟨e.kind,s!"account store {path} is already locked by another Portal process: {text}"⟩

def readSnapshot : FileProg (Option Bytes) := do
  match ← (do let fd : ℕ ← sys (.openExisting .snapshot); sys (.read fd) : FileProg Bytes).attempt with
  | .ok bytes => return some bytes
  | .error e => if e.kind=.notFound then return none else .throw e

/-- `open_with_result_key`; `nested` paths name a parent directory. The parent
directory is not synced: the flag starts out clear whatever happened before. -/
def openWithResultKey (path : String) (nested : Bool) (draws : Draws) : FileProg FileStore := do
  (if nested then sys .createDirAll else pure () : FileProg Unit)
  openProcessLock path
  let contents ← readSnapshot
  let loaded ← ofExcept (loadContents codec contents)
  if loaded.2 then
    match ← persist codec draws loaded.1 with
    | .ok () => return ⟨loaded.1,false⟩
    | .error e => .throw e.error
  else return ⟨loaded.1,false⟩
end
end NilVpn.Portal
