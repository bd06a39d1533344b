import NilVpn.Ledger.Memory

/-!
# The file ledger (nullifier.rs:377-735)

An operation returns the store's new inner state with its own `io::Result`, since later operations see what
a failed one leaves. `File::flush` does nothing for a `std::fs::File` and is left out.
-/

namespace NilVpn.Ledger
open Base
open Program (sys ofExcept)

/-- The names one store uses. `rewriteTmp`, `lock` and `legacyLock` are the
sidecars of the two ledgers, `migrated` is where a folded legacy file goes. -/
inductive FileName
  | ledger | rewriteTmp | lock | legacy | legacyLock | migrated
  deriving DecidableEq

abbrev FileProg := Prog FileName

structure FileInner where
  records : Records
  file : Option ℕ

/-- `legacy_path`, which may be the ledger's own path. -/
inductive LegacyPath
  | same
  | other
  deriving DecidableEq

def openPrivate (name : FileName) (append : Bool) : FileProg ℕ := do
  let fd : ℕ ← if append then sys (.openAppend name) else sys (.openTrunc name)
  sys (.setPermissions fd)
  return fd

def pathExists (name : FileName) : FileProg Bool := do
  match ← (sys (.found name)).attempt with
  | .ok found => return found
  | .error _ => return false

/-- The path in the source's message is not modelled. -/
def acquireProcessLock (lockName : FileName) : FileProg Unit := do
  let fd ← openPrivate lockName true
  match ← (sys (.lock fd)).attempt with
  | .ok () => return ()
  | .error _ => .throw ⟨.wouldBlock,"redemption ledger is already open by another process; " ++
      "use Postgres for multiple Coordinator replicas"⟩

/-- The backwards scan for the last newline, from `position` (nullifier.rs:733-754). -/
def scanBack (fd : ℕ) : ℕ → ℕ → FileProg ℕ
  | 0,_ => pure 0
  | position+1,scanned =>
    if scanned ≥ maxRecordLineBytes then
      .throw ⟨.invalidData,"unterminated redemption record exceeds its fixed recovery bound"⟩
    else do
      let byte : UInt8 ← sys (.readByte fd position)
      if byte=newline then return position+1
      else scanBack fd position (scanned+1)

def truncateUnterminatedTail : FileProg Unit := do
  match ← (sys (.openExisting .ledger)).attempt with
  | .error e => if e.kind=.notFound then return () else .throw e
  | .ok fd =>
    let length : ℕ ← sys (.size fd)
    if length=0 then return ()
    else
      let byte : UInt8 ← sys (.readByte fd (length - 1))
      if byte=newline then return ()
      else
        let truncateAt ← scanBack fd (length - 1) 1
        sys (.setLen fd truncateAt)
        sys (.fsync fd)

def loadRecords (name : FileName) (mode : FileMode) : FileProg Records := do
  match ← (sys (.openExisting name)).attempt with
  | .error e => if e.kind=.notFound then return Table.empty else .throw e
  | .ok fd =>
    let c : Bytes ← sys (.read fd)
    ofExcept (loadBytes mode c)

def appendAndSync (slot : Option ℕ) (line : Bytes) : FileProg (Option ℕ × Except IoError Unit) :=
  match slot with
  | none => pure (none,.error ⟨.other,"redemption file store has no writable append handle"⟩)
  | some fd => do
    match ← (sys (.size fd)).attempt with
    | .error e => return (some fd,.error e)
    | .ok (committedLen : ℕ) =>
      match ← (do sys (.write fd line); sys (.fsync fd) : FileProg Unit).attempt with
      | .ok () => return (some fd,.ok ())
      | .error appendError =>
        match ← (do sys (.setLen fd committedLen); sys (.fsync fd) : FileProg Unit).attempt with
        | .ok () => return (some fd,.error appendError)
        | .error rollbackError =>
          -- the exact committed boundary is unknown: the handle is gone
          return (none,.error ⟨.other,"redemption append failed (" ++ appendError.text ++
            "); rollback failed (" ++ rollbackError.text ++ ")"⟩)

def writeOrdered (fd : ℕ) : List (Bytes × StoredRecord) → FileProg Unit
  | [] => pure ()
  | e::es => do
    let line ← ofExcept (encodeRecord e.1 e.2)
    sys (.write fd line)
    writeOrdered fd es

def replaceLedger (records : Records) : FileProg Unit := do
  let fd ← openPrivate .rewriteTmp false
  writeOrdered fd (orderedEntries records)
  sys (.fsync fd)
  sys (.rename .rewriteTmp .ledger)

def rewriteLocked (inner : FileInner) (records : Records) : FileProg (FileInner × Except IoError Unit) := do
  match ← (replaceLedger records).attempt with
  | .error e =>
    let _ ← (sys (.remove .rewriteTmp)).attempt
    return (inner,.error e)
  | .ok () =>
    match ← (openPrivate .ledger true).attempt with
    | .error e => return (⟨records,none⟩,.error e)
    | .ok fd =>
      let synced ← (sys .syncDir).attempt
      return (⟨records,some fd⟩,synced)

def pruneExpiredSync (now : UInt64) (inner : FileInner) : FileProg (FileInner × Except IoError ℕ) :=
  if prunedCount now inner.records > 0 then do
    let (inner',result) ← rewriteLocked inner (pruneRecords now inner.records)
    return (inner',result.map fun _ => prunedCount now inner.records)
  else pure (inner,.ok 0)

def firstCommit (cipher : Aead) (entropy : Option Nonce) (a : Commit) (inner : FileInner) :
    FileProg (FileInner × Except IoError CommitOutcome) :=
  match sealReplay cipher entropy a.epoch a.key a.replayUntil a.response with
  | .error e => pure (inner,.error e)
  | .ok ciphertext =>
    match encodeRecord a.key (a.record ciphertext) with
    | .error e => pure (inner,.error e)
    | .ok line => do
      match ← appendAndSync inner.file line with
      | (file,.error e) => return (⟨inner.records,file⟩,.error e)
      | (file,.ok ()) =>
        return (⟨inner.records.insert a.key (a.record ciphertext),file⟩,
          expectLive (liveOutcome cipher a.key (a.record ciphertext) a.now true))

def fileCommitOrReplay (cipher : Aead) (entropy : Option Nonce) (a : Commit) (inner : FileInner) :
    FileProg (FileInner × Except IoError CommitOutcome) :=
  match validateCommit a.key a.replayUntil a.response a.now with
  | .error e => pure (inner,.error e)
  | .ok () =>
    match inner.records.get a.key with
    | some existing =>
      match liveOutcome cipher a.key existing a.now false with
      | some outcome => pure (inner,.ok outcome)
      | none =>
        if existing.ciphertext.isSome then do
          let (inner',result) ←
            rewriteLocked inner (inner.records.modify a.key StoredRecord.clear)
          return (inner',result.map fun _ => .alreadySpent)
        else pure (inner,.ok .alreadySpent)
    | none => firstCommit cipher entropy a inner

def legacyPresent (mode : FileMode) (legacy : Option LegacyPath) : FileProg Bool :=
  if mode=.epoch ∧ legacy=some .other then pathExists .legacy else pure false

def foldLegacy (records old : Records) : Records × Bool :=
  (records.orInsertAll old.entries,old.entries.any fun e => (records.get e.1).isNone)

def lockLegacy (mode : FileMode) (legacy : Option LegacyPath) : FileProg Unit := do
  let present ← legacyPresent mode legacy
  if present then acquireProcessLock .legacyLock else pure ()

def loadWithLegacy (mode : FileMode) (legacy : Option LegacyPath) : FileProg (Records × Bool) := do
  let own ← loadRecords .ledger mode
  let present ← legacyPresent mode legacy
  if present then loadRecords .legacy .flat >>= fun old => pure (foldLegacy own old)
  else pure (own,false)

/-- Folded legacy keys are written out unless the cleanup already did. -/
def rewriteFolded (folded : Bool) (expired : ℕ) (inner : FileInner) : FileProg FileInner :=
  if folded&&expired=0 then
    rewriteLocked inner inner.records >>= fun out => ofExcept out.2 >>= fun _ => pure out.1
  else pure inner

def moveLegacyAside (mode : FileMode) (legacy : Option LegacyPath) : FileProg Unit := do
  let present ← legacyPresent mode legacy
  if present then sys (.rename .legacy .migrated) else pure ()

def openStore (mode : FileMode) (legacy : Option LegacyPath) (now : UInt64) :
    FileProg FileInner := do
  sys .createDirAll
  acquireProcessLock .lock
  lockLegacy mode legacy
  truncateUnterminatedTail
  let loaded ← loadWithLegacy mode legacy
  let file ← openPrivate .ledger true
  sys .syncDir
  let pruned ← pruneExpiredSync now ⟨loaded.1,some file⟩
  let expired ← ofExcept pruned.2
  let inner ← rewriteFolded loaded.2 expired pruned.1
  moveLegacyAside mode legacy
  return inner

def fileOp (cipher : Aead) (inner : FileInner) : Op → FileProg (FileInner × Reply)
  | .commit a entropy => do
    let (inner',r) ← fileCommitOrReplay cipher entropy a inner
    return (inner',.commit r)
  | .prune now => do
    let (inner',r) ← pruneExpiredSync now inner
    return (inner',.prune r)
end NilVpn.Ledger
