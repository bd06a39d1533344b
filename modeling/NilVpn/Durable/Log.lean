import NilVpn.Base.Prog
import NilVpn.Base.Table
import NilVpn.Base.Utf8
import NilVpn.Base.Result

/-!
# Durable key sets (nil-core/src/durable.rs)

What `DurableSet` and `TimedDurableSet` share is written once over a `Format`. `File::flush` does nothing
for a `std::fs::File` and is left out, and so are `try_clone` and the open before a directory sync.
-/

namespace NilVpn.Durable
open Base
open Program (sys ofExcept)

variable {N V : Type}
/-- The path of a set, the name `with_extension("compact.tmp")` gives its temporary
file, the path as error texts show it, and whether it names a parent directory. -/
structure LogPath (N : Type) where
  (file compactTmp : N)
  display : String
  nested : Bool
  apart : compactTmp≠file

def openPrivate (name : N) (append : Bool) : Prog N ℕ :=
  if append then sys (.openAppend name) else sys (.openTrunc name)

def openPrivateAppendExisting (name : N) : Prog N ℕ := sys (.openExisting name)

def openOrCreatePrivateAppend (name : N) : Prog N (ℕ × Bool) := do
  match ← (openPrivateAppendExisting name).attempt with
  | .ok fd => return (fd,false)
  | .error e =>
    if e.kind=.notFound then
      match ← (sys (.createNew name)).attempt with
      | .ok (fd : ℕ) => return (fd,true)
      | .error e =>
        if e.kind=.alreadyExists then
          let fd ← openPrivateAppendExisting name
          return (fd,false)
        else .throw e
    else .throw e

def completeRecords (display : String) (contents : Bytes) : Except IoError (List Bytes) :=
  if isUtf8 contents=false then .error ⟨.invalidData,"stream did not contain valid UTF-8"⟩
  else if contents=[] then .ok []
  else if contents.getLast?≠some newline then
    .error ⟨.invalidData,s!"durable log {display} has a torn final record"⟩
  else .ok (contents.dropLast.splitOn newline)

def readCompleteRecords (display : String) (fd : ℕ) : Prog N (List Bytes) := do
  let contents : Bytes ← sys (.read fd)
  ofExcept (completeRecords display contents)

def invalidRecord (display : String) (line : ℕ) (reason : String) : IoError :=
  ⟨.invalidData,s!"malformed durable log {display} record {line}: {reason}"⟩

def appendRecord (file : Option ℕ) (record : Bytes) : Prog N (Option ℕ × Except IoError Unit) :=
  match file with
  | none => pure (none,.error ⟨.other,"durable store has no writable file handle"⟩)
  | some fd => do
    match ← (do sys (.write fd record); sys (.fsync fd) : Prog N Unit).attempt with
    | .ok () => return (some fd,.ok ())
    | .error e => return (none,.error e)

/-- What tells the sets apart. `parse` gives the reason of a malformed line. -/
structure Format (V : Type) where
  accepts : Bytes → Bool
  refusal : String
  record : Bytes → V → Bytes
  parse : Bytes → Except String (Bytes × V)
  conflict : String

/-- `Inner` and the set's path; no path means a volatile set. -/
structure KeySet (N V : Type) where
  seen : Table Bytes V
  file : Option ℕ
  path : Option (LogPath N)

inductive TimedInsert
  | inserted | alreadyPresent | capacityReached
  deriving DecidableEq,Repr

namespace KeySet
def inMemory : KeySet N V := ⟨Table.empty,none,none⟩
def contains (s : KeySet N V) (key : Bytes) : Bool := s.seen.contains key
def len (s : KeySet N V) : ℕ := s.seen.len
end KeySet
section
variable (F : Format V)
def loadRecords [DecidableEq V] (display : String) : ℕ → List Bytes → Table Bytes V →
    Except IoError (Table Bytes V)
  | _,[],seen => .ok seen
  | index,line::rest,seen =>
    match F.parse line with
    | .error reason => .error (invalidRecord display (index+1) reason)
    | .ok (key,value) =>
      match seen.get key with
      | none => loadRecords display (index+1) rest (seen.insert key value)
      | some previous =>
        if previous≠value then .error (invalidRecord display (index+1) F.conflict)
        else loadRecords display (index+1) rest (seen.insert key value)

def openSet [DecidableEq V] (path : LogPath N) : Prog N (KeySet N V) := do
  (if path.nested then sys .createDirAll else pure () : Prog N Unit)
  let (fd,created) ← openOrCreatePrivateAppend path.file
  let records ← readCompleteRecords path.display fd
  let seen ← ofExcept (loadRecords F path.display 0 records Table.empty)
  (if created then sys (.fsync fd) else pure () : Prog N Unit)
  sys .syncDir
  return ⟨seen,some fd,some path⟩

/-- The body of the insertions: the key test, the duplicate check, the capacity
check, the durable append, and only then the table. -/
def insertWithCapacity (key : Bytes) (value : V) (maxEntries : Option ℕ) (s : KeySet N V) :
    Prog N (KeySet N V × Except IoError TimedInsert) :=
  if F.accepts key=false then pure (s,.error ⟨.invalidInput,F.refusal⟩)
  else if s.seen.contains key then pure (s,.ok .alreadyPresent)
  else if maxEntries.any (fun capacity => capacity ≤ s.seen.len) then pure (s,.ok .capacityReached)
  else if s.path.isSome then do
    let (file,result) ← appendRecord s.file (F.record key value++[newline])
    match result with
    | .error e => return ({s with file := file},.error e)
    | .ok () => return ({s with seen := s.seen.insert key value,file := file},.ok .inserted)
  else pure ({s with seen := s.seen.insert key value},.ok .inserted)

def writeSurvivors (fd : ℕ) : List (Bytes × V) → Prog N Unit
  | [] => pure ()
  | e::es => do
    sys (.write fd (F.record e.1 e.2++[newline]))
    writeSurvivors fd es

def compact (path : LogPath N) (survivors : List (Bytes × V)) : Prog N ℕ := do
  let fd ← openPrivate path.compactTmp false
  writeSurvivors F fd survivors
  sys (.fsync fd)
  sys (.rename path.compactTmp path.file)
  sys .syncDir
  openPrivateAppendExisting path.file

/-- Drop the entries whose value is not kept. The old handle is closed first and
stays closed on every error. -/
def retainValues (keep : V → Bool) (s : KeySet N V) : Prog N (KeySet N V × Except IoError ℕ) :=
  let toDrop:=(s.seen.entries.filter fun e => !keep e.2).length
  if toDrop=0 then pure (s,.ok 0)
  else match s.path with
    | some path => do
      match ← (compact F path (s.seen.entries.filter fun e => keep e.2)).attempt with
      | .error e =>
        let _ ← (sys (.remove path.compactTmp)).attempt
        return ({s with file := none},.error e)
      | .ok fd => return ({s with seen := s.seen.retain fun _ x => keep x,file := some fd},.ok toDrop)
    | none => pure ({s with seen := s.seen.retain fun _ x => keep x},.ok toDrop)
end

def setFormat : Format Unit where
  accepts key := !(key.isEmpty||key.contains newline)
  refusal := "durable key must be non-empty and must not contain a newline " ++
    "(the on-disk format is line-delimited)"
  record key _ := key
  parse line := if line.isEmpty then .error "key is empty" else .ok (line,())
  -- a repeated key is the same element
  conflict := ""

abbrev DurableSet (N : Type) := KeySet N Unit
def DurableSet.open (path : LogPath N) : Prog N (DurableSet N) := openSet setFormat path

def DurableSet.insert (key : Bytes) (s : DurableSet N) : Prog N (DurableSet N × Except IoError Bool) := do
  let (s',result) ← insertWithCapacity setFormat key () none s
  return (s',result.map fun r => r=.inserted)

def timedFormat : Format UInt64 where
  accepts key := !(key.isEmpty||key.contains newline||key.contains space)
  refusal := "timed-durable key must be non-empty and must not contain a space or newline " ++
    "(on-disk format is `<key> <unix>`)"
  record key now := key++space::decimal now.toNat
  parse line :=
    match splitOnce space line with
    | none => .error "missing timestamp separator"
    | some (key,timestampText) =>
      if key.isEmpty||timestampText.contains space then
        .error "key is empty or timestamp contains extra fields"
      else match parseUnsigned (2^64) timestampText with
        | none => .error "timestamp is not a unix-time u64"
        | some n => .ok (key,UInt64.ofNat n)
  conflict := "key appears with conflicting timestamps"

abbrev TimedDurableSet (N : Type) := KeySet N UInt64
def TimedDurableSet.open (path : LogPath N) : Prog N (TimedDurableSet N) := openSet timedFormat path

namespace TimedDurableSet
def insertIfBelowCapacity (key : Bytes) (now : UInt64) (maxEntries : ℕ) (s : TimedDurableSet N) :
    Prog N (TimedDurableSet N × Except IoError TimedInsert) :=
  insertWithCapacity timedFormat key now (some maxEntries) s

def insert (key : Bytes) (now : UInt64) (s : TimedDurableSet N) :
    Prog N (TimedDurableSet N × Except IoError Bool) := do
  let (s',result) ← insertWithCapacity timedFormat key now none s
  match result with
  | .error e => return (s',.error e)
  | .ok .inserted => return (s',.ok true)
  | .ok .alreadyPresent => return (s',.ok false)
  | .ok .capacityReached =>
    return (s',.error ⟨.other,"unbounded timed-set insertion unexpectedly reached capacity"⟩)

def pruneOlderThan (cutoff : UInt64) (s : TimedDurableSet N) : Prog N (TimedDurableSet N × Except IoError ℕ) :=
  retainValues timedFormat (fun t => decide (cutoff≤t)) s
end TimedDurableSet
end NilVpn.Durable
