import Mathlib.Data.Finset.Basic
import NilVpn.Base.Result
import NilVpn.Base.Table
import NilVpn.Core.Session

/-!
# The onion path over MASQUE and PQ-WireGuard sessions (nil-transport/src/masque/mod.rs:128-133, 303-325, 380-391,
pqwg.rs:58-69, 161-370, path.rs:52-72, 124-167, 184-284, 304-319)

Every registered id is below the counter, a natural number: fewer than 2^64 sessions are opened. What each
step returned is given by the caller, for a `connect` per hop. `log` records every session that is opened
and closed. No lock is poisoned.
-/

namespace NilVpn.Transport
open Base
open NilVpn.Core (Error Grant NodeEndpoint Session SessionId)

structure MasqueTransport where
  nextId : ℕ
  sessions : Finset SessionId
  below : ∀ id∈sessions, id<nextId

namespace MasqueTransport
def register (m : MasqueTransport) : MasqueTransport × Session :=
  ({ nextId := m.nextId+1
     sessions := insert m.nextId m.sessions
     below := by
      intro id hid
      rcases Finset.mem_insert.mp hid with hid | hid
      · exact hid ▸ Nat.lt_succ_self _
      · exact Nat.lt_succ_of_lt (m.below id hid) },⟨m.nextId⟩)

def unregister (m : MasqueTransport) (id : SessionId) : MasqueTransport :=
  { m with
    sessions := m.sessions.erase id
    below := fun j hj => m.below j (Finset.mem_of_mem_erase hj) }

lemma nextId_notMem (m : MasqueTransport) : m.nextId∉m.sessions :=
  fun h => Nat.lt_irrefl _ (m.below _ h)
end MasqueTransport

inductive WgStep
  | ip (packet : Bytes)
  | network (message : Bytes)
  | done
  | err (error : String)

def WgStep.debug : WgStep → String
  | ip packet => s!"Ip({packet})"
  | network message => s!"Network({message})"
  | done => "Done"
  | err error => s!"Err({error})"

def mceliecePkLen : ℕ := 524160
def maxPart : ℕ := mceliecePkLen+4096

/-- The loop of `decode_parts`; every turn takes at least the length prefix, so the length of the
string bounds the turns. -/
def decodePartsLoop : ℕ → Bytes → List Bytes → Option (List Bytes)
  | 0,b,parts => if b=[] then some parts else none
  | turns+1,b,parts =>
    if b=[] then some parts
    else if b.length<4 then none
    else
      let len:=ofBe (b.take 4)
      let b:=b.drop 4
      if maxPart<len then none
      else if b.length<len then none
      else decodePartsLoop turns (b.drop len) (parts++[b.take len])

def decodeParts (b : Bytes) : Option (List Bytes) := decodePartsLoop b.length b []

structure WrapSteps where
  keygen : Except String Unit
  controlSend : Except Error Unit
  controlRecv : Option (Except Error Bytes)
  finish : Bytes → Bytes → Except String Unit
  handshakeInit : Except String Bytes
  sendInit : Except Error Unit
  recvResponse : Option (Except Error Bytes)
  decapsulate : Bytes → WgStep
  sendKeepalive : Except Error Unit

/-- `map_err(|e| Error::Transport(format!("{text}: {e}")))`. -/
def orTransport {α : Type} (text : String) : Except String α → Except Error α
  | .ok a => .ok a
  | .error e => .error (.transport s!"{text}: {e}")

def orTimeout {α : Type} (text : String) : Option (Except Error α) → Except Error α
  | some r => r
  | none => .error (.transport text)

def handshake (steps : WrapSteps) : Except Error Unit := do
  orTransport "wg keygen" steps.keygen
  steps.controlSend
  let ctsMsg ← orTimeout "PQ handshake timed out" steps.controlRecv
  let parts ← okOr (decodeParts ctsMsg) (.transport "malformed PQ ciphertexts")
  match parts with
  | [mlkemCt,mcelieceCt] =>
    orTransport "PQ decapsulate" (steps.finish mlkemCt mcelieceCt)
    let _ ← orTransport "wg init" steps.handshakeInit
    steps.sendInit
    let resp ← orTimeout "wg handshake timed out" steps.recvResponse
    match steps.decapsulate resp with
    | .network _ => steps.sendKeepalive
    | other => .error (.transport s!"wg handshake failed: {other.debug}")
  | _ => .error (.transport "PQ ciphertexts: expected 2 parts")

/-- `sessions` maps a session to the MASQUE session it wraps. -/
structure PqWgTransport where
  nextId : ℕ
  sessions : Table SessionId Session
  below : ∀ id s, sessions.get id=some s → id<nextId

namespace PqWgTransport
def register (p : PqWgTransport) (inner : Session) : PqWgTransport × Session :=
  ({ nextId := p.nextId+1
     sessions := p.sessions.insert p.nextId inner
     below := Table.forall_insert (fun id s h => Nat.lt_succ_of_lt (p.below id s h))
      (Nat.lt_succ_self _) },⟨p.nextId⟩)

def unregister (p : PqWgTransport) (id : SessionId) : PqWgTransport :=
  { p with
    sessions := p.sessions.erase id
    below := by
      intro j s h
      rw [Table.get_erase] at h
      split at h
      · cases h
      · exact p.below j s h }

lemma get_nextId (p : PqWgTransport) : p.sessions.get p.nextId=none := by
  cases h : p.sessions.get p.nextId with
  | none => rfl
  | some s => exact absurd (p.below _ _ h) (Nat.lt_irrefl _)
end PqWgTransport

inductive HopHandle
  | pq (session : Session)
  | plain (session : Session)
  deriving DecidableEq

namespace HopHandle
def session : HopHandle → Session
  | pq s => s
  | plain s => s

def isPq : HopHandle → Bool
  | pq _ => true
  | plain _ => false
end HopHandle

inductive SessionRef
  | masque (id : SessionId)
  | pqwg (id : SessionId)
  deriving DecidableEq

inductive Call
  | opened (s : SessionRef)
  | closed (s : SessionRef)
  deriving DecidableEq

def openedIn (log : List Call) : List SessionRef :=
  log.filterMap fun
    | .opened s => some s
    | .closed _ => none

def closedIn (log : List Call) : List SessionRef :=
  log.filterMap fun
    | .opened _ => none
    | .closed s => some s

structure PathTransport where
  inner : MasqueTransport
  pqwg : PqWgTransport
  onion : Table SessionId (List HopHandle)
  pqExits : Finset SessionId
  log : List Call

/-- What the steps for one hop return. The carrier of a dial is the handle of the hop before. -/
structure HopSteps where
  entropy : Except String (Block 32)
  dial : NodeEndpoint → Grant → Option HopHandle → Except Error Unit
  wrap : WrapSteps

namespace PathTransport
def dial (st : PathTransport) (steps : HopSteps) (hop : NodeEndpoint) (grant : Grant)
    (carrier : Option HopHandle) : PathTransport × Except Error Session :=
  match steps.dial hop grant carrier with
  | .error e => (st,.error e)
  | .ok () =>
    let (inner,s) := st.inner.register
    ({st with inner,log := st.log++[.opened (.masque s.id)]},.ok s)

def wrapSession (st : PathTransport) (steps : HopSteps) (masque : Session) :
    PathTransport × Except Error Session :=
  match handshake steps.wrap with
  | .error e => (st,.error e)
  | .ok () =>
    let (pqwg,s) := st.pqwg.register masque
    ({st with pqwg,log := st.log++[.opened (.pqwg s.id)]},.ok s)

def closeMasque (st : PathTransport) (s : Session) : PathTransport × Except Error Unit :=
  if s.id∈st.inner.sessions then
    ({st with inner := st.inner.unregister s.id,log := st.log++[.closed (.masque s.id)]},.ok ())
  else (st,.error (.sessionNotFound s.id))

def closePq (st : PathTransport) (s : Session) : PathTransport × Except Error Unit :=
  match st.pqwg.sessions.get s.id with
  | some inner =>
    closeMasque { st with
      pqwg := st.pqwg.unregister s.id
      log := st.log++[.closed (.pqwg s.id)] } inner
  | none => (st,.error (.sessionNotFound s.id))

def closeHop (st : PathTransport) : HopHandle → PathTransport × Except Error Unit
  | .pq s => st.closePq s
  | .plain s => st.closeMasque s

def closeAll (st : PathTransport) : List HopHandle → Except Error Unit → PathTransport × Except Error Unit
  | [],firstErr => (st,firstErr)
  | h::hs,firstErr =>
    let (st,r) := st.closeHop h
    closeAll st hs (if firstErr.isOk then r else firstErr)

def teardown (st : PathTransport) (hops : List HopHandle) : PathTransport × Except Error Unit :=
  st.closeAll hops.reverse (.ok ())

def freshGrant (steps : HopSteps) (base : Grant) : Except Error Grant := do
  let nonce ← orTransport "path nonce entropy" steps.entropy
  .ok ⟨base.token,nonce⟩

def grantFor (steps : HopSteps) (hop : NodeEndpoint) (fallback : Grant) : Except Error Grant :=
  match hop.grant with
  | some grant => .ok grant
  | none => freshGrant steps fallback

/-- The loop over the hops, from the hop with index `i`. -/
def connectLoop (steps : ℕ → HopSteps) (creds : Grant) (st : PathTransport) (i : ℕ)
    (hops : List HopHandle) (carrier : Option HopHandle) :
    List NodeEndpoint → PathTransport × Except Error (List HopHandle)
  | [] => (st,.ok hops)
  | hop::rest =>
    match grantFor (steps i) hop creds with
    | .error e => (st,.error e)
    | .ok grant =>
      match st.dial (steps i) hop grant carrier with
      | (st,.error e) => ((st.teardown hops).1,.error (.transport s!"path hop {i}: {e.text}"))
      | (st,.ok masque) =>
        match hop.wgPub with
        | some _ =>
          match st.wrapSession (steps i) masque with
          | (st,.ok pq) => connectLoop steps creds st (i+1) (hops++[.pq pq]) (some (.pq pq)) rest
          | (st,.error e) =>
            (((st.closeMasque masque).1.teardown hops).1,
              .error (.transport s!"path hop {i} PQ-WireGuard: {e.text}"))
        | none => connectLoop steps creds st (i+1) (hops++[.plain masque]) (some (.plain masque)) rest

def register (st : PathTransport) (hops : List HopHandle) : PathTransport × Except Error Session :=
  match hops.getLast? with
  -- The panic of the `expect`: every hop of a non-empty path pushes its handle.
  | none => (st,.error (.transport "non-empty path established at least one hop"))
  | some exit =>
    ({ st with
      pqExits := if exit.isPq then insert exit.session.id st.pqExits else st.pqExits
      onion := st.onion.insert exit.session.id hops },.ok exit.session)

def connect (path : List NodeEndpoint) (steps : ℕ → HopSteps) (st : PathTransport) (creds : Grant) :
    PathTransport × Except Error Session :=
  if path=[] then (st,.error (.transport "path has no hops"))
  else
    match connectLoop steps creds st 0 [] none path with
    | (st,.error e) => (st,.error e)
    | (st,.ok hops) => st.register hops

def close (st : PathTransport) (session : Session) : PathTransport × Except Error Unit :=
  let hops:=(st.onion.get session.id).getD []
  teardown { st with
    onion := st.onion.erase session.id
    pqExits := st.pqExits.erase session.id } hops
end PathTransport
end NilVpn.Transport
