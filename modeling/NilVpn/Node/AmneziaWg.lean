import NilVpn.Node.Packet
import NilVpn.Transport.Obfuscation
import NilVpn.Transport.Path

/-!
# The AmneziaWG responder (nil-node/src/amneziawg.rs)

WireGuard itself is a parameter.
-/

namespace NilVpn.Node.AmneziaWg
open Base
open Transport (Entropy ObfsParams WgStep)

def maxClients : ℕ := 256
def maxRoutesPerClient : ℕ := 4

/-- `PqWgCore`: each call returns the core as it left it. -/
structure WgCore (W : Type) where
  withoutPsk : Block 32 → Block 32 → UInt32 → W
  decapsulate : W → Bytes → W × WgStep
  encapsulate : W → Bytes → W × Option Bytes
  tick : W → W × Option Bytes

structure Config (W : Type) where
  wg : WgCore W
  nodeSecret : Block 32
  obfs : ObfsParams

structure Client (W : Type) where
  pubkey : Block 32
  core : W
  established : Bool
  seq : ℕ
  ownedRoutes : List Ipv4

def Client.new {W : Type} (config : Config W) (clientPub : Block 32) (seq : ℕ) : Client W where
  pubkey := clientPub
  core := config.wg.withoutPsk config.nodeSecret clientPub 2
  established := false
  seq
  ownedRoutes := []

inductive Action (Addr : Type)
  | sendTo (addr : Addr) (bytes : Bytes)
  | toTun (packet : Bytes)
  deriving DecidableEq

structure Responder (Addr W : Type) where
  clients : Table Addr (Client W)
  routes : Table Ipv4 (Addr × ℕ)
  nextSeq : ℕ

variable {Addr W : Type} [DecidableEq Addr]
def Responder.new : Responder Addr W := ⟨.empty,.empty,0⟩

def ipv4Field (packet : Bytes) (offset : ℕ) : Option Ipv4 :=
  if 20≤packet.length ∧ byteAt packet 0 >>> 4=4 then some (ipv4At packet offset) else none

def ipv4Src (packet : Bytes) : Option Ipv4 := ipv4Field packet 12
def ipv4Dst (packet : Bytes) : Option Ipv4 := ipv4Field packet 16

namespace Responder
def put (r : Responder Addr W) (addr : Addr) (client : Client W) : Responder Addr W :=
  {r with clients := r.clients.insert addr client}

def purge (r : Responder Addr W) (addr : Addr) : Responder Addr W :=
  {r with routes := r.routes.retain fun _ v => v.1≠addr}

/-- `min_by_key(|(_, c)| c.seq)`: the first of the smallest. -/
def minBySeq : List (Addr × Client W) → Option (Addr × Client W)
  | [] => none
  | entry::entries =>
    match minBySeq entries with
    | none => some entry
    | some least => if least.2.seq<entry.2.seq then some least else some entry

def victim (r : Responder Addr W) : Option Addr :=
  (minBySeq (r.clients.entries.filter fun entry => !entry.2.established)).map Prod.fst

def enrol (config : Config W) (r : Responder Addr W) (clientPub : Block 32) (addr : Addr) :
    Responder Addr W :=
  {r.put addr (.new config clientPub r.nextSeq) with nextSeq := r.nextSeq+1}

def admitClient (config : Config W) (r : Responder Addr W) (clientPub : Block 32) (addr : Addr) :
    Responder Addr W :=
  match r.clients.get addr with
  | some existing =>
    if existing.established ∨ existing.pubkey=clientPub then r
    else (r.purge addr).enrol config clientPub addr
  | none =>
    if maxClients ≤ r.clients.len then
      match r.victim with
      | some a =>
        (({r with clients := r.clients.erase a} : Responder Addr W).purge a).enrol config clientPub addr
      | none => r
    else r.enrol config clientPub addr

def takeRoute (r : Responder Addr W) (src : Ipv4) (addr : Addr) (seq : ℕ) : Responder Addr W :=
  match r.clients.get addr with
  | none => r
  | some client =>
    if maxRoutesPerClient ≤ client.ownedRoutes.length then
      let r:=r.put addr {client with ownedRoutes := client.ownedRoutes.tail++[src]}
      let routes :=
        match client.ownedRoutes.head? with
        | some old => if r.routes.get old=some (addr,seq) then r.routes.erase old else r.routes
        | none => r.routes
      {r with routes := routes.insert src (addr,seq)}
    else
      let r:=r.put addr {client with ownedRoutes := client.ownedRoutes++[src]}
      {r with routes := r.routes.insert src (addr,seq)}

def learnRoute (r : Responder Addr W) (src : Ipv4) (addr : Addr) (seq : ℕ) : Responder Addr W :=
  match r.routes.get src with
  | some (ownerAddr,ownerSeq) =>
    if ownerAddr=addr ∧ ownerSeq=seq then r
    else if (r.clients.get ownerAddr).any fun c => c.seq=ownerSeq then r
    else r.takeRoute src addr seq
  | none => r.takeRoute src addr seq

/-- The loop over `decapsulate`, for at most `rounds` rounds: the client as it leaves it, the
actions, and the inner packet if there is one. -/
def decapsulateLoop (config : Config W) (addr : Addr) (entropy : ℕ → Entropy) :
    ℕ → Client W → Bytes → List (Action Addr) → Client W × List (Action Addr) × Option Bytes
  | 0,client,_,out => (client,out,none)
  | rounds+1,client,input,out =>
    match config.wg.decapsulate client.core input with
    | (core,.ip ip) => ({client with core,established := true},out++[.toTun ip],some ip)
    | (core,.network b) =>
      let reply:=Action.sendTo addr (config.obfs.obfuscate (entropy out.length) b)
      decapsulateLoop config addr entropy rounds {client with core} [] (out++[reply])
    | (core,.done) => ({client with core},out,none)
    | (core,.err _) => ({client with core},out,none)

def handleUdp (config : Config W) (r : Responder Addr W) (wire : Bytes) (addr : Addr) (rounds : ℕ)
    (entropy : ℕ → Entropy) : Responder Addr W × List (Action Addr) :=
  match config.obfs.tryPreface wire with
  | some clientPub => (r.admitClient config clientPub addr,[])
  | none =>
    match config.obfs.deobfuscate wire with
    | none => (r,[])
    | some wg =>
      match r.clients.get addr with
      | none => (r,[])
      | some client =>
        match decapsulateLoop config addr entropy rounds client wg [] with
        | (client',out,packet) =>
          let r:=r.put addr client'
          -- The packet is in `out` whatever becomes of its route.
          match packet.bind ipv4Src with
          | some src => (r.learnRoute src addr client.seq,out)
          | none => (r,out)

def handleTun (config : Config W) (r : Responder Addr W) (ip : Bytes) (entropy : Entropy) :
    Responder Addr W × List (Action Addr) :=
  match ipv4Dst ip with
  | none => (r,[])
  | some dst =>
    match r.routes.get dst with
    | none => (r,[])
    | some (addr,seq) =>
      match (r.clients.get addr).filter fun client => client.seq=seq with
      | some client =>
        match config.wg.encapsulate client.core ip with
        | (core,some wire) =>
          (r.put addr {client with core},[.sendTo addr (config.obfs.obfuscate entropy wire)])
        | (core,none) => (r.put addr {client with core},[])
      | none => ({r with routes := r.routes.erase dst},[])

def tick (config : Config W) (r : Responder Addr W) (entropy : ℕ → Entropy) :
    Responder Addr W × List (Action Addr) :=
  ({ r with clients := r.clients.mapVal fun client => {client with core := (config.wg.tick client.core).1} },
    r.clients.entries.zipIdx.filterMap fun entry =>
      (config.wg.tick entry.1.2.core).2.map fun b =>
        .sendTo entry.1.1 (config.obfs.obfuscate (entropy entry.2) b))
end Responder

/-- One call of a handler; `rounds` is how often the loop of `handle_udp` goes round. -/
inductive Event (Addr : Type)
  | udp (wire : Bytes) (addr : Addr) (rounds : ℕ) (entropy : ℕ → Entropy)
  | tun (ip : Bytes) (entropy : Entropy)
  | tick (entropy : ℕ → Entropy)

def Responder.step (config : Config W) (r : Responder Addr W) :
    Event Addr → Responder Addr W × List (Action Addr)
  | .udp wire addr rounds entropy => r.handleUdp config wire addr rounds entropy
  | .tun ip entropy => r.handleTun config ip entropy
  | .tick entropy => r.tick config entropy

def serve (config : Config W) (es : List (Event Addr)) : Responder Addr W :=
  runFrom (fun r e => (r.step config e).1) Responder.new es
end NilVpn.Node.AmneziaWg
