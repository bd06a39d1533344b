import NilVpn.Node.AddressPool
import NilVpn.Node.Packet
import NilVpn.Transport.ConnectIp
import NilVpn.Transport.Path

/-!
# The MASQUE server loop (nil-node/src/server.rs:62-78, 116-338, 440-593, 759-797, 929-984)

Whatever one turn of the loop of `run` handles is an event here. QUIC and HTTP/3 are outside: what they
deliver is the argument of an event. The decapsulation of one datagram runs for at most `rounds` rounds.
-/

namespace NilVpn.Node
open Base
open NilVpn.Core (fixL4Checksums)
open Nwg2 (Scheme nonceLen)
open Transport (WgStep decodeDatagram encodeDatagram)

structure Responder (W : Type) where
  fresh : W
  onControlBytes : W → Bytes → W
  established : W → Bool
  decapsulate : W → Bytes → W × WgStep
  encapsulate : W → Bytes → W × Option Bytes

/-- `h3` and `closed` tell whether the HTTP/3 connection exists and the QUIC connection is
closed. -/
structure Client (W : Type) where
  peerIp : IpAddr
  (h3 closed : Bool)
  ciStream : Option UInt64
  flowId : UInt64
  tunnelUp : Bool
  packetPolicy : Option PacketPolicy
  assignedIp : Option Ipv4
  pqwg : Option W

structure Server (W : Type) where
  clients : Table Bytes (Client W)
  clientRoutes : Table IpAddr Bytes
  pool : AddressPool
  grantReplays : GrantReplayCache

structure ServerConfig (W : Type) where
  scheme : Scheme
  cfg : NodeConfig
  nodeSpki : Bytes
  debugAssertions : Bool
  (maxConnections maxConnectionsPerIp : ℕ)
  pqwgEnabled : Bool
  responder : Responder W
  reportHex : Option NodeAttest → Block nonceLen → Option Bytes

/-- What the node sends: a response on a stream, a packet to the TUN, a datagram to a client. -/
inductive Output
  | respond (clientId : Bytes) (streamId : UInt64) (headers : List Header) (fin : Bool)
  | toTun (packet : Bytes)
  | toClient (clientId : Bytes) (datagram : Bytes)
  deriving DecidableEq

inductive Event
  | accept (clientId : Bytes) (peerIp : IpAddr)
  | established (clientId : Bytes)
  | headers (clientId : Bytes) (streamId : UInt64) (list : List Header) (now : UInt64) (sent : Bool)
  | data (clientId : Bytes) (streamId : UInt64) (bytes : Bytes)
  | ended (clientId : Bytes) (streamId : UInt64)
  | datagram (clientId : Bytes) (datagram : Bytes) (rounds : ℕ)
  | tun (packet : Bytes)
  | close (clientId : Bytes)
  | reap

variable {W : Type}
def Server.new (grantReplays : GrantReplayCache) : Server W :=
  { clients := .empty
    clientRoutes := .empty
    pool := .defaultV4
    grantReplays }

def Server.put (s : Server W) (clientId : Bytes) (client : Client W) : Server W :=
  {s with clients := s.clients.insert clientId client}

def statusHeader : Bytes := ascii ":status"
def methodHeader : Bytes := ascii ":method"
def protocolHeader : Bytes := ascii ":protocol"
def connectMethod : Bytes := ascii "CONNECT"
def connectIpProtocol : Bytes := ascii "connect-ip"

def capsuleProtocolHeader : Bytes := ascii "capsule-protocol"

def assignedIpHeader : Bytes := ascii "nil-assigned-ip"

def attestReportHeader : Bytes := ascii "nil-attest-report"

def headerValue (list : List Header) (name : Bytes) : Option Bytes :=
  (list.find? fun header => header.name=name).map Header.value

def isConnectIp (list : List Header) : Bool :=
  headerValue list methodHeader=some connectMethod&&headerValue list protocolHeader=some connectIpProtocol

def status (code : String) : List Header := [⟨statusHeader,ascii code⟩]

/-- The nonce is read as in `authorize_connect`; a request without a good one gets no report. -/
def buildConnectOkResponse (config : ServerConfig W) (requestHeaders : List Header)
    (assigned : Option Ipv4) : List Header :=
  let report:=match attestNonce requestHeaders with
    | .ok nonce => config.reportHex config.cfg.attest nonce
    | .error _ => none
  status "200"++[⟨capsuleProtocolHeader,ascii "?1"⟩] ++
    (assigned.map fun ip => ⟨assignedIpHeader,ip.display⟩).toList ++
    (report.map fun hex => ⟨attestReportHeader,hex⟩).toList

def connectionCapacityAvailable (total sameSource maxTotal maxPerSource : ℕ) : Bool :=
  total < maxTotal&&sameSource < maxPerSource

def Client.new (config : ServerConfig W) (peerIp : IpAddr) : Client W :=
  { peerIp
    h3 := false
    closed := false
    ciStream := none
    flowId := 0
    tunnelUp := false
    packetPolicy := none
    assignedIp := none
    pqwg := if config.pqwgEnabled then some config.responder.fresh else none }

/-- The end of `handle_packet`, for an Initial with a valid Retry token: a key that is already
known belongs to an existing connection, which takes the packet. -/
def acceptClient (config : ServerConfig W) (s : Server W) (clientId : Bytes) (peerIp : IpAddr) :
    Server W :=
  if s.clients.contains clientId then s
  else
    let sameSource:=min config.maxConnectionsPerIp
      (s.clients.entries.countP fun e => e.2.peerIp=peerIp)
    if connectionCapacityAvailable s.clients.len sameSource config.maxConnections
        config.maxConnectionsPerIp then
      s.put clientId (.new config peerIp)
    else s

def openTunnel (s : Server W) (clientId : Bytes) (client : Client W) (streamId : UInt64)
    (policy : PacketPolicy) (pool : AddressPool) (assigned : Option Ipv4) : Server W :=
  { s with
    pool
    clients := s.clients.insert clientId { client with
      ciStream := some streamId
      flowId := streamId / 4
      tunnelUp := true
      packetPolicy := some policy
      assignedIp := assigned.or client.assignedIp }
    clientRoutes := match assigned with
      | some ip => s.clientRoutes.insert (.v4 ip) clientId
      | none => s.clientRoutes }

def onHeaders (config : ServerConfig W) (s : Server W) (clientId : Bytes) (client : Client W)
    (streamId : UInt64) (list : List Header) (now : UInt64) (sent : Bool) :
    Server W × List Output :=
  if isConnectIp list then
    -- One connection carries at most one tunnel, also after its stream has ended.
    if client.ciStream.isSome then (s,[.respond clientId streamId (status "409") true])
    else
      match authorizeConnect config.scheme config.cfg config.nodeSpki config.debugAssertions list
          client.peerIp now s.grantReplays with
      | (grantReplays,.error _) =>
        ({s with grantReplays},[.respond clientId streamId (status "403") true])
      | (grantReplays,.ok policy) =>
        match s.pool.assign clientId with
        | (pool,assigned) =>
          if sent then
            (openTunnel {s with grantReplays} clientId client streamId policy pool assigned,
              [.respond clientId streamId (buildConnectOkResponse config list assigned) false])
          else
            ({ s with
              grantReplays
              pool := if assigned.isSome then pool.release clientId else pool },[])
  else (s,[.respond clientId streamId (status "501") true])

def onData (config : ServerConfig W) (s : Server W) (clientId : Bytes) (client : Client W)
    (streamId : UInt64) (bytes : Bytes) : Server W :=
  if client.ciStream=some streamId then
    s.put clientId {client with pqwg := client.pqwg.map (config.responder.onControlBytes · bytes)}
  else s

def onEnded (s : Server W) (clientId : Bytes) (client : Client W) (streamId : UInt64) : Server W :=
  if client.ciStream=some streamId then
    s.put clientId {client with tunnelUp := false,packetPolicy := none}
  else s

def maxLearnedRoutesPerClient : ℕ := 4

def learnClientRoute (routes : Table IpAddr Bytes) (clientId : Bytes) (assigned : Option Ipv4)
    (packet : Bytes) : Table IpAddr Bytes × Bool :=
  match packetSrcIp packet with
  | none => (routes,false)
  | some src =>
    match routes.get src with
    | some owner => (routes,owner=clientId)
    | none =>
      match assigned with
      | some ip =>
        if IpAddr.v4 ip=src then (routes.insert src clientId,true) else (routes,false)
      | none =>
        if maxLearnedRoutesPerClient ≤ routes.countVal clientId then (routes,false)
        else (routes.insert src clientId,true)

def acceptsClientDatagrams (tunnelUp : Bool) (flowId authorizedFlowId : UInt64) : Bool :=
  tunnelUp&&flowId=authorizedFlowId

def routePacket (s : Server W) (clientId : Bytes) (client : Client W) (packet : Bytes) :
    Server W × List Output :=
  if client.packetPolicy.any fun policy => policy.admits packet then
    match learnClientRoute s.clientRoutes clientId client.assignedIp packet with
    | (clientRoutes,learned) => ({s with clientRoutes},if learned then [.toTun packet] else [])
  else (s,[])

def Client.tunn (config : ServerConfig W) (client : Client W) : Option W :=
  client.pqwg.filter config.responder.established

def decapsulateLoop (responder : Responder W) : ℕ → W → Bytes → List Bytes → W × List Bytes × Option Bytes
  | 0,tunn,_,netReplies => (tunn,netReplies,none)
  | rounds+1,tunn,input,netReplies =>
    match responder.decapsulate tunn input with
    | (tunn,.ip packet) => (tunn,netReplies,some packet)
    | (tunn,.network b) => decapsulateLoop responder rounds tunn [] (netReplies++[b])
    | (tunn,.done) => (tunn,netReplies,none)
    | (tunn,.err _) => (tunn,netReplies,none)

def onPayload (config : ServerConfig W) (s : Server W) (clientId : Bytes) (client : Client W)
    (payload : Bytes) (rounds : ℕ) : Server W × List Output :=
  match client.tunn config with
  | some tunn =>
    match decapsulateLoop config.responder rounds tunn payload [] with
    | (tunn,netReplies,packet) =>
      let s:=s.put clientId {client with pqwg := some tunn}
      let replies:=netReplies.map fun r => Output.toClient clientId (encodeDatagram client.flowId r)
      match packet with
      | some packet =>
        let (s,out) := routePacket s clientId client packet
        (s,out++replies)
      | none => (s,replies)
  | none =>
    -- Before its inner tunnel is established a PQ client has no packet to route.
    if config.pqwgEnabled then (s,[]) else routePacket s clientId client payload

def onDatagram (config : ServerConfig W) (s : Server W) (clientId : Bytes) (client : Client W)
    (datagram : Bytes) (rounds : ℕ) : Server W × List Output :=
  if !client.tunnelUp then (s,[])
  else
    match decodeDatagram datagram with
    | .ok (fid,.ip payload) =>
      if acceptsClientDatagrams client.tunnelUp fid client.flowId then
        onPayload config s clientId client payload rounds
      else (s,[])
    | .ok (_,.padding) => (s,[])
    | .error _ => (s,[])

def onTun (config : ServerConfig W) (s : Server W) (packet : Bytes) : Server W × List Output :=
  let packet:=fixL4Checksums packet
  match (packetDstIp packet).bind s.clientRoutes.get with
  | none => (s,[])
  | some clientId =>
    match (s.clients.get clientId).filter fun client => client.tunnelUp with
    | none => (s,[])
    | some client =>
      match client.tunn config with
      | some tunn =>
        match config.responder.encapsulate tunn packet with
        | (tunn,payload) =>
          (s.put clientId {client with pqwg := some tunn},
            (payload.map fun pl => Output.toClient clientId (encodeDatagram client.flowId pl)).toList)
      | none => (s,[.toClient clientId (encodeDatagram client.flowId packet)])

def releaseClosed (clients : Table Bytes (Client W)) (pool : AddressPool) : AddressPool :=
  clients.entries.foldl (fun pool e => if e.2.closed then pool.release e.1 else pool) pool

def reap (s : Server W) : Server W :=
  let clients:=s.clients.retain fun _ c => !c.closed
  { s with
    clients
    pool := releaseClosed s.clients s.pool
    clientRoutes := s.clientRoutes.retain fun _ id => clients.contains id }

def withH3 (s : Server W) (clientId : Bytes) (f : Client W → Server W × List Output) :
    Server W × List Output :=
  match s.clients.get clientId with
  | some client => if client.h3 then f client else (s,[])
  | none => (s,[])

def handle (config : ServerConfig W) (s : Server W) : Event → Server W × List Output
  | .accept clientId peerIp => (acceptClient config s clientId peerIp,[])
  | .established clientId =>
    match s.clients.get clientId with
    | some client => (s.put clientId {client with h3 := true},[])
    | none => (s,[])
  | .headers clientId streamId list now sent =>
    withH3 s clientId fun client => onHeaders config s clientId client streamId list now sent
  | .data clientId streamId bytes =>
    withH3 s clientId fun client => (onData config s clientId client streamId bytes,[])
  | .ended clientId streamId => withH3 s clientId fun client => (onEnded s clientId client streamId,[])
  | .datagram clientId dg rounds =>
    withH3 s clientId fun client => onDatagram config s clientId client dg rounds
  | .tun packet => onTun config s packet
  | .close clientId =>
    match s.clients.get clientId with
    | some client => (s.put clientId {client with closed := true},[])
    | none => (s,[])
  | .reap => (reap s,[])

def Server.step (config : ServerConfig W) (s : Server W) (e : Event) : Server W := (handle config s e).1
end NilVpn.Node
