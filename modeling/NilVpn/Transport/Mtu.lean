import NilVpn.Transport.ConnectIp
import NilVpn.Transport.UdpIp

/-!
# What fits through an onion (nil-transport/src/masque/mod.rs:147-249, pqwg.rs:231-236)

QUIC and WireGuard are outside: a QUIC packet is any string of a size the hop is configured for, a WireGuard
message any string of the size of its packet and the overhead.
-/

namespace NilVpn.Transport
open Base List
open NilVpn.Core (Error)

def maxFramingOverhead : ℕ := 8+1
def maxUdpPayload : ℕ := 1420
def udpipOverhead : ℕ := 28
def minQuicUdpPayload : ℕ := 1200
def wgOverhead : ℕ := 32
def nestedClientPort : UInt16 := 51820
def defaultNestedClientIp : Ipv4 := ⟨10,74,0,2⟩

inductive PacketChannel
  | udp
  | tunnel (src peer : SocketAddrV4)

structure MasqueSession where
  channel : PacketChannel
  flowId : UInt64
  (maxUdpPayload maxDgramPayload : ℕ)
  assignedIp : Option Ipv4

structure Hop where
  session : MasqueSession
  pq : Bool

def MasqueSession.tunnelMtu (s : MasqueSession) : ℕ := s.maxDgramPayload - maxFramingOverhead

def Hop.tunnelMtu (h : Hop) : ℕ :=
  if h.pq then h.session.tunnelMtu - wgOverhead else h.session.tunnelMtu

structure ReadyInfo where
  flowId : UInt64
  maxDgramPayload : ℕ
  assignedIp : Option Ipv4

/-- What the surroundings return to one hop's dial; `wrapped` is `wrap_session`'s result, where the endpoint
has a WireGuard key. -/
structure Dial where
  resolved : Except Error (IpAddr × UInt16)
  socket : Except Error Unit
  ready : ℕ → Except Error ReadyInfo
  wrapped : Option (Except Error Unit)

def finishConnect (d : Dial) (channel : PacketChannel) (maxUdpPayload : ℕ) : Except Error MasqueSession := do
  let ready ← d.ready maxUdpPayload
  .ok ⟨channel,ready.flowId,maxUdpPayload,ready.maxDgramPayload,ready.assignedIp⟩

def connect (d : Dial) : Except Error MasqueSession := do
  let _ ← d.resolved
  d.socket
  finishConnect d .udp maxUdpPayload

def nestedSourceIp (assigned configured : Option Ipv4) : Ipv4 :=
  (assigned.or configured).getD defaultNestedClientIp

def nestedUdpPayload (outerMtu : ℕ) : Option ℕ :=
  if udpipOverhead≤outerMtu ∧ minQuicUdpPayload≤outerMtu - udpipOverhead then
    some (outerMtu - udpipOverhead) else none

def nextHop : IpAddr × UInt16 → Except Error SocketAddrV4
  | (.v4 ip,port) => .ok ⟨ip,port⟩
  | (.v6 _,_) => .error (.transport "nested MASQUE requires an IPv4 next hop")

/-- `outerMtu` and `outerAssigned` are what `outer` answers for the outer session. -/
def connectNested (nestedClientIp : Option Ipv4) (outerMtu : Option ℕ) (outerAssigned : Option Ipv4)
    (d : Dial) : Except Error MasqueSession := do
  let resolved ← d.resolved
  let peer ← nextHop resolved
  let outerMtu ← okOr outerMtu (.transport "nested MASQUE: outer tunnel has no negotiated MTU")
  let maxUdpPayload ← okOr (nestedUdpPayload outerMtu) (.transport
    s!"nested MASQUE: path too deep — outer MTU {outerMtu}B leaves < {minQuicUdpPayload}B for the inner QUIC payload")
  finishConnect d (.tunnel ⟨nestedSourceIp outerAssigned nestedClientIp,nestedClientPort⟩ peer) maxUdpPayload

def dialHop (nestedClientIp : Option Ipv4) : List Hop → Dial → Except Error MasqueSession
  | [],d => connect d
  | outer::_,d => connectNested nestedClientIp (some outer.tunnelMtu) outer.session.assignedIp d

/-- The dials of `PathTransport::connect`; the hop dialled last comes first. -/
def connectHops (nestedClientIp : Option Ipv4) : List Hop → List Dial → Except Error (List Hop)
  | hops,[] => .ok hops
  | hops,d::ds => do
    let session ← dialHop nestedClientIp hops d
    d.wrapped.getD (.ok ())
    connectHops nestedClientIp (⟨session,d.wrapped.isSome⟩::hops) ds

/-- `TunnelChannel::send_to`. -/
def tunnelSendTo (src peer : SocketAddrV4) (pkt : Bytes) : IpAddr × UInt16 → Bytes
  | (.v4 ip,port) => wrap src ⟨ip,port⟩ pkt
  | (.v6 _,_) => wrap src peer pkt

/-- The datagram in which a hop takes a packet: of the packet itself, or of its WireGuard message. -/
def Hop.Sends (h : Hop) (packet datagram : Bytes) : Prop :=
  ∃ wire, (if h.pq then wire.length=packet.length+wgOverhead else wire=packet) ∧
    datagram=encodeDatagram h.session.flowId wire

/-- The datagrams of a packet at every hop, from the exit on: each but the last is in a QUIC packet
that the next hop takes as an IP packet. -/
inductive Rides : List Hop → Bytes → List Bytes → Prop
  | entry {h : Hop} {packet d : Bytes} (hd : h.Sends packet d) : Rides [h] packet [d]
  | nested {h : Hop} {outer : List Hop} {packet d quic : Bytes} {ds : List Bytes} {src peer : SocketAddrV4}
      (dst : IpAddr × UInt16) (hd : h.Sends packet d) (hchannel : h.session.channel=.tunnel src peer)
      (hholds : d.length≤quic.length) (hquic : quic.length≤h.session.maxUdpPayload)
      (hrest : Rides outer (tunnelSendTo src peer quic dst) ds) : Rides (h::outer) packet (d::ds)

def Fits (inner outer : Hop) : Prop :=
  minQuicUdpPayload ≤ inner.session.maxUdpPayload ∧ ∃ src peer, inner.session.channel=.tunnel src peer ∧
    ∀ quic dst, quic.length ≤ inner.session.maxUdpPayload →
      (tunnelSendTo src peer quic dst).length≤outer.tunnelMtu

variable {nestedClientIp : Option Ipv4} {hops hops' : List Hop} {h : Hop} {packet d : Bytes}
lemma tunnelSendTo_length (src p : SocketAddrV4) (pkt : Bytes) (dst : IpAddr × UInt16) :
    (tunnelSendTo src p pkt dst).length=pkt.length+udpipOverhead := by
  obtain ⟨ip | ip,port⟩ := dst <;> exact wrap_length ..

lemma tunnelSendTo_pos (src p : SocketAddrV4) (pkt : Bytes) (dst : IpAddr × UInt16) :
    0<(tunnelSendTo src p pkt dst).length := by
  rw [tunnelSendTo_length]
  exact Nat.succ_pos _

lemma connectNested_ok {outerMtu : ℕ} {assigned : Option Ipv4} {d : Dial} {s : MasqueSession}
    (hs : connectNested nestedClientIp (some outerMtu) assigned d=.ok s) :
    minQuicUdpPayload ≤ s.maxUdpPayload ∧ s.maxUdpPayload+udpipOverhead=outerMtu ∧
      ∃ src peer, s.channel=.tunnel src peer := by
  obtain ⟨re,-,peer,-,mtu,hm,size,hz,hs⟩ := except_bind_ok₄ hs
  obtain ⟨rd,-,hs⟩ := except_bind_ok hs
  cases hm
  cases hs
  have hsz:=okOr_eq_ok hz
  rw [nestedUdpPayload] at hz
  split at hz
  next hl =>
    cases hz
    exact ⟨hl.2,Nat.sub_add_cancel hl.1,_,_,rfl⟩
  · cases hz

lemma connectHops_fits {d : List Dial} (hc : hops.IsChain Fits)
    (ho : connectHops nestedClientIp hops d=.ok hops') : hops'.IsChain Fits := by
  induction d generalizing hops with
  | nil => exact Except.ok.inj ho ▸ hc
  | cons dial d ih =>
    obtain ⟨se,hs,⟨⟩,-,ho⟩ := except_bind_ok₂ ho
    refine ih ?_ ho
    cases hops with
    | nil => exact .singleton _
    | cons o hops =>
      obtain ⟨hm,hsz,src,peer,hch⟩ := connectNested_ok hs
      refine .cons_cons ⟨hm,src,peer,hch,fun quic dst hq => ?_⟩ hc
      rw [tunnelSendTo_length,← hsz]
      exact Nat.add_le_add_right hq _

lemma Hop.Sends.length_le (hd : h.Sends packet d) (hf : h.session.flowId ≤ maxVarint)
    (hp : 0<packet.length) (hl : packet.length≤h.tunnelMtu) : d.length≤h.session.maxDgramPayload := by
  obtain ⟨wi,hw,rfl⟩ := hd
  have hfr : (encodeDatagram h.session.flowId wi).length≤wi.length+9 :=
    (datagram_eq hf (by decide) wi).2.2
  simp only [Hop.tunnelMtu,MasqueSession.tunnelMtu,maxFramingOverhead,wgOverhead] at hl hw
  split at hl <;> simp_all <;> omega

lemma Rides.length_le {ds : List Bytes} (hr : Rides hops packet ds) (hc : hops.IsChain Fits)
    (hf : ∀ h∈hops, h.session.flowId ≤ maxVarint) (hp : 0<packet.length)
    (hl : ∀ exit∈hops.head?, packet.length≤exit.tunnelMtu) :
    List.Forall₂ (fun h d => d.length≤h.session.maxDgramPayload) hops ds := by
  induction hr with
  | entry hd => exact .cons (hd.length_le (hf _ (by simp)) hp (hl _ rfl)) .nil
  | nested dst hd ha _ hq hrs ih =>
    cases hc with
    | singleton => cases hrs
    | cons_cons hft ht =>
      refine .cons (hd.length_le (hf _ (by simp)) hp (hl _ rfl)) (ih ht
        (fun h hh => hf h (mem_cons_of_mem _ hh)) (tunnelSendTo_pos ..) ?_)
      rintro _ ⟨⟩
      obtain ⟨-,src,peer,ha',hft⟩ := hft
      cases ha.symm.trans ha'
      exact hft _ _ hq

lemma Hop.sends_something (h : Hop) (packet : Bytes) : ∃ d, h.Sends packet d := by
  by_cases hp : h.pq
  · exact ⟨_,List.replicate (packet.length+wgOverhead) 0,by simp [hp],rfl⟩
  · exact ⟨_,packet,by simp [hp],rfl⟩

lemma rides_exist (hch : hops.IsChain Fits) (hf : ∀ h∈hops, h.session.flowId ≤ maxVarint)
    (hs : ∀ h∈hops, h.session.maxDgramPayload≤h.session.maxUdpPayload) (hp : 0<packet.length)
    (hh : hops≠[]) (hl : ∀ exit∈hops.head?, packet.length≤exit.tunnelMtu) :
    ∃ ds, Rides hops packet ds := by
  induction hops generalizing packet with
  | nil => exact absurd rfl hh
  | cons h ou ih =>
    obtain ⟨d,hd⟩ := h.sends_something packet
    cases ou with
    | nil => exact ⟨[d],.entry hd⟩
    | cons o ou =>
      obtain ⟨⟨-,src,pe,hc,hft⟩,ht⟩ := isChain_cons_cons.mp hch
      have hq:=(hd.length_le (hf h (by simp)) hp (hl h rfl)).trans (hs h (by simp))
      obtain ⟨ds,hds⟩ := ih ht (fun x hx => hf x (mem_cons_of_mem _ hx))
        (fun x hx => hs x (mem_cons_of_mem _ hx)) (tunnelSendTo_pos src pe d (.v4 pe.ip,0))
        (cons_ne_nil _ _) (by rintro _ ⟨⟩; exact hft _ _ hq)
      exact ⟨d::ds,.nested _ hd hc le_rfl hq hds⟩

theorem onion_mtu_composes (nestedClientIp : Option Ipv4) :
    (∀ dials hops, connectHops nestedClientIp [] dials=.ok hops →
      (∀ h∈hops, h.session.maxDgramPayload≤h.session.maxUdpPayload) →
      (∀ h∈hops, h.session.flowId ≤ maxVarint) →
      hops.IsChain Fits ∧ ∀ exit∈hops.head?, ∀ packet≠[], packet.length≤exit.tunnelMtu →
        (∃ ds, Rides hops packet ds) ∧ ∀ ds, Rides hops packet ds →
          List.Forall₂ (fun h d => d.length≤h.session.maxDgramPayload) hops ds) ∧
    ∀ outerMtu assigned dial, outerMtu<udpipOverhead+minQuicUdpPayload →
      ∃ e, connectNested nestedClientIp (some outerMtu) assigned dial=.error e := by
  refine ⟨fun dials hops hok hsize hf => ?_,fun outerMtu assigned dial hshort => ?_⟩
  · have hchain:=connectHops_fits .nil hok
    refine ⟨hchain,fun exit hexit packet hne hlen => ?_⟩
    have hpos:=length_pos_of_ne_nil hne
    cases hops with
    | nil => cases hexit
    | cons h outer =>
      cases hexit
      have hh : ∀ x∈(exit::outer).head?, packet.length≤x.tunnelMtu := by rintro _ ⟨⟩; exact hlen
      exact ⟨rides_exist hchain hf hsize hpos (cons_ne_nil _ _) hh,
        fun ds hds => hds.length_le hchain hf hpos hh⟩
  · cases hs : connectNested nestedClientIp (some outerMtu) assigned dial with
    | error e => exact ⟨e,rfl⟩
    | ok s =>
      obtain ⟨hmin,hsum,-⟩ := connectNested_ok hs
      omega

/-- QUIC keeps 40 bytes of a payload for itself. -/
def dial (port : UInt16) (wrapped : Option (Except Error Unit)) : Dial :=
  ⟨.ok (.v4 ⟨192,0,2,1⟩,port),.ok (),fun size => .ok ⟨0,size - 40,none⟩,wrapped⟩

theorem onion_mtu_composes_sample : ∃ hops,
    connectHops none [] [dial 443 none,dial 8443 (some (.ok ()))]=.ok hops ∧
    (∀ packet≠[], packet.length≤1262 → ∃ ds, Rides hops packet ds) ∧
      ∃ e, connectNested none (some 1227) none (dial 443 none)=.error e := by
  have hc:=onion_mtu_composes none
  refine ⟨_,rfl,fun packet hne hlen => ?_,hc.2 _ _ _ (by decide)⟩
  exact ((hc.1 [dial 443 none,dial 8443 (some (.ok ()))] _ rfl (by decide) (by decide)).2 _ rfl
    packet hne hlen).1
end NilVpn.Transport
