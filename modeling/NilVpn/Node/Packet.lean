import NilVpn.Node.Authorize
import NilVpn.Transport.UdpIp

/-!
# Inner packets at the node (nil-node/src/server.rs:50-60, 896-927, 986-1013)
-/

namespace NilVpn.Node
open NilVpn.Core Base Transport

def ipv4At (packet : Bytes) (offset : ℕ) : Ipv4 :=
  ⟨byteAt packet offset,byteAt packet (offset+1),byteAt packet (offset+2),
    byteAt packet (offset+3)⟩

def packetIp (packet : Bytes) (source : Bool) : Option IpAddr := do
  let first ← packet.head?
  match first >>> 4 with
  | 4 =>
    if 20≤packet.length then some (.v4 (ipv4At packet (if source then 12 else 16))) else none
  | 6 =>
    let offset:=if source then 8 else 24
    if 40≤packet.length then
      let octets ← slice packet offset (offset+16)
      let octets ← Block.ofBytes 16 octets
      some (.v6 octets)
    else none
  | _ => none

def packetSrcIp (packet : Bytes) : Option IpAddr := packetIp packet true
def packetDstIp (packet : Bytes) : Option IpAddr := packetIp packet false

def relayPacketTargets (packet : Bytes) (endpoint : SocketAddrV4) : Bool :=
  if packet.length<28||byteAt packet 0 >>> 4≠4 then false
  else
    let ihl:=(byteAt packet 0 &&& 0x0f).toNat*4
    if ihl<20||packet.length < ihl+8 then false
    else
      let totalLen:=(be16At packet 2).toNat
      if totalLen≠packet.length||totalLen < ihl+8 then false
      else if be16At packet 6 &&& 0xbfff≠0||byteAt packet 9≠17 then false
      else if slice packet 16 20≠some endpoint.ip.octets then false
      else
        let udpLen:=(be16At packet (ihl+4)).toNat
        if udpLen<8||ihl+udpLen≠totalLen then false
        else be16At packet (ihl+2)=endpoint.port

def PacketPolicy.admits : PacketPolicy → Bytes → Bool
  | exit,_ => true
  | relay endpoint,packet => relayPacketTargets packet endpoint

lemma slice_octets {p : Bytes} (h : 20≤p.length) : slice p 16 20 =
    some [byteAt p 16,byteAt p 17,byteAt p 18,byteAt p 19] := by
  rw [slice,if_pos (by omega)]
  refine congrArg some (bytes_ext (by simp; omega) fun j => ?_)
  obtain hj | hj := Nat.lt_or_ge j 4
  · interval_cases j <;> simp [byteAt]
  · simp [byteAt,List.getD_eq_getElem?_getD,hj]

/-- What the relay admits, field by field. -/
lemma relayPacketTargets_iff (p : Bytes) (e : SocketAddrV4) : relayPacketTargets p e=true ↔
    byteAt p 0 >>> 4=4 ∧ 20 ≤ ihl p ∧ ihl p+8≤p.length ∧ (be16At p 2).toNat=p.length ∧
      be16At p 6 &&& 0xbfff=0 ∧ byteAt p 9=protoUdp ∧
      (⟨byteAt p 16,byteAt p 17,byteAt p 18,byteAt p 19⟩ : Ipv4)=e.ip ∧
      ihl p+(be16At p (ihl p+4)).toNat=p.length ∧ be16At p (ihl p+2)=e.port := by
  have hip (h : 20≤p.length) : slice p 16 20=some e.ip.octets ↔
      (⟨byteAt p 16,byteAt p 17,byteAt p 18,byteAt p 19⟩ : Ipv4)=e.ip := by
    rw [slice_octets h]
    obtain ⟨⟨a,b,c,d⟩,port⟩ := e
    simp [Ipv4.octets]
  have hh : (byteAt p 0 &&& 0x0f).toNat*4=ihl p := rfl
  simp only [relayPacketTargets,protoUdp,hh]
  by_cases hl : 28≤p.length
  · simp only [ne_eq,hip (by omega)]
    grind
  · simp only [show p.length<28 by omega,decide_true,Bool.true_or,if_true,Bool.false_eq_true,false_iff]
    omega

/-- The relay admits what `unwrap` reads as an unfragmented datagram to its endpoint, and of the packets
`wrap` builds exactly those to it. -/
theorem relay_is_nested_encapsulation :
    (∀ p e, relayPacketTargets p e=true → ∃ s, unwrap p=some (s,e,p.drop (Core.ihl p+udpHdr)) ∧
      be16At p 6 &&& 0x3fff=0) ∧
    ∀ src dst payload, ipv4Hdr+udpHdr+payload.length≤65535 →
      unwrap (wrap src dst payload)=some (src,dst,payload) ∧
      ∀ e, relayPacketTargets (wrap src dst payload) e=true ↔ dst=e := by
  refine ⟨fun p e hrelay => ?_,fun src dst payload hl => ⟨unwrap_wrap src dst payload hl,fun e => ?_⟩⟩
  · obtain ⟨hver,hihl,hl,-,hfrag,hproto,hip,hu,hp⟩ := (relayPacketTargets_iff p e).mp hrelay
    refine ⟨⟨⟨byteAt p 12,byteAt p 13,byteAt p 14,byteAt p 15⟩,be16At p (ihl p)⟩,?_,?_⟩
    · simp only [unwrap,show (byteAt p 0 &&& 0x0f).toNat*4=ihl p from rfl,ipv4Hdr,udpHdr]
      rw [if_neg (by grind),if_neg (by grind),if_neg (by grind),hu,List.take_length,hip,hp]
    · have h : be16At p 6 &&& 0x3fff=be16At p 6 &&& 0xbfff &&& 0x3fff := by rw [UInt16.and_assoc]; rfl
      rw [h,hfrag,UInt16.zero_and]
  · obtain ⟨ht,-,hp,hu⟩ := wrap_words src dst payload hl
    have hbyte:=wrap_byteAt src dst payload
    have hsize:=wrap_length src dst payload
    have hfirst : byteAt (wrap src dst payload) 0=0x45 := hbyte 0 (by decide)
    have hihl : ihl (wrap src dst payload)=20 := by rw [ihl,hfirst]; rfl
    have hdf : be16At (wrap src dst payload) 6=0x4000 := by
      rw [be16At,hbyte 6 (by decide),hbyte 7 (by decide)]
      rfl
    have hproto : byteAt (wrap src dst payload) 9=protoUdp := hbyte 9 (by decide)
    have hdst : (⟨byteAt (wrap src dst payload) 16,byteAt (wrap src dst payload) 17,
        byteAt (wrap src dst payload) 18,byteAt (wrap src dst payload) 19⟩ : Ipv4)=dst.ip := by
      rw [hbyte 16 (by decide),hbyte 17 (by decide),hbyte 18 (by decide),hbyte 19 (by decide)]
      rfl
    simp only [ipv4Hdr,udpHdr] at hl ht hu
    rw [relayPacketTargets_iff,hihl,hdf,hproto,hdst,hfirst,ht,hu,hp,hsize]
    obtain ⟨ip,port⟩ := dst
    obtain ⟨ip',port'⟩ := e
    have hver : (0x45 : UInt8) >>> 4=4 := by decide
    have hflags : (0x4000 : UInt16) &&& 0xbfff=0 := by decide
    have hfull : (20+8+payload.length) % 65536=payload.length+28 := by omega
    have hrest : 20+(8+payload.length) % 65536=payload.length+28 := by omega
    simp [hver,hflags,hfull,hrest]
end NilVpn.Node
