import NilVpn.Base.Net
import NilVpn.Core.Checksum

/-!
# UDP in IPv4 for nested tunnels (nil-transport/src/udpip.rs)
-/

namespace NilVpn.Transport
open UInt16 Base NilVpn.Core

def ipv4Hdr : ℕ := 20
def udpHdr : ℕ := 8
def protoUdp : UInt8 := 17

/-- The packet of `wrap` before its checksums are finalized. -/
def wrapped (src dst : SocketAddrV4) (payload : Bytes) : Bytes :=
  [0x45,0]++beBytes 2 (ipv4Hdr+udpHdr+payload.length)++[0,0,0x40,0,64,protoUdp,0,0] ++
    src.ip.octets++dst.ip.octets++beBytes 2 src.port.toNat++beBytes 2 dst.port.toNat ++
    beBytes 2 (udpHdr+payload.length)++[0,0]++payload

def wrap (src dst : SocketAddrV4) (payload : Bytes) : Bytes := fixIpv4Checksums (wrapped src dst payload)

def unwrap (pkt : Bytes) : Option (SocketAddrV4 × SocketAddrV4 × Bytes) :=
  if pkt.length < ipv4Hdr||byteAt pkt 0 >>> 4≠4 then none
  else
    let ihl:=(byteAt pkt 0 &&& 0x0f).toNat*4
    if ihl < ipv4Hdr||byteAt pkt 9≠protoUdp||pkt.length < ihl+udpHdr then none
    else
      let udpLen:=(be16At pkt (ihl+4)).toNat
      if udpLen<udpHdr||pkt.length < ihl+udpLen then none
      else
        let srcIp:=⟨byteAt pkt 12,byteAt pkt 13,byteAt pkt 14,byteAt pkt 15⟩
        let dstIp:=⟨byteAt pkt 16,byteAt pkt 17,byteAt pkt 18,byteAt pkt 19⟩
        some (⟨srcIp,be16At pkt ihl⟩,⟨dstIp,be16At pkt (ihl+2)⟩,(pkt.take (ihl+udpLen)).drop (ihl+udpHdr))

section
variable (src dst : SocketAddrV4) (payload : Bytes)
lemma wrapped_length : (wrapped src dst payload).length=payload.length+28 := by
  simp [wrapped,Ipv4.octets]
  omega

lemma wrapped_first : byteAt (wrapped src dst payload) 0=0x45 := rfl

lemma wrapped_ihl : ihl (wrapped src dst payload)=20 := by
  rw [ihl,wrapped_first]
  rfl

lemma wrapped_header : Header4 (wrapped src dst payload) := by
  refine ⟨by rw [wrapped_first]; rfl,?_⟩
  rw [wrapped_ihl,wrapped_length]
  omega

lemma wrap_eq : wrap src dst payload=fixL4Checksums (wrapped src dst payload) := rfl

lemma wrap_length : (wrap src dst payload).length=payload.length+28 := by
  rw [wrap_eq,(fix_finished _).length,wrapped_length]

/-- Only the two checksums are not those of `wrapped`. -/
lemma wrap_byteAt (j : ℕ) (h : j≠10 ∧ j≠11 ∧ j≠26 ∧ j≠27) :
    byteAt (wrap src dst payload) j=byteAt (wrapped src dst payload) j := by
  rw [wrap_eq]
  refine (fix_finished _).frame j fun g hg ho => ?_
  have hoff : checksumOffset4 (byteAt (wrapped src dst payload) 9)=some 6 := rfl
  simp only [fields,headerField,transportField,if_pos (wrapped_header src dst payload),wrapped_ihl,hoff,
    Field.Holds] at hg ho
  generalize last4 (wrapped src dst payload)=last,pseudo4 (wrapped src dst payload)=pseudo at hg
  split at hg <;> simp at hg <;> grind

lemma be16_bytes {n : ℕ} (h : n<65536) : ofBe [UInt8.ofNat (n / 256),UInt8.ofNat n]=n := by
  simp [ofBe]
  omega

lemma be16_port (port : UInt16) :
    UInt16.ofNat (ofBe [UInt8.ofNat (port.toNat / 256),UInt8.ofNat port.toNat])=port := by
  rw [be16_bytes port.toNat_lt,UInt16.ofNat_toNat]

lemma wrap_payload : (wrap src dst payload).drop 28=payload := by
  have hd : (wrapped src dst payload).drop 28=payload := rfl
  refine (bytes_ext (by simp [wrap_length,wrapped_length]) fun j => ?_).trans hd
  simpa [byteAt,List.getD_eq_getElem?_getD] using wrap_byteAt src dst payload (28+j) (by omega)

lemma wrap_words (h : ipv4Hdr+udpHdr+payload.length≤65535) :
    be16At (wrap src dst payload) 2=ofNat (ipv4Hdr+udpHdr+payload.length) ∧
      be16At (wrap src dst payload) 20=src.port ∧ be16At (wrap src dst payload) 22=dst.port ∧
      be16At (wrap src dst payload) 24=ofNat (udpHdr+payload.length) := by
  have hb:=wrap_byteAt src dst payload
  simp only [be16At,hb 2 (by decide),hb 3 (by decide),hb 20 (by decide),hb 21 (by decide),
    hb 22 (by decide),hb 23 (by decide),hb 24 (by decide),hb 25 (by decide)]
  refine ⟨?_,be16_port src.port,be16_port dst.port,?_⟩
  · exact congrArg ofNat (be16_bytes (n := ipv4Hdr+udpHdr+payload.length) (by omega))
  · exact congrArg ofNat (be16_bytes (n := udpHdr+payload.length) (by omega))

lemma unwrap_wrap (h : ipv4Hdr+udpHdr+payload.length≤65535) :
    unwrap (wrap src dst payload)=some (src,dst,payload) := by
  obtain ⟨-,hs,hd,hl⟩ := wrap_words src dst payload h
  have hb:=wrap_byteAt src dst payload
  have ht:=wrap_length src dst payload
  have h0 : byteAt (wrap src dst payload) 0=0x45 := hb 0 (by decide)
  have h9 : byteAt (wrap src dst payload) 9=protoUdp := hb 9 (by decide)
  have hihl : (byteAt (wrap src dst payload) 0 &&& 0x0f).toNat*4=20 := by rw [h0]; rfl
  simp only [ipv4Hdr,udpHdr] at h
  have hu : (be16At (wrap src dst payload) (20+4)).toNat=payload.length+8 := by
    rw [hl,toNat_ofNat',udpHdr]
    omega
  have htk : (wrap src dst payload).take (20+(payload.length+8))=wrap src dst payload :=
    List.take_of_length_le (by omega)
  simp only [unwrap,hihl,ipv4Hdr,udpHdr]
  rw [if_neg (by simp [h0,ht]; decide),if_neg (by simp [h9,ht]),hu,
    if_neg (by simp [ht]; omega),htk,wrap_payload,hs,hd]
  simp only [hb 12 (by decide),hb 13 (by decide),hb 14 (by decide),hb 15 (by decide),
    hb 16 (by decide),hb 17 (by decide),hb 18 (by decide),hb 19 (by decide)]
  rfl
end
end NilVpn.Transport
