import Mathlib.Tactic.Linarith
import Mathlib.Tactic.Ring
import NilVpn.Base.Result
import NilVpn.Core.Session

/-!
# CONNECT-IP datagrams (nil-transport/src/connectip.rs)

A datagram is `varint(flow id) ‖ varint(context id) ‖ data`. Context 0 carries a
packet, context 1 padding.
-/

namespace NilVpn.Transport
open Base List
open NilVpn.Core (Error)

def contextIdIpPacket : UInt64 := 0
def contextIdPadding : UInt64 := 1

inductive DatagramPayload
  | ip (packet : Bytes)
  | padding

def maxVarint : UInt64 := 0x3fffffffffffffff

def varintLen (v : UInt64) : ℕ :=
  if v≤0x3f then 1 else if v≤0x3fff then 2 else if v≤0x3fffffff then 4 else 8

def encodeVarint (v : UInt64) : Bytes :=
  match varintLen v with
  | 1 => [v.toUInt8]
  | 2 => beBytes 2 (v.toUInt16 ||| 0x4000).toNat
  | 4 => beBytes 4 (v.toUInt32 ||| 0x80000000).toNat
  | _ => beBytes 8 (v ||| 0xc000000000000000).toNat

/-- The value and the remainder; `none` when the string is too short. -/
def decodeVarint : Bytes → Option (UInt64 × Bytes)
  | [] => none
  | first::rest =>
    let len:=1 <<< (first >>> 6).toNat
    if (first::rest).length<len then none
    else
      let val:=(rest.take (len - 1)).foldl (fun (val : UInt64) b => (val <<< 8) ||| b.toUInt64)
        (first &&& 0x3f).toUInt64
      some (val,rest.drop (len - 1))

def encodeDatagram (flowId : UInt64) (ip : Bytes) : Bytes :=
  encodeVarint flowId++encodeVarint contextIdIpPacket++ip

def encodePaddingDatagram (flowId : UInt64) (padLen : ℕ) : Bytes :=
  encodeVarint flowId++encodeVarint contextIdPadding++List.replicate padLen 0

def decodeDatagram (buf : Bytes) : Except Error (UInt64 × DatagramPayload) := do
  let (flowId,rest) ← okOr (decodeVarint buf) (.invalidPacket "truncated flow-id")
  let (ctx,payload) ← okOr (decodeVarint rest) (.invalidPacket "truncated context-id")
  if ctx=contextIdIpPacket then .ok (flowId,.ip payload)
  else if ctx=contextIdPadding then .ok (flowId,.padding)
  else .error (.invalidPacket s!"unsupported context id {ctx}")

lemma ofBe_cons (x : UInt8) (b : Bytes) : ofBe (x::b)=x.toNat*256^b.length+ofBe b := by
  induction b using List.reverseRecOn with
  | nil => simp [ofBe]
  | append_singleton b y ih =>
    rw [← cons_append,ofBe_concat,ofBe_concat,ih,length_append,length_singleton]
    ring

lemma shiftIn_toNat {val : UInt64} (b : UInt8) (h : val.toNat<2^56) :
    ((val <<< 8) ||| b.toUInt64).toNat=256*val.toNat+b.toNat := by
  have hb : b.toNat<2^8 := b.toNat_lt
  have hs : (val <<< 8).toNat=2^8*val.toNat := by
    simp only [UInt64.toNat_shiftLeft,UInt64.reduceToNat,Nat.shiftLeft_eq,Nat.reduceMod,Nat.reducePow]
    omega
  rw [UInt64.toNat_or,hs,UInt8.toNat_toUInt64,← Nat.two_pow_add_eq_or_of_lt hb]

lemma shiftedIn_toNat (bs : Bytes) (val : UInt64) (h : (val.toNat+1)*256^bs.length≤2^64) :
    (bs.foldl (fun (val : UInt64) b => (val <<< 8) ||| b.toUInt64) val).toNat =
      val.toNat*256^bs.length+ofBe bs := by
  induction bs generalizing val with
  | nil => simp [ofBe]
  | cons b bs ih =>
    have hb:=b.toNat_lt
    have hp : 1≤256^bs.length := Nat.one_le_pow _ _ (by decide)
    rw [length_cons,pow_succ] at h
    have hv : (val.toNat+1)*256≤2^64 :=
      calc (val.toNat+1)*256≤(val.toNat+1)*256*256^bs.length := Nat.le_mul_of_pos_right _ hp
        _ ≤ 2^64 := by linarith
    have hs:=shiftIn_toNat b (show val.toNat<2^56 by omega)
    rw [foldl_cons,ih _ ?_,hs,ofBe_cons,length_cons]
    · ring
    · calc _≤(val.toNat+1)*256*256^bs.length := Nat.mul_le_mul_right _ (by rw [hs]; omega)
        _ ≤ 2^64 := by linarith

/-- The two top bits of the first byte say how many bytes there are. -/
lemma decodeVarint_cons (f : UInt8) (rest : Bytes) : decodeVarint (f::rest) =
      if rest.length+1<2^(f.toNat / 64) then none
      else some (UInt64.ofNat (f.toNat % 64*256^(2^(f.toNat / 64) - 1) +
        ofBe (rest.take (2^(f.toNat / 64) - 1))),rest.drop (2^(f.toNat / 64) - 1)) := by
  have ha : (f >>> 6).toNat=f.toNat / 64 := by simp [Nat.shiftRight_eq_div_pow]
  have hl : (f &&& 0x3f).toUInt64.toNat=f.toNat % 64 := by
    rw [UInt8.toNat_toUInt64,UInt8.toNat_and]
    exact Nat.and_two_pow_sub_one_eq_mod _ 6
  have hlt : f.toNat / 64<4 := Nat.div_lt_of_lt_mul f.toNat_lt
  simp only [decodeVarint,ha,Nat.shiftLeft_eq,Nat.one_mul,length_cons]
  split
  · rfl
  next hn =>
    generalize f.toNat / 64=t at hlt hn ⊢
    have ht : (rest.take (2^t - 1)).length=2^t - 1 := length_take_of_le (by omega)
    have hv:=shiftedIn_toNat (rest.take (2^t - 1)) (f &&& 0x3f).toUInt64 ?_
    · rw [ht,hl] at hv
      rw [← hv,UInt64.ofNat_toNat]
    · rw [ht,hl]
      have hm : f.toNat % 64+1≤64 := Nat.mod_lt _ (by decide)
      calc _≤64*256^(2^t - 1) := Nat.mul_le_mul_right _ hm
        _ ≤ 64*256^7 := by interval_cases t <;> decide
        _ ≤ 2^64 := by decide

lemma encodeVarint_eq {v : UInt64} (hv : v.toNat<2^62) : ∃ t<4, v.toNat<64*256^(2^t - 1) ∧
      encodeVarint v=beBytes (2^t) (t*64*256^(2^t - 1)+v.toNat) := by
  have h16:=UInt64.toNat_toUInt16 v
  have h32:=UInt64.toNat_toUInt32 v
  simp only [encodeVarint,varintLen,UInt64.le_iff_toNat_le,UInt64.reduceToNat]
  split_ifs with h₁ h₂ h₃
  · refine ⟨0,by decide,by omega,?_⟩
    simp only [beBytes,pow_zero,Nat.zero_mul,Nat.zero_add,nil_append]
    rfl
  · refine ⟨1,by decide,by omega,congrArg (beBytes 2) ?_⟩
    rw [UInt16.toNat_or,Nat.or_comm]
    exact (Nat.two_pow_add_eq_or_of_lt (i := 14) (by omega) 1).symm.trans (by omega)
  · refine ⟨2,by decide,by omega,congrArg (beBytes 4) ?_⟩
    rw [UInt32.toNat_or,Nat.or_comm]
    exact (Nat.two_pow_add_eq_or_of_lt (i := 30) (by omega) 2).symm.trans (by omega)
  · refine ⟨3,by decide,by omega,congrArg (beBytes 8) ?_⟩
    rw [UInt64.toNat_or,Nat.or_comm]
    exact (Nat.two_pow_add_eq_or_of_lt (i := 62) hv 3).symm.trans (by omega)

lemma decodeVarint_encodeVarint {v : UInt64} (hv : v.toNat<2^62) (rest : Bytes) :
    decodeVarint (encodeVarint v++rest)=some (v,rest) := by
  obtain ⟨t,ht,hf,he⟩ := encodeVarint_eq hv
  have hl : (encodeVarint v).length=2^t - 1+1 := by
    rw [he,beBytes_length,Nat.sub_add_cancel (Nat.one_le_two_pow)]
  have hvl : ofBe (encodeVarint v)=t*64*256^(2^t - 1)+v.toNat := by
    rw [he]
    refine ofBe_beBytes _ _ ?_
    interval_cases t <;> omega
  match h : encodeVarint v,hl with
  | first::body,hl =>
    have hb : body.length=2^t - 1 := Nat.succ.inj hl
    have hlow:=ofBe_lt body
    rw [h,ofBe_cons,hb] at hvl
    rw [hb] at hlow
    -- The first byte is the tag and the six highest bits of the value.
    have hd : first.toNat / 64=t ∧ first.toNat % 64*256^(2^t - 1)+ofBe body=v.toNat := by
      interval_cases t <;> omega
    have htk : (body++rest).take (2^t - 1)=body := take_left' hb
    rw [cons_append,decodeVarint_cons,hd.1,if_neg (by simp [hb]; omega),htk,hd.2,
      drop_left' hb,UInt64.ofNat_toNat]

lemma decodeVarint_eq_some {b rest : Bytes} {v : UInt64} (h : decodeVarint b=some (v,rest)) :
    v.toNat<2^62 ∧ rest <:+ b := by
  cases b with
  | nil => cases h
  | cons f ta =>
    rw [decodeVarint_cons] at h
    split at h
    · cases h
    next hl =>
      cases h
      refine ⟨?_,(drop_suffix ..).trans (suffix_cons ..)⟩
      have hlt : f.toNat / 64<4 := Nat.div_lt_of_lt_mul f.toNat_lt
      generalize f.toNat / 64=t at hlt hl ⊢
      have hlow:=ofBe_lt (ta.take (2^t - 1))
      rw [length_take_of_le (by omega)] at hlow
      rw [UInt64.toNat_ofNat']
      interval_cases t <;> omega

lemma maxVarint_toNat : maxVarint.toNat=2^62 - 1 := rfl

lemma datagram_eq {flowId ctx : UInt64} (hf : flowId ≤ maxVarint) (hc : ctx≤0x3f) (data : Bytes) :
    decodeVarint (encodeVarint flowId++encodeVarint ctx++data)=some (flowId,encodeVarint ctx++data) ∧
      decodeVarint (encodeVarint ctx++data)=some (ctx,data) ∧
      (encodeVarint flowId++encodeVarint ctx++data).length≤data.length+9 := by
  rw [UInt64.le_iff_toNat_le,maxVarint_toNat] at hf
  have hl : flowId.toNat<2^62 := by omega
  have hs:=UInt64.le_iff_toNat_le.mp hc
  have ho : (encodeVarint ctx).length=1 := by simp [encodeVarint,varintLen,hc]
  obtain ⟨t,ht,-,he⟩ := encodeVarint_eq hl
  refine ⟨?_,decodeVarint_encodeVarint (Nat.lt_of_le_of_lt hs (by simp)) data,?_⟩
  · rw [append_assoc]
    exact decodeVarint_encodeVarint hl _
  · rw [length_append,length_append,ho,he,beBytes_length]
    interval_cases t <;> omega

/-- The codec of CONNECT-IP datagrams: what is encoded decodes to itself, with at most nine
bytes of framing, and a decoded packet is a suffix of the datagram. -/
theorem datagram_codec : (∀ flowId ≤ maxVarint, ∀ ip padLen,
      decodeDatagram (encodeDatagram flowId ip)=.ok (flowId,.ip ip) ∧
      decodeDatagram (encodePaddingDatagram flowId padLen)=.ok (flowId,.padding) ∧
      (encodeDatagram flowId ip).length ≤ ip.length+9 ∧
      (encodePaddingDatagram flowId padLen).length≤padLen+9) ∧
    (∀ flowId ≤ maxVarint, ∀ flowId' ≤ maxVarint, ∀ ip padLen,
      encodePaddingDatagram flowId padLen≠encodeDatagram flowId' ip) ∧
    (∀ b flowId ip, decodeDatagram b=.ok (flowId,.ip ip) → ip <:+ b ∧ flowId ≤ maxVarint) := by
  have hz : contextIdIpPacket≤0x3f := by decide
  have ho : contextIdPadding≤0x3f := by decide
  have hip : ∀ flowId ≤ maxVarint, ∀ ip, decodeDatagram (encodeDatagram flowId ip)=.ok (flowId,.ip ip) := by
    intro flowId hf ip
    obtain ⟨h₁,h₂,-⟩ := datagram_eq hf hz ip
    simp only [decodeDatagram,encodeDatagram,h₁,h₂,okOr_some,ok_bind,if_true]
  have ha : ∀ flowId ≤ maxVarint, ∀ padLen,
      decodeDatagram (encodePaddingDatagram flowId padLen)=.ok (flowId,.padding) := by
    intro flowId hf padLen
    obtain ⟨h₁,h₂,-⟩ := datagram_eq hf ho (List.replicate padLen 0)
    simp only [decodeDatagram,encodePaddingDatagram,h₁,h₂,okOr_some,ok_bind]
    rfl
  refine ⟨?_,?_,?_⟩
  · intro flowId hf ip padLen
    refine ⟨hip flowId hf ip,ha flowId hf padLen,(datagram_eq hf hz ip).2.2,?_⟩
    simpa [encodePaddingDatagram] using (datagram_eq hf ho (List.replicate padLen 0)).2.2
  · grind
  · intro b flowId ip h
    unfold decodeDatagram at h
    obtain ⟨⟨f,rest⟩,h₁,⟨ctx,pa⟩,h₂,h⟩ := except_bind_ok₂ h
    obtain ⟨hf,hr⟩ := decodeVarint_eq_some (okOr_eq_ok h₁)
    obtain ⟨-,hp⟩ := decodeVarint_eq_some (okOr_eq_ok h₂)
    dsimp only at h
    split at h
    · cases h
      refine ⟨hp.trans hr,?_⟩
      rw [UInt64.le_iff_toNat_le,maxVarint_toNat]
      omega
    · split at h <;> cases h
end NilVpn.Transport
