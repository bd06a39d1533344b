import Mathlib.Data.Set.Function
import NilVpn.Base.Net

/-!
# Retry tokens (nil-node/src/retry.rs:54-113)
-/

namespace NilVpn.Node.Retry
open Base Option List

structure SocketAddr where
  ip : IpAddr
  port : UInt16

def tokenTag : Bytes := ascii "nil-quic-retry-v1"
def macLen : ℕ := 16

def addrBytes (src : SocketAddr) : Bytes :=
  (match src.ip with
    | .v4 ip => 4::ip.octets
    | .v6 octets => 6::octets.val)++beBytes 2 src.port.toNat

def macInput (src : SocketAddr) (odcid : Bytes) : Bytes := tokenTag++(addrBytes src++odcid)

section
variable (hmacSha256 : Block 32 → Bytes → Block 32) (key : Block 32)
def truncated (msg : Bytes) : Bytes := (hmacSha256 key msg).val.take macLen
def mac (src : SocketAddr) (odcid : Bytes) : Bytes := truncated hmacSha256 key (macInput src odcid)

def mint (src : SocketAddr) (odcid : Bytes) : Bytes :=
  tokenTag++UInt8.ofNat odcid.length::(odcid++mac hmacSha256 key src odcid)

def validate (src : SocketAddr) (token : Bytes) : Option Bytes :=
  match tokenTag.isPrefixOf? token with
  | none | some [] => none
  | some (odcidLen::rest) =>
    if rest.length≠odcidLen.toNat+macLen then none
    else
      let odcid:=rest.take odcidLen.toNat
      if rest.drop odcidLen.toNat=mac hmacSha256 key src odcid then some odcid else none

variable {hmacSha256 key} {src src' : SocketAddr} {odcid odcid' token : Bytes}
lemma length_byte {n : ℕ} (h : n≤255) : (UInt8.ofNat n).toNat=n :=
  UInt8.toNat_ofNat_of_lt' (Nat.lt_succ_of_le h)

lemma mac_length : (mac hmacSha256 key src odcid).length=macLen := by simp [mac,truncated,macLen]

lemma validate_mint (h : odcid.length≤255) :
    validate hmacSha256 key src (mint hmacSha256 key src odcid)=some odcid := by
  have hr : tokenTag.isPrefixOf? (mint hmacSha256 key src odcid) =
      some (UInt8.ofNat odcid.length::(odcid++mac hmacSha256 key src odcid)) :=
    isPrefixOf?_eq_some_iff_append_eq.mpr rfl
  rw [validate,hr]
  simp [length_byte h,length_append,mac_length]

lemma mint_of_validate (h : validate hmacSha256 key src token=some odcid) :
    token=mint hmacSha256 key src odcid ∧ odcid.length≤255 := by
  rw [validate] at h
  split at h
  · cases h
  · cases h
  · rename_i ol rest hr
    obtain ⟨hl,h⟩ := ite_none_left_eq_some.mp h
    obtain ⟨hm,h⟩ := ite_none_right_eq_some.mp h
    obtain rfl:=Option.some.inj h
    have ht : (rest.take ol.toNat).length=ol.toNat := length_take_of_le (by rw [not_not.mp hl]; omega)
    refine ⟨?_,by rw [ht]; have:=ol.toNat_lt; omega⟩
    rw [mint,ht,UInt8.ofNat_toNat,← hm,take_append_drop]
    exact (isPrefixOf?_eq_some_iff_append_eq.mp hr).symm

lemma mint_inj (hh : odcid.length≤255) (hh' : odcid'.length≤255)
    (h : mint hmacSha256 key src odcid=mint hmacSha256 key src' odcid') :
    odcid=odcid' ∧ mac hmacSha256 key src odcid=mac hmacSha256 key src' odcid' := by
  obtain ⟨hl,h⟩ := cons.inj (append_cancel_left h)
  have hs : odcid.length=odcid'.length := by rw [← length_byte hh,hl,length_byte hh']
  exact append_inj h hs
end

/-- The tag byte gives the family, and so the length of the address. -/
lemma addrBytes_inj {src src' : SocketAddr} (h : addrBytes src=addrBytes src') : src=src' := by
  obtain ⟨ip,port⟩ := src
  obtain ⟨ip',port'⟩ := src'
  have hp : beBytes 2 port.toNat=beBytes 2 port'.toNat → port=port' := by
    intro hb
    rw [← UInt16.toNat_inj,← ofBe_beBytes 2 port.toNat port.toNat_lt,hb,
      ofBe_beBytes 2 port'.toNat port'.toNat_lt]
  cases ip with
  | v4 ip =>
    cases ip' with
    | v4 ip' =>
      obtain ⟨a,b,c,d⟩ := ip
      obtain ⟨a',b',c',d'⟩ := ip'
      simp only [addrBytes,Ipv4.octets,cons_append,nil_append,cons.injEq,true_and] at h
      obtain ⟨rfl,rfl,rfl,rfl,h⟩ := h
      rw [hp h]
    | v6 o' => cases (cons.inj h).1
  | v6 o =>
    cases ip' with
    | v4 ip' => cases (cons.inj h).1
    | v6 o' =>
      obtain ⟨rfl,h⟩ := Block.append_inj (cons.inj h).2
      rw [hp h]

/-- `asked` are the inputs of the MAC among which no two collide. -/
theorem retry_tokens_bind (hmacSha256 : Block 32 → Bytes → Block 32) (key : Block 32) :
    (∀ src odcid token, odcid.length≤255 →
      (validate hmacSha256 key src token=some odcid ↔ token=mint hmacSha256 key src odcid)) ∧
    ∀ asked : Set Bytes, Set.InjOn (truncated hmacSha256 key) asked → ∀ src src' odcid,
      odcid.length≤255 → macInput src odcid∈asked → macInput src' odcid∈asked →
      ((validate hmacSha256 key src' (mint hmacSha256 key src odcid)).isSome ↔ src=src') ∧
        (src=src' → validate hmacSha256 key src' (mint hmacSha256 key src odcid)=some odcid) := by
  refine ⟨fun src odcid token hh => ⟨fun h => (mint_of_validate h).1,?_⟩,?_⟩
  · rintro rfl
    exact validate_mint hh
  · intro asked hn src src' odcid hh ha ha'
    have ho : src=src' → validate hmacSha256 key src' (mint hmacSha256 key src odcid)=some odcid := by
      rintro rfl
      exact validate_mint hh
    refine ⟨⟨fun hso => ?_,fun hs => by rw [ho hs]; rfl⟩,ho⟩
    obtain ⟨odcid',hv⟩ := isSome_iff_exists.mp hso
    obtain ⟨hm,hh'⟩ := mint_of_validate hv
    obtain ⟨rfl,hc⟩ := mint_inj hh hh' hm
    have hin : macInput src odcid=macInput src' odcid := hn ha ha' hc
    exact addrBytes_inj (append_cancel_right (append_cancel_left hin))

def home : SocketAddr := ⟨.v4 ⟨198,51,100,7⟩,443⟩
def away : SocketAddr := ⟨.v4 ⟨198,51,100,8⟩,443⟩
def reversing (_ : Block 32) (msg : Bytes) : Block 32 := Block.clip 32 msg.reverse

theorem token_refused_elsewhere :
    validate reversing (Block.fill 32 7) home (mint reversing (Block.fill 32 7) home [1,2])=some [1,2] ∧
    ¬(validate reversing (Block.fill 32 7) away (mint reversing (Block.fill 32 7) home [1,2])).isSome := by
  have hn : Set.InjOn (truncated reversing (Block.fill 32 7)) {macInput home [1,2],macInput away [1,2]} :=
    Set.injOn_pair.mpr fun h => absurd h (by decide)
  have hb:=(retry_tokens_bind reversing (Block.fill 32 7)).2 _ hn home
  refine ⟨(hb home [1,2] (by decide) (.inl rfl) (.inl rfl)).2 rfl,?_⟩
  rw [(hb away [1,2] (by decide) (.inl rfl) (.inr rfl)).1]
  rintro ⟨⟩
end NilVpn.Node.Retry
