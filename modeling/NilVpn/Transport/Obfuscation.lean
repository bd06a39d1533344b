import NilVpn.Base.Block

/-!
# The AmneziaWG framing (nil-transport/src/amneziawg.rs:22-206)

The random numbers of one call are given by the caller.
-/

namespace NilVpn.Transport
open Base Option List

abbrev MessageKind := Fin 4

def wgLen : MessageKind → ℕ
  | 0 => 148
  | 1 => 92
  | 2 => 64
  | 3 => 0

structure ObfsParams where
  headers : MessageKind → Block 4
  prefaceHeader : Block 4
  (tailMin tailMax : ℕ)

/-- What `getrandom` yields in one call: the word a length is drawn from, and the bytes of a
buffer of any length. -/
structure Entropy where
  word : UInt64
  bytes : (n : ℕ) → Block n

def randLen (entropy : Entropy) (min max : ℕ) : ℕ :=
  if max ≤ min then min else min+entropy.word.toNat % (max - min+1)

namespace ObfsParams
def default : ObfsParams where
  headers
    | 0 => ⟨[0x9e,0x21,0xc4,0x07],rfl⟩
    | 1 => ⟨[0x3b,0xd5,0x88,0x1a],rfl⟩
    | 2 => ⟨[0x6f,0x0c,0xa3,0xe2],rfl⟩
    | 3 => ⟨[0xd4,0x77,0x19,0x5b],rfl⟩
  prefaceHeader := ⟨[0x5c,0xa8,0x3f,0xd1],rfl⟩
  tailMin := 8
  tailMax := 64

def tail (params : ObfsParams) (entropy : Entropy) : Bytes :=
  (entropy.bytes (randLen entropy params.tailMin params.tailMax)).val

def kindOf (t : UInt8) : Option MessageKind :=
  if h : 1≤t.toNat ∧ t.toNat≤4 then some ⟨t.toNat - 1,by omega⟩ else none

def obfuscate (params : ObfsParams) (entropy : Entropy) (wg : Bytes) : Bytes :=
  if wg.length<4 then wg
  else
    match kindOf (byteAt wg 0) with
    | none => wg
    | some kind =>
      (params.headers kind).val++wg.drop 4++if wgLen kind≠0 then params.tail entropy else []

def position (params : ObfsParams) (header : Bytes) : Option MessageKind :=
  (List.finRange 4).find? fun kind => (params.headers kind).val=header

def deobfuscate (params : ObfsParams) (wire : Bytes) : Option Bytes :=
  if wire.length<4 then none
  else
    match params.position (wire.take 4) with
    | none => none
    | some kind =>
      let word : Bytes := [UInt8.ofNat (kind.val+1),0,0,0]
      if wgLen kind=0 then some (word++wire.drop 4)
      else
        let body:=wgLen kind - 4
        if wire.length<4+body then none else some (word++(wire.drop 4).take body)

def obfuscatePreface (params : ObfsParams) (entropy : Entropy) (pubkey : Block 32) : Bytes :=
  params.prefaceHeader.val++pubkey.val++params.tail entropy

/-- The WireGuard static key of the client, if the datagram is a preface. -/
def tryPreface (params : ObfsParams) (wire : Bytes) : Option (Block 32) :=
  if wire.length<4+32 ∨ wire.take 4≠params.prefaceHeader.val then none
  else (slice wire 4 36).bind (Block.ofBytes 32)

lemma tryPreface_obfuscatePreface (p : ObfsParams) (e : Entropy) (pubkey : Block 32) :
    p.tryPreface (p.obfuscatePreface e pubkey)=some pubkey := by
  have hs : slice (p.obfuscatePreface e pubkey) 4 36=some pubkey.val := by
    rw [obfuscatePreface,append_assoc]
    exact slice_field (by simp) (by simp)
  have hl : ¬(p.obfuscatePreface e pubkey).length<4+32 := by
    simp only [obfuscatePreface,length_append,Block.length_val]
    omega
  have hh : (p.obfuscatePreface e pubkey).take 4=p.prefaceHeader.val := by
    rw [obfuscatePreface,append_assoc]
    exact take_left' p.prefaceHeader.length_val
  rw [tryPreface,if_neg (not_or.mpr ⟨hl,not_not.mpr hh⟩),hs]
  exact pubkey.ofBytes_val

/-- The four headers and the preface header are pairwise distinct. -/
structure Distinct (params : ObfsParams) : Prop where
  headers : ∀ kind kind', (params.headers kind).val=(params.headers kind').val → kind=kind'
  preface : ∀ kind, (params.headers kind).val≠params.prefaceHeader.val

section
variable {params : ObfsParams} (hdistinct : params.Distinct)
include hdistinct
lemma Distinct.position_header (kind : MessageKind) : params.position (params.headers kind).val=some kind := by
  have hf : (params.position (params.headers kind).val).isSome := by
    rw [position,List.find?_isSome]
    exact ⟨kind,mem_finRange kind,by simp⟩
  obtain ⟨kind',hk⟩ := isSome_iff_exists.mp hf
  have hh : (params.headers kind').val=(params.headers kind).val := by simpa using List.find?_some hk
  rw [hk,hdistinct.headers kind' kind hh]

lemma Distinct.tryPreface_or_deobfuscate_none (wire : Bytes) :
    params.tryPreface wire=none ∨ params.deobfuscate wire=none := by
  by_cases hh : wire.take 4=params.prefaceHeader.val
  · right
    have hp : params.position (wire.take 4)=none := by
      rw [hh,position,List.find?_eq_none]
      intro ki _
      simpa using hdistinct.preface ki
    rw [deobfuscate,hp]
    split <;> rfl
  · left
    rw [tryPreface,if_pos (.inr hh)]
end
end ObfsParams

/-- A WireGuard packet of a kind: its type word, and the length fixed for the kind if there is
one. -/
structure IsWireGuard (kind : MessageKind) (packet : Bytes) : Prop where
  word : packet.take 4=[UInt8.ofNat (kind.val+1),0,0,0]
  length : wgLen kind≠0 → packet.length=wgLen kind

namespace ObfsParams
lemma kindOf_type : ∀ kind : MessageKind, kindOf (UInt8.ofNat (kind.val+1))=some kind := by decide

lemma Distinct.deobfuscate_obfuscate {p : ObfsParams} (hdistinct : p.Distinct)
    (e : Entropy) {kind : MessageKind} {packet : Bytes} (hp : IsWireGuard kind packet) :
    p.deobfuscate (p.obfuscate e packet)=some packet := by
  obtain ⟨rest,rfl⟩ : ∃ rest, packet=[UInt8.ofNat (kind.val+1),0,0,0]++rest :=
    ⟨packet.drop 4,by rw [← hp.word,take_append_drop]⟩
  have hw : p.obfuscate e ([UInt8.ofNat (kind.val+1),0,0,0]++rest) =
      (p.headers kind).val++(rest++if wgLen kind≠0 then p.tail e else []) := by
    have ht : byteAt ([UInt8.ofNat (kind.val+1),0,0,0]++rest) 0=UInt8.ofNat (kind.val+1) := rfl
    rw [obfuscate,if_neg (by simp),ht,kindOf_type kind]
    exact append_assoc ..
  rw [hw,deobfuscate,if_neg (by simp),take_left' (p.headers kind).length_val,
    hdistinct.position_header kind,drop_left' (p.headers kind).length_val]
  by_cases hf : wgLen kind=0
  · simp [hf]
  · -- a kind of fixed length: the body stops where the random tail begins
    have hr : rest.length=wgLen kind - 4 := by
      have := hp.length hf
      simp only [length_append,length_cons,length_nil] at this
      omega
    simp only [if_neg hf]
    rw [if_neg (by simp [hr]),take_left' hr]

theorem obfuscation_transparent (params : ObfsParams) (hdistinct : params.Distinct) (entropy : Entropy) :
    (∀ kind packet, IsWireGuard kind packet →
      params.deobfuscate (params.obfuscate entropy packet)=some packet ∧
        params.tryPreface (params.obfuscate entropy packet)=none) ∧
    (∀ pubkey, params.tryPreface (params.obfuscatePreface entropy pubkey)=some pubkey ∧
      params.deobfuscate (params.obfuscatePreface entropy pubkey)=none) ∧
    ∀ wire, params.tryPreface wire=none ∨ params.deobfuscate wire=none := by
  refine ⟨fun kind packet hpacket => ?_,fun pubkey => ?_,hdistinct.tryPreface_or_deobfuscate_none⟩
  · have hopened:=hdistinct.deobfuscate_obfuscate entropy hpacket
    refine ⟨hopened,(hdistinct.tryPreface_or_deobfuscate_none _).resolve_right ?_⟩
    rw [hopened]
    exact some_ne_none _
  · have hkey:=params.tryPreface_obfuscatePreface entropy pubkey
    refine ⟨hkey,(hdistinct.tryPreface_or_deobfuscate_none _).resolve_left ?_⟩
    rw [hkey]
    exact some_ne_none _

/-- What a call uses when `getrandom` fails: the buffers stay zero. -/
def noEntropy : Entropy where
  word := 0
  bytes n := ⟨List.replicate n 0,List.length_replicate⟩

theorem default_obfuscation_transparent :
    default.Distinct ∧ IsWireGuard 3 [4,0,0,0,9] ∧
      default.deobfuscate (default.obfuscate noEntropy [4,0,0,0,9])=some [4,0,0,0,9] :=
  have hdistinct : default.Distinct := ⟨by decide,by decide⟩
  have hpacket : IsWireGuard 3 [4,0,0,0,9] := ⟨rfl,fun h => absurd rfl h⟩
  ⟨hdistinct,hpacket,((obfuscation_transparent default hdistinct noEntropy).1 3 [4,0,0,0,9] hpacket).1⟩
end ObfsParams
end NilVpn.Transport
