import NilVpn.Base.Block

/-!
# IP addresses
-/

namespace NilVpn.Base

def dot : UInt8 := 46

structure Ipv4 where
  (a b c d : UInt8)
  deriving DecidableEq,Repr

inductive IpAddr
  | v4 (ip : Ipv4)
  | v6 (octets : Block 16)
  deriving DecidableEq

structure SocketAddrV4 where
  ip : Ipv4
  port : UInt16
  deriving DecidableEq,Repr

namespace Ipv4
def octets (ip : Ipv4) : Bytes := [ip.a,ip.b,ip.c,ip.d]

/-- At most three digits, no leading zero, below 256. -/
def parseOctet (s : Bytes) : Option UInt8 :=
  if s≠[] ∧ s.length≤3 ∧ s.all isDigit=true ∧ (s.head?=some 48 → s.length=1) ∧ digitsValue 0 s<256 then
    some (UInt8.ofNat (digitsValue 0 s))
  else none

def parse (s : Bytes) : Option Ipv4 :=
  match s.splitOn dot with
  | [a,b,c,d] => do
    let a ← parseOctet a
    let b ← parseOctet b
    let c ← parseOctet c
    let d ← parseOctet d
    some ⟨a,b,c,d⟩
  | _ => none

def display (ip : Ipv4) : Bytes :=
  decimal ip.a.toNat++dot::(decimal ip.b.toNat++dot::(decimal ip.c.toNat ++
    dot::decimal ip.d.toNat))

def isUnspecified (ip : Ipv4) : Bool := ip=⟨0,0,0,0⟩
def isLoopback (ip : Ipv4) : Bool := ip.a=127
def isMulticast (ip : Ipv4) : Bool := 224 ≤ ip.a&&ip.a≤239
def broadcast : Ipv4 := ⟨255,255,255,255⟩

def toUInt32 (ip : Ipv4) : UInt32 :=
  UInt32.ofNat (((ip.a.toNat*256+ip.b.toNat)*256+ip.c.toNat)*256+ip.d.toNat)

def ofUInt32 (n : UInt32) : Ipv4 :=
  ⟨UInt8.ofNat (n.toNat / 16777216),UInt8.ofNat (n.toNat / 65536),UInt8.ofNat (n.toNat / 256),
    UInt8.ofNat n.toNat⟩

lemma toUInt32_ofUInt32 (n : UInt32) : (ofUInt32 n).toUInt32=n := by
  have hn:=n.toNat_lt
  apply UInt32.toNat_inj.mp
  simp only [ofUInt32,toUInt32,UInt32.toNat_ofNat',UInt8.toNat_ofNat']
  omega

lemma ofUInt32_inj {m n : UInt32} (h : ofUInt32 m=ofUInt32 n) : m=n := by
  rw [← toUInt32_ofUInt32 m,h,toUInt32_ofUInt32]
end Ipv4
end NilVpn.Base
