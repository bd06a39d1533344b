import NilVpn.Base.Text

/-!
# Path DTOs (nil-proto/src/path.rs)

The wire form of a path. A `String` is its UTF-8 bytes.
-/

namespace NilVpn.Proto
open Base

inductive Tee
  | sevSnp
  | tdx
  deriving DecidableEq,Repr

structure SevSnpTcbFloor where
  fmc : Option UInt8
  (bootloader tee snp microcode : UInt8)
  deriving DecidableEq,Repr

structure TdxPolicy where
  (tdAttributes xfam mrConfigId mrOwner mrOwnerConfig rtMr0 rtMr1 rtMr2 rtMr3 : Bytes)
  mrServiceTd : Option Bytes
  deriving DecidableEq,Repr

structure Hop where
  host : Bytes
  port : UInt16
  tee : Tee
  measurement : Bytes
  (tlsSpkiSha256 wgPub : Option Bytes)
  minTcbSevsnp : Option SevSnpTcbFloor
  tdxPolicy : Option TdxPolicy
  (transparencyLogKey grant grantNonce : Option Bytes)
  deriving DecidableEq,Repr

structure PathResponse where
  hops : List Hop
  deriving DecidableEq,Repr
end NilVpn.Proto
