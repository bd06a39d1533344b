import NilVpn.Coordinator.Registry
import NilVpn.Core.Session

/-!
# Attestation types (nil-core/src/lib.rs:26-243)

`TdxPolicy` is that of the registry, which already has the decoded values.
-/

namespace NilVpn.Core
open Base
open Nwg2 (Tee)
open Coordinator (TdxPolicy)

structure SevSnpTcbFloor where
  fmc : Option UInt8
  (bootloader tee snp microcode : UInt8)
  deriving DecidableEq,Repr

def SevSnpTcbFloor.isMetBy (floor : SevSnpTcbFloor) (fmc : Option UInt8)
    (bootloader tee snp microcode : UInt8) : Bool :=
  floor.bootloader≤bootloader&&floor.tee≤tee&&floor.snp ≤ snp&&floor.microcode ≤ microcode &&
      match floor.fmc with
      | some required => required≤fmc.getD 0
      | none => true

structure AttestExpectation where
  tee : Tee
  measurement : Bytes
  tlsSpkiSha256 : Option (Block 32)
  minTcbSevsnp : Option SevSnpTcbFloor
  tdxPolicy : Option TdxPolicy
  transparencyLogKey : Option (Block 32)
  deriving DecidableEq

inductive TransportKind
  | masque
  | amneziaWg
  | wstunnel
  | reality
  | loopback
  deriving DecidableEq,Repr

structure Endpoint where
  host : Bytes
  port : UInt16
  kind : TransportKind
  wgPub : Option (Block 32)
  expected : Option AttestExpectation
  grant : Option Grant
  deriving DecidableEq
end NilVpn.Core
