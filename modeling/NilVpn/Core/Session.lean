import NilVpn.Base.Block

/-!
# Sessions, grants and endpoints (nil-core/src/lib.rs)

Session ids come from counters that never wrap in practice; they are natural
numbers here.
-/

namespace NilVpn.Core
open Base

abbrev SessionId := ℕ

structure Session where
  id : SessionId
  deriving DecidableEq,Repr

structure Grant where
  token : Bytes
  nonce : Block 32
  deriving DecidableEq

structure NodeEndpoint where
  host : String
  port : UInt16
  wgPub : Option (Block 32)
  grant : Option Grant
  deriving DecidableEq

inductive Error
  | sessionNotFound (id : SessionId)
  | closed
  | invalidPacket (reason : String)
  | transport (reason : String)
  deriving DecidableEq

def Error.text : Error → String
  | sessionNotFound id => s!"session not found: SessionId({id})"
  | closed => "transport closed"
  | invalidPacket reason => s!"invalid packet: {reason}"
  | transport reason => s!"transport error: {reason}"
end NilVpn.Core
