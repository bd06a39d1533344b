import NilVpn.Base.Net
import NilVpn.Base.Result
import NilVpn.Base.Table
import NilVpn.Base.Utf8

/-!
# NWG2 node grants (nil-core/src/grant.rs)

The fields of `GrantNodeIdentity` and `GrantAudience` are private in the source; here the constructor's
checks are fields. Ed25519 and SHA-256 are parameters.
-/

namespace NilVpn.Nwg2
open Base

def magic : Bytes := ascii "NWG2"
def legacyMagic : Bytes := ascii "NWG1"
def keyIdDomain : Bytes := ascii "nilvpn.nwg2.key-id"
def keyIdLen : ℕ := 32
def nonceLen : ℕ := 32
def measurementLen : ℕ := 48
def tlsSpkiSha256Len : ℕ := 32
def previousHopLen : ℕ := 1+4
def nextHopLen : ℕ := 1+4+2
def signatureLen : ℕ := 64
def keyIdOffset : ℕ := 4
def issuedAtOffset : ℕ := keyIdOffset+keyIdLen
def expiresAtOffset : ℕ := issuedAtOffset+8
def nonceOffset : ℕ := expiresAtOffset+8
def roleOffset : ℕ := nonceOffset+nonceLen
def transportOffset : ℕ := roleOffset+1
def teeOffset : ℕ := transportOffset+1
def realmLenOffset : ℕ := teeOffset+1
def nodeIdLenOffset : ℕ := realmLenOffset+2
def identifiersOffset : ℕ := nodeIdLenOffset+2
def minTokenLen : ℕ :=
  identifiersOffset+2+measurementLen+tlsSpkiSha256Len+previousHopLen+nextHopLen+signatureLen
def maxGrantIdentifierLen : ℕ := 64
def maxGrantTokenLen : ℕ :=
  identifiersOffset+2*maxGrantIdentifierLen+measurementLen+tlsSpkiSha256Len +
    previousHopLen+nextHopLen+signatureLen
def maxGrantTtlSecs : ℕ := 600
def maxGrantClockSkewSecs : ℕ := 30

inductive GrantRole
  | entry
  | middle
  | exit
  deriving DecidableEq,Repr

inductive GrantTransport
  | masque
  | amneziaWg
  | wstunnel
  | reality
  deriving DecidableEq,Repr

inductive Tee
  | sevSnp
  | tdx
  deriving DecidableEq,Repr

def GrantRole.toWire : GrantRole → UInt8
  | entry => 1
  | middle => 2
  | exit => 3

def GrantRole.fromWire (b : UInt8) : Option GrantRole :=
  if b=1 then some entry else if b=2 then some middle else if b=3 then some exit else none

def GrantTransport.toWire : GrantTransport → UInt8
  | masque => 1
  | amneziaWg => 2
  | wstunnel => 3
  | reality => 4

def GrantTransport.fromWire (b : UInt8) : Option GrantTransport :=
  if b=1 then some masque else if b=2 then some amneziaWg
  else if b=3 then some wstunnel else if b=4 then some reality else none

def teeToWire : Tee → UInt8
  | .sevSnp => 1
  | .tdx => 2

def teeFromWire (b : UInt8) : Option Tee :=
  if b=1 then some .sevSnp else if b=2 then some .tdx else none

lemma GrantRole.fromWire_toWire (r : GrantRole) : fromWire r.toWire=some r := by
  cases r <;> rfl

lemma GrantTransport.fromWire_toWire (t : GrantTransport) : fromWire t.toWire=some t := by
  cases t <;> rfl

lemma teeFromWire_toWire (t : Tee) : teeFromWire (teeToWire t)=some t := by
  cases t <;> rfl

inductive GrantError
  | invalidSigningKeyLength
  | invalidPublicKey
  | noVerificationKeys
  | keyIdCollision
  | invalidIdentifier (name : String)
  | invalidTtl
  | timeOverflow
  | legacyGrantRejected
  | unsupportedVersion
  | malformed
  | unknownKey
  | badSignature
  | invalidLifetime
  | notYetValid
  | expired
  | invalidNextHopPolicy
  | wrongAudience
  deriving DecidableEq,Repr

def GrantError.text : GrantError → String
  | invalidSigningKeyLength => "grant signing key must be exactly 32 bytes"
  | invalidPublicKey => "grant verification key is not a valid, non-weak Ed25519 public key"
  | noVerificationKeys => "at least one grant verification key is required"
  | keyIdCollision => "grant verification key ID collision"
  | invalidIdentifier name => name ++ " must be 1..=64 bytes of canonical lowercase ASCII"
  | invalidTtl => "grant TTL must be a whole number of seconds in 1..=600"
  | timeOverflow => "grant expiry overflows the Unix timestamp"
  | legacyGrantRejected => "legacy NWG1 grants are not accepted"
  | unsupportedVersion => "grant version is unsupported"
  | malformed => "grant is malformed"
  | unknownKey => "grant names an unknown verification key"
  | badSignature => "grant signature is invalid"
  | invalidLifetime => "grant encodes an invalid lifetime"
  | notYetValid => "grant was issued too far in the future"
  | expired => "grant expired"
  | invalidNextHopPolicy => "grant predecessor/next-hop shape is incompatible with its path role"
  | wrongAudience => "grant does not match this node audience"

def isLowerAlpha (b : UInt8) : Bool := 97≤b&&b≤122
def isEdge (b : UInt8) : Bool := isLowerAlpha b||isDigit b
def isInner (b : UInt8) : Bool := isEdge b||b=46||b=95||b=58||b=45

def isIdentifier (s : Bytes) : Bool :=
  s≠[]&&s.length ≤ maxGrantIdentifierLen&&s.head?.any isEdge&&s.getLast?.any isEdge&&s.all isInner

def validateNamedIdentifier (name : String) (identifier : Bytes) : Except GrantError Unit :=
  ensure (isIdentifier identifier) (.invalidIdentifier name)

def validateIdentifier (identifier : Bytes) : Except GrantError Unit :=
  validateNamedIdentifier "grant identifier" identifier

lemma isIdentifier_of_validate {s : Bytes} (h : validateIdentifier s=.ok ()) : isIdentifier s := by
  grind [validateIdentifier,validateNamedIdentifier,ensure]

lemma isIdentifier_length {s : Bytes} (h : isIdentifier s) : 1 ≤ s.length ∧ s.length≤64 := by
  simp only [isIdentifier,Bool.and_eq_true,decide_eq_true_eq,maxGrantIdentifierLen] at h
  have hp : 0<s.length := List.length_pos_of_ne_nil h.1.1.1.1
  exact ⟨hp,of_decide_eq_true h.1.1.1.2⟩

lemma isInner_ascii (b : UInt8) (h : isInner b) : b<0x80 := by
  simp only [isInner,isEdge,isLowerAlpha,isDigit,Bool.or_eq_true,Bool.and_eq_true,
    decide_eq_true_eq,UInt8.le_iff_toNat_le] at h
  rw [UInt8.lt_iff_toNat_lt]
  rcases h with ((((⟨-,h⟩ | ⟨-,h⟩) | h) | h) | h) | h
  · exact Nat.lt_of_le_of_lt h (by decide)
  · exact Nat.lt_of_le_of_lt h (by decide)
  all_goals
    rw [h]
    decide

lemma isIdentifier_utf8 {s : Bytes} (h : isIdentifier s) : isUtf8 s := by
  simp only [isIdentifier,Bool.and_eq_true] at h
  have ha:=List.all_eq_true.mp h.2
  exact isUtf8_ascii s fun b hb => isInner_ascii b (ha b hb)

structure GrantNodeIdentity where
  (realm nodeId : Bytes)
  role : GrantRole
  transport : GrantTransport
  tee : Tee
  measurement : Block measurementLen
  tlsSpkiSha256 : Block tlsSpkiSha256Len
  realm_valid : isIdentifier realm=true
  nodeId_valid : isIdentifier nodeId=true
  deriving DecidableEq

def GrantNodeIdentity.new (realm nodeId : Bytes) (role : GrantRole) (transport : GrantTransport)
    (tee : Tee) (measurement : Block measurementLen) (tlsSpkiSha256 : Block tlsSpkiSha256Len) :
    Except GrantError GrantNodeIdentity :=
  if hr : isIdentifier realm=true then
    if hn : isIdentifier nodeId=true then
      .ok ⟨realm,nodeId,role,transport,tee,measurement,tlsSpkiSha256,hr,hn⟩
    else .error (.invalidIdentifier "grant node_id")
  else .error (.invalidIdentifier "grant realm")

/-- The neighbours a role admits (grant.rs:289-294). -/
def neighboursAdmitted : GrantRole → Option Ipv4 → Option SocketAddrV4 → Bool
  | .entry,none,some endpoint => endpoint.port≠0
  | .middle,some _,some endpoint => endpoint.port≠0
  | .exit,_,none => true
  | _,_,_ => false

structure GrantAudience where
  node : GrantNodeIdentity
  previousHop : Option Ipv4
  nextHop : Option SocketAddrV4
  admitted : neighboursAdmitted node.role previousHop nextHop=true
  deriving DecidableEq

def GrantAudience.fromNodeIdentity (node : GrantNodeIdentity) (previousHop : Option Ipv4)
    (nextHop : Option SocketAddrV4) : Except GrantError GrantAudience :=
  if h : neighboursAdmitted node.role previousHop nextHop=true then
    .ok ⟨node,previousHop,nextHop,h⟩
  else .error .invalidNextHopPolicy

def GrantAudience.new (realm nodeId : Bytes) (role : GrantRole) (transport : GrantTransport)
    (tee : Tee) (measurement : Block measurementLen) (tlsSpkiSha256 : Block tlsSpkiSha256Len)
    (previousHop : Option Ipv4) (nextHop : Option SocketAddrV4) :
    Except GrantError GrantAudience := do
  let node ← GrantNodeIdentity.new realm nodeId role transport tee measurement tlsSpkiSha256
  GrantAudience.fromNodeIdentity node previousHop nextHop

lemma GrantNodeIdentity.new_parts (x : GrantNodeIdentity) :
    GrantNodeIdentity.new x.realm x.nodeId x.role x.transport x.tee x.measurement x.tlsSpkiSha256=.ok x := by
  rw [GrantNodeIdentity.new,dif_pos x.realm_valid,dif_pos x.nodeId_valid]

lemma GrantAudience.new_parts (x : GrantAudience) :
    GrantAudience.new x.node.realm x.node.nodeId x.node.role x.node.transport x.node.tee
      x.node.measurement x.node.tlsSpkiSha256 x.previousHop x.nextHop=.ok x := by
  rw [GrantAudience.new,GrantNodeIdentity.new_parts]
  exact dif_pos x.admitted

lemma GrantAudience.new_eq_ok {realm nodeId : Bytes} {role : GrantRole}
    {t : GrantTransport} {tee : Tee} {m : Block measurementLen}
    {tss : Block tlsSpkiSha256Len} {previous : Option Ipv4}
    {nextHop : Option SocketAddrV4} {x : GrantAudience}
    (h : GrantAudience.new realm nodeId role t tee m tss previous
      nextHop=.ok x) :
    x.node.realm=realm ∧ x.node.nodeId=nodeId ∧ x.node.role=role ∧
      x.node.transport=t ∧ x.node.tee=tee ∧ x.node.measurement=m ∧
      x.node.tlsSpkiSha256=tss ∧ x.previousHop=previous ∧ x.nextHop=nextHop := by
  obtain ⟨node,hn,h⟩ := except_bind_ok h
  unfold GrantNodeIdentity.new at hn
  split at hn
  · grind [GrantAudience.fromNodeIdentity,Except.ok.inj]
  · cases hn

/-- Ed25519 and SHA-256; `acceptsKey` is `VerifyingKey::from_bytes` and not weak. -/
structure Scheme where
  publicKey : Block 32 → Block 32
  sign : Block 32 → Bytes → Block signatureLen
  verifyStrict : Block 32 → Bytes → Block signatureLen → Bool
  acceptsKey : Block 32 → Bool
  sha256 : Bytes → Block 32

/-- Ideal signatures: under a key pair exactly the made signature verifies. -/
def Scheme.Ideal (scheme : Scheme) : Prop :=
  ∀ seed message signature, scheme.verifyStrict (scheme.publicKey seed) message signature=true ↔
      signature=scheme.sign seed message

def keyIdForPublicKey (scheme : Scheme) (publicKey : Block 32) : Block keyIdLen :=
  scheme.sha256 (keyIdDomain++publicKey.val)

structure GrantSigningKey where
  seed : Block 32

def GrantSigningKey.publicKeyBytes (scheme : Scheme) (key : GrantSigningKey) : Block 32 :=
  scheme.publicKey key.seed

def GrantSigningKey.keyId (scheme : Scheme) (key : GrantSigningKey) : Block keyIdLen :=
  keyIdForPublicKey scheme (key.publicKeyBytes scheme)

structure GrantVerifier where
  keys : Table (Block keyIdLen) (Block 32)

def GrantVerifier.addPublicKey (scheme : Scheme) (v : GrantVerifier) (publicKey : Block 32) :
    Except GrantError GrantVerifier :=
  if scheme.acceptsKey publicKey=false then .error .invalidPublicKey
  else match v.keys.get (keyIdForPublicKey scheme publicKey) with
    | some existing => if existing≠publicKey then .error .keyIdCollision else .ok v
    | none => .ok ⟨v.keys.insert (keyIdForPublicKey scheme publicKey) publicKey⟩

def GrantVerifier.addAll (scheme : Scheme) : List (Block 32) → GrantVerifier → Except GrantError GrantVerifier
  | [],v => .ok v
  | publicKey::rest,v => do
    let v ← v.addPublicKey scheme publicKey
    addAll scheme rest v

def GrantVerifier.new (scheme : Scheme) (publicKeys : List (Block 32)) :
    Except GrantError GrantVerifier := do
  let v ← GrantVerifier.addAll scheme publicKeys ⟨Table.empty⟩
  ensure (v.keys.len≠0) .noVerificationKeys
  .ok v

structure Duration where
  secs : UInt64
  subsecNanos : UInt32
  deriving DecidableEq

structure Grant where
  token : Bytes
  nonce : Block nonceLen
  deriving DecidableEq

def previousHopWire : Option Ipv4 → Bytes
  | some ip => 1::ip.octets
  | none => List.replicate previousHopLen 0

def nextHopWire : Option SocketAddrV4 → Bytes
  | some endpoint => 1::(endpoint.ip.octets++beBytes 2 endpoint.port.toNat)
  | none => List.replicate nextHopLen 0

def payload (keyId : Block keyIdLen) (issuedAt expiresAt : UInt64) (nonce : Block nonceLen)
    (audience : GrantAudience) : Bytes :=
  magic++(keyId.val++(beBytes 8 issuedAt.toNat++(beBytes 8 expiresAt.toNat++(nonce.val ++
    ([audience.node.role.toWire]++([audience.node.transport.toWire] ++
    ([teeToWire audience.node.tee]++(beBytes 2 audience.node.realm.length ++
    (beBytes 2 audience.node.nodeId.length++(audience.node.realm++(audience.node.nodeId ++
    (audience.node.measurement.val++(audience.node.tlsSpkiSha256.val ++
    (previousHopWire audience.previousHop++nextHopWire audience.nextHop))))))))))))))

def mint (scheme : Scheme) (signingKey : GrantSigningKey) (audience : GrantAudience)
    (nonce : Block nonceLen) (ttl : Duration) (now : UInt64) : Except GrantError Grant := do
  validateNamedIdentifier "grant realm" audience.node.realm
  validateNamedIdentifier "grant node_id" audience.node.nodeId
  ensure (ttl.subsecNanos=0&&1≤ttl.secs.toNat&&ttl.secs.toNat ≤ maxGrantTtlSecs) .invalidTtl
  let expiresAt ← okOr (checkedAdd now ttl.secs) .timeOverflow
  -- the two `u16::try_from` of the identifier lengths
  ensure (audience.node.realm.length<2^16) (.invalidIdentifier "grant realm")
  ensure (audience.node.nodeId.length<2^16) (.invalidIdentifier "grant node_id")
  let signed:=payload (signingKey.keyId scheme) now expiresAt nonce audience
  .ok ⟨signed++(scheme.sign signingKey.seed signed).val,nonce⟩

structure ParsedGrant where
  keyId : Block keyIdLen
  (issuedAt expiresAt : UInt64)
  nonce : Block nonceLen
  audience : GrantAudience
  signedPayload : Bytes
  signature : Block signatureLen
  deriving DecidableEq

def field (token : Bytes) (lo hi : ℕ) : Except GrantError Bytes := okOr (slice token lo hi) .malformed

def readArray (n : ℕ) (token : Bytes) (offset : ℕ) : Except GrantError (Block n) := do
  let bytes ← field token offset (offset+n)
  okOr (Block.ofBytes n bytes) .malformed

def readUint (n : ℕ) (token : Bytes) (offset : ℕ) : Except GrantError ℕ := do
  let bytes ← readArray n token offset
  .ok (ofBe bytes.val)

def readByte (token : Bytes) (offset : ℕ) : Except GrantError UInt8 := okOr token[offset]? .malformed

def readText (token : Bytes) (lo hi : ℕ) : Except GrantError Bytes := do
  let bytes ← field token lo hi
  ensure (isUtf8 bytes) .malformed
  .ok bytes

def parsePreviousHop : Bytes → Except GrantError (Option Ipv4)
  | [tag,a,b,c,d] =>
    if [tag,a,b,c,d]=[0,0,0,0,0] then .ok none
    else if tag=1 then .ok (some ⟨a,b,c,d⟩)
    else .error .malformed
  | _ => .error .malformed

def parseNextHop : Bytes → Except GrantError (Option SocketAddrV4)
  | [tag,a,b,c,d,portHi,portLo] =>
    if [tag,a,b,c,d,portHi,portLo]=[0,0,0,0,0,0,0] then .ok none
    else if tag=1 then
      if UInt16.ofNat (ofBe [portHi,portLo])=0 then .error .malformed
      else .ok (some ⟨⟨a,b,c,d⟩,UInt16.ofNat (ofBe [portHi,portLo])⟩)
    else .error .malformed
  | _ => .error .malformed

def orMalformed {α : Type} : Except GrantError α → Except GrantError α
  | .ok a => .ok a
  | .error _ => .error .malformed

def parseAudience (token : Bytes) (realmLen nodeIdLen : ℕ) : Except GrantError GrantAudience := do
  let realmEnd:=identifiersOffset+realmLen
  let nodeIdEnd:=realmEnd+nodeIdLen
  let measurementEnd:=nodeIdEnd+measurementLen
  let tlsSpkiSha256End:=measurementEnd+tlsSpkiSha256Len
  let previousHopEnd:=tlsSpkiSha256End+previousHopLen
  let nextHopEnd:=previousHopEnd+nextHopLen
  ensure (nextHopEnd=token.length - signatureLen) .malformed
  let realm ← readText token identifiersOffset realmEnd
  let nodeId ← readText token realmEnd nodeIdEnd
  let role ← readByte token roleOffset
  let role ← okOr (GrantRole.fromWire role) .malformed
  let transport ← readByte token transportOffset
  let transport ← okOr (GrantTransport.fromWire transport) .malformed
  let tee ← readByte token teeOffset
  let tee ← okOr (teeFromWire tee) .malformed
  let measurement ← readArray measurementLen token nodeIdEnd
  let tlsSpkiSha256 ← readArray tlsSpkiSha256Len token measurementEnd
  let previousHop ← field token tlsSpkiSha256End previousHopEnd
  let previousHop ← parsePreviousHop previousHop
  let nextHop ← field token previousHopEnd nextHopEnd
  let nextHop ← parseNextHop nextHop
  orMalformed (GrantAudience.new realm nodeId role transport tee measurement tlsSpkiSha256
    previousHop nextHop)

def parse (token : Bytes) : Except GrantError ParsedGrant := do
  ensure (!legacyMagic.isPrefixOf token) .legacyGrantRejected
  ensure (minTokenLen≤token.length) .malformed
  ensure (slice token 0 4=some magic) .unsupportedVersion
  let signatureOffset:=token.length - signatureLen
  let realmLen ← readUint 2 token realmLenOffset
  let nodeIdLen ← readUint 2 token nodeIdLenOffset
  ensure (realmLen≠0&&realmLen ≤ maxGrantIdentifierLen&&nodeIdLen≠0 &&
    nodeIdLen ≤ maxGrantIdentifierLen) .malformed
  let audience ← parseAudience token realmLen nodeIdLen
  let signature ← readArray signatureLen token signatureOffset
  let keyId ← readArray keyIdLen token keyIdOffset
  let issuedAt ← readUint 8 token issuedAtOffset
  let expiresAt ← readUint 8 token expiresAtOffset
  let nonce ← readArray nonceLen token nonceOffset
  .ok ⟨keyId,UInt64.ofNat issuedAt,UInt64.ofNat expiresAt,nonce,audience,token.take signatureOffset,signature⟩

structure VerifiedGrant where
  keyId : Block keyIdLen
  (issuedAt expiresAt : UInt64)
  nonce : Block nonceLen
  audience : GrantAudience
  deriving DecidableEq

def ParsedGrant.intoVerified (p : ParsedGrant) : VerifiedGrant :=
  ⟨p.keyId,p.issuedAt,p.expiresAt,p.nonce,p.audience⟩

def verifyAuthentic (scheme : Scheme) (token : Bytes) (verifier : GrantVerifier) (now : UInt64) :
    Except GrantError ParsedGrant := do
  let parsed ← parse token
  let verifyingKey ← okOr (verifier.keys.get parsed.keyId) .unknownKey
  ensure (scheme.verifyStrict verifyingKey parsed.signedPayload parsed.signature) .badSignature
  ensure (parsed.issuedAt≤parsed.expiresAt) .invalidLifetime
  let lifetime:=parsed.expiresAt.toNat - parsed.issuedAt.toNat
  ensure (1≤lifetime&&lifetime ≤ maxGrantTtlSecs) .invalidLifetime
  ensure (now<parsed.expiresAt) .expired
  -- natural subtraction saturates
  ensure (parsed.issuedAt.toNat - now.toNat ≤ maxGrantClockSkewSecs) .notYetValid
  .ok parsed

def verify (scheme : Scheme) (token : Bytes) (verifier : GrantVerifier)
    (expectedAudience : GrantAudience) (now : UInt64) : Except GrantError VerifiedGrant := do
  let parsed ← verifyAuthentic scheme token verifier now
  ensure (parsed.audience=expectedAudience) .wrongAudience
  .ok parsed.intoVerified

def verifyForNode (scheme : Scheme) (token : Bytes) (verifier : GrantVerifier)
    (expectedNode : GrantNodeIdentity) (now : UInt64) : Except GrantError VerifiedGrant := do
  let parsed ← verifyAuthentic scheme token verifier now
  ensure (parsed.audience.node=expectedNode) .wrongAudience
  .ok parsed.intoVerified
end NilVpn.Nwg2
