import NilVpn.Coordinator.AttachGrants
import NilVpn.Node.GrantReplay

/-!
# Authorization of CONNECT-IP (nil-node/src/server.rs:732-750, 798-894)

`debugAssertions` tells a debug build, in which a node may accept clients without a grant.
-/

namespace NilVpn.Node
open Base List
open Nwg2 (Scheme GrantRole GrantNodeIdentity GrantVerifier VerifiedGrant Tee measurementLen nonceLen
  maxGrantTokenLen verifyForNode)

inductive NodeRole
  | entry
  | middle
  | exit
  deriving DecidableEq,Repr

def NodeRole.grantRole : NodeRole → GrantRole
  | entry => .entry
  | middle => .middle
  | exit => .exit

structure NodeAttest where
  tee : Tee
  measurement : Block measurementLen

structure NodeConfig where
  attest : Option NodeAttest
  role : NodeRole
  grantVerifier : Option GrantVerifier
  (grantRealm nodeId : Option Bytes)
  allowUngranted : Bool

inductive PacketPolicy
  | exit
  | relay (endpoint : SocketAddrV4)
  deriving DecidableEq

structure Header where
  (name value : Bytes)
  deriving DecidableEq

def attestNonceHeader : Bytes := ascii "nil-attest-nonce"
def tunnelGrantHeader : Bytes := ascii "nil-tunnel-grant"

def uniqueHeaderValue (list : List Header) (name : Bytes) : Except String (Option Bytes) :=
  match list.filter fun header => header.name=name with
  | [] => .ok none
  | [header] => .ok (some header.value)
  | _ => .error "duplicate authorization header"

def attestNonce (headers : List Header) : Except String (Block nonceLen) := do
  let value ← uniqueHeaderValue headers attestNonceHeader
  let nonceHex ← okOr value "missing attestation nonce"
  ensure (nonceHex.length=64&&nonceHex.all isLowerHex) "malformed attestation nonce"
  let nonceBytes ← okOr (fromHex nonceHex) "malformed attestation nonce"
  okOr (Block.ofBytes nonceLen nonceBytes) "malformed attestation nonce"

def tunnelGrant (headers : List Header) : Except String Bytes := do
  let value ← uniqueHeaderValue headers tunnelGrantHeader
  let grantHex ← okOr value "missing tunnel grant"
  ensure (grantHex≠[]&&grantHex.length ≤ maxGrantTokenLen*2&&grantHex.length % 2=0 &&
    grantHex.all isLowerHex) "malformed tunnel grant"
  okOr (fromHex grantHex) "malformed tunnel grant"

def orText {ε α : Type} (text : String) : Except ε α → Except String α
  | .ok a => .ok a
  | .error _ => .error text

def ungrantedPolicy (debugAssertions : Bool) (cfg : NodeConfig) : Except String PacketPolicy :=
  if debugAssertions&&cfg.allowUngranted then
    if cfg.role≠.exit then .error "ungranted intermediate has no exact next-hop policy"
    else .ok .exit
  else .error "grant verifier not configured"

section
variable (scheme : Scheme) (cfg : NodeConfig) (nodeSpki : Bytes)
def nodeGrantIdentity : Except String GrantNodeIdentity := do
  let attest ← okOr cfg.attest "attested node identity not configured"
  let realm ← okOr cfg.grantRealm "grant realm not configured"
  let nodeId ← okOr cfg.nodeId "node id not configured"
  orText "invalid node grant identity" (GrantNodeIdentity.new realm nodeId cfg.role.grantRole .masque
    attest.tee attest.measurement (scheme.sha256 nodeSpki))

def presentedGrant (verifier : GrantVerifier) (headers : List Header) (peerIp : IpAddr)
    (nonce : Block nonceLen) (now : UInt64) : Except String VerifiedGrant := do
  let nodeIdentity ← nodeGrantIdentity scheme cfg nodeSpki
  let grant ← tunnelGrant headers
  let verified ← orText "invalid tunnel grant" (verifyForNode scheme grant verifier nodeIdentity now)
  ensure (verified.audience.previousHop.all fun expected => peerIp=.v4 expected)
    "tunnel grant predecessor mismatch"
  ensure (verified.nonce=nonce) "tunnel grant nonce mismatch"
  .ok verified

def ReplayError.text : ReplayError → String
  | replayed => "tunnel grant already used"
  | predatesProcess => "tunnel grant predates node process"
  | capacity => "tunnel grant replay cache full"
  | expired => "invalid tunnel grant"

def PacketPolicy.ofNextHop : Option SocketAddrV4 → PacketPolicy
  | some endpoint => .relay endpoint
  | none => .exit

def grantPolicy (grant : VerifiedGrant) : PacketPolicy := .ofNextHop grant.audience.nextHop

def useGrant (cache : GrantReplayCache) (grant : VerifiedGrant) (now : UInt64) :
    GrantReplayCache × Except String PacketPolicy :=
  match cache.consume grant now with
  | (after,.ok ()) => (after,.ok (grantPolicy grant))
  | (after,.error e) => (after,.error e.text)

def authorizeConnect (debugAssertions : Bool) (headers : List Header) (peerIp : IpAddr)
    (now : UInt64) (grantReplays : GrantReplayCache) :
    GrantReplayCache × Except String PacketPolicy :=
  match attestNonce headers with
  | .error e => (grantReplays,.error e)
  | .ok nonce =>
    match cfg.grantVerifier with
    | none => (grantReplays,ungrantedPolicy debugAssertions cfg)
    | some verifier =>
      match presentedGrant scheme cfg nodeSpki verifier headers peerIp nonce now with
      | .error e => (grantReplays,.error e)
      | .ok grant => useGrant grantReplays grant now
end
section
variable {headers : List Header}
lemma uniqueHeaderValue_one {name v : Bytes}
    (h : (headers.filter fun header => header.name=name)=[⟨name,v⟩]) :
    uniqueHeaderValue headers name=.ok (some v) := by
  rw [uniqueHeaderValue,h]

lemma attestNonce_hex {nonce : Block nonceLen}
    (h : uniqueHeaderValue headers attestNonceHeader=.ok (some (toHex nonce.val))) :
    attestNonce headers=.ok nonce := by
  have hn : (toHex nonce.val).length=64 := by
    rw [toHex_length,nonce.length_val]
    rfl
  have hl : (toHex nonce.val).all isLowerHex := by
    rw [all_eq_true]
    exact toHex_lowerHex nonce.val
  simp [attestNonce,h,ok_bind,okOr_some,hn,hl,ensure_true,fromHex_toHex,Block.ofBytes_val]

lemma attestNonce_eq_ok {nonce : Block nonceLen} (h : attestNonce headers=.ok nonce) :
    ∃ v, uniqueHeaderValue headers attestNonceHeader=.ok (some v) ∧ fromHex v=some nonce.val := by
  unfold attestNonce at h
  obtain ⟨v,hv,nh,hh,_,-,nb,hb,h⟩ := except_bind_ok₄ h
  rw [okOr_eq_ok hh] at hv
  rw [Block.ofBytes_eq_some (okOr_eq_ok h)] at hb
  exact ⟨nh,hv,okOr_eq_ok hb⟩

lemma tunnelGrant_hex {token : Bytes} (hne : token≠[]) (hlen : token.length ≤ maxGrantTokenLen)
    (h : uniqueHeaderValue headers tunnelGrantHeader=.ok (some (toHex token))) :
    tunnelGrant headers=.ok token := by
  have hl:=toHex_length token
  have hp:=length_pos_of_ne_nil hne
  have hn : toHex token≠[] := by
    intro hnil
    rw [hnil,length_nil] at hl
    omega
  have hb : (toHex token).length ≤ maxGrantTokenLen*2 := by omega
  have he : (toHex token).length % 2=0 := by omega
  have hlw : (toHex token).all isLowerHex := by
    rw [all_eq_true]
    exact toHex_lowerHex token
  simp [tunnelGrant,h,ok_bind,okOr_some,hn,hb,he,hlw,ensure_true,fromHex_toHex]

lemma tunnelGrant_eq_ok {token : Bytes} (h : tunnelGrant headers=.ok token) :
    ∃ v, uniqueHeaderValue headers tunnelGrantHeader=.ok (some v) ∧ fromHex v=some token := by
  unfold tunnelGrant at h
  obtain ⟨v,hv,gh,hh,h⟩ := except_bind_ok₂ h
  obtain ⟨_,-,h⟩ := except_bind_ok h
  rw [okOr_eq_ok hh] at hv
  exact ⟨gh,hv,okOr_eq_ok h⟩
end

lemma orText_eq_ok {ε α : Type} {t : String} {x : Except ε α} {a : α}
    (h : orText t x=.ok a) : x=.ok a := by
  cases x with
  | ok b =>
    cases h
    rfl
  | error e => cases h

section
variable {scheme : Scheme} {cfg : NodeConfig} {nodeSpki : Bytes} {verifier : GrantVerifier}
  {headers : List Header} {peerIp : IpAddr} {nonce : Block nonceLen} {now : UInt64}
structure Presented (scheme : Scheme) (cfg : NodeConfig) (nodeSpki : Bytes) (verifier : GrantVerifier)
    (headers : List Header) (peerIp : IpAddr) (now : UInt64) (token : Bytes) (grant : VerifiedGrant) :
    Prop where
  header : tunnelGrant headers=.ok token
  nonce : attestNonce headers=.ok grant.nonce
  verified : ∃ identity, nodeGrantIdentity scheme cfg nodeSpki=.ok identity ∧
    verifyForNode scheme token verifier identity now=.ok grant
  predecessor : ∀ ip, grant.audience.previousHop=some ip → peerIp=.v4 ip

lemma presentedGrant_eq_ok {grant : VerifiedGrant} (hn : attestNonce headers=.ok nonce) :
    presentedGrant scheme cfg nodeSpki verifier headers peerIp nonce now=.ok grant ↔ grant.nonce=nonce ∧
        ∃ t, Presented scheme cfg nodeSpki verifier headers peerIp now t grant := by
  constructor
  · intro h
    unfold presentedGrant at h
    obtain ⟨it,hd,t,ht,v,hv,_,hp,h⟩ := except_bind_ok₄ h
    obtain ⟨_,hs,h⟩ := except_bind_ok h
    have hg:=Except.ok.inj h
    subst hg
    have hs:=of_decide_eq_true (ensure_eq_ok hs)
    have hp:=ensure_eq_ok hp
    refine ⟨hs,t,ht,hs ▸ hn,⟨it,hd,orText_eq_ok hv⟩,?_⟩
    intro ip hip
    rw [hip] at hp
    exact of_decide_eq_true hp
  · rintro ⟨hs,t,h⟩
    obtain ⟨it,hd,hv⟩ := h.verified
    have hp : (grant.audience.previousHop.all fun ex => decide (peerIp=.v4 ex)) =
        true := by
      cases hh : grant.audience.previousHop with
      | none => rfl
      | some ip => exact decide_eq_true (h.predecessor ip hh)
    simp [presentedGrant,hd,h.header,hv,orText,ok_bind,hp,ensure_true,hs]

lemma authorizeConnect_cases (scheme : Scheme) (nodeSpki : Bytes) (headers : List Header)
    (peerIp : IpAddr) (now : UInt64) (debug : Bool) (c : GrantReplayCache)
    (hv : cfg.grantVerifier=some verifier) :
    (∃ e, authorizeConnect scheme cfg nodeSpki debug headers peerIp now c=(c,.error e)) ∨
    ∃ token g, Presented scheme cfg nodeSpki verifier headers peerIp now token g ∧
      authorizeConnect scheme cfg nodeSpki debug headers peerIp now c =
        useGrant c g now := by
  unfold authorizeConnect
  cases hn : attestNonce headers with
  | error e => exact Or.inl ⟨e,rfl⟩
  | ok nonce =>
    rw [hv]
    simp only
    cases hg : presentedGrant scheme cfg nodeSpki verifier headers peerIp nonce now with
    | error e => exact Or.inl ⟨e,rfl⟩
    | ok g => grind [presentedGrant_eq_ok]

lemma authorizeConnect_of_presented (debug : Bool) (c : GrantReplayCache)
    (hv : cfg.grantVerifier=some verifier) {t : Bytes} {g : VerifiedGrant}
    (h : Presented scheme cfg nodeSpki verifier headers peerIp now t g) :
    authorizeConnect scheme cfg nodeSpki debug headers peerIp now c =
      useGrant c g now := by
  have hg:=(presentedGrant_eq_ok h.nonce).mpr ⟨rfl,t,h⟩
  simp only [authorizeConnect,h.nonce,hv,hg]

lemma useGrant_eq_ok {c : GrantReplayCache} {grant : VerifiedGrant} {p : PacketPolicy}
    (h : (useGrant c grant now).2=.ok p) :
    (c.consume grant now).2=.ok () ∧ p=grantPolicy grant := by
  grind [useGrant]

lemma useGrant_fst (c : GrantReplayCache) (g : VerifiedGrant) (now : UInt64) :
    (useGrant c g now).1=(c.consume g now).1 := by
  grind [useGrant]

lemma useGrant_ok {c : GrantReplayCache} {g : VerifiedGrant} (h : (c.consume g now).2=.ok ()) :
    (useGrant c g now).2=.ok (grantPolicy g) := by
  grind [useGrant]
end
end NilVpn.Node
