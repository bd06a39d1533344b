import NilVpn.Node.Authorize

/-!
# From the Coordinator's grant to the tunnel
-/

namespace NilVpn.Node
open Base Option
open Coordinator (SelectedHop attachGrants previousIp nextEndpoint SameTee Neighbours Names)
open Nwg2 (Scheme GrantSigningKey GrantAudience GrantNodeIdentity GrantVerifier VerifiedGrant Duration
  nonceLen maxGrantClockSkewSecs verifyForNode_eq_ok)

/-- The role that a node is configured with and the one it is selected for. -/
inductive RunsAs : NodeRole → Coordinator.Role → Prop
  | entry : RunsAs .entry .entry
  | middle : RunsAs .middle .middle
  | exit : RunsAs .exit .exit

lemma RunsAs.grantRole {own : NodeRole} {role : Coordinator.Role} (h : RunsAs own role) :
    own.grantRole=Coordinator.grantRole role := by
  cases h <;> rfl

/-- A node that runs as hop `hop` of a path granted by `signer` in `realm`. -/
structure ServesHop (scheme : Scheme) (signer : GrantSigningKey) (realm : Bytes) (hop : SelectedHop)
    (cfg : NodeConfig) (nodeSpki : Bytes) : Prop where
  verifier : ∃ verifier, cfg.grantVerifier=some verifier ∧ verifier.Trusts scheme signer
  realm : cfg.grantRealm=some realm
  nodeId : cfg.nodeId=some hop.nodeId
  role : RunsAs cfg.role hop.intendedRole
  attest : ∃ attest, cfg.attest=some attest ∧ SameTee hop.hop.tee attest.tee ∧
    fromHex (trim hop.hop.measurement)=some attest.measurement.val
  spki : ∃ digest, hop.hop.tlsSpkiSha256=some digest ∧ fromHex digest=some (scheme.sha256 nodeSpki).val

structure PresentsHop (headers : List Header) (hop : SelectedHop) : Prop where
  nonce : ∃ value, hop.hop.grantNonce=some value ∧
    (headers.filter fun header => header.name=attestNonceHeader)=[⟨attestNonceHeader,value⟩]
  grant : ∃ value, hop.hop.grant=some value ∧
    (headers.filter fun header => header.name=tunnelGrantHeader)=[⟨tunnelGrantHeader,value⟩]

section
variable {scheme : Scheme} {signer : GrantSigningKey} {r : Bytes} {ttl : Duration}
  {issuedAt : UInt64} {entropy : ℕ → Option (Block nonceLen)}
variable {hop : SelectedHop}
lemma nodeGrantIdentity_serves {cfg : NodeConfig} {nodeSpki : Bytes}
    (hs : ServesHop scheme signer r hop cfg nodeSpki) {n : Neighbours}
    {a : GrantAudience} (hn : Names r hop n a) :
    nodeGrantIdentity scheme cfg nodeSpki=.ok a.node := by
  obtain ⟨att,ha,htee,hme⟩ := hs.attest
  obtain ⟨di,hd,hsha⟩ := hs.spki
  obtain ⟨di',hd',htls⟩ := hn.tlsSpki
  have hm : att.measurement=a.node.measurement :=
    Subtype.ext (some.inj (hme.symm.trans hn.measurement))
  have ht : scheme.sha256 nodeSpki=a.node.tlsSpkiSha256 := by grind [some.inj,Subtype.ext]
  have hnew:=GrantNodeIdentity.new_parts a.node
  rw [hn.realm,hn.nodeId,hn.role,hn.transport,hn.tee] at hnew
  simp only [nodeGrantIdentity,ha,hs.realm,hs.nodeId,okOr_some,ok_bind,hs.role.grantRole,htee.coreTee,hm,ht,
    hnew,orText]

lemma withGrant_names {g : Nwg2.Grant} {n : Neighbours} {audience : GrantAudience}
    (h : Names r hop n audience) :
    Names r (Coordinator.withGrant hop g) n audience :=
  ⟨h.realm,h.nodeId,h.role,h.transport,h.tee,h.measurement,h.tlsSpki,h.previousHop,h.nextHop⟩

def endpointOf (s : SelectedHop) : Bytes × UInt16 := (s.hop.host,s.hop.port)

variable {p path' : List SelectedHop}
lemma previousIp_congr (h : ∀ i : ℕ, p[i]?.map endpointOf=path'[i]?.map endpointOf) (i : ℕ) :
    previousIp p i=previousIp path' i := by
  cases i with
  | zero => rfl
  | succ i =>
    have hm : ∀ o : Option SelectedHop, (o.bind fun s => Ipv4.parse s.hop.host) =
        (o.map endpointOf).bind fun e => Ipv4.parse e.1 := by
      intro o
      cases o <;> rfl
    rw [previousIp,previousIp,hm,hm,h i]

lemma nextEndpoint_congr (h : ∀ i : ℕ, p[i]?.map endpointOf=path'[i]?.map endpointOf) (i : ℕ) :
    nextEndpoint p i=nextEndpoint path' i := by
  have hm : ∀ o : Option SelectedHop,
      (o.bind fun s => (Ipv4.parse s.hop.host).map fun ip => (⟨ip,s.hop.port⟩ : SocketAddrV4)) =
        (o.map endpointOf).bind fun e => (Ipv4.parse e.1).map fun ip => ⟨ip,e.2⟩ := by
    intro o
    cases o <;> rfl
  rw [nextEndpoint,nextEndpoint,hm,hm,h (i+1)]

variable {selected granted : List SelectedHop}
section
variable (h : attachGrants scheme signer r ttl issuedAt entropy selected=.ok granted)
include h
lemma attachGrants_endpoints (i : ℕ) : granted[i]?.map endpointOf=selected[i]?.map endpointOf := by
  obtain ⟨hl,hat⟩ := Coordinator.attachGrants_eq_ok h
  cases hg : granted[i]? with
  | none => grind
  | some g =>
    obtain ⟨s,n,hs,-,hgr⟩ := hat i g hg
    obtain ⟨au,no,gn,-,-,-,rfl⟩ := Coordinator.grantHop_eq_ok hgr
    rw [hs]
    rfl

lemma granted_hop {i : ℕ} (ho : granted[i]?=some hop) :
    (∃ au no g, Names r hop (previousIp granted i,nextEndpoint granted i) au ∧
      Nwg2.mint scheme signer au no ttl issuedAt=.ok g ∧
      hop.hop.grant=some (toHex g.token) ∧ hop.hop.grantNonce=some (toHex g.nonce.val)) ∧
    ∀ next, granted[i+1]?=some next → ∃ ip, Ipv4.parse next.hop.host=some ip := by
  obtain ⟨-,hat⟩ := Coordinator.attachGrants_eq_ok h
  have he:=attachGrants_endpoints h
  obtain ⟨s,n,hs,hne,hg⟩ := hat i hop ho
  obtain ⟨au,no,g,hnm,-,hm,rfl⟩ := Coordinator.grantHop_eq_ok hg
  obtain ⟨hn,hx⟩ := Coordinator.hopNeighbours_eq_ok hne
  rw [← previousIp_congr he,← nextEndpoint_congr he] at hn
  refine ⟨⟨au,no,g,hn ▸ withGrant_names hnm,hm,rfl,rfl⟩,?_⟩
  intro next hget
  have hend:=he (i+1)
  rw [hget] at hend
  obtain ⟨next',hx',heq⟩ := map_eq_some_iff.mp hend.symm
  obtain ⟨ip,hip⟩ := hx next' hx'
  have hh : next'.hop.host=next.hop.host := congrArg Prod.fst heq
  exact ⟨ip,hh ▸ hip⟩
end

lemma authorizeConnect_hop (hid : scheme.Ideal) (he : scheme.Exclusive)
    (h : attachGrants scheme signer r ttl issuedAt entropy selected=.ok granted) {i : ℕ}
    (hh : granted[i]?=some hop) {cfg : NodeConfig} {nodeSpki : Bytes}
    (hs : ServesHop scheme signer r hop cfg nodeSpki) {hd : List Header}
    (hpr : PresentsHop hd hop) {peer : IpAddr}
    (hpe : ∀ ip, previousIp granted i=some ip → peer=.v4 ip) {now : UInt64}
    (hu : now.toNat < issuedAt.toNat+ttl.secs.toNat)
    (hst : issuedAt.toNat - now.toNat ≤ maxGrantClockSkewSecs) {c : GrantReplayCache}
    (hpc : c.processStartedAt ≤ issuedAt) (hr : c.entries.len<c.capacity)
    (hf : ∀ no : Block nonceLen, hop.hop.grantNonce=some (toHex no.val) →
      c.entries.get ⟨signer.keyId scheme,no⟩=none)
    (debug : Bool) :
    (authorizeConnect scheme cfg nodeSpki debug hd peer now c).2 =
      .ok (.ofNextHop (nextEndpoint granted i)) := by
  obtain ⟨⟨au,no,g,hn,hm,htk,hnn⟩,-⟩ := granted_hop h hh
  obtain ⟨ve,hv,ht⟩ := hs.verifier
  obtain ⟨-,hif⟩ := Nwg2.authentic_minted hid he hm ve now
  obtain ⟨p,hp⟩ := hif.mpr ⟨ht,hu,hst⟩
  obtain ⟨p',hp',ha,hpn,hpi,-,hpk,-⟩ := Nwg2.parse_minted hm
  have hsm : p'=p := Except.ok.inj (hp'.symm.trans hp.parsed)
  subst hsm
  obtain ⟨hg,hne,hl⟩ := Nwg2.mint_token hm
  have hps : Presented scheme cfg nodeSpki ve hd peer now g.token
      p'.intoVerified := by
    obtain ⟨va,hva,ho⟩ := hpr.grant
    obtain ⟨va',hva',ho'⟩ := hpr.nonce
    rw [some.inj (htk.symm.trans hva).symm] at ho
    rw [some.inj (hnn.symm.trans hva').symm] at ho'
    have hat:=attestNonce_hex (uniqueHeaderValue_one ho')
    rw [hg.trans hpn.symm] at hat
    refine ⟨tunnelGrant_hex hne hl (uniqueHeaderValue_one ho),hat,?_,?_⟩
    · refine ⟨_,nodeGrantIdentity_serves hs hn,?_⟩
      exact verifyForNode_eq_ok.mpr ⟨p',hp,by rw [ha],rfl⟩
    · intro ip hip
      have hpv : p'.audience.previousHop=previousIp granted i := by rw [ha,hn.previousHop]
      exact hpe ip (hpv.symm.trans hip)
  have hc : (c.consume p'.intoVerified now).2=.ok () := by
    have hen : c.entries.get (replayKey p'.intoVerified)=none := by
      have hk : replayKey p'.intoVerified=⟨signer.keyId scheme,g.nonce⟩ := by
        rw [hg,← hpk,← hpn]
        rfl
      rw [hk]
      exact hf g.nonce hnn
    rw [← hpi] at hpc
    exact c.consume_ok hp.unexpired hpc hen hr
  have hnx : p'.audience.nextHop=nextEndpoint granted i := by rw [ha,hn.nextHop]
  rw [authorizeConnect_of_presented debug c hv hps,
    useGrant_ok hc,← hnx]
  rfl
end

structure AuthorizeCall where
  headers : List Header
  peerIp : IpAddr
  now : UInt64

structure AuthorizeStep where
  call : AuthorizeCall
  reply : Except String PacketPolicy
  after : GrantReplayCache

section
variable (scheme : Scheme) (cfg : NodeConfig) (nodeSpki : Bytes) (debugAssertions : Bool)
def authorizeTrace : GrantReplayCache → List AuthorizeCall → List AuthorizeStep
  | _,[] => []
  | cache,c::calls =>
    let out:=authorizeConnect scheme cfg nodeSpki debugAssertions c.headers c.peerIp c.now cache
    ⟨c,out.2,out.1⟩::authorizeTrace out.1 calls
end

structure AuthorizeStep.Accepts (s : AuthorizeStep) (token : Bytes) (grant : VerifiedGrant) : Prop where
  reply : ∃ policy, s.reply=.ok policy
  header : tunnelGrant s.call.headers=.ok token
  parsed : ∃ p, Nwg2.parse token=.ok p ∧ grant=p.intoVerified

section
variable {scheme : Scheme} {cfg : NodeConfig} {ns : Bytes} {debug : Bool} {v : GrantVerifier}
def AuthorizeStep.use (s : AuthorizeStep) (used : Option VerifiedGrant) : GrantReplayCache.UseStep :=
  ⟨s.call.now,used,s.after⟩

lemma Presented.parsed {ha : List Header} {peer : IpAddr} {now : UInt64} {t : Bytes} {g : VerifiedGrant}
    (h : Presented scheme cfg ns v ha peer now t g) :
    ∃ p, Nwg2.Authentic scheme t v now p ∧ g=p.intoVerified ∧
      nodeGrantIdentity scheme cfg ns=.ok p.audience.node := by
  grind [h.verified,verifyForNode_eq_ok.mp]

variable {cache : GrantReplayCache} {calls : List AuthorizeCall} {s : AuthorizeStep}
lemma authorizeConnect_used (scheme : Scheme) (ns : Bytes) (debug : Bool)
    (hv : cfg.grantVerifier=some v) (hs : cache.Sound) (c : AuthorizeCall) :
    ∃ used, GrantReplayCache.Used cache c.now
        (authorizeConnect scheme cfg ns debug c.headers c.peerIp c.now cache).1 used ∧
      ∀ token grant, AuthorizeStep.Accepts
        ⟨c,(authorizeConnect scheme cfg ns debug c.headers c.peerIp c.now cache).2,
          (authorizeConnect scheme cfg ns debug c.headers c.peerIp c.now cache).1⟩
        token grant → used=some grant := by
  rcases authorizeConnect_cases scheme ns c.headers c.peerIp c.now debug cache
    hv with ⟨e,ho⟩ | ⟨token,grant,hpr,ho⟩
  · rw [ho]
    refine ⟨none,.untouched,?_⟩
    intro token grant h
    obtain ⟨po,hpo⟩ := h.reply
    cases hpo
  · rw [ho]
    have hst:=cache.consume_consumed grant c.now hs.coupled
    rw [useGrant_fst]
    cases hr : (cache.consume grant c.now).2 with
    | error e =>
      rw [hr] at hst
      refine ⟨none,.refused grant _ e hst,?_⟩
      intro token' grant' h
      obtain ⟨po,hpo⟩ := h.reply
      have hok:=(useGrant_eq_ok hpo).1
      rw [hr] at hok
      cases hok
    | ok u =>
      rw [hr] at hst
      refine ⟨some grant,.accepted grant _ hst,?_⟩
      intro token' grant' h
      obtain ⟨p',hp',hg'⟩ := h.parsed
      obtain ⟨p,hp,hg,-⟩ := hpr.parsed
      have ht : token=token' := Except.ok.inj (hpr.header.symm.trans h.header)
      have hpa : p=p' := by
        rw [← ht] at hp'
        exact Except.ok.inj (hp.parsed.symm.trans hp')
      rw [hg,hg',hpa]

lemma authorizeTrace_chain (hv : cfg.grantVerifier=some v) (hs : cache.Sound) (a : List AuthorizeCall) :
    ∃ tr, GrantReplayCache.UseChain cache tr ∧ ∀ (i : ℕ) (s : AuthorizeStep),
        (authorizeTrace scheme cfg ns debug cache a)[i]?=some s →
        ∃ used, tr[i]?=some (s.use used) ∧ ∀ token grant, s.Accepts token grant → used=some grant := by
  induction a generalizing cache with
  | nil =>
    refine ⟨[],trivial,?_⟩
    intro i s hs
    cases hs
  | cons c a ih =>
    obtain ⟨used,hu,ha⟩ := authorizeConnect_used scheme ns debug hv hs c
    obtain ⟨tr,hc,hat⟩ := ih (hu.sound hs)
    refine ⟨⟨c.now,used,_⟩::tr,⟨hu,hc⟩,?_⟩
    intro i s hi
    cases i with
    | zero =>
      have hs:=some.inj hi
      subst hs
      exact ⟨used,rfl,ha⟩
    | succ i => exact hat i s hi

lemma authorizeTrace_call {i : ℕ} (h : (authorizeTrace scheme cfg ns debug cache calls)[i]?=some s) :
    calls[i]?=some s.call := by
  induction calls generalizing cache i with
  | nil => cases h
  | cons c calls ih =>
    cases i with
    | zero =>
      rw [← some.inj h]
      rfl
    | succ i => exact ih h

lemma authorizeTrace_clock (hc : calls.Pairwise fun a b => a.now≤b.now) {m j : ℕ}
    {s' : AuthorizeStep} (hmj : m≤j)
    (hm : (authorizeTrace scheme cfg ns debug cache calls)[m]?=some s)
    (hj : (authorizeTrace scheme cfg ns debug cache calls)[j]?=some s') :
    s.call.now ≤ s'.call.now :=
  pairwise_at hc (fun _ => UInt64.le_refl _) hmj (authorizeTrace_call hm) (authorizeTrace_call hj)

lemma authorizeTrace_once (hv : cfg.grantVerifier=some v) (hs : cache.Sound)
    {i j : ℕ} {s' : AuthorizeStep} (hij : i<j)
    (hi : (authorizeTrace scheme cfg ns debug cache calls)[i]?=some s)
    (hj : (authorizeTrace scheme cfg ns debug cache calls)[j]?=some s')
    {t t' : Bytes} {grant grant' : VerifiedGrant} (ha : s.Accepts t grant)
    (ha' : s'.Accepts t' grant') (hk : replayKey grant=replayKey grant') :
    s'.call.now<grant'.expiresAt ∧ ∃ m s0, i < m ∧ m≤j ∧
      (authorizeTrace scheme cfg ns debug cache calls)[m]?=some s0 ∧
      grant.expiresAt ≤ s0.call.now := by
  obtain ⟨tr,hc,hat⟩ := authorizeTrace_chain hv hs calls
  obtain ⟨ud,ht,hu⟩ := hat i s hi
  obtain ⟨ud',ht',hu'⟩ := hat j s' hj
  have ho : (s.use ud).used=some grant := hu t grant ha
  have ho' : (s'.use ud').used=some grant' := hu' t' grant' ha'
  refine ⟨hc.unexpired ht' ho',?_⟩
  obtain ⟨m,step,him,hmj,hm,hle⟩ := GrantReplayCache.reuse_after_expiry hc hij ht ht' ho ho' hk
  obtain ⟨hlt,-⟩ := List.getElem?_eq_some_iff.mp hj
  have hg:=List.getElem?_eq_getElem (Nat.lt_of_le_of_lt hmj hlt)
  obtain ⟨u,hst,-⟩ := hat m _ hg
  have hsm:=some.inj (hm.symm.trans hst)
  rw [hsm] at hle
  exact ⟨m,_,him,hmj,hg,hle⟩
end

structure GrantToTunnel (scheme : Scheme) : Prop where
  /-- hop `i` is let through to hop `i + 1`, the last one to the exit -/
  accepts : ∀ (signer : GrantSigningKey) (realm : Bytes) (ttl : Duration) (issuedAt : UInt64)
    (entropy : ℕ → Option (Block nonceLen)) (selected granted : List SelectedHop),
    attachGrants scheme signer realm ttl issuedAt entropy selected=.ok granted →
    ∀ (i : ℕ) (hop : SelectedHop), granted[i]?=some hop →
    ∀ (cfg : NodeConfig) (nodeSpki : Bytes) (headers : List Header) (peerIp : IpAddr) (now : UInt64)
      (cache : GrantReplayCache) (debugAssertions : Bool),
    ServesHop scheme signer realm hop cfg nodeSpki → PresentsHop headers hop →
    (∀ ip, previousIp granted i=some ip → peerIp=.v4 ip) →
    now.toNat < issuedAt.toNat+ttl.secs.toNat →
    issuedAt.toNat - now.toNat ≤ maxGrantClockSkewSecs →
    cache.processStartedAt ≤ issuedAt → cache.entries.len<cache.capacity →
    (∀ nonce : Block nonceLen, hop.hop.grantNonce=some (toHex nonce.val) →
      cache.entries.get ⟨signer.keyId scheme,nonce⟩=none) →
    (i+1<granted.length → ∃ next ip, granted[i+1]?=some next ∧ Ipv4.parse next.hop.host=some ip ∧
      (authorizeConnect scheme cfg nodeSpki debugAssertions headers peerIp now cache).2 =
        .ok (.relay ⟨ip,next.hop.port⟩)) ∧
    (i+1=granted.length →
      (authorizeConnect scheme cfg nodeSpki debugAssertions headers peerIp now cache).2=.ok .exit)
  /-- an accepted request carried a grant that was signed for this node and is in force -/
  genuine : ∀ (cfg : NodeConfig) (verifier : GrantVerifier) (nodeSpki : Bytes)
    (headers : List Header) (peerIp : IpAddr) (now : UInt64) (cache : GrantReplayCache)
    (debugAssertions : Bool) (policy : PacketPolicy),
    cfg.grantVerifier=some verifier → verifier.Built scheme →
    (authorizeConnect scheme cfg nodeSpki debugAssertions headers peerIp now cache).2=.ok policy →
    ∃ (token : Bytes) (grant : VerifiedGrant) (signer : GrantSigningKey) (ttl : Duration),
      (∃ value, uniqueHeaderValue headers tunnelGrantHeader=.ok (some value) ∧ fromHex value=some token) ∧
      (∃ value, uniqueHeaderValue headers attestNonceHeader=.ok (some value) ∧
        fromHex value=some grant.nonce.val) ∧
      verifier.Trusts scheme signer ∧
      Nwg2.mint scheme signer grant.audience grant.nonce ttl grant.issuedAt=.ok ⟨token,grant.nonce⟩ ∧
      nodeGrantIdentity scheme cfg nodeSpki=.ok grant.audience.node ∧
      (∀ ip, grant.audience.previousHop=some ip → peerIp=.v4 ip) ∧
      now<grant.expiresAt ∧ policy=.ofNextHop grant.audience.nextHop
  /-- a second acceptance of a key id and nonce needs a clock reading past the first expiry; with
  a clock that does not go back it is another token, and the first has expired -/
  once : ∀ (cfg : NodeConfig) (verifier : GrantVerifier) (nodeSpki : Bytes) (debugAssertions : Bool)
    (processStartedAt : UInt64) (capacity : ℕ) (cache : GrantReplayCache)
    (calls : List AuthorizeCall) (i j : ℕ) (s s' : AuthorizeStep) (token token' : Bytes)
    (grant grant' : VerifiedGrant),
    cfg.grantVerifier=some verifier →
    GrantReplayCache.new processStartedAt capacity=some cache → i<j →
    (authorizeTrace scheme cfg nodeSpki debugAssertions cache calls)[i]?=some s →
    (authorizeTrace scheme cfg nodeSpki debugAssertions cache calls)[j]?=some s' →
    s.Accepts token grant → s'.Accepts token' grant' → replayKey grant=replayKey grant' →
    (∃ m s0, i < m ∧ m≤j ∧ (authorizeTrace scheme cfg nodeSpki debugAssertions cache calls)[m]?=some s0 ∧
      grant.expiresAt ≤ s0.call.now) ∧
    ((calls.Pairwise fun a b => a.now≤b.now) → grant.expiresAt ≤ s'.call.now ∧ token≠token')

theorem grant_to_tunnel {scheme : Scheme} (hideal : scheme.Ideal) (hexclusive : scheme.Exclusive) :
    GrantToTunnel scheme where
  accepts := by
    intro sg re ttl it et sl g h i hop hhop cfg nodeSpki ha pe
      now c debug hserves hpresents hpeer hunexpired hstarted hprocess hroom hfresh
    have hok:=authorizeConnect_hop hideal hexclusive h hhop hserves hpresents hpeer hunexpired
      hstarted hprocess hroom hfresh debug
    constructor
    · intro hlt
      have hget:=List.getElem?_eq_getElem hlt
      obtain ⟨ip,hip⟩ := (granted_hop h hhop).2 _ hget
      refine ⟨_,ip,hget,hip,?_⟩
      rw [hok,nextEndpoint,hget,bind_some,hip]
      rfl
    · intro hlast
      rw [hok,nextEndpoint,List.getElem?_eq_none (by omega)]
      rfl
  genuine := by
    intro cfg ve nodeSpki ha pe now c debug po hv hbuilt hok
    rcases authorizeConnect_cases scheme nodeSpki ha pe now debug c hv
      with ⟨e,hout⟩ | ⟨t,grant,hpresented,hout⟩
    · rw [hout] at hok
      cases hok
    · rw [hout] at hok
      obtain ⟨-,hpolicy⟩ := useGrant_eq_ok hok
      obtain ⟨p,hp,hg,hidentity⟩ := hpresented.parsed
      obtain ⟨sg,ttl,htrusts,hmint⟩ := Nwg2.minted_of_authentic hideal hexclusive hbuilt hp
      subst hg
      exact ⟨t,p.intoVerified,sg,ttl,tunnelGrant_eq_ok hpresented.header,
        attestNonce_eq_ok hpresented.nonce,htrusts,hmint,hidentity,hpresented.predecessor,
        hp.unexpired,hpolicy⟩
  once := by
    intro cfg ve nodeSpki debug psa cp c cs i j s s' t
      t' grant grant' hv hnew hij hi hj haccepts haccepts' hkey
    obtain ⟨hs,-⟩ := GrantReplayCache.new_sound hnew
    obtain ⟨hlive,m,s0,him,hmj,hm,hle⟩ := authorizeTrace_once hv hs hij hi hj haccepts haccepts' hkey
    refine ⟨⟨m,s0,him,hmj,hm,hle⟩,?_⟩
    intro hclock
    have hexpired:=UInt64.le_trans hle (authorizeTrace_clock hclock hmj hm hj)
    refine ⟨hexpired,?_⟩
    intro hsame
    obtain ⟨p,hp,hg⟩ := haccepts.parsed
    obtain ⟨p',hp',hg'⟩ := haccepts'.parsed
    have hpp : p=p' := Except.ok.inj (hp.symm.trans (hsame ▸ hp'))
    rw [hg,hpp,← hg'] at hexpired
    exact absurd hexpired (UInt64.not_le.mpr hlive)

def samplePath : List SelectedHop :=
  (Coordinator.NodeRegistry.devDefault.nodes.take 3).mapIdx (Coordinator.NodeRegistry.selectedHop 3)

def samplePathGranted : List SelectedHop :=
  match attachGrants Nwg2.plainScheme Nwg2.sampleKey (ascii "dev") ⟨600,0⟩ 1000
    (fun _ => some (Block.fill 32 9)) samplePath with
  | .ok granted => granted
  | .error _ => []

def middleConfig : NodeConfig where
  attest := some ⟨.sevSnp,⟨(List.range 48).map UInt8.ofNat,by decide⟩⟩
  role := .middle
  grantVerifier := some Nwg2.sampleVerifier
  grantRealm := some (ascii "dev")
  nodeId := some (ascii "middle-de")
  allowUngranted := false

def hopHeaders (hop : SelectedHop) : List Header :=
  [⟨attestNonceHeader,hop.hop.grantNonce.getD []⟩,⟨tunnelGrantHeader,hop.hop.grant.getD []⟩]

theorem grant_to_tunnel_middle : ∃ hop next cache ip, samplePathGranted[1]?=some hop ∧
    samplePathGranted[2]?=some next ∧ GrantReplayCache.new 1000 16=some cache ∧
    (authorizeConnect Nwg2.plainScheme middleConfig [] false (hopHeaders hop)
      (.v4 ⟨192,0,2,10⟩) 1001 cache).2=.ok (.relay ⟨ip,next.hop.port⟩) := by
  have hr : attachGrants Nwg2.plainScheme Nwg2.sampleKey (ascii "dev") ⟨600,0⟩ 1000
      (fun _ => some (Block.fill 32 9)) samplePath=.ok samplePathGranted := by decide +kernel
  have hl : 1+1<samplePathGranted.length := by decide +kernel
  have hso : samplePathGranted[1]?.isSome=true := by decide +kernel
  obtain ⟨hop,hh⟩ := isSome_iff_exists.mp hso
  have hf : samplePathGranted[1]?.all (fun hop =>
      hop.nodeId=ascii "middle-de" ∧ hop.intendedRole=.middle ∧
      hop.hop.tee=.sevSnp ∧
      fromHex (trim hop.hop.measurement)=some ((List.range 48).map UInt8.ofNat) ∧
      hop.hop.tlsSpkiSha256=some (List.replicate 64 48) ∧ hop.hop.grantNonce.isSome ∧
      hop.hop.grant.isSome)=true := by decide +kernel
  rw [hh] at hf
  obtain ⟨hid,ho,hte,hm,hd,hn,hg⟩ := of_decide_eq_true hf
  obtain ⟨no,hn⟩ := isSome_iff_exists.mp hn
  obtain ⟨g,hg⟩ := isSome_iff_exists.mp hg
  have hs : ServesHop Nwg2.plainScheme Nwg2.sampleKey (ascii "dev") hop middleConfig [] := by
    refine ⟨⟨_,rfl,Nwg2.sampleVerifier_trusts⟩,rfl,hid ▸ rfl,ho ▸ .middle,?_,?_⟩
    · exact ⟨_,rfl,hte ▸ .sevSnp,hm⟩
    · exact ⟨_,hd,by decide +kernel⟩
  have hp : PresentsHop (hopHeaders hop) hop := by
    rw [hopHeaders,hn,hg]
    exact ⟨⟨no,hn,rfl⟩,⟨g,hg,rfl⟩⟩
  have hpe : ∀ ip, previousIp samplePathGranted 1=some ip → IpAddr.v4 ⟨192,0,2,10⟩=.v4 ip := by
    intro ip hip
    have ht : previousIp samplePathGranted 1=some ⟨192,0,2,10⟩ := by decide +kernel
    rw [some.inj (ht.symm.trans hip)]
  obtain ⟨next,ip,hx,-,hok⟩ := ((grant_to_tunnel Nwg2.plainScheme_ideal
    Nwg2.plainScheme_exclusive).accepts _ _ _ _ _ _ _ hr 1 hop hh middleConfig [] _
    (.v4 ⟨192,0,2,10⟩) 1001 ⟨1000,16,Table.empty,MinHeap.empty⟩ false hs hp hpe
    (by decide) (by decide) (by decide) (by decide) (fun _ _ => rfl)).1 hl
  exact ⟨hop,next,_,ip,hh,hx,rfl,hok⟩
end NilVpn.Node
