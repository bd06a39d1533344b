import NilVpn.Coordinator.PathSelect
import NilVpn.Nwg2.RoundTrip

/-!
# Grants of a selected path (nil-coordinator/src/api.rs:243-340)

`entropy i` is what `getrandom` delivers for the nonce of hop `i`.
-/

namespace NilVpn.Coordinator
open NodeRegistry Except Base Option List
open Nwg2 (Scheme GrantSigningKey GrantAudience GrantNodeIdentity GrantRole GrantVerifier Duration)
open Nwg2 (isIdentifier plainScheme plainScheme_ideal)

def grantRole : Role → GrantRole
  | .entry => .entry
  | .middle => .middle
  | .exit => .exit

def coreTee : Proto.Tee → Nwg2.Tee
  | .sevSnp => .sevSnp
  | .tdx => .tdx

/-- A role of the registry and the same one in a grant. -/
inductive SameRole : Role → GrantRole → Prop
  | entry : SameRole .entry .entry
  | middle : SameRole .middle .middle
  | exit : SameRole .exit .exit

inductive SameTee : Proto.Tee → Nwg2.Tee → Prop
  | sevSnp : SameTee .sevSnp .sevSnp
  | tdx : SameTee .tdx .tdx

lemma sameRole_grantRole (role : Role) : SameRole role (grantRole role) := by
  cases role <;> constructor

lemma SameTee.coreTee {tee : Proto.Tee} {tee' : Nwg2.Tee} (h : SameTee tee tee') :
    tee'=Coordinator.coreTee tee := by
  cases h <;> rfl

lemma sameTee_coreTee (tee : Proto.Tee) : SameTee tee (coreTee tee) := by
  cases tee <;> constructor

abbrev Neighbours := Option Ipv4 × Option SocketAddrV4

def previousHopOf (selected : List SelectedHop) : ℕ → Except Failure (Option Ipv4)
  | 0 => .ok none
  | index+1 =>
    match selected[index]? with
    | none => .ok none
    | some previous => do
      let ip ← okOr (Ipv4.parse previous.hop.host)
        (failure "selected previous-hop endpoint {host} is not canonical IPv4 and cannot be bound into NWG2"
          [previous.hop.host])
      .ok (some ip)

def nextHopOf (selected : List SelectedHop) (index : ℕ) : Except Failure (Option SocketAddrV4) :=
  if index+1<selected.length then do
    let next ← okOr selected[index+1]?
      (failure "intermediate grant has no selected next hop" [])
    let ip ← okOr (Ipv4.parse next.hop.host)
      (failure "selected next-hop endpoint {host}:{port} is not canonical IPv4 and cannot be bound into NWG2"
        [next.hop.host,decimal next.hop.port.toNat])
    .ok (some ⟨ip,next.hop.port⟩)
  else .ok none

def orderedNeighbours : Role → Option Ipv4 → Option SocketAddrV4 → Except Failure Neighbours
  | .entry,none,some next => .ok (none,some next)
  | .middle,some previous,some next => .ok (some previous,some next)
  | .exit,previous,none => .ok (previous,none)
  | _,_,_ => .error (failure "selected path role ordering is invalid" [])

def hopNeighbours (selected : List SelectedHop) (index : ℕ) (s : SelectedHop) :
    Except Failure Neighbours := do
  let previousHop ← previousHopOf selected index
  let nextHop ← nextHopOf selected index
  orderedNeighbours s.intendedRole previousHop nextHop

section
variable (scheme : Scheme) (signer : GrantSigningKey) (realm : Bytes) (ttl : Duration)
  (now : UInt64) (entropy : ℕ → Option (Block Nwg2.nonceLen))
def grantFailure (e : Nwg2.GrantError) : Failure := failure e.text []

def grantHop (index : ℕ) (selected : SelectedHop × Neighbours) : Except Failure SelectedHop := do
  let hop:=selected.1.hop
  let measurement ← okOr (fromHex (trim hop.measurement))
    (failure "node measurement is not hex" [])
  let measurement ← okOr (Block.ofBytes Nwg2.measurementLen measurement)
    (failure "node measurement must be exactly 48 bytes" [])
  let tlsSpkiSha256 ← okOr hop.tlsSpkiSha256 (failure "node TLS SPKI digest is not pinned" [])
  let tlsSpkiSha256 ← okOr (fromHex tlsSpkiSha256) (failure "node TLS SPKI digest is not hex" [])
  let tlsSpkiSha256 ← okOr (Block.ofBytes Nwg2.tlsSpkiSha256Len tlsSpkiSha256)
    (failure "node TLS SPKI digest must be exactly 32 bytes" [])
  let audience ← mapErr grantFailure (GrantAudience.new realm selected.1.nodeId
    (grantRole selected.1.intendedRole) .masque (coreTee hop.tee) measurement tlsSpkiSha256
    selected.2.1 selected.2.2)
  let nonce ← okOr (entropy index) (failure "grant nonce entropy" [])
  let grant ← mapErr grantFailure (Nwg2.mint scheme signer audience nonce ttl now)
  .ok { selected.1 with hop := { hop with
    grant := some (toHex grant.token),grantNonce := some (toHex grant.nonce.val) } }

def attachGrants (selected : List SelectedHop) : Except Failure (List SelectedHop) := do
  let pathNeighbours ← collectIdx (hopNeighbours selected) 0 selected
  collectIdx (grantHop scheme signer realm ttl now entropy) 0 (selected.zip pathNeighbours)
end

structure Names (realm : Bytes) (s : SelectedHop) (n : Neighbours) (audience : GrantAudience) :
    Prop where
  realm : audience.node.realm=realm
  nodeId : audience.node.nodeId=s.nodeId
  role : audience.node.role=grantRole s.intendedRole
  transport : audience.node.transport=.masque
  tee : audience.node.tee=coreTee s.hop.tee
  measurement : fromHex (trim s.hop.measurement)=some audience.node.measurement.val
  tlsSpki : ∃ digest, s.hop.tlsSpkiSha256=some digest ∧ fromHex digest=some audience.node.tlsSpkiSha256.val
  previousHop : audience.previousHop=n.1
  nextHop : audience.nextHop=n.2

def withGrant (s : SelectedHop) (grant : Nwg2.Grant) : SelectedHop :=
  { s with hop := { s.hop with
    grant := some (toHex grant.token),grantNonce := some (toHex grant.nonce.val) } }

section
variable {scheme : Scheme} {signer : GrantSigningKey} {r : Bytes} {ttl : Duration}
  {now : UInt64} {entropy : ℕ → Option (Block Nwg2.nonceLen)}
variable {i : ℕ} {s : SelectedHop} {n : Neighbours} {path : List SelectedHop}
lemma grantHop_eq_ok {g : SelectedHop} (h : grantHop scheme signer r ttl now entropy i (s,n)=.ok g) :
    ∃ au no grant, Names r s n au ∧ entropy i=some no ∧
      Nwg2.mint scheme signer au no ttl now=.ok grant ∧ g=withGrant s grant := by
  unfold grantHop at h
  obtain ⟨raw,hw,m,hme,di,hd,rt,hr,h⟩ := except_bind_ok₄ h
  obtain ⟨tls,hl,au,ha,no,hn,grant,hg,h⟩ := except_bind_ok₄ h
  have hm:=Block.ofBytes_eq_some (okOr_eq_ok hme)
  have ht:=Block.ofBytes_eq_some (okOr_eq_ok hl)
  obtain ⟨h1,h2,h3,h4,h5,h6,h7,h8,h9⟩ := GrantAudience.new_eq_ok (mapErr_eq_ok ha)
  refine ⟨au,no,grant,?_,okOr_eq_ok hn,mapErr_eq_ok hg,(ok.inj h).symm⟩
  exact {
    realm := h1
    nodeId := h2
    role := h3
    transport := h4
    tee := h5
    measurement := by rw [h6,← hm]; exact okOr_eq_ok hw
    tlsSpki := ⟨di,okOr_eq_ok hd,by rw [h7,← ht]; exact okOr_eq_ok hr⟩
    previousHop := h8
    nextHop := h9 }

lemma grantHop_ok {a : GrantAudience} {l : Block Nwg2.nonceLen} {g : Nwg2.Grant}
    (hn : Names r s n a) (he : entropy i=some l)
    (hm : Nwg2.mint scheme signer a l ttl now=.ok g) :
    grantHop scheme signer r ttl now entropy i (s,n)=.ok (withGrant s g) := by
  obtain ⟨di,hd,ht⟩ := hn.tlsSpki
  have hnew:=GrantAudience.new_parts a
  rw [hn.realm,hn.nodeId,hn.role,hn.transport,hn.tee,hn.previousHop,hn.nextHop] at hnew
  simp only [grantHop,hn.measurement,okOr_some,ok_bind,Block.ofBytes_val,hd,ht,hnew,mapErr,he,hm,withGrant]

lemma attachGrants_eq_ok {selected granted : List SelectedHop}
    (h : attachGrants scheme signer r ttl now entropy selected=.ok granted) :
    granted.length=selected.length ∧ ∀ (i : ℕ) (g : SelectedHop), granted[i]?=some g →
      ∃ s n, selected[i]?=some s ∧ hopNeighbours selected i s=.ok n ∧
        grantHop scheme signer r ttl now entropy i (s,n)=.ok g := by
  obtain ⟨ng,hne,h⟩ := except_bind_ok h
  obtain ⟨hl,ha⟩ := collectIdx_eq_ok hne
  obtain ⟨hl',ha'⟩ := collectIdx_eq_ok h
  refine ⟨by rw [hl',length_zip,hl,Nat.min_self],?_⟩
  intro i g hg
  obtain ⟨⟨s,n⟩,hsn,hr⟩ := ha' i g hg
  obtain ⟨hs,hn⟩ := getElem?_zip_eq_some.mp hsn
  obtain ⟨s',hs',hb⟩ := ha i n hn
  rw [Nat.zero_add] at hr hb
  have hsm : s'=s := Option.some.inj (hs'.symm.trans hs)
  rw [hsm] at hb
  exact ⟨s,n,hs,hb,hr⟩

lemma attachGrants_ok {selected : List SelectedHop}
    (h : ∀ (i : ℕ) (s : SelectedHop), selected[i]?=some s → ∃ n g, hopNeighbours selected i s=.ok n ∧
      grantHop scheme signer r ttl now entropy i (s,n)=.ok g) :
    ∃ granted, attachGrants scheme signer r ttl now entropy selected=.ok granted := by
  have hne : ∃ neighbours, collectIdx (hopNeighbours selected) 0 selected =
      .ok neighbours := by
    apply collectIdx_ok
    intro i s hs
    obtain ⟨n,g,hn,-⟩ := h i s hs
    rw [Nat.zero_add]
    exact ⟨n,hn⟩
  obtain ⟨neighbours,hne⟩ := hne
  obtain ⟨-,hat⟩ := collectIdx_eq_ok hne
  rw [attachGrants,hne,ok_bind]
  apply collectIdx_ok
  intro i sn hsn
  obtain ⟨hs,hn⟩ := getElem?_zip_eq_some.mp hsn
  obtain ⟨s,hs',hb⟩ := hat i sn.2 hn
  have hsm : s=sn.1 := Option.some.inj (hs'.symm.trans hs)
  rw [Nat.zero_add,hsm] at hb
  obtain ⟨n,g,hn',hg⟩ := h i sn.1 hs
  have hnn : n=sn.2 := ok.inj (hn'.symm.trans hb)
  rw [hnn] at hg
  rw [Nat.zero_add]
  exact ⟨g,hg⟩

def previousIp (path : List SelectedHop) : ℕ → Option Ipv4
  | 0 => none
  | i+1 => path[i]?.bind fun s => Ipv4.parse s.hop.host

def nextEndpoint (path : List SelectedHop) (i : ℕ) : Option SocketAddrV4 :=
  path[i+1]?.bind fun s => (Ipv4.parse s.hop.host).map fun ip => ⟨ip,s.hop.port⟩

lemma previousHopOf_eq_ok {ho : Option Ipv4} (h : previousHopOf path i=.ok ho) :
    ho=previousIp path i := by
  cases i with
  | zero => exact (ok.inj h).symm
  | succ i =>
    rw [previousHopOf] at h
    rw [previousIp]
    cases hs : path[i]? with
    | none =>
      rw [hs] at h
      exact (ok.inj h).symm
    | some s =>
      rw [hs] at h
      obtain ⟨ip,hip,h⟩ := except_bind_ok h
      rw [← ok.inj h,bind_some,okOr_eq_ok hip]

lemma nextHopOf_eq_ok {ho : Option SocketAddrV4} (h : nextHopOf path i=.ok ho) :
    ho=nextEndpoint path i := by
  unfold nextHopOf at h
  unfold nextEndpoint
  split at h
  next hlt =>
    obtain ⟨next,hn,ip,hip,h⟩ := except_bind_ok₂ h
    rw [okOr_eq_ok hn,← ok.inj h,bind_some,okOr_eq_ok hip]
    rfl
  next hge =>
    rw [getElem?_eq_none (Nat.le_of_not_lt hge),← ok.inj h]
    rfl

lemma nextHopOf_host {hop : Option SocketAddrV4} (h : nextHopOf path i=.ok hop)
    {n : SelectedHop} (hn : path[i+1]?=some n) :
    ∃ ip, Ipv4.parse n.hop.host=some ip := by
  obtain ⟨hlt,-⟩ := List.getElem?_eq_some_iff.mp hn
  rw [nextHopOf,if_pos hlt,hn,okOr_some,ok_bind] at h
  obtain ⟨ip,hip,-⟩ := except_bind_ok h
  exact ⟨ip,okOr_eq_ok hip⟩

lemma orderedNeighbours_eq_ok {r : Role} {previous : Option Ipv4} {s : Option SocketAddrV4}
    (h : orderedNeighbours r previous s=.ok n) :
    n=(previous,s) := by
  unfold orderedNeighbours at h
  split at h
  · exact (ok.inj h).symm
  · exact (ok.inj h).symm
  · exact (ok.inj h).symm
  · cases h

lemma hopNeighbours_eq_ok (h : hopNeighbours path i s=.ok n) : n=(previousIp path i,nextEndpoint path i) ∧
      ∀ next, path[i+1]?=some next → ∃ ip, Ipv4.parse next.hop.host=some ip := by
  obtain ⟨pr,hp,next,hn,h⟩ := except_bind_ok₂ h
  rw [orderedNeighbours_eq_ok h,previousHopOf_eq_ok hp,nextHopOf_eq_ok hn]
  exact ⟨rfl,fun _ h => nextHopOf_host hn h⟩

section
variable (hh : ∀ s∈path, ∃ ip, Ipv4.parse s.hop.host=some ip)
include hh
lemma previousHopOf_eq (i : ℕ) : previousHopOf path i=.ok (previousIp path i) := by
  cases i with
  | zero => rfl
  | succ i =>
    rw [previousHopOf,previousIp]
    cases hs : path[i]? with
    | none => rfl
    | some s =>
      obtain ⟨ip,hip⟩ := hh s (mem_of_getElem? hs)
      simp only [hip,okOr_some,ok_bind,bind_some]

lemma nextHopOf_eq (i : ℕ) : nextHopOf path i=.ok (nextEndpoint path i) := by
  unfold nextHopOf nextEndpoint
  split
  next hl =>
    obtain ⟨ip,hip⟩ := hh path[i+1] (getElem_mem hl)
    simp only [getElem?_eq_getElem hl,okOr_some,ok_bind,hip,bind_some,map_some]
  next hge =>
    rw [getElem?_eq_none (Nat.le_of_not_lt hge)]
    rfl
end

lemma orderedNeighbours_forPosition {hops : ℕ} (hlen : path.length=hops) (hi : i<hops)
    (hh : ∀ s∈path, ∃ ip, Ipv4.parse s.hop.host=some ip) :
    orderedNeighbours (Role.forPosition i hops) (previousIp path i) (nextEndpoint path i) =
      .ok (previousIp path i,nextEndpoint path i) := by
  by_cases hl : i+1=hops
  · have hnn : nextEndpoint path i=none := by
      rw [nextEndpoint,getElem?_eq_none (by omega)]
      rfl
    rw [Role.forPosition,if_pos hl,hnn]
    rfl
  · have ht : i+1<path.length := by omega
    obtain ⟨ip,hip⟩ := hh path[i+1] (getElem_mem ht)
    have hn : nextEndpoint path i=some ⟨ip,path[i+1].hop.port⟩ := by
      simp only [nextEndpoint,getElem?_eq_getElem ht,bind_some,hip,map_some]
    rw [Role.forPosition,if_neg hl,hn]
    cases i with
    | zero => rfl
    | succ i =>
      have ht' : i<path.length := by omega
      obtain ⟨before,hb⟩ := hh path[i] (getElem_mem ht')
      have hp : previousIp path (i+1)=some before := by
        simp only [previousIp,getElem?_eq_getElem ht',bind_some,hb]
      rw [if_neg (Nat.succ_ne_zero i),hp]
      rfl

lemma neighbours_isSome (hi : i<path.length) (hh : ∀ s∈path, ∃ ip, Ipv4.parse s.hop.host=some ip) :
    ((previousIp path i).isSome=true ↔ 0 < i) ∧
    ((nextEndpoint path i).isSome=true ↔ i+1<path.length) := by
  constructor
  · cases i with
    | zero => simp [previousIp]
    | succ i =>
      have hl : i<path.length := by omega
      obtain ⟨ip,hp⟩ := hh path[i] (getElem_mem hl)
      simp [previousIp,getElem?_eq_getElem hl,hp]
  · by_cases hl : i+1<path.length
    · obtain ⟨ip,hp⟩ := hh path[i+1] (getElem_mem hl)
      simp [nextEndpoint,hp,hl]
    · simp [nextEndpoint,hl]

lemma neighboursAdmitted_of_ordered {r : Role} {previous : Option Ipv4}
    {s : Option SocketAddrV4} (h : orderedNeighbours r previous s=.ok n)
    (hp : ∀ endpoint, s=some endpoint → endpoint.port≠0) :
    Nwg2.neighboursAdmitted (grantRole r) previous s := by
  cases r <;> cases previous <;> cases s <;>
    simp_all [orderedNeighbours,grantRole,Nwg2.neighboursAdmitted]
end

def nodeIdentity (realm : Bytes) (node : RegistryNode) : Option GrantNodeIdentity := do
  let measurement ← fromHex node.measurement
  let measurement ← Block.ofBytes Nwg2.measurementLen measurement
  let digest ← node.tlsSpkiSha256
  let digest ← fromHex digest
  let digest ← Block.ofBytes Nwg2.tlsSpkiSha256Len digest
  (GrantNodeIdentity.new realm node.id (grantRole node.role) .masque (coreTee node.tee) measurement
    digest).toOption

structure NodeRegistry.Grantable (ipv6 : Bytes → Option Bytes) (registry : NodeRegistry) : Prop where
  loaded : NodeRegistry.Loaded ipv6 registry.nodes
  tlsSpki : registry.allNodesHaveTlsSpki=true
  nestedIpv4 : registry.allNodesHaveNestedIpv4Endpoints=true

section
variable {ipv6 : Bytes → Option Bytes} {r : NodeRegistry} {rest : Bytes}
variable {node : RegistryNode}
lemma NodeRegistry.Grantable.host (h : r.Grantable ipv6) (hn : node∈r.nodes) :
    ∃ ip, Ipv4.parse node.host=some ip := by
  have ha:=all_eq_true.mp h.nestedIpv4 node hn
  simp only [Bool.and_eq_true] at ha
  cases hip : Ipv4.parse node.host with
  | none =>
    rw [hip] at ha
    cases ha.2
  | some ip => exact ⟨ip,rfl⟩

lemma trim_measurement (hw : node.WellFormed ipv6) : trim node.measurement=node.measurement := by
  have hc:=hw.measurement
  simp only [isCanonicalHex,Bool.and_eq_true] at hc
  exact trim_word _ (isWord_lowerHex _ (all_eq_true.mp hc.2))

lemma nodeIdentity_some (h : r.Grantable ipv6) (hr : isIdentifier rest) (hn : node∈r.nodes) :
    ∃ identity : GrantNodeIdentity, nodeIdentity rest node=some identity ∧
      identity.realm=rest ∧ identity.nodeId=node.id ∧ identity.role=grantRole node.role ∧
      identity.transport=.masque ∧ identity.tee=coreTee node.tee ∧
      fromHex (trim node.measurement)=some identity.measurement.val ∧
      ∃ di, node.tlsSpkiSha256=some di ∧ fromHex di=some identity.tlsSpkiSha256.val := by
  have hw:=h.loaded.wellFormed node hn
  obtain ⟨di,hd⟩ := isSome_iff_exists.mp (all_eq_true.mp h.tlsSpki node hn)
  obtain ⟨m,hm⟩ : ∃ block : Block Nwg2.measurementLen,
      fromHex node.measurement=some block.val := fromHex_canonical hw.measurement
  obtain ⟨tls,ht⟩ : ∃ block : Block Nwg2.tlsSpkiSha256Len, fromHex di=some block.val :=
    fromHex_canonical (hw.tlsSpki di hd)
  let identity : GrantNodeIdentity := ⟨rest,node.id,grantRole node.role,.masque,
    coreTee node.tee,m,tls,hr,hw.id⟩
  refine ⟨identity,?_,rfl,rfl,rfl,rfl,rfl,?_,di,hd,ht⟩
  · have hnew:=GrantNodeIdentity.new_parts identity
    simp only [nodeIdentity,hm,hd,ht,Block.ofBytes_val,bind_eq_bind,bind_some]
    exact congrArg Except.toOption hnew
  · rw [trim_measurement hw]
    exact hm

lemma nodeIdentity_ne (h : r.Grantable ipv6) (hr : isIdentifier rest)
    {o : RegistryNode} (hn : node∈r.nodes) (ho : o∈r.nodes)
    (hne : o≠node) {x y : GrantNodeIdentity} (hx : nodeIdentity rest node=some x)
    (hy : nodeIdentity rest o=some y) : x≠y := by
  obtain ⟨x',hx',-,hd,-⟩ := nodeIdentity_some h hr hn
  obtain ⟨y',hy',-,hyi,-⟩ := nodeIdentity_some h hr ho
  have hxx : x'=x := Option.some.inj (hx'.symm.trans hx)
  have hyy : y'=y := Option.some.inj (hy'.symm.trans hy)
  intro he
  apply hne
  apply inj_on_of_nodup_map h.loaded.ids ho hn
  rw [← hyi,← hd,hxx,hyy,he]

variable {dead : List Bytes} {shuffle : Option (ℕ → UInt8)} {hops : ℕ} {path : List SelectedHop}
  {ttl : Duration} {now : UInt64} {entropy : ℕ → Option (Block Nwg2.nonceLen)}
lemma selectPath_nodes (hp : {r with dead := dead : NodeRegistry}.selectPath shuffle hops=some path) :
    path.length=hops ∧ ∀ (i : ℕ) (s : SelectedHop), path[i]?=some s →
      ∃ node∈r.nodes, s=selectedHop hops i node ∧ node.role=Role.forPosition i hops := by
  obtain ⟨nodes,hn,rfl⟩ := selectPath_some hp
  refine ⟨by rw [length_mapIdx,hn.length],?_⟩
  intro i s hs
  rw [getElem?_mapIdx] at hs
  obtain ⟨node,hd,rfl⟩ := map_eq_some_iff.mp hs
  exact ⟨node,(hn.live node (mem_of_getElem? hd)).1,rfl,hn.roles i node hd⟩

lemma selected_hosts (h : r.Grantable ipv6)
    (hp : {r with dead := dead : NodeRegistry}.selectPath shuffle hops=some path) :
    ∀ s∈path, ∃ ip, Ipv4.parse s.hop.host=some ip := by
  intro s hs
  obtain ⟨j,hj⟩ := getElem?_of_mem hs
  obtain ⟨node,hn,hl,-⟩ := (selectPath_nodes hp).2 j s hj
  rw [hl]
  exact h.host hn

lemma position_grantable (scheme : Scheme) (signer : GrantSigningKey)
    (h : r.Grantable ipv6) (hrl : isIdentifier rest)
    (hp : {r with dead := dead : NodeRegistry}.selectPath shuffle hops=some path)
    (ht : ttl.Grantable) (hnow : now.toNat+ttl.secs.toNat<2^64)
    (hen : ∀ i, ∃ no, entropy i=some no) {i : ℕ} {s : SelectedHop}
    (hs : path[i]?=some s) :
    ∃ node∈r.nodes, s=selectedHop hops i node ∧ node.role=Role.forPosition i hops ∧
      ∃ audience no grant, hopNeighbours path i s=.ok (previousIp path i,nextEndpoint path i) ∧
        Names rest s (previousIp path i,nextEndpoint path i) audience ∧
        nodeIdentity rest node=some audience.node ∧ entropy i=some no ∧
        Nwg2.mint scheme signer audience no ttl now=.ok grant := by
  obtain ⟨hl,hat⟩ := selectPath_nodes hp
  obtain ⟨node,hd,hsel,hr⟩ := hat i s hs
  have hh:=selected_hosts h hp
  have hi : i<hops := hl ▸ (List.getElem?_eq_some_iff.mp hs).1
  have ho:=orderedNeighbours_forPosition hl hi hh
  have hpr : ∀ ed, nextEndpoint path i=some ed → ed.port≠0 := by
    intro ed he
    obtain ⟨next,hnx,he⟩ := bind_eq_some_iff.mp he
    obtain ⟨ip,-,rfl⟩ := map_eq_some_iff.mp he
    obtain ⟨node',hd',rfl,-⟩ := hat (i+1) next hnx
    exact (h.loaded.wellFormed node' hd').port
  have hadmitted:=neighboursAdmitted_of_ordered ho hpr
  obtain ⟨it,hid,h1,h2,h3,h4,h5,h6,h7⟩ := nodeIdentity_some h hrl hd
  have hadmitted' : Nwg2.neighboursAdmitted it.role (previousIp path i) (nextEndpoint path i) := by
    rw [h3,hr]
    exact hadmitted
  obtain ⟨no,hn⟩ := hen i
  let audience : GrantAudience := ⟨it,previousIp path i,nextEndpoint path i,hadmitted'⟩
  have hep : (UInt64.ofNat (now.toNat+ttl.secs.toNat)).toNat =
      now.toNat+ttl.secs.toNat := UInt64.toNat_ofNat_of_lt' hnow
  have hm : ∃ grant, Nwg2.mint scheme signer audience no ttl now=.ok grant := ⟨_,Nwg2.mint_ok ht hep⟩
  obtain ⟨grant,hm⟩ := hm
  refine ⟨node,hd,hsel,hr,audience,no,grant,?_,?_,hid,hn,hm⟩
  · rw [hopNeighbours,previousHopOf_eq hh,ok_bind,nextHopOf_eq hh,ok_bind,hsel]
    exact ho
  · rw [hsel]
    exact {
      realm := h1
      nodeId := h2
      role := by rw [h3,hr]; rfl
      transport := h4
      tee := h5
      measurement := h6
      tlsSpki := h7
      previousHop := rfl
      nextHop := rfl }
end

structure GrantedHop (scheme : Scheme) (verifier : GrantVerifier) (registry : NodeRegistry)
    (realm : Bytes) (ttl : Duration) (now : UInt64) (path : List SelectedHop) (i : ℕ)
    (node : RegistryNode) (g : SelectedHop) (token : Bytes) (parsed : Nwg2.ParsedGrant) : Prop where
  carried : g.hop.grant=some (toHex token)
  parses : Nwg2.parse token=.ok parsed
  /-- id, role, transport, TEE family, measurement and SPKI digest are the node's -/
  identity : nodeIdentity realm node=some parsed.audience.node
  nodeId : parsed.audience.node.nodeId=node.id
  role : SameRole node.role parsed.audience.node.role
  tee : SameTee node.tee parsed.audience.node.tee
  measurement : fromHex node.measurement=some parsed.audience.node.measurement.val
  tlsSpki : ∃ digest, node.tlsSpkiSha256=some digest ∧
    fromHex digest=some parsed.audience.node.tlsSpkiSha256.val
  nextHop : parsed.audience.nextHop=nextEndpoint path i
  previousHop : parsed.audience.previousHop=previousIp path i
  nonce : g.hop.grantNonce=some (toHex parsed.nonce.val)
  expiry : parsed.expiresAt.toNat=now.toNat+ttl.secs.toNat
  accepted : ∃ verified, Nwg2.verifyForNode scheme token verifier parsed.audience.node now=.ok verified
  rejected : ∀ other∈registry.nodes, other≠node → ∃ identity, nodeIdentity realm other=some identity ∧
      Nwg2.verifyForNode scheme token verifier identity now=.error .wrongAudience

lemma grantedHop_of_mint {ipv6 : Bytes → Option Bytes} {r : NodeRegistry}
    (hr : r.Grantable ipv6) {realm : Bytes} (hrl : isIdentifier realm)
    {node : RegistryNode} (hn : node∈r.nodes) {path : List SelectedHop} {i : ℕ}
    {s : SelectedHop} {a : GrantAudience}
    (hnm : Names realm s (previousIp path i,nextEndpoint path i) a)
    (hd : nodeIdentity realm node=some a.node) {scheme : Scheme}
    (hid : scheme.Ideal) {signer : GrantSigningKey} {verifier : GrantVerifier}
    (hh : verifier.keys.get (signer.keyId scheme)=some (signer.publicKeyBytes scheme))
    {nonce : Block Nwg2.nonceLen} {ttl : Duration} {now : UInt64} {g : Nwg2.Grant}
    (hm : Nwg2.mint scheme signer a nonce ttl now=.ok g) :
    ∃ parsed, GrantedHop scheme verifier r realm ttl now path i node (withGrant s g)
      g.token parsed := by
  obtain ⟨parsed,hpr,ha,hp,-,he,-⟩ := Nwg2.parse_minted hm
  have hg : g.nonce=nonce := by
    obtain ⟨-,ea,-,hgr⟩ := Nwg2.mint_eq_ok hm
    rw [hgr]
  obtain ⟨it,hd',-,h2,h3,-,h5,h6,h7⟩ := nodeIdentity_some hr hrl hn
  have hs : it=a.node := Option.some.inj (hd'.symm.trans hd)
  rw [hs] at h2 h3 h5 h6 h7
  refine ⟨parsed,?_⟩
  exact {
    carried := rfl
    parses := hpr
    identity := by rw [ha]; exact hd
    nodeId := by rw [ha]; exact h2
    role := by rw [ha,h3]; exact sameRole_grantRole _
    tee := by rw [ha,h5]; exact sameTee_coreTee _
    measurement := by rw [ha,← trim_measurement (hr.loaded.wellFormed node hn)]; exact h6
    tlsSpki := by rw [ha]; exact h7
    nextHop := by rw [ha]; exact hnm.nextHop
    previousHop := by rw [ha]; exact hnm.previousHop
    nonce := by rw [hp,← hg]; rfl
    expiry := he
    accepted := by
      rw [ha]
      obtain ⟨v,hv,-⟩ := (Nwg2.verifyForNode_minted hid hh hm a.node).1 rfl
      exact ⟨v,hv⟩
    rejected := by
      intro o ho hne
      obtain ⟨it',ho',-⟩ := nodeIdentity_some hr hrl ho
      refine ⟨it',ho',(Nwg2.verifyForNode_minted hid hh hm it').2 ?_⟩
      exact nodeIdentity_ne hr hrl hn ho hne hd ho' }

/-- A selected path can always be granted, and each grant names exactly its neighbours. -/
theorem attachGrants_selected_path {ipv6 : Bytes → Option Bytes} {read : Bytes → Except Failure Bytes}
    {parseJson : Bytes → Except Failure (List RegistryFileNode)} {file : Bytes}
    {registry : NodeRegistry}
    (hfile : NodeRegistry.fromFile ipv6 read parseJson file=.ok registry)
    (htls : registry.allNodesHaveTlsSpki=true)
    (hipv4 : registry.allNodesHaveNestedIpv4Endpoints=true)
    {dead : List Bytes} {shuffled : Option (ℕ → UInt8)} {hops : ℕ} {path : List SelectedHop}
    (hpath : {registry with dead := dead : NodeRegistry}.selectPath shuffled hops=some path)
    {realm : Bytes} (hrealm : Nwg2.validateIdentifier realm=.ok ()) {ttl : Duration}
    (httl : ttl.Grantable) {now : UInt64} (hnow : now.toNat+ttl.secs.toNat<2^64)
    {entropy : ℕ → Option (Block Nwg2.nonceLen)} (hentropy : ∀ i, ∃ nonce, entropy i=some nonce)
    {scheme : Scheme} (hideal : scheme.Ideal) {signer : GrantSigningKey}
    {keys : List (Block 32)} {verifier : GrantVerifier}
    (hverifier : GrantVerifier.new scheme keys=.ok verifier)
    (hkey : signer.publicKeyBytes scheme∈keys) :
    ∃ granted, attachGrants scheme signer realm ttl now entropy path=.ok granted ∧
      granted.length=hops ∧ ∀ (i : ℕ) (g : SelectedHop), granted[i]?=some g →
        ((previousIp path i).isSome=true ↔ 0 < i) ∧
        ((nextEndpoint path i).isSome=true ↔ i+1<hops) ∧
        ∃ node∈registry.nodes, path[i]?=some (NodeRegistry.selectedHop hops i node) ∧
          ∃ token parsed, GrantedHop scheme verifier registry realm ttl now path i node g token
            parsed := by
  have hr : registry.Grantable ipv6 := ⟨fromFile_loaded hfile,htls,hipv4⟩
  have hrealm:=Nwg2.isIdentifier_of_validate hrealm
  have hheld:=GrantVerifier.new_get hverifier _ hkey
  obtain ⟨hlen,-⟩ := selectPath_nodes hpath
  have hposition:=fun (i : ℕ) (s : SelectedHop) (hs : path[i]?=some s) =>
    position_grantable scheme signer hr hrealm hpath httl hnow hentropy hs
  obtain ⟨granted,hgranted⟩ : ∃ granted,
      attachGrants scheme signer realm ttl now entropy path=.ok granted := by
    apply attachGrants_ok
    intro i s hs
    obtain ⟨node,-,-,-,audience,nonce,grant,hn,ha,-,hnonce,hmint⟩ := hposition i s hs
    exact ⟨_,_,hn,grantHop_ok ha hnonce hmint⟩
  obtain ⟨hcount,hsteps⟩ := attachGrants_eq_ok hgranted
  refine ⟨granted,hgranted,hcount.trans hlen,?_⟩
  intro i g hg
  obtain ⟨s,n,hs,hn,hgrant⟩ := hsteps i g hg
  obtain ⟨node,hnode,hsel,hrole,audience,nonce,grant,hn',ha,hidentity,hnonce,hmint⟩ := hposition i s hs
  have hnn : n=(previousIp path i,nextEndpoint path i) := ok.inj (hn.symm.trans hn')
  rw [hnn] at hgrant
  have hgg : g=withGrant s grant := ok.inj (hgrant.symm.trans (grantHop_ok ha hnonce hmint))
  obtain ⟨parsed,hparsed⟩ := grantedHop_of_mint hr hrealm hnode ha hidentity hideal hheld hmint
  have hi : i<path.length := (List.getElem?_eq_some_iff.mp hs).1
  obtain ⟨hprevious,hnext⟩ := neighbours_isSome hi (selected_hosts hr hpath)
  refine ⟨hprevious,hlen ▸ hnext,node,hnode,hsel ▸ hs,grant.token,parsed,?_⟩
  rw [hgg]
  exact hparsed

def fileNode (role : String) (node : RegistryNode) : RegistryFileNode where
  id := node.id
  host := node.host
  port := node.port
  tee := ascii "sev-snp"
  measurement := node.measurement
  tlsSpkiSha256 := node.tlsSpkiSha256
  operator := node.operator
  jurisdiction := node.jurisdiction
  wgPub := node.wgPub
  role := ascii role
  minTcbSevsnp := node.minTcbSevsnp
  tdxPolicy := none
  transparencyLogKey := node.transparencyLogKey

def devFile : List RegistryFileNode :=
  List.zipWith fileNode ["entry","middle",
    "exit","exit"] NodeRegistry.devDefault.nodes

def loadDevFile : Except Failure NodeRegistry :=
  NodeRegistry.fromFile (fun _ => none) (fun _ => .ok []) (fun _ => .ok devFile) []

def devSigner : GrantSigningKey := ⟨Block.fill 32 7⟩
def devRealm : Bytes := ascii "dev"
def devTtl : Duration := ⟨600,0⟩
def devNonces (_ : ℕ) : Option (Block Nwg2.nonceLen) := some (Block.fill 32 9)

theorem attachGrants_devDefault : ∃ path granted, NodeRegistry.devDefault.selectPath none 3=some path ∧
    attachGrants plainScheme devSigner devRealm devTtl 1800000000 devNonces path=.ok granted ∧
    granted.length=3 := by
  have hf : loadDevFile=.ok devDefault := by decide +kernel
  have ht : devDefault.allNodesHaveTlsSpki=true := by decide +kernel
  have hip : devDefault.allNodesHaveNestedIpv4Endpoints=true := by decide +kernel
  have hs : (devDefault.selectPath none 3).isSome=true := by decide +kernel
  obtain ⟨path,hp⟩ := isSome_iff_exists.mp hs
  have hr : Nwg2.validateIdentifier devRealm=.ok () := by decide +kernel
  have htt : devTtl.Grantable := ⟨by decide,by decide,by decide⟩
  have ho : (1800000000 : UInt64).toNat+devTtl.secs.toNat<2^64 := by decide
  have hn : ∀ i, ∃ nonce, devNonces i=some nonce := fun _ => ⟨_,rfl⟩
  obtain ⟨verifier,hv⟩ : ∃ verifier, GrantVerifier.new plainScheme
      [devSigner.publicKeyBytes plainScheme]=.ok verifier := ⟨_,rfl⟩
  obtain ⟨granted,hg,hl,-⟩ := attachGrants_selected_path hf ht hip hp hr
    htt ho hn plainScheme_ideal hv mem_cons_self
  exact ⟨path,granted,hp,hg,hl⟩
end NilVpn.Coordinator
