import NilVpn.Coordinator.Redeem
import NilVpn.Datapath.Redeem

/-!
# A path from the registry to the client

The Coordinator's `to_hop` and `attach_grants` and the client's `hop_to_endpoint` are written apart.
-/

namespace NilVpn.Datapath
open Except Base Option List
open NilVpn.Core (AttestExpectation Endpoint)
open Coordinator (TdxPolicy SameTee sameTee_coreTee coreTee tdxPolicyToWire RegistryNode NodeRegistry
  RegistryFileNode SelectedHop Failure isCanonicalHex fromHex_canonical validateRegistryNode
  validateTdxPolicy validatePolicy attachGrants withGrant Json)
open Nwg2 (Scheme GrantSigningKey Duration)
open Proto (Hop)

lemma trim_canonical {n : ℕ} {hex : Bytes} (h : isCanonicalHex n hex) : trim hex=hex := by
  simp only [isCanonicalHex,Bool.and_eq_true] at h
  exact trim_word _ (isWord_lowerHex _ (List.all_eq_true.mp h.2))

lemma trim_toHex (b : Bytes) : trim (toHex b)=toHex b :=
  trim_word _ (isWord_lowerHex _ (toHex_lowerHex b))

def Decoded (hex : Option Bytes) (value : Option (Block 32)) : Prop :=
  hex.map fromHex=value.map fun b => some b.val

variable (idx : ℕ)
lemma decode32_canonical (f : String) {hx : Bytes} (h : isCanonicalHex 32 hx) :
    ∃ v, decode32 idx f hx=.ok v ∧ fromHex hx=some v.val := by
  obtain ⟨v,hv⟩ := fromHex_canonical h
  refine ⟨v,?_,hv⟩
  rw [decode32,trim_canonical h,hv,okOr_some,ok_bind,Block.ofBytes_val,okOr_some]

lemma decodeOptional32_canonical (f : String) {hx : Option Bytes}
    (h : ∀ value, hx=some value → isCanonicalHex 32 value) :
    ∃ value, decodeOptional32 idx f hx=.ok value ∧ Decoded hx value := by
  cases hx with
  | none => exact ⟨none,rfl,rfl⟩
  | some hx =>
    obtain ⟨value,hd,hv⟩ := decode32_canonical idx f (h hx rfl)
    refine ⟨some value,?_,?_⟩
    · rw [decodeOptional32,hd,ok_bind]
    · rw [Decoded,map_some,map_some,hv]

lemma decodeGrant_toHex (t : Bytes) (nonce : Block 32) :
    decodeGrant idx (some (toHex t)) (some (toHex nonce.val))=.ok (some ⟨t,nonce⟩) := by
  simp [decode32,trim_toHex,fromHex_toHex,okOr_some,ok_bind,Block.ofBytes_val,decodeGrant]

lemma decodePolicyHex_toHex {n : ℕ} (f : String) (b : Block n) :
    decodePolicyHex n f (toHex b.val)=.ok b := by
  have hc : ((toHex b.val).length=n*2&&(toHex b.val).all isLowerHex) := by
    rw [Bool.and_eq_true,decide_eq_true_eq,toHex_length,b.length_val]
    exact ⟨by omega,List.all_eq_true.mpr (toHex_lowerHex _)⟩
  rw [decodePolicyHex,ensure_of _ _ hc,ok_bind,fromHex_toHex,bind_some,Block.ofBytes_val,okOr_some]

lemma decodeServiceTd_toHex (m : Option (Block 48)) :
    decodeServiceTd (m.map fun b => toHex b.val)=.ok m := by
  cases m with
  | none => rfl
  | some b => rw [map_some,decodeServiceTd,decodePolicyHex_toHex,ok_bind]

lemma requireNonzero_ok (name : String) {v : Block 48} (h : Attest.Tdx.isZero v=false) :
    requireNonzero name v=.ok () :=
  ensure_of _ _ (by rw [h]; rfl)

lemma tdxPolicyFromWire_toWire {policy : TdxPolicy} (h : Admissible policy) :
    tdxPolicyFromWire (tdxPolicyToWire policy)=.ok policy := by
  simp only [tdxPolicyFromWire,tdxPolicyToWire,decodePolicyHex_toHex,decodeServiceTd_toHex,ok_bind,
    h.noDebug,Bool.not_false,ensure_true,requireNonzero_ok _ h.rtMr0,requireNonzero_ok _ h.rtMr1,
    requireNonzero_ok _ h.rtMr2,requireNonzero_ok _ h.rtMr3]

lemma ensureNonzero_eq_ok {name : String} {v : Block 48} {u : Unit}
    (h : Coordinator.ensureNonzero name v=.ok u) : Attest.Tdx.isZero v=false :=
  Bool.not_eq_true' _ ▸ ensure_eq_ok h

lemma validateTdxPolicy_admissible {dto : Proto.TdxPolicy} {policy : TdxPolicy}
    (h : validateTdxPolicy dto=.ok policy) : Admissible policy := by
  obtain ⟨ta,-,_,hd,rm,-,rt,-,h⟩ := except_bind_ok₄ h
  obtain ⟨rr,-,rtM,-,_,hn0,_,hn1,h⟩ := except_bind_ok₄ h
  obtain ⟨_,hn2,_,hn3,xfam,-,mci,-,h⟩ := except_bind_ok₄ h
  obtain ⟨mo,-,moc,-,h⟩ := except_bind_ok₂ h
  obtain ⟨mst,-,h⟩ := except_bind_ok h
  rw [← ok.inj h]
  refine ⟨?_,ensureNonzero_eq_ok hn0,ensureNonzero_eq_ok hn1,ensureNonzero_eq_ok hn2,ensureNonzero_eq_ok hn3⟩
  have hb:=ensure_eq_ok hd
  rw [Attest.Tdx.isDebug]
  cases hh : ta.val.head? with
  | none => rfl
  | some b => grind

structure PolicyChecked (node : RegistryNode) : Prop where
  floor : node.tee=.tdx → node.minTcbSevsnp=none
  isSome : node.tdxPolicy.isSome ↔ node.tee=.tdx
  admissible : ∀ policy, node.tdxPolicy=some policy → Admissible policy

lemma validatePolicy_admissible {tee : Proto.Tee} {dto : Option Proto.TdxPolicy}
    {t : Option TdxPolicy} (h : validatePolicy tee dto=.ok t) {p : TdxPolicy}
    (hp : t=some p) : Admissible p := by
  cases tee <;> cases dto
  case sevSnp.none =>
    rw [← ok.inj h] at hp
    cases hp
  case sevSnp.some => cases h
  case tdx.none => cases h
  case tdx.some =>
    obtain ⟨v,hv,h⟩ := except_bind_ok h
    rw [← ok.inj h] at hp
    rw [← Option.some.inj hp]
    exact validateTdxPolicy_admissible hv

lemma validateRegistryNode_policyChecked {ipv6 : Bytes → Option Bytes} {dto : RegistryFileNode}
    {node : RegistryNode} (h : validateRegistryNode ipv6 dto=.ok node) : PolicyChecked node := by
  obtain ⟨_,-,_,-,_,-,_,-,h⟩ := except_bind_ok₄ h
  obtain ⟨_,-,tee,-,role,-,_,-,h⟩ := except_bind_ok₄ h
  obtain ⟨_,-,_,-,_,-,_,hf,h⟩ := except_bind_ok₄ h
  obtain ⟨po,ho,h⟩ := except_bind_ok h
  rw [← ok.inj h]
  refine ⟨?_,Coordinator.validatePolicy_isSome ho,fun p hp => validatePolicy_admissible ho hp⟩
  intro ht
  have ht : tee=.tdx := ht
  have hn:=ensure_eq_ok hf
  rw [ht] at hn
  exact not_isSome_iff_eq_none.mp (by simpa using hn)

lemma decodeTdxPolicy_toWire {node : RegistryNode} (h : PolicyChecked node) :
    decodeTdxPolicy idx (coreTee node.tee) (node.tdxPolicy.map tdxPolicyToWire)=.ok node.tdxPolicy := by
  cases ht : node.tee with
  | sevSnp =>
    cases hp : node.tdxPolicy with
    | none => rfl
    | some p =>
      have htdx:=h.isSome.mp (by rw [hp]; rfl)
      rw [ht] at htdx
      cases htdx
  | tdx =>
    cases hp : node.tdxPolicy with
    | none =>
      have hs:=h.isSome.mpr ht
      rw [hp] at hs
      cases hs
    | some p =>
      have hw:=tdxPolicyFromWire_toWire (h.admissible p hp)
      simp only [map_some,coreTee,decodeTdxPolicy,hw,Except.mapError,ok_bind]

structure SameFloor (wire : Proto.SevSnpTcbFloor) (floor : Core.SevSnpTcbFloor) : Prop where
  fmc : floor.fmc=wire.fmc
  bootloader : floor.bootloader=wire.bootloader
  tee : floor.tee=wire.tee
  snp : floor.snp=wire.snp
  microcode : floor.microcode=wire.microcode

structure Delivers (node : RegistryNode) (grant : Nwg2.Grant) (endpoint : Endpoint) (e : AttestExpectation) :
    Prop where
  host : endpoint.host=node.host
  port : endpoint.port=node.port
  expected : endpoint.expected=some e
  tee : SameTee node.tee e.tee
  measurement : fromHex node.measurement=some e.measurement
  tlsSpki : Decoded node.tlsSpkiSha256 e.tlsSpkiSha256
  wgPub : Decoded node.wgPub endpoint.wgPub
  minTcb : Option.Rel SameFloor node.minTcbSevsnp e.minTcbSevsnp
  tdxPolicy : e.tdxPolicy=node.tdxPolicy
  logKey : Decoded node.transparencyLogKey e.transparencyLogKey
  grant : endpoint.grant=some ⟨grant.token,grant.nonce⟩

lemma hopToEndpoint_of {idx : ℕ} {h : Hop} {m : Bytes} {ts : Block 32}
    {wgPub logKey : Option (Block 32)} {g : Option Core.Grant} {p : Option TdxPolicy}
    (hm : fromHex (trim h.measurement)=some m)
    (ht : decodeTlsSpki idx h.tlsSpkiSha256=.ok ts)
    (hw : decodeOptional32 idx "wg_pub" h.wgPub=.ok wgPub)
    (hg : decodeGrant idx h.grant h.grantNonce=.ok g)
    (hf : (!(coreTee h.tee=.tdx&&h.minTcbSevsnp.isSome))=true)
    (hp : decodeTdxPolicy idx (coreTee h.tee) h.tdxPolicy=.ok p)
    (hl : decodeOptional32 idx "transparency_log_key" h.transparencyLogKey=.ok logKey) :
    hopToEndpoint idx h=.ok ⟨h.host,h.port,.masque,wgPub,some ⟨coreTee h.tee,m,
      some ts,h.minTcbSevsnp.map coreFloor,p,logKey⟩,g⟩ := by
  rw [hopToEndpoint,hm,okOr_some,ok_bind,ht,ok_bind,hw,ok_bind,hg,ok_bind,
    ensure_of _ _ hf,ok_bind,hp,ok_bind,hl,ok_bind]

lemma hopToEndpoint_delivers {ipv6 : Bytes → Option Bytes} (idx hops : ℕ) {n : RegistryNode}
    (hw : n.WellFormed ipv6) (hp : PolicyChecked n) (htls : n.tlsSpkiSha256.isSome)
    (g : Nwg2.Grant) :
    ∃ ep e, hopToEndpoint idx (withGrant (NodeRegistry.selectedHop hops idx n) g).hop=.ok ep ∧
      Delivers n g ep e := by
  obtain ⟨m,hm⟩ := fromHex_canonical hw.measurement
  obtain ⟨hex,hh⟩ := isSome_iff_exists.mp htls
  obtain ⟨di,hdi,hd⟩ := decode32_canonical idx "tls_spki_sha256" (hw.tlsSpki hex hh)
  obtain ⟨wp,hwP,hwg⟩ := decodeOptional32_canonical idx "wg_pub" hw.wgPub
  obtain ⟨lk,hlo,hl⟩ := decodeOptional32_canonical idx "transparency_log_key" hw.logKey
  have hf : (!(coreTee n.tee=.tdx&&n.minTcbSevsnp.isSome))=true := by
    cases ht : n.tee with
    | sevSnp => rfl
    | tdx =>
      rw [hp.floor ht]
      rfl
  let e : AttestExpectation := ⟨coreTee n.tee,m.val,some di,
    n.minTcbSevsnp.map coreFloor,n.tdxPolicy,lk⟩
  refine ⟨⟨n.host,n.port,.masque,wp,some e,some ⟨g.token,g.nonce⟩⟩,e,?_,?_⟩
  · apply hopToEndpoint_of
    · show fromHex (trim n.measurement)=_
      rw [trim_canonical hw.measurement,hm]
    · show decodeTlsSpki idx n.tlsSpkiSha256=_
      rw [hh]
      exact hdi
    · exact hwP
    · exact decodeGrant_toHex idx g.token g.nonce
    · exact hf
    · exact decodeTdxPolicy_toWire idx hp
    · exact hlo
  · refine ⟨rfl,rfl,rfl,sameTee_coreTee _,hm,?_,hwg,?_,rfl,hl,rfl⟩
    · rw [Decoded,hh,map_some,map_some,hd]
    · show Option.Rel SameFloor n.minTcbSevsnp (n.minTcbSevsnp.map coreFloor)
      cases n.minTcbSevsnp with
      | none => exact .none
      | some floor => exact .some ⟨rfl,rfl,rfl,rfl,rfl⟩

/-- The checks of the registry that a release Coordinator makes before it serves. -/
structure ReleaseReady (registry : NodeRegistry) : Prop where
  tlsSpki : registry.allNodesHaveTlsSpki=true
  transparencyKey : registry.allNodesHaveTransparencyKey=true
  sevFloor : registry.allSevNodesHaveMinTcb=true
  nestedIpv4 : registry.allNodesHaveNestedIpv4Endpoints=true

lemma Decoded.eq_some {hx : Option Bytes} {v : Option (Block 32)} (h : Decoded hx v)
    {digits : Bytes} {key : Block 32} (hh : hx=some digits) (hk : fromHex digits=some key.val) :
    v=some key := by
  rw [Decoded,hh,map_some,hk] at h
  cases v with
  | none => cases h
  | some b => rw [Subtype.ext (Option.some.inj (Option.some.inj h))]

lemma crossCheckHop_delivered {n : RegistryNode} {g : Nwg2.Grant} {endpoint : Endpoint}
    {e : AttestExpectation} (h : Delivers n g endpoint e) (idx : ℕ) {pins : List Bytes} {key : Block 32}
    (hp : ∃ pin∈pins, fromHex n.measurement=some pin)
    (hk : ∃ hx, n.transparencyLogKey=some hx ∧ fromHex hx=some key.val) :
    crossCheckHop pins (some key) idx endpoint=.ok () := by
  obtain ⟨pin,hme,hp⟩ := hp
  obtain ⟨hx,hh,hk⟩ := hk
  have hm : e.measurement=pin := Option.some.inj (h.measurement.symm.trans hp)
  have hin : (pins.isEmpty||pins.contains e.measurement)=true := by
    rw [hm,contains_iff_mem.mpr hme,Bool.or_true]
  have hl : e.transparencyLogKey=some key := h.logKey.eq_some hh hk
  rw [crossCheckHop,h.expected,okOr_some,ok_bind,ensure_of _ _ hin,ok_bind]
  exact ensure_of _ _ (decide_eq_true hl)

section
variable {ipv6 : Bytes → Option Bytes} {read : Bytes → Except Failure Bytes}
  {parseJson : Bytes → Except Failure (List RegistryFileNode)} {file : Bytes}
  {registry : NodeRegistry} {dead : List Bytes} {shuffled : Option (ℕ → UInt8)} {hops : ℕ}
  {path granted : List SelectedHop} {scheme : Scheme} {signer : GrantSigningKey} {realm : Bytes}
  {ttl : Duration} {now : UInt64} {entropy : ℕ → Option (Block Nwg2.nonceLen)}
structure GrantedNode (registry : NodeRegistry) (scheme : Scheme) (signer : GrantSigningKey)
    (ttl : Duration) (now : UInt64) (entropy : ℕ → Option (Block Nwg2.nonceLen)) (hops i : ℕ)
    (path granted : List SelectedHop) (node : RegistryNode) (grant : Nwg2.Grant) : Prop where
  registered : node∈registry.nodes
  selected : path[i]?=some (NodeRegistry.selectedHop hops i node)
  granted : granted[i]?=some (withGrant (NodeRegistry.selectedHop hops i node) grant)
  minted : ∃ audience nonce, entropy i=some nonce ∧ Nwg2.mint scheme signer audience nonce ttl now=.ok grant

lemma attachGrants_node
    (hp : {registry with dead := dead : NodeRegistry}.selectPath shuffled hops=some path)
    (hgr : attachGrants scheme signer realm ttl now entropy path=.ok granted) {i : ℕ}
    {g : SelectedHop} (hg : granted[i]?=some g) :
    ∃ nd grant, g=withGrant (NodeRegistry.selectedHop hops i nd) grant ∧
      GrantedNode registry scheme signer ttl now entropy hops i path granted nd grant := by
  obtain ⟨s,n,hs,-,hgn⟩ := (Coordinator.attachGrants_eq_ok hgr).2 i g hg
  obtain ⟨nd,hnd,hl,-⟩ := (Coordinator.selectPath_nodes hp).2 i s hs
  obtain ⟨au,no,grant,-,hn,hm,hw⟩ := Coordinator.grantHop_eq_ok hgn
  rw [hl] at hs hw
  exact ⟨nd,grant,hw,hnd,hs,hw ▸ hg,au,no,hn,hm⟩

lemma granted_hop_decodes (hf : NodeRegistry.fromFile ipv6 read parseJson file=.ok registry)
    (hr : ReleaseReady registry)
    (hp : {registry with dead := dead : NodeRegistry}.selectPath shuffled hops=some path)
    (hgr : attachGrants scheme signer realm ttl now entropy path=.ok granted) {i : ℕ} {hop : Hop}
    (hi : (granted.map SelectedHop.hop)[i]?=some hop) :
    ∃ node gr ep e, hopToEndpoint i hop=.ok ep ∧
      GrantedNode registry scheme signer ttl now entropy hops i path granted node gr ∧
      Delivers node gr ep e := by
  rw [List.getElem?_map] at hi
  obtain ⟨g,hg,hh⟩ := map_eq_some_iff.mp hi
  obtain ⟨node,gr,hwt,hn⟩ := attachGrants_node hp hgr hg
  have hw:=(NodeRegistry.fromFile_loaded hf).wellFormed node hn.registered
  have ht:=List.all_eq_true.mp hr.tlsSpki node hn.registered
  obtain ⟨dto,ho⟩ := NodeRegistry.fromFile_validated hf node hn.registered
  obtain ⟨ep,e,hep,hd⟩ := hopToEndpoint_delivers i hops hw (validateRegistryNode_policyChecked ho) ht gr
  rw [← hwt,hh] at hep
  exact ⟨node,gr,ep,e,hep,hn,hd⟩

lemma crossCheckTrust_granted {endpoints : List Endpoint} {pins : List Bytes} {key : Block 32}
    (he : ∀ (i : ℕ) (ep : Endpoint), endpoints[i]?=some ep → ∃ no gr e,
      GrantedNode registry scheme signer ttl now entropy hops i path granted no gr ∧
      Delivers no gr ep e)
    (hp : ∀ g∈granted, ∃ pin∈pins, fromHex g.hop.measurement=some pin)
    (hk : ∀ g∈granted, ∃ hex, g.hop.transparencyLogKey=some hex ∧ fromHex hex=some key.val) :
    crossCheckTrust endpoints pins (some key)=.ok () := by
  obtain ⟨checked,hc⟩ : ∃ checked, collectIdx (crossCheckHop pins (some key)) 0 endpoints=.ok checked := by
    apply collectIdx_ok
    intro i ep hi
    obtain ⟨no,gr,e,hn,hd⟩ := he i ep hi
    have hm:=mem_of_getElem? hn.granted
    exact ⟨(),crossCheckHop_delivered hd _ (hp _ hm) (hk _ hm)⟩
  rw [crossCheckTrust,hc,ok_bind]

/-- What a release Coordinator hands out, the client accepts unchanged. -/
theorem path_delivered_unchanged (hfile : NodeRegistry.fromFile ipv6 read parseJson file=.ok registry)
    (hready : ReleaseReady registry)
    (hpath : {registry with dead := dead : NodeRegistry}.selectPath shuffled hops=some path)
    (hmin : 2≤hops) (hmax : hops≤8)
    (hgrants : attachGrants scheme signer realm ttl now entropy path=.ok granted)
    {json : Json} (hjson : json.RoundTrips) {body : Bytes}
    (hbody : json.toVec ⟨granted.map SelectedHop.hop⟩=some body) {pins : List Bytes} {key : Block 32}
    (hpins : ∀ g∈granted, ∃ pin∈pins, fromHex g.hop.measurement=some pin)
    (hkeys : ∀ g∈granted, ∃ hex, g.hop.transparencyLogKey=some hex ∧ fromHex hex=some key.val) :
    ∃ endpoints, pathFromResponseWithTrust json.fromSlice body pins (some key)=.ok endpoints ∧
      endpoints.length=hops ∧ ∀ (i : ℕ) (ep : Endpoint), endpoints[i]?=some ep →
        ∃ node grant e, GrantedNode registry scheme signer ttl now entropy hops i path granted node grant ∧
          Delivers node grant ep e := by
  have hdecodes:=fun (i : ℕ) (hop : Hop) (hi : (granted.map SelectedHop.hop)[i]?=some hop) =>
    granted_hop_decodes hfile hready hpath hgrants hi
  have ho : (granted.map SelectedHop.hop).length=hops := by
    rw [length_map,(Coordinator.attachGrants_eq_ok hgrants).1,(Coordinator.selectPath_nodes hpath).1]
  obtain ⟨endpoints,hn⟩ : ∃ endpoints,
      collectIdx hopToEndpoint 0 (granted.map SelectedHop.hop)=.ok endpoints := by
    apply collectIdx_ok
    intro i hop hi
    obtain ⟨node,grant,ep,e,hp,-⟩ := hdecodes i hop hi
    rw [Nat.zero_add]
    exact ⟨ep,hp⟩
  obtain ⟨hlen,hat⟩ := collectIdx_eq_ok hn
  have hd : ∀ (i : ℕ) (ep : Endpoint), endpoints[i]?=some ep → ∃ node grant e,
      GrantedNode registry scheme signer ttl now entropy hops i path granted node grant ∧
      Delivers node grant ep e := by
    intro i ep hi
    obtain ⟨hop,hhop,hp⟩ := hat i ep hi
    obtain ⟨node,grant,ep',e,hp',hnode,hl⟩ := hdecodes i hop hhop
    rw [Nat.zero_add,hp'] at hp
    rw [ok.inj hp] at hl
    exact ⟨node,grant,e,hnode,hl⟩
  have htrust:=crossCheckTrust_granted hd hpins hkeys
  refine ⟨endpoints,?_,hlen.trans ho,hd⟩
  rw [pathFromResponseWithTrust,hjson _ _ hbody,okOr_some,ok_bind]
  simp only [ho]
  rw [ensure_of _ _ (decide_eq_true (show minHops≤hops by rw [minHops]; omega)),ok_bind,
    ensure_of _ _ (decide_eq_true (show hops ≤ maxHops by rw [maxHops]; omega)),ok_bind,
    ensure_of _ _ (decide_eq_true (show hops≠1 by omega)),ok_bind,hn,ok_bind,htrust,ok_bind]
end

def sampleLogKey : Block 32 := Block.fill 32 3

def sampleWirePolicy : Proto.TdxPolicy :=
  let zeros:=toHex (List.replicate 48 0)
  ⟨toHex (List.replicate 8 0),toHex (List.replicate 8 0),zeros,zeros,zeros,
    toHex (List.replicate 48 1),toHex (List.replicate 48 2),toHex (List.replicate 48 3),
    toHex (List.replicate 48 4),some (toHex (List.replicate 48 5))⟩

def sampleFile : List RegistryFileNode := [
  { id := ascii "entry",
    host := ascii "192.0.2.1",port := 443,
    tee := ascii "sev-snp",measurement := toHex (List.replicate 48 6),
    tlsSpkiSha256 := some (toHex (List.replicate 32 7)),operator := ascii "a",
    jurisdiction := ascii "US",wgPub := some (toHex (List.replicate 32 8)),
    role := ascii "entry",minTcbSevsnp := some ⟨none,3,0,22,20⟩,
    tdxPolicy := none,transparencyLogKey := some (toHex sampleLogKey.val) },
  { id := ascii "exit",host := ascii "192.0.2.2",
    port := 443,tee := ascii "tdx",measurement := toHex (List.replicate 48 9),
    tlsSpkiSha256 := some (toHex (List.replicate 32 10)),operator := ascii "b",
    jurisdiction := ascii "CH",wgPub := none,role := ascii "exit",
    minTcbSevsnp := none,tdxPolicy := some sampleWirePolicy,
    transparencyLogKey := some (toHex sampleLogKey.val) }]

def loadSampleFile : Except Failure NodeRegistry :=
  NodeRegistry.fromFile (fun _ => none) (fun _ => .ok []) (fun _ => .ok sampleFile) []

def sampleRegistry : NodeRegistry := loadSampleFile.toOption.getD ⟨[],[]⟩
def samplePath : List SelectedHop := (sampleRegistry.selectPath none 2).getD []

def grantSamplePath : Except Failure (List SelectedHop) :=
  attachGrants Nwg2.plainScheme Coordinator.devSigner Coordinator.devRealm Coordinator.devTtl 1800000000
    Coordinator.devNonces samplePath

def sampleGranted : List SelectedHop := grantSamplePath.toOption.getD []

def sampleJson : Json where
  toVec resp := if resp=⟨sampleGranted.map SelectedHop.hop⟩ then some [1] else none
  fromSlice body := if body=[1] then some ⟨sampleGranted.map SelectedHop.hop⟩ else none

def samplePins : List Bytes := [List.replicate 48 9,List.replicate 48 6]

theorem sample_path_delivered : ∃ endpoints,
    pathFromResponseWithTrust sampleJson.fromSlice [1] samplePins (some sampleLogKey)=.ok endpoints ∧
    endpoints.length=2 ∧ ∀ (i : ℕ) (ep : Endpoint), endpoints[i]?=some ep →
      ∃ node∈sampleRegistry.nodes, ∃ grant e, Delivers node grant ep e := by
  have hf : NodeRegistry.fromFile (fun _ => none) (fun _ => .ok []) (fun _ => .ok sampleFile) [] =
      .ok sampleRegistry := by decide +kernel
  have ha : ReleaseReady sampleRegistry :=
    ⟨by decide +kernel,by decide +kernel,by decide +kernel,by decide +kernel⟩
  have hp : {sampleRegistry with dead := [] : NodeRegistry}.selectPath none 2=some samplePath := by
    decide +kernel
  have hr : attachGrants Nwg2.plainScheme Coordinator.devSigner Coordinator.devRealm
      Coordinator.devTtl 1800000000 Coordinator.devNonces samplePath=.ok sampleGranted := by
    decide +kernel
  have hj : sampleJson.RoundTrips := by
    intro resp body h
    simp only [sampleJson] at h ⊢
    split at h
    next hre =>
      rw [← Option.some.inj h,hre]
      rfl
    · cases h
  have hs : ∀ g∈sampleGranted, ∃ pin∈samplePins, fromHex g.hop.measurement=some pin := by decide +kernel
  have hk : ∀ g∈sampleGranted, ∃ hex, g.hop.transparencyLogKey=some hex ∧
      fromHex hex=some sampleLogKey.val := by
    have hl : ∀ g∈sampleGranted, g.hop.transparencyLogKey=some (toHex sampleLogKey.val) := by
      decide +kernel
    intro g hg
    exact ⟨_,hl g hg,fromHex_toHex _⟩
  have hb : sampleJson.toVec ⟨sampleGranted.map SelectedHop.hop⟩=some [1] := by simp [sampleJson]
  obtain ⟨endpoints,hok,hle,hat⟩ := path_delivered_unchanged hf ha hp (Nat.le_refl 2)
    (by omega) hr hj hb hs hk
  refine ⟨endpoints,hok,hle,?_⟩
  intro i ep hi
  obtain ⟨node,grant,e,hn,hd⟩ := hat i ep hi
  exact ⟨node,hn.registered,grant,e,hd⟩
end NilVpn.Datapath
