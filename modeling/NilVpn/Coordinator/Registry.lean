import NilVpn.Nwg2.Token
import NilVpn.Proto.Path

/-!
# Node registry (nil-coordinator/src/pathsel.rs:14-572)

Reading the file, its JSON syntax and the IPv6 half of `IpAddr` are parameters: `ipv6` gives the canonical
text of an IPv6 literal.
-/

namespace NilVpn.Coordinator
open Except Base List
open Nwg2 (isIdentifier validateIdentifier isLowerAlpha)
open Proto (Tee SevSnpTcbFloor Hop)

structure Frame where
  text : String
  values : List Bytes
  deriving DecidableEq,Repr

abbrev Failure := List Frame
def failure (text : String) (values : List Bytes) : Failure := [⟨text,values⟩]

def mapErr {ε α : Type} (f : ε → Failure) : Except ε α → Except Failure α
  | .ok a => .ok a
  | .error e => .error (f e)

def isUpperAlpha (b : UInt8) : Bool := 65≤b&&b≤90
def isSlugEdge (b : UInt8) : Bool := isLowerAlpha b||isDigit b
def isSlugInner (b : UInt8) : Bool := isSlugEdge b||b=45||b=95||b=46
def isLabelByte (b : UInt8) : Bool := isLowerAlpha b||isDigit b||b=45

def validateSlug (field : String) (value : Bytes) (maxLen : ℕ) : Except Failure Unit := do
  ensure (value≠[]&&value.length ≤ maxLen)
    (failure (field ++ " must be a nonempty canonical slug of at most " ++ toString maxLen ++ " bytes") [])
  ensure (value.head?.any isSlugEdge)
    (failure (field ++ " must start with a lowercase ASCII letter or digit") [])
  ensure (value.getLast?.any isSlugEdge)
    (failure (field ++ " must end with a lowercase ASCII letter or digit") [])
  ensure (value.all isSlugInner) (failure (field ++
      " must contain only lowercase ASCII letters, digits, '.', '_', or '-'") [])

def validateJurisdiction (value : Bytes) : Except Failure Unit :=
  ensure (value.length=2&&value.all isUpperAlpha)
    (failure "jurisdiction must be exactly two uppercase ASCII letters" [])

def ipText (ipv6 : Bytes → Option Bytes) (value : Bytes) : Option Bytes :=
  match Ipv4.parse value with
  | some ip => some ip.display
  | none => ipv6 value

def validateLabel (label : Bytes) : Except Failure Unit := do
  ensure (label≠[]&&label.length≤63) (failure "host DNS labels must contain 1..=63 bytes" [])
  ensure (label.head?≠some 45&&label.getLast?≠some 45)
    (failure "host DNS labels must not start or end with '-'" [])
  ensure (label.all isLabelByte)
    (failure "host must be a canonical lowercase ASCII DNS name or canonical IP address" [])

def validateLabels : List Bytes → Except Failure Unit
  | [] => .ok ()
  | label::rest => do
    validateLabel label
    validateLabels rest

def validateHost (ipv6 : Bytes → Option Bytes) (value : Bytes) : Except Failure Unit := do
  ensure (value≠[]&&value.length≤253) (failure "host must be nonempty and at most 253 bytes" [])
  match ipText ipv6 value with
  | some text => ensure (value=text) (failure "host IP address is not in canonical text form" [])
  | none => do
    ensure (!(value.all (fun b => isDigit b||b=dot)||value.contains 58))
      (failure "host is not a canonical IP address" [])
    ensure (value.head?≠some dot&&value.getLast?≠some dot)
      (failure "host DNS name must not start or end with '.'" [])
    validateLabels (value.splitOn dot)

def isCanonicalHex (bytes : ℕ) (value : Bytes) : Bool := value.length=bytes*2&&value.all isLowerHex

def validateLowerHex (field : String) (value : Bytes) (bytes : ℕ) : Except Failure Unit := do
  ensure (value.length=bytes*2) (failure (field ++ " must be exactly " ++ toString bytes ++ " bytes (" ++
      toString (bytes*2) ++ ") lowercase hex characters") [])
  ensure (value.all isLowerHex) (failure (field ++ " must contain lowercase hexadecimal characters only") [])

def validateOptional (check : Bytes → Except Failure Unit) : Option Bytes → Except Failure Unit
  | some value => check value
  | none => .ok ()

lemma isCanonicalHex_of_validate {f : String} {v : Bytes} {size : ℕ} {u : Unit}
    (h : validateLowerHex f v size=.ok u) : isCanonicalHex size v := by
  obtain ⟨_,hl,h⟩ := except_bind_ok h
  rw [isCanonicalHex,ensure_eq_ok hl,ensure_eq_ok h]
  rfl

lemma fromHex_canonical {size : ℕ} {v : Bytes} (h : isCanonicalHex size v) :
    ∃ block : Block size, fromHex v=some block.val := by
  simp only [isCanonicalHex,Bool.and_eq_true,decide_eq_true_eq] at h
  have hl:=all_eq_true.mp h.2
  obtain ⟨de,hd⟩ := fromHex_of_lowerHex v hl (by omega)
  have hlen:=fromHex_length v de hd
  exact ⟨⟨de,by omega⟩,hd⟩

structure TdxPolicy where
  (tdAttributes xfam : Block 8)
  (mrConfigId mrOwner mrOwnerConfig rtMr0 rtMr1 rtMr2 rtMr3 : Block 48)
  mrServiceTd : Option (Block 48)
  deriving DecidableEq

def decodeFixedHex (n : ℕ) (field : String) (value : Bytes) : Except Failure (Block n) := do
  validateLowerHex field value n
  okOr ((fromHex value).bind (Block.ofBytes n)) (failure (field ++ " is not valid canonical hex") [])

def ensureNonzero (name : String) (value : Block 48) : Except Failure Unit :=
  ensure (!value.val.all (·=0)) (failure ("tdx_policy." ++ name ++
      " must be nonzero so the production workload identity cannot be omitted") [])

def validateServiceTd : Option Bytes → Except Failure (Option (Block 48))
  | some value => do
    let measurement ← decodeFixedHex 48 "tdx_policy.mr_service_td" value
    .ok (some measurement)
  | none => .ok none

def validateTdxPolicy (dto : Proto.TdxPolicy) : Except Failure TdxPolicy := do
  let tdAttributes ← decodeFixedHex 8 "tdx_policy.td_attributes" dto.tdAttributes
  ensure (tdAttributes.val.head?.any (· &&& 1=0))
    (failure "tdx_policy.td_attributes must not enable TDX debug mode" [])
  let rtMr0 ← decodeFixedHex 48 "tdx_policy.rt_mr0" dto.rtMr0
  let rtMr1 ← decodeFixedHex 48 "tdx_policy.rt_mr1" dto.rtMr1
  let rtMr2 ← decodeFixedHex 48 "tdx_policy.rt_mr2" dto.rtMr2
  let rtMr3 ← decodeFixedHex 48 "tdx_policy.rt_mr3" dto.rtMr3
  ensureNonzero "rt_mr0" rtMr0
  ensureNonzero "rt_mr1" rtMr1
  ensureNonzero "rt_mr2" rtMr2
  ensureNonzero "rt_mr3" rtMr3
  let xfam ← decodeFixedHex 8 "tdx_policy.xfam" dto.xfam
  let mrConfigId ← decodeFixedHex 48 "tdx_policy.mr_config_id" dto.mrConfigId
  let mrOwner ← decodeFixedHex 48 "tdx_policy.mr_owner" dto.mrOwner
  let mrOwnerConfig ← decodeFixedHex 48 "tdx_policy.mr_owner_config" dto.mrOwnerConfig
  let mrServiceTd ← validateServiceTd dto.mrServiceTd
  .ok ⟨tdAttributes,xfam,mrConfigId,mrOwner,mrOwnerConfig,rtMr0,rtMr1,rtMr2,rtMr3,mrServiceTd⟩

def tdxPolicyToWire (policy : TdxPolicy) : Proto.TdxPolicy where
  tdAttributes := toHex policy.tdAttributes.val
  xfam := toHex policy.xfam.val
  mrConfigId := toHex policy.mrConfigId.val
  mrOwner := toHex policy.mrOwner.val
  mrOwnerConfig := toHex policy.mrOwnerConfig.val
  rtMr0 := toHex policy.rtMr0.val
  rtMr1 := toHex policy.rtMr1.val
  rtMr2 := toHex policy.rtMr2.val
  rtMr3 := toHex policy.rtMr3.val
  mrServiceTd := policy.mrServiceTd.map fun m => toHex m.val

inductive Role
  | entry
  | middle
  | exit
  deriving DecidableEq,Repr

def Role.parse (s : Bytes) : Option Role :=
  if s=ascii "entry" then some .entry
  else if s=ascii "middle" then some .middle
  else if s=ascii "exit" then some .exit
  else none

def Role.forPosition (i hops : ℕ) : Role :=
  if i+1=hops then .exit else if i=0 then .entry else .middle

structure RegistryFileNode where
  (id host : Bytes)
  port : UInt16
  (tee measurement : Bytes)
  tlsSpkiSha256 : Option Bytes
  (operator jurisdiction : Bytes)
  wgPub : Option Bytes
  role : Bytes
  minTcbSevsnp : Option SevSnpTcbFloor
  tdxPolicy : Option Proto.TdxPolicy
  transparencyLogKey : Option Bytes

structure RegistryNode where
  (id host : Bytes)
  port : UInt16
  tee : Tee
  measurement : Bytes
  tlsSpkiSha256 : Option Bytes
  (operator jurisdiction : Bytes)
  wgPub : Option Bytes
  role : Role
  minTcbSevsnp : Option SevSnpTcbFloor
  tdxPolicy : Option TdxPolicy
  transparencyLogKey : Option Bytes
  deriving DecidableEq

def RegistryNode.fills (node : RegistryNode) (pos : Role) : Bool := node.role=pos

def RegistryNode.toHop (node : RegistryNode) : Hop where
  host := node.host
  port := node.port
  tee := node.tee
  measurement := node.measurement
  tlsSpkiSha256 := node.tlsSpkiSha256
  wgPub := node.wgPub
  minTcbSevsnp := node.minTcbSevsnp
  tdxPolicy := node.tdxPolicy.map tdxPolicyToWire
  transparencyLogKey := node.transparencyLogKey
  grant := none
  grantNonce := none

def parseTee (s : Bytes) : Except Failure Tee :=
  if s=ascii "sev-snp" then .ok .sevSnp
  else if s=ascii "tdx" then .ok .tdx
  else .error (failure "tee must be exactly \"sev-snp\" or \"tdx\", got {other}" [s])

def validatePolicy : Tee → Option Proto.TdxPolicy → Except Failure (Option TdxPolicy)
  | .tdx,some policy => do
    let policy ← validateTdxPolicy policy
    .ok (some policy)
  | .tdx,none => .error (failure "tdx_policy is required for a tdx node" [])
  | .sevSnp,some _ => .error (failure "tdx_policy is invalid for a sev-snp node" [])
  | .sevSnp,none => .ok none

def validateRegistryNode (ipv6 : Bytes → Option Bytes) (dto : RegistryFileNode) :
    Except Failure RegistryNode := do
  mapErr (fun e => failure ("id: " ++ e.text) []) (validateIdentifier dto.id)
  validateSlug "operator" dto.operator 128
  validateJurisdiction dto.jurisdiction
  validateHost ipv6 dto.host
  ensure (dto.port≠0) (failure "port must be nonzero" [])
  let tee ← parseTee dto.tee
  let role ← okOr (Role.parse dto.role)
    (failure "role must be exactly \"entry\", \"middle\", or \"exit\", got {role}" [dto.role])
  validateLowerHex "measurement" dto.measurement 48
  validateOptional (validateLowerHex "tls_spki_sha256" · 32) dto.tlsSpkiSha256
  validateOptional (validateLowerHex "wg_pub" · 32) dto.wgPub
  validateOptional (validateLowerHex "transparency_log_key" · 32) dto.transparencyLogKey
  ensure (!(tee=.tdx&&dto.minTcbSevsnp.isSome)) (failure "min_tcb_sevsnp is invalid for a tdx node" [])
  let tdxPolicy ← validatePolicy tee dto.tdxPolicy
  .ok ⟨dto.id,dto.host,dto.port,tee,dto.measurement,dto.tlsSpkiSha256,dto.operator,
    dto.jurisdiction,dto.wgPub,role,dto.minTcbSevsnp,tdxPolicy,dto.transparencyLogKey⟩

structure RegistryNode.WellFormed (ipv6 : Bytes → Option Bytes) (node : RegistryNode) : Prop where
  id : isIdentifier node.id=true
  host : validateHost ipv6 node.host=.ok ()
  port : node.port≠0
  measurement : isCanonicalHex 48 node.measurement=true
  tlsSpki : ∀ digest, node.tlsSpkiSha256=some digest → isCanonicalHex 32 digest=true
  wgPub : ∀ key, node.wgPub=some key → isCanonicalHex 32 key=true
  logKey : ∀ key, node.transparencyLogKey=some key → isCanonicalHex 32 key=true
  policy : node.tdxPolicy.isSome ↔ node.tee=.tdx

lemma mapErr_eq_ok {ε α : Type} {f : ε → Failure} {x : Except ε α} {a : α}
    (h : mapErr f x=.ok a) : x=.ok a := by
  cases x with
  | error e => cases h
  | ok b => rw [ok.inj h]

lemma validateOptional_some {c : Bytes → Except Failure Unit} {o : Option Bytes} {u : Unit}
    (h : validateOptional c o=.ok u) {v : Bytes} (ho : o=some v) :
    c v=.ok () := by
  rw [ho] at h
  exact h

lemma validatePolicy_isSome {tee : Tee} {dto : Option Proto.TdxPolicy} {p : Option TdxPolicy}
    (h : validatePolicy tee dto=.ok p) : p.isSome ↔ tee=.tdx := by
  cases tee <;> cases dto
  case sevSnp.none => rw [← ok.inj h]; simp
  case sevSnp.some => cases h
  case tdx.none => cases h
  case tdx.some =>
    obtain ⟨v,-,h⟩ := except_bind_ok h
    rw [← ok.inj h]
    simp

lemma validateRegistryNode_wellFormed {ipv6 : Bytes → Option Bytes} {dto : RegistryFileNode}
    {n : RegistryNode} (h : validateRegistryNode ipv6 dto=.ok n) : n.WellFormed ipv6 := by
  unfold validateRegistryNode at h
  obtain ⟨_,hid,_,-,_,-,_,hh,h⟩ := except_bind_ok₄ h
  obtain ⟨_,hpr,tee,-,role,-,_,hm,h⟩ := except_bind_ok₄ h
  obtain ⟨_,ht,_,hwg,_,hl,_,-,h⟩ := except_bind_ok₄ h
  obtain ⟨po,hp,h⟩ := except_bind_ok h
  rw [← ok.inj h]
  exact {
    id := Nwg2.isIdentifier_of_validate (mapErr_eq_ok hid)
    host := hh
    port := of_decide_eq_true (ensure_eq_ok hpr)
    measurement := isCanonicalHex_of_validate hm
    tlsSpki := fun _ hd => isCanonicalHex_of_validate (validateOptional_some ht hd)
    wgPub := fun _ hk => isCanonicalHex_of_validate (validateOptional_some hwg hk)
    logKey := fun _ hk => isCanonicalHex_of_validate (validateOptional_some hl hk)
    policy := validatePolicy_isSome hp }

structure NodeRegistry where
  nodes : List RegistryNode
  /-- Hosts marked down by a health check. -/
  dead : List Bytes
  deriving DecidableEq

namespace NodeRegistry
def allNodesHaveTlsSpki (registry : NodeRegistry) : Bool :=
  registry.nodes.all fun node => node.tlsSpkiSha256.isSome

def allNodesHaveTransparencyKey (registry : NodeRegistry) : Bool :=
  registry.nodes.all fun node => node.transparencyLogKey.isSome

def allSevNodesHaveMinTcb (registry : NodeRegistry) : Bool :=
  registry.nodes.all fun node => node.tee≠.sevSnp||node.minTcbSevsnp.isSome

def isUsable (ip : Ipv4) : Bool := !ip.isUnspecified&&!ip.isLoopback&&!ip.isMulticast&&ip≠Ipv4.broadcast

def allNodesHaveNestedIpv4Endpoints (registry : NodeRegistry) : Bool :=
  registry.nodes.all fun node => node.port=443&&(Ipv4.parse node.host).any isUsable

def entryContext (path : Bytes) (index : ℕ) (e : Failure) : Failure :=
  ⟨"node registry {path} entry {index}",[path,decimal index]⟩::e

def loadNodes (ipv6 : Bytes → Option Bytes) (path : Bytes) : ℕ → List RegistryFileNode →
    List Bytes → List (Bytes × UInt16) → List RegistryNode → Except Failure (List RegistryNode)
  | _,[],_,_,nodes => .ok nodes
  | index,dto::dtos,ids,endpoints,nodes => do
    let node ← mapErr (entryContext path index) (validateRegistryNode ipv6 dto)
    ensure (node.id∉ids) (entryContext path index (failure "duplicate node id {id}" [node.id]))
    ensure ((node.host,node.port)∉endpoints)
      (entryContext path index (failure "duplicate endpoint {host}:{port}" [node.host,decimal node.port.toNat]))
    loadNodes ipv6 path (index+1) dtos (ids++[node.id]) (endpoints++[(node.host,node.port)]) (nodes++[node])

/-- `from_file`; `read` and `parseJson` are the file system and serde. -/
def fromFile (ipv6 : Bytes → Option Bytes) (read : Bytes → Except Failure Bytes)
    (parseJson : Bytes → Except Failure (List RegistryFileNode)) (path : Bytes) :
    Except Failure NodeRegistry := do
  let bytes ← mapErr (fun e => ⟨"read node registry {path}",[path]⟩::e) (read path)
  let dtos ← mapErr (fun e => ⟨"parse node registry {path}",[path]⟩::e) (parseJson bytes)
  ensure (!dtos.isEmpty) (failure "node registry {path} lists no nodes" [path])
  let nodes ← loadNodes ipv6 path 0 dtos [] [] []
  .ok ⟨nodes,[]⟩

def devNode (id host operator jurisdiction : String) (role : Role) : RegistryNode where
  id := ascii id
  host := ascii host
  port := 443
  tee := .sevSnp
  measurement := toHex ((List.range 48).map UInt8.ofNat)
  tlsSpkiSha256 := some (List.replicate 64 48)
  operator := ascii operator
  jurisdiction := ascii jurisdiction
  wgPub := none
  role := role
  minTcbSevsnp := none
  tdxPolicy := none
  transparencyLogKey := none

def devDefault : NodeRegistry where
  nodes := [ devNode "entry-us" "192.0.2.10"
      "op-anvil" "US" .entry,
    devNode "middle-de" "198.51.100.20"
      "op-borealis" "DE" .middle,
    devNode "exit-ch" "203.0.113.30"
      "op-cirrus" "CH" .exit,
    devNode "exit-se" "203.0.113.31"
      "op-dune" "SE" .exit]
  dead := []

def liveNodes (registry : NodeRegistry) : List RegistryNode :=
  registry.nodes.filter fun node => node.host∉registry.dead

structure Loaded (ipv6 : Bytes → Option Bytes) (nodes : List RegistryNode) : Prop where
  wellFormed : ∀ node∈nodes, node.WellFormed ipv6
  ids : (nodes.map RegistryNode.id).Nodup
  endpoints : (nodes.map fun node => (node.host,node.port)).Nodup

lemma nodup_concat {α : Type} {xs : List α} {x : α} (hxs : xs.Nodup) (hx : x∉xs) : (xs++[x]).Nodup := by
  rw [← concat_eq_append]
  exact List.Nodup.concat hx hxs

section
variable {ipv6 : Bytes → Option Bytes} {path : Bytes} {ix : ℕ} {dto : RegistryFileNode}
  {dtos : List RegistryFileNode} {ids : List Bytes} {entries : List (Bytes × UInt16)}
  {nodes loaded : List RegistryNode}
lemma loadNodes_cons (h : loadNodes ipv6 path ix (dto::dtos) ids entries nodes=.ok loaded) :
    ∃ nd, validateRegistryNode ipv6 dto=.ok nd ∧ nd.id∉ids ∧ (nd.host,nd.port)∉entries ∧
      loadNodes ipv6 path (ix+1) dtos (ids++[nd.id]) (entries++[(nd.host,nd.port)])
        (nodes++[nd])=.ok loaded := by
  rw [loadNodes] at h
  obtain ⟨nd,hn,_,hid,h⟩ := except_bind_ok₂ h
  obtain ⟨_,he,h⟩ := except_bind_ok h
  exact ⟨nd,mapErr_eq_ok hn,of_decide_eq_true (ensure_eq_ok hid),of_decide_eq_true (ensure_eq_ok he),h⟩

lemma loadNodes_loaded (hn : Loaded ipv6 nodes) (h : loadNodes ipv6 path ix dtos (nodes.map RegistryNode.id)
      (nodes.map fun nd => (nd.host,nd.port)) nodes=.ok loaded) :
    Loaded ipv6 loaded := by
  induction dtos generalizing ix nodes with
  | nil =>
    rw [← ok.inj h]
    exact hn
  | cons dto dtos ih =>
    obtain ⟨nd,hnd,hid,he,h⟩ := loadNodes_cons h
    have hnx : Loaded ipv6 (nodes++[nd]) := by
      refine ⟨?_,?_,?_⟩
      · grind [hn.wellFormed,validateRegistryNode_wellFormed]
      · rw [map_append]
        exact nodup_concat hn.ids hid
      · rw [map_append]
        exact nodup_concat hn.endpoints he
    apply ih hnx
    rw [map_append,map_append]
    exact h

lemma loadNodes_validated (hn : ∀ node∈nodes, ∃ dto, validateRegistryNode ipv6 dto=.ok node)
    (h : loadNodes ipv6 path ix dtos ids entries nodes=.ok loaded) :
    ∀ node∈loaded, ∃ dto, validateRegistryNode ipv6 dto=.ok node := by
  induction dtos generalizing ix ids entries nodes with
  | nil =>
    rw [← ok.inj h]
    exact hn
  | cons dto dtos ih =>
    obtain ⟨node,hnd,-,-,h⟩ := loadNodes_cons h
    apply ih _ h
    intro n hm
    rcases mem_append.mp hm with hm | hm
    · exact hn n hm
    · rw [mem_singleton.mp hm]
      exact ⟨dto,hnd⟩

variable {read : Bytes → Except Failure Bytes}
  {parseJson : Bytes → Except Failure (List RegistryFileNode)} {r : NodeRegistry}
section
variable (h : fromFile ipv6 read parseJson path=.ok r)
include h
lemma fromFile_eq_ok : ∃ dtos, loadNodes ipv6 path 0 dtos [] [] []=.ok r.nodes := by
  unfold fromFile at h
  obtain ⟨bt,-,dtos,-,_,-,nodes,hn,h⟩ := except_bind_ok₄ h
  rw [← ok.inj h]
  exact ⟨dtos,hn⟩

lemma fromFile_loaded : Loaded ipv6 r.nodes := by
  obtain ⟨dtos,hn⟩ := fromFile_eq_ok h
  have hnn : Loaded ipv6 [] := by
    refine ⟨?_,nodup_nil,nodup_nil⟩
    intro node hnd
    cases hnd
  exact loadNodes_loaded hnn hn

lemma fromFile_validated : ∀ node∈r.nodes, ∃ dto, validateRegistryNode ipv6 dto=.ok node := by
  grind [fromFile_eq_ok,loadNodes_validated]
end
end
end NodeRegistry
end NilVpn.Coordinator
