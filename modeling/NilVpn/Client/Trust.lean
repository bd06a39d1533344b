import NilVpn.Datapath.Redeem

/-!
# Embedded trust roots (client/src-tauri/src/trust.rs, client/src-tauri/trust_bundle.rs)

Parsing the bundle's JSON and the check of an issuer key are parameters; a process environment is the values
of the four variables that are read.
-/

namespace NilVpn.Client
open Base List
open Datapath (pathFromResponseWithTrust Admissible)
open Proto (PathResponse)

def comma : UInt8 := 44
def trustBundleVersion : UInt8 := 1

structure TrustBundleV1 where
  version : UInt8
  (issuerPublicKeysDer nodeMeasurements : List Bytes)
  transparencyLogEd25519Key : Bytes

structure ValidatedTrustBundle where
  (issuerPublicKeysDer nodeMeasurements : List Bytes)
  transparencyLogEd25519Key : Block 32

def decodeLowerHex (value : Bytes) (field : String) : Except String Bytes := do
  ensure (!(value.isEmpty||value.length % 2≠0)) (field ++ " must be non-empty, even-length lowercase hex")
  ensure (value.all isLowerHex) (field ++ " must contain lowercase hex only")
  okOr (fromHex value) (field ++ " must contain lowercase hex only")

/-- One complete TLV with the SEQUENCE tag and a minimal length. -/
def isCompleteDerSequence : Bytes → Bool
  | tag::first::rest =>
    let body:=first.toNat
    if tag≠0x30 then false
    else if body<128 then 2+body=rest.length+2
    else
      let count:=body - 128
      if count=0 ∨ 8<count ∨ rest.length<count then false
      else if rest.head?=some 0 then false
      else
        let len:=ofBe (rest.take count)
        if len<128 then false else 2+count+len=rest.length+2
  | _ => false

def loadDistinct (name : String) (check : String → Bytes → Except String Unit) :
    ℕ → List Bytes → List Bytes → Except String (List Bytes)
  | _,[],loaded => .ok loaded
  | index,value::values,loaded => do
    let field:=s!"{name}[{index}]"
    let item ← decodeLowerHex value field
    check field item
    ensure (!loaded.contains item) (field ++ " is a duplicate")
    loadDistinct name check (index+1) values (loaded++[item])

def checkIssuer (field : String) (der : Bytes) : Except String Unit :=
  ensure (!der.isEmpty&&isCompleteDerSequence der) (field ++ " must be one complete DER SEQUENCE")

def checkMeasurement (field : String) (measurement : Bytes) : Except String Unit :=
  ensure (measurement.length=48) (field ++ " must be 48 bytes (96 lowercase hex characters)")

def validateTrustBundle (bundle : TrustBundleV1) : Except String ValidatedTrustBundle := do
  ensure (bundle.version=trustBundleVersion) ("unsupported trust-bundle version " ++
    toString bundle.version.toNat ++ " (expected 1)")
  ensure (!bundle.issuerPublicKeysDer.isEmpty) "issuer_public_keys_der must contain at least one key"
  ensure (!bundle.nodeMeasurements.isEmpty) "node_measurements must contain at least one measurement"
  let issuers ← loadDistinct "issuer_public_keys_der" checkIssuer 0 bundle.issuerPublicKeysDer []
  let measurements ← loadDistinct "node_measurements" checkMeasurement 0 bundle.nodeMeasurements []
  let transparency ← decodeLowerHex bundle.transparencyLogEd25519Key "transparency_log_ed25519_key"
  let key ← okOr (Block.ofBytes 32 transparency)
    "transparency_log_ed25519_key must be 32 bytes (64 lowercase hex characters)"
  .ok ⟨issuers,measurements,key⟩

lemma loadDistinct_eq_ok {name : String} {c : String → Bytes → Except String Unit}
    {P : Bytes → Prop} (hc : ∀ field item u, c field item=.ok u → P item) {ix : ℕ}
    {v lo items : List Bytes} (hl : ∀ item∈lo, P item)
    (h : loadDistinct name c ix v lo=.ok items) :
    items.length=lo.length+v.length ∧ ∀ item∈items, P item := by
  induction v generalizing ix lo with
  | nil =>
    rw [← Except.ok.inj h]
    exact ⟨rfl,hl⟩
  | cons va v ih =>
    obtain ⟨item,-,u,hit,h⟩ := except_bind_ok₂ h
    obtain ⟨_,-,h⟩ := except_bind_ok h
    have hn : ∀ x∈lo++[item], P x := by grind
    obtain ⟨hle,ha⟩ := ih hn h
    refine ⟨?_,ha⟩
    simp only [length_append,length_cons,length_nil] at hle ⊢
    omega

structure TrustRoots where
  (issuerPublicKeysDer nodeMeasurements : List Bytes)
  transparencyLogEd25519Key : Block 32
  issuers_ne : issuerPublicKeysDer≠[]
  measurements_ne : nodeMeasurements≠[]
  measurements_length : ∀ m∈nodeMeasurements, m.length=48

lemma validateTrustBundle_eq_ok {b : TrustBundleV1} {v : ValidatedTrustBundle}
    (h : validateTrustBundle b=.ok v) : v.issuerPublicKeysDer≠[] ∧ v.nodeMeasurements≠[] ∧
      ∀ m∈v.nodeMeasurements, m.length=48 := by
  obtain ⟨_,-,_,his,_,hme,ir,hi,h⟩ := except_bind_ok₄ h
  obtain ⟨me,hm,_,-,h⟩ := except_bind_ok₂ h
  obtain ⟨key,-,h⟩ := except_bind_ok h
  have his:=isEmpty_eq_false_iff.mp (Bool.not_eq_true' _ ▸ ensure_eq_ok his)
  have hme:=isEmpty_eq_false_iff.mp (Bool.not_eq_true' _ ▸ ensure_eq_ok hme)
  have hn : ∀ P : Bytes → Prop, ∀ item∈([] : List Bytes), P item := by simp
  obtain ⟨hil,-⟩ := loadDistinct_eq_ok (P := fun _ => True) (fun _ _ _ _ => trivial) (hn _) hi
  obtain ⟨hmn,hml⟩ := loadDistinct_eq_ok (P := fun m => m.length=48)
    (fun _ _ _ hc => of_decide_eq_true (ensure_eq_ok hc)) (hn _) hm
  rw [← Except.ok.inj h]
  rw [← length_pos_iff] at his hme
  refine ⟨?_,?_,hml⟩
  · rw [← length_pos_iff,hil]
    omega
  · rw [← length_pos_iff,hmn]
    omega

def parseRoots (json : Bytes → Except String TrustBundleV1) (usable : List Bytes → Except String Unit)
    (raw : Bytes) : Except String TrustRoots := do
  let bundle ← (json raw).mapError fun e => "invalid trust-bundle JSON: " ++ e
  match h : validateTrustBundle bundle with
  | .error e => .error e
  | .ok v => do
    (usable v.issuerPublicKeysDer).mapError fun e => "unusable token issuer DER key: " ++ e
    have hv:=validateTrustBundle_eq_ok h
    .ok ⟨v.issuerPublicKeysDer,v.nodeMeasurements,v.transparencyLogEd25519Key,hv.1,hv.2.1,hv.2.2⟩

structure Env where
  (expectedMeasurement pinnedMeasurements transparencyLogKey tokenIssuerPubkeys : Option Bytes)

structure IssuerPins where
  keys : List Bytes
  required : Bool
  deriving DecidableEq

def decodeHex (value : Bytes) : Option Bytes :=
  if value.isEmpty||value.length % 2≠0||!value.all (fun b => (nib b).isSome) then none
  else fromHex value

def listItems (value : Bytes) : List Bytes := ((value.splitOn comma).map trim).filter (·≠[])

def pushNew (values : List Bytes) (item : Bytes) : List Bytes :=
  if values.contains item then values else values++[item]

def parseHexListPermissive (value : Bytes) : List Bytes :=
  (listItems value).foldl (fun keys item =>
    match decodeHex item with
    | some key => pushNew keys key
    | none => keys) []

def intersection (embedded configured : List Bytes) : List Bytes :=
  embedded.filter fun root => configured.contains root

def pushMeasurement (values : List Bytes) (value : Bytes) (field : String) (strict : Bool) :
    Except String (List Bytes) :=
  match decodeHex value with
  | none => if strict then .error (field ++ " is not valid hex") else .ok values
  | some bytes =>
    if strict&&bytes.length≠48 then .error (field ++ " must be 48 bytes")
    else .ok (pushNew values bytes)

def pushMeasurements (strict : Bool) : ℕ → List Bytes → List Bytes → Except String (List Bytes)
  | _,[],values => .ok values
  | index,value::rest,values => do
    let values ← pushMeasurement values value s!"NW_PINNED_MEASUREMENTS[{index}]" strict
    pushMeasurements strict (index+1) rest values

def configuredMeasurements (env : Env) (strict : Bool) : Except String (List Bytes) := do
  let expected:=trim (env.expectedMeasurement.getD [])
  let values ← if expected.isEmpty then .ok []
    else pushMeasurement [] expected "NW_EXPECTED_MEASUREMENT" strict
  pushMeasurements strict 0 (listItems (env.pinnedMeasurements.getD [])) values

def effectiveIssuerPins (embedded : Option TrustRoots) (env : Env) : IssuerPins :=
  let envKeys:=parseHexListPermissive (env.tokenIssuerPubkeys.getD [])
  match embedded with
  | none => ⟨envKeys,!envKeys.isEmpty⟩
  | some roots =>
    if (trim (env.tokenIssuerPubkeys.getD [])).isEmpty then ⟨roots.issuerPublicKeysDer,true⟩
    else ⟨intersection roots.issuerPublicKeysDer envKeys,true⟩

def effectiveNodeMeasurements (embedded : Option TrustRoots) (env : Env) : Except String (List Bytes) := do
  let configured ← configuredMeasurements env embedded.isSome
  match embedded with
  | none => .ok configured
  | some roots =>
    if configured.isEmpty then .ok roots.nodeMeasurements
    else
      let effective:=intersection roots.nodeMeasurements configured
      if effective.isEmpty then
        .error "configured node measurement pins do not match the embedded release trust bundle"
      else .ok effective

def decodeFixed32 (value : Bytes) (field : String) : Except String (Block 32) := do
  let bytes ← okOr (decodeHex value) (field ++ " is not valid hex")
  okOr (Block.ofBytes 32 bytes) (field ++ " must be 32 bytes")

def configuredLogKey (env : Env) : Except String (Option (Block 32)) :=
  let value:=trim (env.transparencyLogKey.getD [])
  if value.isEmpty then .ok none
  else do
    let key ← decodeFixed32 value "NW_TRANSPARENCY_LOG_KEY"
    .ok (some key)

def effectiveTransparencyLogKey (embedded : Option TrustRoots) (env : Env) :
    Except String (Option (Block 32)) := do
  let configured ← configuredLogKey env
  match embedded with
  | none => .ok configured
  | some roots =>
    if configured.any (·≠roots.transparencyLogEd25519Key) then
      .error "NW_TRANSPARENCY_LOG_KEY does not match the embedded release trust bundle"
    else .ok (some roots.transparencyLogEd25519Key)

lemma mem_intersection {embedded c : List Bytes} {x : Bytes}
    (h : x∈intersection embedded c) : x∈embedded := (List.mem_filter.mp h).1

lemma effectiveNodeMeasurements_eq_ok {roots : TrustRoots} {env : Env} {pins : List Bytes}
    (h : effectiveNodeMeasurements (some roots) env=.ok pins) :
    pins≠[] ∧ ∀ m∈pins, m∈roots.nodeMeasurements := by
  obtain ⟨c,-,h⟩ := except_bind_ok h
  dsimp only at h
  split at h
  · rw [← Except.ok.inj h]
    exact ⟨roots.measurements_ne,fun m hm => hm⟩
  · split at h
    · cases h
    next hne =>
      rw [← Except.ok.inj h]
      exact ⟨isEmpty_eq_false_iff.mp (Bool.eq_false_iff.mpr hne),fun m hm => mem_intersection hm⟩

lemma effectiveTransparencyLogKey_eq_ok {r : TrustRoots} {env : Env} {key : Option (Block 32)}
    (h : effectiveTransparencyLogKey (some r) env=.ok key) :
    key=some r.transparencyLogEd25519Key := by
  obtain ⟨c,-,h⟩ := except_bind_ok h
  dsimp only at h
  split at h
  · cases h
  · exact (Except.ok.inj h).symm

lemma effectiveIssuerPins_required (roots : TrustRoots) (env : Env) :
    (effectiveIssuerPins (some roots) env).required ∧
      ∀ k∈(effectiveIssuerPins (some roots) env).keys, k∈roots.issuerPublicKeysDer := by
  simp only [effectiveIssuerPins]
  split
  · exact ⟨rfl,fun k hk => hk⟩
  · exact ⟨rfl,fun k hk => mem_intersection hk⟩

/-- With embedded roots, no environment and no Coordinator response adds a measurement, a log
key or an issuer key. -/
theorem roots_only_narrowed (roots : TrustRoots) (env : Env) :
    (∀ (parse : Bytes → Option PathResponse) (body : Bytes) (pins : List Bytes)
        (key : Option (Block 32)) (endpoints : List Core.Endpoint),
      effectiveNodeMeasurements (some roots) env=.ok pins →
      effectiveTransparencyLogKey (some roots) env=.ok key →
      pathFromResponseWithTrust parse body pins key=.ok endpoints →
      2≤endpoints.length ∧ endpoints.length≤8 ∧ ∀ ep∈endpoints, ∃ e, ep.expected=some e ∧
        e.measurement∈roots.nodeMeasurements ∧
        e.transparencyLogKey=some roots.transparencyLogEd25519Key ∧
        e.tlsSpkiSha256.isSome=true ∧ (e.tdxPolicy.isSome=true ↔ e.tee=.tdx) ∧
        ∀ policy, e.tdxPolicy=some policy → Admissible policy) ∧
    (effectiveIssuerPins (some roots) env).required=true ∧
    ∀ k∈(effectiveIssuerPins (some roots) env).keys, k∈roots.issuerPublicKeysDer := by
  refine ⟨?_,effectiveIssuerPins_required roots env⟩
  intro parse body pins key endpoints hn hkey h
  obtain ⟨hne,hsub⟩ := effectiveNodeMeasurements_eq_ok hn
  have hkey:=effectiveTransparencyLogKey_eq_ok hkey
  obtain ⟨hmin,hmax,hall⟩ := Datapath.pathFromResponse_eq_ok h
  refine ⟨hmin,hmax,?_⟩
  intro ep hep
  obtain ⟨e,he,hp,hm,hl⟩ := hall ep hep
  exact ⟨e,he,hsub _ (hm hne),hl _ hkey,hp.tlsSpki,hp.policy,hp.admissible⟩

def sampleRoots : TrustRoots where
  issuerPublicKeysDer := [[0x30,0],[0x30,1,7]]
  nodeMeasurements := [List.replicate 48 1,List.replicate 48 2]
  transparencyLogEd25519Key := Block.fill 32 3
  issuers_ne := by decide
  measurements_ne := by decide
  measurements_length := by decide

def sampleEnv : Env where
  expectedMeasurement := none
  pinnedMeasurements := some (space::toHex (List.replicate 48 2)++comma::space::toHex (List.replicate 48 5))
  transparencyLogKey := some (toHex (List.replicate 32 3))
  tokenIssuerPubkeys := none

def sampleHop : Proto.Hop where
  host := ascii "192.0.2.1"
  port := 443
  tee := .sevSnp
  measurement := toHex (List.replicate 48 2)
  tlsSpkiSha256 := some (toHex (List.replicate 32 4))
  wgPub := none
  minTcbSevsnp := none
  tdxPolicy := none
  transparencyLogKey := some (toHex (List.replicate 32 3))
  grant := none
  grantNonce := none

def narrowed : Except String (List Core.Endpoint) :=
  pathFromResponseWithTrust (fun _ => some ⟨[sampleHop,sampleHop]⟩) [] [List.replicate 48 2]
    (some sampleRoots.transparencyLogEd25519Key)

theorem sample_path_narrowed : ∃ endpoints,
    effectiveNodeMeasurements (some sampleRoots) sampleEnv=.ok [List.replicate 48 2] ∧
    narrowed=.ok endpoints ∧ endpoints.length=2 ∧
    ∀ ep∈endpoints, ∃ e, ep.expected=some e ∧ e.measurement∈sampleRoots.nodeMeasurements := by
  have hp : effectiveNodeMeasurements (some sampleRoots) sampleEnv=.ok [List.replicate 48 2] := by
    decide +kernel
  have hk : effectiveTransparencyLogKey (some sampleRoots) sampleEnv =
      .ok (some sampleRoots.transparencyLogEd25519Key) := by decide +kernel
  have hs : narrowed.toOption.map List.length=some 2 := by decide +kernel
  cases h : narrowed with
  | error e =>
    rw [h] at hs
    cases hs
  | ok endpoints =>
    rw [h] at hs
    obtain ⟨-,-,ha⟩ := (roots_only_narrowed sampleRoots sampleEnv).1 _ _ _ _ _ hp hk h
    refine ⟨endpoints,hp,rfl,Option.some.inj hs,?_⟩
    intro ep hep
    obtain ⟨e,he,hm,-⟩ := ha ep hep
    exact ⟨e,he,hm⟩
end NilVpn.Client
