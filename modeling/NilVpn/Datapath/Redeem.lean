import NilVpn.Attest.Tdx
import NilVpn.Coordinator.AttachGrants

/-!
# Redeemed paths (nil-datapath/src/redeem.rs:22-31, 152-443)

A release build. The HTTP request is not modelled; `parse` is `serde_json::from_slice`.
-/

namespace NilVpn.Datapath
open Base
open NilVpn.Core (SevSnpTcbFloor AttestExpectation Endpoint Grant)
open Coordinator (TdxPolicy coreTee)
open Attest.Tdx (isDebug isZero)
open Proto (Hop PathResponse)

def minHops : ℕ := 1
def maxHops : ℕ := 8

def decodePolicyHex (n : ℕ) (field : String) (value : Bytes) : Except String (Block n) := do
  ensure (value.length=n*2&&value.all isLowerHex)
    (field ++ " must be exactly " ++ toString n ++ " bytes of canonical lowercase hex")
  okOr ((fromHex value).bind (Block.ofBytes n)) (field ++ " is not valid canonical hex")

def requireNonzero (name : String) (value : Block 48) : Except String Unit :=
  ensure (!isZero value) ("tdx_policy." ++ name ++ " must be nonzero")

def decodeServiceTd : Option Bytes → Except String (Option (Block 48))
  | some value => do
    let measurement ← decodePolicyHex 48 "tdx_policy.mr_service_td" value
    .ok (some measurement)
  | none => .ok none

def tdxPolicyFromWire (dto : Proto.TdxPolicy) : Except String TdxPolicy := do
  let tdAttributes ← decodePolicyHex 8 "tdx_policy.td_attributes" dto.tdAttributes
  ensure (!isDebug tdAttributes) "tdx_policy.td_attributes must not enable TDX debug mode"
  let rtMr0 ← decodePolicyHex 48 "tdx_policy.rt_mr0" dto.rtMr0
  let rtMr1 ← decodePolicyHex 48 "tdx_policy.rt_mr1" dto.rtMr1
  let rtMr2 ← decodePolicyHex 48 "tdx_policy.rt_mr2" dto.rtMr2
  let rtMr3 ← decodePolicyHex 48 "tdx_policy.rt_mr3" dto.rtMr3
  requireNonzero "rt_mr0" rtMr0
  requireNonzero "rt_mr1" rtMr1
  requireNonzero "rt_mr2" rtMr2
  requireNonzero "rt_mr3" rtMr3
  let xfam ← decodePolicyHex 8 "tdx_policy.xfam" dto.xfam
  let mrConfigId ← decodePolicyHex 48 "tdx_policy.mr_config_id" dto.mrConfigId
  let mrOwner ← decodePolicyHex 48 "tdx_policy.mr_owner" dto.mrOwner
  let mrOwnerConfig ← decodePolicyHex 48 "tdx_policy.mr_owner_config" dto.mrOwnerConfig
  let mrServiceTd ← decodeServiceTd dto.mrServiceTd
  .ok ⟨tdAttributes,xfam,mrConfigId,mrOwner,mrOwnerConfig,rtMr0,rtMr1,rtMr2,rtMr3,mrServiceTd⟩

def hopError (idx : ℕ) (reason : String) : String := s!"redeemed path hop {idx}: {reason}"

def decode32 (idx : ℕ) (field : String) (hex : Bytes) : Except String (Block 32) := do
  let bytes ← okOr (fromHex (trim hex)) (hopError idx (field ++ " is not hex"))
  okOr (Block.ofBytes 32 bytes) (hopError idx (field ++ " must be 32 bytes"))

def decodeOptional32 (idx : ℕ) (field : String) : Option Bytes → Except String (Option (Block 32))
  | some hex => do
    let value ← decode32 idx field hex
    .ok (some value)
  | none => .ok none

/-- In a release build a hop without a pinned TLS key is refused. -/
def decodeTlsSpki (idx : ℕ) : Option Bytes → Except String (Block 32)
  | some hex => decode32 idx "tls_spki_sha256" hex
  | none => .error (hopError idx "missing production TLS SPKI identity pin")

def decodeGrant (idx : ℕ) : Option Bytes → Option Bytes → Except String (Option Grant)
  | some tokenHex,some nonceHex => do
    let token ← okOr (fromHex (trim tokenHex)) (hopError idx "grant is not hex")
    let nonce ← decode32 idx "grant_nonce" nonceHex
    .ok (some ⟨token,nonce⟩)
  | none,none => .ok none
  | _,_ => .error (hopError idx "grant and grant_nonce must be provided together")

def coreFloor (floor : Proto.SevSnpTcbFloor) : SevSnpTcbFloor :=
  ⟨floor.fmc,floor.bootloader,floor.tee,floor.snp,floor.microcode⟩

def decodeTdxPolicy (idx : ℕ) : Nwg2.Tee → Option Proto.TdxPolicy → Except String (Option TdxPolicy)
  | .tdx,some policy => do
    let policy ← (tdxPolicyFromWire policy).mapError
      fun e => hopError idx ("invalid TDX policy: " ++ e)
    .ok (some policy)
  | .tdx,none => .error (hopError idx "missing mandatory TDX policy")
  | .sevSnp,some _ => .error (hopError idx "TDX policy is invalid for SEV-SNP")
  | .sevSnp,none => .ok none

def hopToEndpoint (idx : ℕ) (h : Hop) : Except String Endpoint := do
  let measurement ← okOr (fromHex (trim h.measurement)) (hopError idx "measurement is not hex")
  let tee:=coreTee h.tee
  let tlsSpkiSha256 ← decodeTlsSpki idx h.tlsSpkiSha256
  let wgPub ← decodeOptional32 idx "wg_pub" h.wgPub
  let grant ← decodeGrant idx h.grant h.grantNonce
  ensure (!(tee=.tdx&&h.minTcbSevsnp.isSome)) (hopError idx "min_tcb_sevsnp is invalid for TDX")
  let tdxPolicy ← decodeTdxPolicy idx tee h.tdxPolicy
  let transparencyLogKey ← decodeOptional32 idx "transparency_log_key" h.transparencyLogKey
  .ok ⟨h.host,h.port,.masque,wgPub,some ⟨tee,measurement,some tlsSpkiSha256,
    h.minTcbSevsnp.map coreFloor,tdxPolicy,transparencyLogKey⟩,grant⟩

def checkLogKey (idx : ℕ) (expectation : AttestExpectation) : Option (Block 32) → Except String Unit
  | some pinnedKey => ensure (expectation.transparencyLogKey=some pinnedKey) (hopError idx
      ("Coordinator-provided transparency-log key does not match the client's independent key — " ++
        "refusing the path"))
  | none => .ok ()

def crossCheckHop (clientPins : List Bytes) (clientKey : Option (Block 32)) (idx : ℕ)
    (endpoint : Endpoint) : Except String Unit := do
  let expectation ← okOr endpoint.expected (hopError idx "missing attestation expectation")
  ensure (clientPins.isEmpty||clientPins.contains expectation.measurement) (hopError idx
    ("Coordinator-provided measurement is not in the client's pinned set " ++
      "(NW_EXPECTED_MEASUREMENT / NW_PINNED_MEASUREMENTS) — refusing the path " ++
      "(possible measurement substitution by the Coordinator)"))
  checkLogKey idx expectation clientKey

def crossCheckTrust (endpoints : List Endpoint) (clientPins : List Bytes)
    (clientKey : Option (Block 32)) : Except String Unit := do
  let _ ← collectIdx (crossCheckHop clientPins clientKey) 0 endpoints
  .ok ()

def pathFromResponseWithTrust (parse : Bytes → Option PathResponse) (body : Bytes)
    (clientPins : List Bytes) (clientKey : Option (Block 32)) : Except String (List Endpoint) := do
  let resp ← okOr (parse body) "parse PathResponse"
  let hops:=resp.hops.length
  ensure (minHops≤hops) "coordinator returned an empty path"
  ensure (hops ≤ maxHops) s!"coordinator returned {hops} hops (> {maxHops})"
  ensure (hops≠1) ("coordinator returned a single-hop path; production builds require at least " ++
    "two hops for trust splitting")
  let endpoints ← collectIdx hopToEndpoint 0 resp.hops
  crossCheckTrust endpoints clientPins clientKey
  .ok endpoints

structure Admissible (policy : TdxPolicy) : Prop where
  noDebug : isDebug policy.tdAttributes=false
  rtMr0 : isZero policy.rtMr0=false
  rtMr1 : isZero policy.rtMr1=false
  rtMr2 : isZero policy.rtMr2=false
  rtMr3 : isZero policy.rtMr3=false

lemma requireNonzero_eq_ok {name : String} {v : Block 48} {u : Unit}
    (h : requireNonzero name v=.ok u) : isZero v=false :=
  Bool.not_eq_true' _ ▸ ensure_eq_ok h

lemma tdxPolicyFromWire_admissible {dto : Proto.TdxPolicy} {policy : TdxPolicy}
    (h : tdxPolicyFromWire dto=.ok policy) : Admissible policy := by
  obtain ⟨ta,-,_,hd,rm,-,rt,-,h⟩ := except_bind_ok₄ h
  obtain ⟨rr,-,rtM,-,_,hn0,_,hn1,h⟩ := except_bind_ok₄ h
  obtain ⟨_,hn2,_,hn3,xfam,-,mci,-,h⟩ := except_bind_ok₄ h
  obtain ⟨mo,-,moc,-,h⟩ := except_bind_ok₂ h
  obtain ⟨mst,-,h⟩ := except_bind_ok h
  rw [← Except.ok.inj h]
  exact ⟨Bool.not_eq_true' _ ▸ ensure_eq_ok hd,requireNonzero_eq_ok hn0,requireNonzero_eq_ok hn1,
    requireNonzero_eq_ok hn2,requireNonzero_eq_ok hn3⟩

/-- What an expectation taken from a response always has. -/
structure Pinned (e : AttestExpectation) : Prop where
  tlsSpki : e.tlsSpkiSha256.isSome
  policy : e.tdxPolicy.isSome ↔ e.tee=.tdx
  admissible : ∀ policy, e.tdxPolicy=some policy → Admissible policy

lemma decodeTdxPolicy_eq_ok {idx : ℕ} {tee : Nwg2.Tee} {dto : Option Proto.TdxPolicy}
    {t : Option TdxPolicy} (h : decodeTdxPolicy idx tee dto=.ok t) :
    (t.isSome ↔ tee=.tdx) ∧ ∀ p, t=some p → Admissible p := by
  cases tee <;> cases dto
  case sevSnp.none =>
    rw [← Except.ok.inj h]
    simp
  case sevSnp.some => cases h
  case tdx.none => cases h
  case tdx.some dto =>
    obtain ⟨de,hd,h⟩ := except_bind_ok h
    rw [← Except.ok.inj h]
    refine ⟨by simp,?_⟩
    intro p hp
    rw [← Option.some.inj hp]
    exact tdxPolicyFromWire_admissible (mapError_eq_ok hd)

lemma hopToEndpoint_pinned {idx : ℕ} {hop : Hop} {endpoint : Endpoint}
    (h : hopToEndpoint idx hop=.ok endpoint) : ∃ e, endpoint.expected=some e ∧ Pinned e := by
  obtain ⟨m,-,ts,-,wp,-,g,-,h⟩ := except_bind_ok₄ h
  obtain ⟨_,-,po,hp,h⟩ := except_bind_ok₂ h
  obtain ⟨lk,-,h⟩ := except_bind_ok h
  obtain ⟨hf,ha⟩ := decodeTdxPolicy_eq_ok hp
  rw [← Except.ok.inj h]
  exact ⟨_,rfl,rfl,hf,ha⟩

lemma crossCheckHop_eq_ok {pins : List Bytes} {key : Option (Block 32)} {idx : ℕ} {endpoint : Endpoint}
    {u : Unit} (h : crossCheckHop pins key idx endpoint=.ok u) {e : AttestExpectation}
    (he : endpoint.expected=some e) :
    (pins≠[] → e.measurement∈pins) ∧ ∀ k, key=some k → e.transparencyLogKey=some k := by
  obtain ⟨e',he',h⟩ := except_bind_ok h
  obtain ⟨_,hp,hy⟩ := except_bind_ok h
  have hs : e'=e := Option.some.inj ((okOr_eq_ok he').symm.trans he)
  rw [hs] at hp hy
  refine ⟨?_,?_⟩
  · grind [ensure_eq_ok]
  · intro k hk
    rw [hk] at hy
    exact of_decide_eq_true (ensure_eq_ok hy)

lemma pathFromResponse_eq_ok {p : Bytes → Option PathResponse} {body : Bytes}
    {pins : List Bytes} {key : Option (Block 32)} {endpoints : List Endpoint}
    (h : pathFromResponseWithTrust p body pins key=.ok endpoints) :
    2≤endpoints.length ∧ endpoints.length≤8 ∧ ∀ ep∈endpoints, ∃ e, ep.expected=some e ∧
      Pinned e ∧ (pins≠[] → e.measurement∈pins) ∧
      ∀ k, key=some k → e.transparencyLogKey=some k := by
  obtain ⟨re,-,_,hn,_,hm,_,hs,h⟩ := except_bind_ok₄ h
  obtain ⟨de,hd,_,ht,h⟩ := except_bind_ok₂ h
  obtain ⟨_,ht,-⟩ := except_bind_ok ht
  rw [← Except.ok.inj h]
  have hn : 1 ≤ re.hops.length := of_decide_eq_true (ensure_eq_ok hn)
  have hm : re.hops.length≤8 := of_decide_eq_true (ensure_eq_ok hm)
  have hs : re.hops.length≠1 := of_decide_eq_true (ensure_eq_ok hs)
  obtain ⟨hl,hat⟩ := collectIdx_eq_ok hd
  refine ⟨by omega,by omega,?_⟩
  intro ep hep
  obtain ⟨i,hi⟩ := List.getElem?_of_mem hep
  obtain ⟨hop,-,hh⟩ := hat i ep hi
  obtain ⟨e,he,hp⟩ := hopToEndpoint_pinned hh
  obtain ⟨u,-,hc⟩ := collectIdx_step ht hi
  exact ⟨e,he,hp,crossCheckHop_eq_ok hc he⟩
end NilVpn.Datapath
