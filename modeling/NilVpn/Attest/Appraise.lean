import NilVpn.Attest.SevSnp
import NilVpn.Attest.Tdx
import NilVpn.Crypto.Translog

/-!
# Appraisal (nil-attest/src/lib.rs:34-210)

A release build, where the synthetic evidence of the tests is not compiled in.
-/

namespace NilVpn.Attest
open Tdx Base List

open Coordinator (TdxPolicy)
open NilVpn.Core (SevSnpTcbFloor)
open Crypto (LogProof Base64 Ed25519 verifyLogged)

/-- The third-party code: hashes, signatures and the two vendor verifiers. -/
structure Primitives (C V A K : Type) where
  sha256 : Bytes → Block 32
  sha384 : Bytes → Block 48
  sha512 : Bytes → Block 64
  dcap : Tdx.Dcap C
  sev : SevSnp.Sev V A
  base64 : Base64
  ed25519 : Ed25519 K

structure Run where
  (evidence tlsSpki : Bytes)
  policy : AppraisalPolicy
  nonce : Block 32
  /-- Seconds since the epoch; `none` is a clock before it. -/
  clock : Option UInt64

def nowUnix (clock : Option UInt64) : UInt64 := clock.getD (UInt64.ofNat (2^63 - 1))

section
variable {C V A K : Type} (prim : Primitives C V A K)
def checkSpki (policy : AppraisalPolicy) (tlsSpki : Bytes) : Except AttestError Unit :=
  match policy.tlsSpkiSha256 with
  | some expected => ensure (prim.sha256 tlsSpki=expected) .tlsSpkiMismatch
  | none => .ok ()

def baseCount (tag : UInt8) : Except AttestError ℕ :=
  if tag=tagSevsnp ∨ tag=tagTdx then .ok 2 else .error (.unsupportedTee tag)

def splitStapled (base : ℕ) (parts : List Bytes) : Except AttestError (List Bytes × Option Bytes) :=
  if parts.length=base then .ok (parts,none)
  else if parts.length=base+1 then .ok (parts.take base,parts[base]?)
  else .error (.malformed "unexpected attestation evidence part count")

def tdxPolicyOf (policy : AppraisalPolicy) : Except AttestError TdxPolicy := do
  ensure (policy.tee=.tdx) (.teeMismatch policy.tee .tdx)
  ensure policy.minTcbSevsnp.isNone (.policyViolation "SEV-SNP TCB floor is invalid for a TDX policy")
  ensure (!policy.allowTcbOutOfDate) (.policyViolation
    "TDX policy must require an UpToDate collateral verdict with no advisories")
  okOr policy.tdxPolicy (.policyViolation "TDX policy is incomplete: MRTD alone is not sufficient")

def verifyReport (tag : UInt8) (parts : List Bytes) (policy : AppraisalPolicy) (now : UInt64) :
    Except AttestError Evidence :=
  if tag=tagSevsnp then
    match parts with
    | [report,vcek] => SevSnp.verify prim.sev report vcek policy.minTcbSevsnp
    | _ => .error (.malformed "SEV-SNP evidence expects [report, vcek]")
  else if tag=tagTdx then
    match parts with
    | [quote,collateral] => do
      let tdxPolicy ← tdxPolicyOf policy
      Tdx.verify prim.dcap prim.sha384 quote collateral now tdxPolicy
    | _ => .error (.malformed "TDX evidence expects [quote, collateral]")
  else .error (.unsupportedTee tag)

def checkTcb (policy : AppraisalPolicy) : TcbStatus → Except AttestError Unit
  | .outOfDate reason => ensure policy.allowTcbOutOfDate (.tcbNotUpToDate reason)
  | .upToDate => .ok ()

def checkReport (report : Evidence) (r : Run) : Except AttestError Unit := do
  ensure (report.tee=r.policy.tee) (.teeMismatch r.policy.tee report.tee)
  ensure (!(report.tee=.sevSnp&&r.policy.tdxPolicy.isSome))
    (.policyViolation "TDX workload policy is invalid for SEV-SNP evidence")
  ensure (report.reportData=bindReportData prim.sha256 prim.sha512 r.tlsSpki r.nonce) .reportDataMismatch
  ensure (report.measurement=r.policy.expectedMeasurement) .measurementMismatch
  checkTcb r.policy report.tcbStatus

def checkLogged (policy : AppraisalPolicy) (measurement : Bytes) (stapled : Option Bytes) :
    Except AttestError Unit :=
  match policy.transparencyLogKey with
  | some logKey => do
    let proofBytes ← okOr stapled (.transparencyNotLogged "no stapled inclusion proof")
    let proof ← okOr (LogProof.decode proofBytes) (.transparencyNotLogged "malformed inclusion proof")
    ensure (verifyLogged prim.sha256 prim.base64 prim.ed25519 measurement proof logKey)
      (.transparencyNotLogged "measurement not included under the pinned log checkpoint")
  | none => .ok ()

def appraise (r : Run) : Except AttestError Verdict := do
  checkSpki prim r.policy r.tlsSpki
  let tag ← okOr r.evidence.head? (.malformed "empty attestation evidence")
  let parts ← decodeParts r.evidence.tail
  let base ← baseCount tag
  let (baseParts,stapled) ← splitStapled base parts
  let report ← verifyReport prim tag baseParts r.policy (nowUnix r.clock)
  checkReport prim report r
  checkLogged prim r.policy report.measurement stapled
  .ok ⟨report.tee,report.measurement,report.tcbStatus⟩

variable {prim}
variable {parts : List Bytes} {policy : AppraisalPolicy} {r : Run} {report : Evidence}
lemma splitStapled_two {base : List Bytes} {st : Option Bytes}
    (h : splitStapled 2 parts=.ok (base,st)) : base=parts.take 2 := by
  unfold splitStapled at h
  split at h
  next hl => simp_all
  next => grind

structure Accepts (prim : Primitives C V A K) (r : Run) (verdict : Verdict) (report : Evidence) :
    Prop where
  tee : report.tee=r.policy.tee
  family : report.tee=.sevSnp → r.policy.tdxPolicy=none
  bound : report.reportData=bindReportData prim.sha256 prim.sha512 r.tlsSpki r.nonce
  measurement : report.measurement=r.policy.expectedMeasurement
  tcb : r.policy.allowTcbOutOfDate=false → report.tcbStatus=.upToDate
  pinned : ∀ digest, r.policy.tlsSpkiSha256=some digest → prim.sha256 r.tlsSpki=digest
  logged : ∀ key, r.policy.transparencyLogKey=some key →
    ∃ proof, verifyLogged prim.sha256 prim.base64 prim.ed25519 report.measurement proof key=true
  verdict : verdict=⟨report.tee,report.measurement,report.tcbStatus⟩

lemma checkLogged_eq_ok {m : Bytes} {st : Option Bytes} {u : Unit}
    (h : checkLogged prim policy m st=.ok u) {key : Block 32}
    (hk : policy.transparencyLogKey=some key) :
    ∃ pr, verifyLogged prim.sha256 prim.base64 prim.ed25519 m pr key := by
  rw [checkLogged,hk] at h
  obtain ⟨_,-,pr,-,h⟩ := except_bind_ok₂ h
  exact ⟨pr,ensure_eq_ok h⟩

lemma checkTcb_eq_ok {st : TcbStatus} {u : Unit} (h : checkTcb policy st=.ok u)
    (ha : policy.allowTcbOutOfDate=false) :
    st=.upToDate := by
  cases st with
  | upToDate => rfl
  | outOfDate re =>
    have := ensure_eq_ok h
    rw [ha] at this
    cases this

lemma appraise_eq_ok {v : Verdict} (h : appraise prim r=.ok v) :
    ∃ tag parts report, r.evidence.head?=some tag ∧ decodeParts r.evidence.tail=.ok parts ∧
      verifyReport prim tag (parts.take 2) r.policy (nowUnix r.clock)=.ok report ∧
      Accepts prim r v report := by
  obtain ⟨_,hsp,tag,ha,parts,hp,ba,hbs,h⟩ := except_bind_ok₄ h
  obtain ⟨⟨bp,st⟩,hs,report,hr,_,hc,_,hl,h⟩ := except_bind_ok₄ h
  obtain ⟨_,hte,_,hf,hc⟩ := except_bind_ok₂ hc
  obtain ⟨_,hb,hc⟩ := except_bind_ok hc
  obtain ⟨_,hm,htc⟩ := except_bind_ok hc
  have ht : ba=2 := by grind [baseCount,Except.ok.inj]
  rw [ht] at hs
  refine ⟨tag,parts,report,okOr_eq_ok ha,hp,splitStapled_two hs ▸ hr,?_⟩
  exact
    { tee := of_decide_eq_true (ensure_eq_ok hte)
      family := by
        intro hv
        have hn:=ensure_eq_ok hf
        simpa [hv] using hn
      bound := of_decide_eq_true (ensure_eq_ok hb)
      measurement := of_decide_eq_true (ensure_eq_ok hm)
      tcb := checkTcb_eq_ok htc
      pinned := by
        intro di hd
        rw [checkSpki,hd] at hsp
        exact of_decide_eq_true (ensure_eq_ok hsp)
      logged := fun _ hk => checkLogged_eq_ok hl hk
      verdict := (Except.ok.inj h).symm }

lemma appraise_of {tag : UInt8} {base : List Bytes} {stapled : Option Bytes}
    (hsp : checkSpki prim r.policy r.tlsSpki=.ok ()) (ht : r.evidence.head?=some tag)
    (hp : decodeParts r.evidence.tail=.ok parts) (hb : baseCount tag=.ok 2)
    (hs : splitStapled 2 parts=.ok (base,stapled))
    (hv : verifyReport prim tag base r.policy (nowUnix r.clock)=.ok report)
    (hc : checkReport prim report r=.ok ())
    (hl : checkLogged prim r.policy report.measurement stapled=.ok ()) :
    appraise prim r=.ok ⟨report.tee,report.measurement,report.tcbStatus⟩ := by
  rw [appraise,hsp,ok_bind,ht,okOr_some,ok_bind,hp,ok_bind,hb,ok_bind,hs,ok_bind]
  simp only [hv,ok_bind,hc,hl]

lemma checkReport_of (ht : report.tee=r.policy.tee) (hf : report.tee=.sevSnp → r.policy.tdxPolicy=none)
    (hd : report.reportData=bindReportData prim.sha256 prim.sha512 r.tlsSpki r.nonce)
    (hm : report.measurement=r.policy.expectedMeasurement)
    (hc : report.tcbStatus=.upToDate) : checkReport prim report r=.ok () := by
  have hmx : (!(report.tee=.sevSnp&&r.policy.tdxPolicy.isSome))=true := by grind
  rw [checkReport,ensure_of _ _ (decide_eq_true ht),ok_bind,ensure_of _ _ hmx,ok_bind,
    ensure_of _ _ (decide_eq_true hd),ok_bind,ensure_of _ _ (decide_eq_true hm),ok_bind,
    hc]
  rfl

lemma take_two {a b : Bytes} (h : parts.take 2=[a,b]) : ∃ rest, parts=a::b::rest := by
  refine ⟨parts.drop 2,?_⟩
  conv_lhs => rw [← take_append_drop 2 parts,h]
  rfl

variable (prim)
def Run.quoted (r : Run) : Except AttestError Tdx.VerifiedReport := do
  let parts ← decodeParts r.evidence.tail
  let tdxPolicy ← tdxPolicyOf r.policy
  match parts with
  | quote::collateral::_ => Tdx.verifiedReport prim.dcap quote collateral (nowUnix r.clock) tdxPolicy
  | _ => .error (.malformed "TDX evidence expects [quote, collateral]")

structure Run.Binds (spkis bindings : Set Bytes) (r : Run) (report : Tdx.Report) : Prop where
  data : report.reportData=some (bindReportData prim.sha256 prim.sha512 r.tlsSpki r.nonce)
  only : ∀ spki nonce, spki∈spkis → bindingInput prim.sha256 spki nonce∈bindings →
    report.reportData=some (bindReportData prim.sha256 prim.sha512 spki nonce) →
      spki=r.tlsSpki ∧ nonce=r.nonce
  pinned : ∀ digest, r.policy.tlsSpkiSha256=some digest → prim.sha256 r.tlsSpki=digest

/-- The inputs that a run hashes are among those on which the hashes are collision-free. -/
structure Run.Hashes (identities spkis bindings : Set Bytes) (r : Run) : Prop where
  identity : ∀ quoted base serviceTd, r.quoted prim=.ok quoted →
    quoted.report.body=some (base,serviceTd) → Tdx.identityInput base serviceTd∈identities
  spki : r.tlsSpki∈spkis
  binding : bindingInput prim.sha256 r.tlsSpki r.nonce∈bindings

def Clean (quoted : Tdx.VerifiedReport) : Prop := quoted.status = "UpToDate" ∧ quoted.advisoryIds=[]

variable {prim}
lemma verifyReport_tdx {now : UInt64} (h : verifyReport prim tagTdx parts policy now=.ok report) :
    ∃ q c tp, parts=[q,c] ∧ tdxPolicyOf policy=.ok tp ∧
      verify prim.dcap prim.sha384 q c now tp=.ok report := by
  unfold verifyReport at h
  rw [if_neg (by decide),if_pos rfl] at h
  split at h
  next q c =>
    obtain ⟨tp,hp,h⟩ := except_bind_ok h
    exact ⟨q,c,tp,rfl,hp,h⟩
  next => cases h

/-- An accepted TDX run: its report, what was measured, and what else was checked. -/
lemma appraise_tdx {v : Verdict} {identities spkis bindings : Set Bytes}
    (h256 : Set.InjOn prim.sha256 spkis) (h512 : Set.InjOn prim.sha512 bindings)
    (hin : r.Hashes prim identities spkis bindings) (hg : r.evidence.head?=some tagTdx)
    (h : appraise prim r=.ok v) :
    ∃ quoted ba st, r.quoted prim=.ok quoted ∧ quoted.report.body=some (ba,st) ∧
      (prim.sha384 (identityInput ba st)).val=r.policy.expectedMeasurement ∧
      (workload ba st).Production ∧ Clean quoted ∧
      r.Binds prim spkis bindings quoted.report := by
  obtain ⟨tag,parts,report,hg',hpt,hv,ha⟩ := appraise_eq_ok h
  rw [hg] at hg'
  rw [← Option.some.inj hg'] at hv
  obtain ⟨q,c,tp,ht,hp,hv⟩ := verifyReport_tdx hv
  obtain ⟨rest,hrs⟩ := take_two ht
  obtain ⟨quoted,ba,st,hq,hbd,hpr,-,hr⟩ := verify_eq_ok hv
  have hu : r.quoted prim=.ok quoted := by
    rw [Run.quoted,hpt,ok_bind,hp,ok_bind,hrs]
    exact hq
  have hl : r.policy.allowTcbOutOfDate=false := by
    obtain ⟨_,-,_,-,hp⟩ := except_bind_ok₂ hp
    obtain ⟨_,hl,-⟩ := except_bind_ok hp
    exact Bool.not_eq_true' _ ▸ ensure_eq_ok hl
  have hd : quoted.report.reportData=some (bindReportData prim.sha256 prim.sha512 r.tlsSpki r.nonce) := by
    rw [← ha.bound,hr,Tdx.Report.reportData,hbd]
    rfl
  refine ⟨quoted,ba,st,hu,hbd,?_,hpr,?_,hd,?_,ha.pinned⟩
  · rw [← ha.measurement,hr]
  · have hs:=ha.tcb hl
    rw [hr] at hs
    exact strictTcbStatus_upToDate hs
  · intro spki no hsp hb hsm
    rw [hd] at hsm
    have heq:=bindReportData_inj h256 h512 hin.spki hsp hin.binding hb (Option.some.inj hsm)
    exact ⟨heq.1.symm,heq.2.symm⟩

/-- The pinned measurement fixes the workload of a TDX node, whatever policy the Coordinator
sends with it. -/
theorem measurement_fixes_workload (prim : Primitives C V A K) (r₁ r₂ : Run)
    (verdict₁ verdict₂ : Verdict) (identities spkis bindings : Set Bytes)
    (h384 : Set.InjOn prim.sha384 identities) (h256 : Set.InjOn prim.sha256 spkis)
    (h512 : Set.InjOn prim.sha512 bindings) (hin₁ : r₁.Hashes prim identities spkis bindings)
    (hin₂ : r₂.Hashes prim identities spkis bindings) (htag₁ : r₁.evidence.head?=some tagTdx)
    (htag₂ : r₂.evidence.head?=some tagTdx) (h₁ : appraise prim r₁=.ok verdict₁)
    (h₂ : appraise prim r₂=.ok verdict₂)
    (hpin : r₁.policy.expectedMeasurement=r₂.policy.expectedMeasurement) :
    ∃ quoted₁ quoted₂ w, r₁.quoted prim=.ok quoted₁ ∧ r₂.quoted prim=.ok quoted₂ ∧
      quoted₁.report.workload=some w ∧ quoted₂.report.workload=some w ∧ w.Production ∧
      Clean quoted₁ ∧ Clean quoted₂ ∧ r₁.Binds prim spkis bindings quoted₁.report ∧
      r₂.Binds prim spkis bindings quoted₂.report := by
  obtain ⟨quoted₁,base₁,se₁,hq₁,hb₁,hm₁,hp₁,hc₁,hn₁⟩ := appraise_tdx h256 h512 hin₁ htag₁ h₁
  obtain ⟨quoted₂,base₂,se₂,hq₂,hb₂,hm₂,-,hc₂,hn₂⟩ := appraise_tdx h256 h512 hin₂ htag₂ h₂
  -- one measurement, so one preimage, so one workload
  have hdigest : prim.sha384 (identityInput base₁ se₁)=prim.sha384 (identityInput base₂ se₂) := by
    apply Subtype.ext
    rw [hm₁,hm₂,hpin]
  have hinput:=h384 (hin₁.identity _ _ _ hq₁ hb₁) (hin₂.identity _ _ _ hq₂ hb₂) hdigest
  refine ⟨quoted₁,quoted₂,workload base₁ se₁,hq₁,hq₂,?_,?_,hp₁,hc₁,hc₂,hn₁,hn₂⟩
  · rw [Tdx.Report.workload,hb₁]
    rfl
  · rw [Tdx.Report.workload,hb₂,identityInput_inj hinput]
    rfl

variable (prim)
def Run.reported (r : Run) : Except AttestError SevSnp.AttestationReport := do
  let parts ← decodeParts r.evidence.tail
  match parts with
  | report::vcek::_ => SevSnp.verifiedReport prim.sev report vcek
  | _ => .error (.malformed "SEV-SNP evidence expects [report, vcek]")

variable {prim}
/-- Every check of `appraise` but that of the committed TCB. -/
structure Run.Passes (prim : Primitives C V A K) (r : Run) (report : SevSnp.AttestationReport) : Prop where
  pinned : checkSpki prim r.policy r.tlsSpki=.ok ()
  guest : report.debugAllowed=false ∧ report.migrateMaAllowed=false
  tee : r.policy.tee=.sevSnp
  family : r.policy.tdxPolicy=none
  bound : report.reportData=bindReportData prim.sha256 prim.sha512 r.tlsSpki r.nonce
  measurement : report.measurement.val=r.policy.expectedMeasurement
  floor : ∀ floor, r.policy.minTcbSevsnp=some floor → report.currentTcb.meets floor=true
  logged : ∃ parts stapled, decodeParts r.evidence.tail=.ok parts ∧
    splitStapled 2 parts=.ok (parts.take 2,stapled) ∧
    checkLogged prim r.policy report.measurement.val stapled=.ok ()

lemma Run.reported_eq_ok {report : SevSnp.AttestationReport} (h : r.reported prim=.ok report) :
    ∃ rb v rest, decodeParts r.evidence.tail=.ok (rb::v::rest) ∧
      SevSnp.verifiedReport prim.sev rb v=.ok report := by
  obtain ⟨parts,hp,h⟩ := except_bind_ok h
  split at h
  next rb v rest => exact ⟨rb,v,rest,hp,h⟩
  next => cases h

section
variable (ht : r.evidence.head?=some tagSevsnp)
include ht
lemma reported_of_appraise (ha : r.policy.allowTcbOutOfDate=false) {v : Verdict} (h : appraise prim r=.ok v) :
    ∃ report, r.reported prim=.ok report ∧ r.Passes prim report ∧
      report.currentTcb.lt report.committedTcb=false := by
  obtain ⟨_,hsp,tag,hg,parts,hp,base,hb,h⟩ := except_bind_ok₄ h
  obtain rfl : tag=tagSevsnp := Option.some.inj ((okOr_eq_ok hg).symm.trans ht)
  obtain rfl : base=2 := (Except.ok.inj hb).symm
  obtain ⟨⟨bp,st⟩,hs,ev,hr,_,hc,_,hl,-⟩ := except_bind_ok₄ h
  obtain rfl:=splitStapled_two hs
  simp only [verifyReport,if_pos] at hr
  split at hr
  next rb vcek htwo =>
    obtain ⟨rest,rfl⟩ := take_two htwo
    obtain ⟨report,hv,hd,hm,rfl⟩ := SevSnp.verify_eq_ok hr
    obtain ⟨_,hte,_,hf,hc⟩ := except_bind_ok₂ hc
    obtain ⟨_,hbd,_,hme,htc⟩ := except_bind_ok₂ hc
    obtain ⟨hlt,hfl⟩ := SevSnp.tcbStatus_upToDate.mp (checkTcb_eq_ok htc ha)
    have hn:=ensure_eq_ok hf
    refine ⟨report,by rw [Run.reported,hp]; exact hv,?_,hlt⟩
    exact ⟨hsp,⟨hd,hm⟩,(of_decide_eq_true (ensure_eq_ok hte)).symm,by simpa using hn,
      of_decide_eq_true (ensure_eq_ok hbd),of_decide_eq_true (ensure_eq_ok hme),hfl,_,st,hp,hs,hl⟩
  next => cases hr

lemma Run.Passes.accepted {report : SevSnp.AttestationReport} (h : r.Passes prim report)
    (hr : r.reported prim=.ok report) (hl : report.currentTcb.lt report.committedTcb=false) :
    ∃ v, appraise prim r=.ok v := by
  obtain ⟨rb,v,rest,hp,hv⟩ := r.reported_eq_ok hr
  obtain ⟨parts,st,hp',hs,hlg⟩ := h.logged
  obtain rfl:=Except.ok.inj (hp.symm.trans hp')
  have hu:=SevSnp.tcbStatus_upToDate.mpr ⟨hl,h.floor⟩
  have hrep : verifyReport prim tagSevsnp [rb,v] r.policy (nowUnix r.clock) =
      .ok ⟨.sevSnp,report.measurement.val,report.reportData,.upToDate⟩ := by
    rw [verifyReport,if_pos rfl]
    simp only [SevSnp.verify,hv,ok_bind,SevSnp.appraiseReport,h.guest,hu]
    rfl
  exact ⟨_,appraise_of h.pinned ht hp rfl hs hrep
    (checkReport_of h.tee.symm (fun _ => h.family) h.bound h.measurement rfl) hlg⟩
end

/-- The TCB gate: the pinned floor is met in every component. The committed TCB is compared
lexicographically, so a rollback behind a higher component is missed, and no other. -/
theorem tcb_gate (prim : Primitives C V A K) (r : Run)
    (hallow : r.policy.allowTcbOutOfDate=false) (htag : r.evidence.head?=some tagSevsnp) :
    (∀ verdict, appraise prim r=.ok verdict → ∃ report, r.reported prim=.ok report ∧
      ∀ floor, r.policy.minTcbSevsnp=some floor → report.currentTcb.AtLeast (SevSnp.floorTcb floor)) ∧
    ∀ report, r.reported prim=.ok report →
      ((∀ verdict, appraise prim r=.ok verdict → report.currentTcb.AtLeast report.committedTcb) ↔
        ¬(r.Passes prim report ∧ report.currentTcb.Masks report.committedTcb)) := by
  refine ⟨?_,fun report hr => ⟨?_,?_⟩⟩
  · intro verdict h
    obtain ⟨report,hr,hp,-⟩ := reported_of_appraise htag hallow h
    exact ⟨report,hr,fun floor hf => SevSnp.atLeast_of_meets (hp.floor floor hf)⟩
  · rintro h ⟨hp,hm⟩
    obtain ⟨hl,hn⟩ := (SevSnp.masks_iff ..).mp hm
    obtain ⟨verdict,hv⟩ := hp.accepted htag hr hl
    exact hn (h verdict hv)
  · intro h verdict hv
    obtain ⟨report',hr',hp,hl⟩ := reported_of_appraise htag hallow hv
    obtain rfl:=Except.ok.inj (hr.symm.trans hr')
    by_contra hn
    exact h ⟨hp,(SevSnp.masks_iff ..).mpr ⟨hl,hn⟩⟩
end

def sampleTd (data : Block 64) : Tdx.TdReport10 :=
  ⟨Block.fill 48 9,Block.fill 8 0,Block.fill 8 0,Block.fill 48 0,Block.fill 48 0,Block.fill 48 0,
    Block.fill 48 1,Block.fill 48 2,Block.fill 48 3,Block.fill 48 4,data⟩

def fixedData (b : Bytes) : Except String (Block 64) := okOr (Block.ofBytes 64 b) "report data"

def sampleReport (b : Bytes) : Except String SevSnp.AttestationReport := do
  let data ← fixedData (b.take 64)
  let tcb (k : ℕ) : SevSnp.TcbVersion := ⟨none,b.getD k 0,b.getD (k+1) 0,b.getD (k+2) 0,b.getD (k+3) 0⟩
  .ok ⟨false,false,tcb 64,tcb 68,Block.fill 48 9,data⟩

/-- Verifiers that take what varies from the evidence, and hashes that keep what fits. -/
def samplePrimitives : Primitives (Block 64) Unit Unit Unit where
  sha256 := Block.clip 32
  sha384 := Block.clip 48
  sha512 := Block.clip 64
  dcap :=
    { collateral := fixedData
      verify := fun _ _ data _ => .ok ⟨"UpToDate",[],.td10 (sampleTd data)⟩ }
  sev :=
    { report := sampleReport
      certificate := fun _ => .ok ()
      milan := some ()
      genoa := none
      turin := none
      chainVerify := fun _ _ _ => .ok () }
  base64 := Crypto.padded
  ed25519 := {fromBytes := fun _ => none,verify := fun _ _ _ => false}

def sampleData (nonce : Block 32) : Block 64 := bindReportData (Block.clip 32) (Block.clip 64) [5] nonce
def sampleQuote : Bytes := [4,0,2,0,0x81,0,0,0]++List.replicate 624 0

def samplePolicy (data : Block 64) : AppraisalPolicy :=
  { AppraisalPolicy.new .tdx (Block.clip 48 (Tdx.identityInput (sampleTd data) none)).val with
    tdxPolicy := some (workload (sampleTd data) none).policy }

def tdxRun (nonce : Block 32) : Run where
  evidence := encode tagTdx [sampleQuote,(sampleData nonce).val]
  tlsSpki := [5]
  policy := samplePolicy (sampleData nonce)
  nonce := nonce
  clock := none

theorem two_nonces_one_workload :
    ∃ quoted₁ quoted₂ w, (tdxRun (Block.fill 32 1)).quoted samplePrimitives=.ok quoted₁ ∧
      (tdxRun (Block.fill 32 2)).quoted samplePrimitives=.ok quoted₂ ∧
      quoted₁.report.workload=some w ∧ quoted₂.report.workload=some w ∧ w.Production ∧
      Clean quoted₁ ∧ Clean quoted₂ ∧
      (tdxRun (Block.fill 32 1)).Binds samplePrimitives {[5]} {b | b.length=64} quoted₁.report ∧
      (tdxRun (Block.fill 32 2)).Binds samplePrimitives {[5]} {b | b.length=64} quoted₂.report := by
  have h5 : Set.InjOn samplePrimitives.sha512 {b | b.length=64} := by
    intro x hx y hy hxy
    have hv : (Block.clip 64 x).val=(Block.clip 64 y).val := congrArg Subtype.val hxy
    rwa [Block.clip_val hx,Block.clip_val hy] at hv
  have hev : ∀ b∈[(1 : UInt8),2], let no:=Block.fill 32 b
      (tdxRun no).quoted samplePrimitives=.ok ⟨"UpToDate",[],.td10 (sampleTd (sampleData no))⟩ ∧
      appraise samplePrimitives (tdxRun no)=.ok ⟨.tdx,(tdxRun no).policy.expectedMeasurement,.upToDate⟩ := by
    decide +kernel
  have hn : ∀ b∈[(1 : UInt8),2], (tdxRun (Block.fill 32 b)).Hashes samplePrimitives
      {identityInput (sampleTd (Block.fill 64 0)) none} {[5]} {b | b.length=64} := by
    intro b hb
    refine ⟨?_,rfl,?_⟩
    · intro quoted base st hq hb'
      rw [← Except.ok.inj ((hev b hb).1.symm.trans hq)] at hb'
      obtain ⟨ha,hs⟩ := Prod.mk.inj (Option.some.inj hb')
      rw [← ha,← hs]
      rfl
    · show (_++(Block.fill 32 b).val).length=64
      rw [length_append,Block.length_val,Block.length_val]
  exact measurement_fixes_workload samplePrimitives (tdxRun (Block.fill 32 1)) (tdxRun (Block.fill 32 2))
    _ _ {identityInput (sampleTd (Block.fill 64 0)) none} {[5]} {b | b.length=64}
    (Set.injOn_singleton ..) (Set.injOn_singleton ..) h5 (hn 1 (by decide)) (hn 2 (by decide)) rfl rfl
    (hev 1 (by decide)).2 (hev 2 (by decide)).2 rfl

def sevNonce : Block 32 := Block.fill 32 1

def sevReportBytes (current committed : Block 4) : Bytes :=
  (sampleData sevNonce).val++(current.val++committed.val)

def sevRun (current committed : Block 4) (floor : Option SevSnpTcbFloor) : Run where
  evidence := encode tagSevsnp [sevReportBytes current committed,[0]]
  tlsSpki := [5]
  policy := {AppraisalPolicy.new .sevSnp (Block.fill 48 9).val with minTcbSevsnp := floor}
  nonce := sevNonce
  clock := none

/-- A bootloader one version ahead of the committed TCB hides firmware 17 versions behind it. -/
theorem mixed_rollback_accepted : appraise samplePrimitives (sevRun ⟨[4,0,5,20],rfl⟩ ⟨[3,0,22,20],rfl⟩ none) =
      .ok ⟨.sevSnp,(Block.fill 48 9).val,.upToDate⟩ ∧
    ∃ report, (sevRun ⟨[4,0,5,20],rfl⟩ ⟨[3,0,22,20],rfl⟩ none).reported samplePrimitives=.ok report ∧
      report.currentTcb=⟨none,4,0,5,20⟩ ∧ report.committedTcb=⟨none,3,0,22,20⟩ ∧
      ¬report.currentTcb.AtLeast report.committedTcb := by
  have hr : (sevRun ⟨[4,0,5,20],rfl⟩ ⟨[3,0,22,20],rfl⟩ none).reported samplePrimitives =
      .ok ⟨false,false,⟨none,4,0,5,20⟩,⟨none,3,0,22,20⟩,Block.fill 48 9,sampleData sevNonce⟩ := by
    decide +kernel
  refine ⟨by decide +kernel,_,hr,rfl,rfl,?_⟩
  intro hat
  exact absurd hat.snp (by decide)

def advancedRun : Run := sevRun ⟨[4,0,22,20],rfl⟩ ⟨[3,0,22,20],rfl⟩ (some ⟨none,3,0,21,20⟩)

theorem tcb_gate_advanced : appraise samplePrimitives advancedRun =
      .ok ⟨.sevSnp,(Block.fill 48 9).val,.upToDate⟩ ∧
    ∃ report, advancedRun.reported samplePrimitives=.ok report ∧
      report.currentTcb.AtLeast ⟨none,3,0,21,20⟩ ∧
      report.currentTcb.AtLeast report.committedTcb := by
  have hu : advancedRun.reported samplePrimitives =
      .ok ⟨false,false,⟨none,4,0,22,20⟩,⟨none,3,0,22,20⟩,Block.fill 48 9,sampleData sevNonce⟩ := by
    decide +kernel
  have ha : appraise samplePrimitives advancedRun=.ok ⟨.sevSnp,(Block.fill 48 9).val,.upToDate⟩ := by
    decide +kernel
  obtain ⟨hf,hc⟩ := tcb_gate samplePrimitives advancedRun rfl rfl
  obtain ⟨report,hr,hf⟩ := hf _ ha
  obtain rfl:=Except.ok.inj (hu.symm.trans hr)
  refine ⟨ha,_,hu,hf _ rfl,(hc _ hu).mpr ?_ _ ha⟩
  rintro ⟨-,hm⟩
  revert hm
  unfold SevSnp.TcbVersion.Masks
  decide
end NilVpn.Attest
