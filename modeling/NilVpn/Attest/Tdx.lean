import NilVpn.Attest.Evidence

/-!
# Intel TDX quotes (nil-attest/src/report/tdx.rs:1-320)

`dcap-qvl` is a parameter: any source of verified reports. The fields of a TD report
that no check reads (TCB vectors, SEAM identities) are left out.
-/

namespace NilVpn.Attest.Tdx
open Base List
open Coordinator (TdxPolicy)

structure TdReport10 where
  mrTd : Block 48
  (tdAttributes xfam : Block 8)
  (mrConfigId mrOwner mrOwnerConfig rtMr0 rtMr1 rtMr2 rtMr3 : Block 48)
  reportData : Block 64
  deriving DecidableEq

structure TdReport15 where
  base : TdReport10
  mrServiceTd : Block 48
  deriving DecidableEq

inductive Report
  | td10 (td : TdReport10)
  | td15 (td : TdReport15)
  | sgxEnclave
  deriving DecidableEq

structure VerifiedReport where
  status : String
  advisoryIds : List String
  report : Report
  deriving DecidableEq

/-- `serde_json` for the collateral and the production verifier of `dcap-qvl`. -/
structure Dcap (C : Type) where
  collateral : Bytes → Except String C
  verify : (allowServiceTd : Bool) → (quote : Bytes) → C → (nowSecs : UInt64) → Except String VerifiedReport

def Report.body : Report → Option (TdReport10 × Option (Block 48))
  | .td10 td => some (td,none)
  | .td15 td => some (td.base,some td.mrServiceTd)
  | .sgxEnclave => none

def headerByteLen : ℕ := 48
def teeTypeTdx : ℕ := 0x81
def allowedTdxQuoteVersions : List ℕ := [4,5]
def tdReport10ByteLen : ℕ := 584
def leAt (b : Bytes) (lo hi : ℕ) : ℕ := ofBe ((b.drop lo).take (hi - lo)).reverse
def hexText (b : Bytes) : String := String.ofList ((toHex b).map fun x => Char.ofNat x.toNat)

def prevalidateQuote (quote : Bytes) : Except AttestError Unit := do
  let minLen:=headerByteLen+tdReport10ByteLen
  ensure (minLen≤quote.length) (.malformed ("TDX quote too short: " ++ toString quote.length ++
    " bytes, need >= " ++ toString minLen))
  let version:=leAt quote 0 2
  ensure (allowedTdxQuoteVersions.contains version)
    (.malformed ("TDX quote header version " ++ toString version ++ " not in [4, 5]"))
  let teeType:=leAt quote 4 8
  ensure (teeType=teeTypeTdx) (.malformed ("quote tee_type 0x" ++ hexText (beBytes 4 teeType) ++
    " is not TDX (0x" ++ hexText (beBytes 4 teeTypeTdx) ++ ")"))

section
variable {C : Type} (dcap : Dcap C) (sha384 : Bytes → Block 48)
def verifyDcap (quote : Bytes) (collateral : C) (nowSecs : UInt64) (allowServiceTd : Bool) :
    Except AttestError VerifiedReport :=
  (dcap.verify allowServiceTd quote collateral nowSecs).mapError
    fun e => .chainVerification ("TDX DCAP verify: " ++ e)

def verifiedReport (quote collateralJson : Bytes) (nowSecs : UInt64) (policy : TdxPolicy) :
    Except AttestError VerifiedReport := do
  prevalidateQuote quote
  let collateral ← (dcap.collateral collateralJson).mapError
    fun e => .malformed ("TDX collateral JSON: " ++ e)
  verifyDcap dcap quote collateral nowSecs policy.mrServiceTd.isSome

def requireExact (label : String) {n : ℕ} (actual expected : Block n) : Except AttestError Unit :=
  ensure (actual=expected) (.policyViolation ("TDX " ++ label ++ " does not match the pinned policy"))

def isZero {n : ℕ} (b : Block n) : Bool := b.val.all (·=0)

def requireNonzero (name : String) (actual expected : Block 48) : Except AttestError Unit :=
  ensure (!(isZero actual||isZero expected))
    (.policyViolation ("TDX " ++ name ++ " must be nonzero in NIL production workload policy"))

def isDebug (tdAttributes : Block 8) : Bool := tdAttributes.val.head?.any (· &&& 1≠0)

def requireServiceTd : Option (Block 48) → Option (Block 48) → Except AttestError Unit
  | none,none => .ok ()
  | some actual,some expected => requireExact "MRSERVICETD" actual expected
  | none,some _ => .error (.policyViolation
      "TDX quote uses a TDREPORT 1.0 body but policy requires TDREPORT 1.5")
  | some _,none => .error (.policyViolation "TDX quote uses an unpinned TDREPORT 1.5 body")

def tdxIdentityDomain : Bytes := ascii "nil/attestation/tdx-identity/v1"++[0]

def serviceTdBytes : Option (Block 48) → Bytes
  | none => [0]
  | some value => 1::value.val

def identityInput (base : TdReport10) (serviceTd : Option (Block 48)) : Bytes :=
  tdxIdentityDomain++(base.mrTd.val++(base.tdAttributes.val++(base.xfam.val ++
    (base.mrConfigId.val++(base.mrOwner.val++(base.mrOwnerConfig.val++(base.rtMr0.val ++
      (base.rtMr1.val++(base.rtMr2.val++(base.rtMr3.val++serviceTdBytes serviceTd))))))))))

def appraiseReport (report : Report) (policy : TdxPolicy) : Except AttestError (Block 48) := do
  let (base,serviceTd) ← okOr report.body
    (.malformed "expected a TDX quote, got an SGX enclave report")
  ensure (!(isDebug policy.tdAttributes||isDebug base.tdAttributes))
    (.policyViolation "TDX debug mode is forbidden")
  requireNonzero "RTMR0" base.rtMr0 policy.rtMr0
  requireNonzero "RTMR1" base.rtMr1 policy.rtMr1
  requireNonzero "RTMR2" base.rtMr2 policy.rtMr2
  requireNonzero "RTMR3" base.rtMr3 policy.rtMr3
  requireExact "TDATTRIBUTES" base.tdAttributes policy.tdAttributes
  requireExact "XFAM" base.xfam policy.xfam
  requireExact "MRCONFIGID" base.mrConfigId policy.mrConfigId
  requireExact "MROWNER" base.mrOwner policy.mrOwner
  requireExact "MROWNERCONFIG" base.mrOwnerConfig policy.mrOwnerConfig
  requireExact "RTMR0" base.rtMr0 policy.rtMr0
  requireExact "RTMR1" base.rtMr1 policy.rtMr1
  requireExact "RTMR2" base.rtMr2 policy.rtMr2
  requireExact "RTMR3" base.rtMr3 policy.rtMr3
  requireServiceTd serviceTd policy.mrServiceTd
  .ok (sha384 (identityInput base serviceTd))

def strictTcbStatus (status : String) (advisoryIds : List String) : TcbStatus :=
  if status = "UpToDate" ∧ advisoryIds=[] then .upToDate
  else .outOfDate (status ++ " (" ++ toString advisoryIds.length ++ " advisory IDs)")

def verify (quote collateralJson : Bytes) (nowSecs : UInt64) (policy : TdxPolicy) :
    Except AttestError Evidence := do
  let verified ← verifiedReport dcap quote collateralJson nowSecs policy
  let measurement ← appraiseReport sha384 verified.report policy
  let (base,_) ← okOr verified.report.body
    (.malformed "expected a TDX quote, got an SGX enclave report")
  .ok ⟨.tdx,measurement.val,base.reportData,strictTcbStatus verified.status verified.advisoryIds⟩
end

structure Workload where
  mrTd : Block 48
  (tdAttributes xfam : Block 8)
  (mrConfigId mrOwner mrOwnerConfig rtMr0 rtMr1 rtMr2 rtMr3 : Block 48)
  /-- `none` in a body of version 1.0, MRSERVICETD in one of version 1.5. -/
  mrServiceTd : Option (Block 48)
  deriving DecidableEq

def workload (base : TdReport10) (serviceTd : Option (Block 48)) : Workload :=
  ⟨base.mrTd,base.tdAttributes,base.xfam,base.mrConfigId,base.mrOwner,base.mrOwnerConfig,
    base.rtMr0,base.rtMr1,base.rtMr2,base.rtMr3,serviceTd⟩

def Report.workload (report : Report) : Option Workload := report.body.map fun b => Tdx.workload b.1 b.2
def Report.reportData (report : Report) : Option (Block 64) := report.body.map fun b => b.1.reportData
def Workload.rtMrs (w : Workload) : List (Block 48) := [w.rtMr0,w.rtMr1,w.rtMr2,w.rtMr3]

structure Workload.Production (w : Workload) : Prop where
  noDebug : isDebug w.tdAttributes=false
  nonzero : ∀ rtMr∈w.rtMrs, isZero rtMr=false

def Workload.policy (w : Workload) : TdxPolicy :=
  ⟨w.tdAttributes,w.xfam,w.mrConfigId,w.mrOwner,w.mrOwnerConfig,w.rtMr0,w.rtMr1,w.rtMr2,w.rtMr3,w.mrServiceTd⟩

variable {s s' : Option (Block 48)}
lemma serviceTdBytes_inj (h : serviceTdBytes s=serviceTdBytes s') : s=s' := by
  cases s with
  | none =>
    cases s' with
    | none => rfl
    | some v' => exact absurd (head_eq_of_cons_eq h) (by decide)
  | some v =>
    cases s' with
    | none => exact absurd (head_eq_of_cons_eq h) (by decide)
    | some v' => rw [Subtype.ext (tail_eq_of_cons_eq h)]

/-- The fields have fixed lengths and the optional one is last, so the input has one reading. -/
lemma identityInput_inj {b t' : TdReport10} (h : identityInput b s=identityInput t' s') :
    workload b s=workload t' s' := by
  obtain ⟨hm,h⟩ := Block.append_inj (append_cancel_left h)
  obtain ⟨ha,h⟩ := Block.append_inj h
  obtain ⟨hx,h⟩ := Block.append_inj h
  obtain ⟨hc,h⟩ := Block.append_inj h
  obtain ⟨how,h⟩ := Block.append_inj h
  obtain ⟨ho,h⟩ := Block.append_inj h
  obtain ⟨hrr,h⟩ := Block.append_inj h
  obtain ⟨hrt,h⟩ := Block.append_inj h
  obtain ⟨hr,h⟩ := Block.append_inj h
  obtain ⟨hrM,h⟩ := Block.append_inj h
  rw [workload,workload,hm,ha,hx,hc,how,ho,hrr,hrt,hr,hrM,serviceTdBytes_inj h]

lemma requireExact_eq_ok {label : String} {n : ℕ} {a expected : Block n} {u : Unit}
    (h : requireExact label a expected=.ok u) : a=expected :=
  of_decide_eq_true (ensure_eq_ok h)

lemma requireNonzero_eq_ok {name : String} {actual expected : Block 48} {u : Unit}
    (h : requireNonzero name actual expected=.ok u) : isZero actual=false := by
  have hb:=ensure_eq_ok h
  rw [Bool.not_eq_true',Bool.or_eq_false_iff] at hb
  exact hb.1

lemma requireServiceTd_eq_ok {actual expected : Option (Block 48)} {u : Unit}
    (h : requireServiceTd actual expected=.ok u) : actual=expected := by
  cases actual <;> cases expected
  case none.none => rfl
  case some.some => rw [requireExact_eq_ok h]
  all_goals cases h

variable {sha384 : Bytes → Block 48}
lemma appraiseReport_eq_ok {r : Report} {p : TdxPolicy} {m : Block 48}
    (h : appraiseReport sha384 r p=.ok m) :
    ∃ ba serviceTd, r.body=some (ba,serviceTd) ∧ m=sha384 (identityInput ba serviceTd) ∧
      (workload ba serviceTd).policy=p ∧ (workload ba serviceTd).Production := by
  obtain ⟨⟨ba,serviceTd⟩,hb,h⟩ := except_bind_ok h
  obtain ⟨_,hd,_,hn0,_,hn1,_,hn2,h⟩ := except_bind_ok₄ h
  obtain ⟨_,hn3,_,ha,_,hx,_,hc,h⟩ := except_bind_ok₄ h
  obtain ⟨_,how,_,ho,_,hrM,_,hrt,h⟩ := except_bind_ok₄ h
  obtain ⟨_,hr,_,hrr,h⟩ := except_bind_ok₂ h
  obtain ⟨_,hs,h⟩ := except_bind_ok h
  have hn : isDebug ba.tdAttributes=false := by
    grind [Bool.not_eq_true',Bool.or_eq_false_iff,ensure_eq_ok]
  refine ⟨ba,serviceTd,okOr_eq_ok hb,(Except.ok.inj h).symm,?_,hn,?_⟩
  · rw [Workload.policy,workload,requireExact_eq_ok ha,requireExact_eq_ok hx,
      requireExact_eq_ok hc,requireExact_eq_ok how,requireExact_eq_ok ho,
      requireExact_eq_ok hrM,requireExact_eq_ok hrt,requireExact_eq_ok hr,
      requireExact_eq_ok hrr,requireServiceTd_eq_ok hs]
  · grind [Workload.rtMrs,workload,requireNonzero_eq_ok]

lemma strictTcbStatus_upToDate {st : String} {advisoryIds : List String}
    (h : strictTcbStatus st advisoryIds=.upToDate) : st = "UpToDate" ∧ advisoryIds=[] := by
  unfold strictTcbStatus at h
  split at h
  · assumption
  · cases h

lemma verify_eq_ok {C : Type} {dcap : Dcap C} {q j : Bytes} {now : UInt64} {p : TdxPolicy} {e : Evidence}
    (h : verify dcap sha384 q j now p=.ok e) : ∃ v base st, verifiedReport dcap q j now p=.ok v ∧
      v.report.body=some (base,st) ∧ (workload base st).Production ∧
      (workload base st).policy=p ∧
      e=⟨.tdx,(sha384 (identityInput base st)).val,base.reportData,
        strictTcbStatus v.status v.advisoryIds⟩ := by
  obtain ⟨v,hv,m,ha,h⟩ := except_bind_ok₂ h
  obtain ⟨⟨base',_⟩,hbase',h⟩ := except_bind_ok h
  obtain ⟨base,st,hb,hm,hpo,hp⟩ := appraiseReport_eq_ok ha
  have hs : base'=base := by simp_all
  refine ⟨v,base,st,hv,hb,hp,hpo,?_⟩
  rw [← Except.ok.inj h,hm,hs]
end NilVpn.Attest.Tdx
