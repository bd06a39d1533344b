import NilVpn.Attest.Evidence

/-!
# AMD SEV-SNP reports (nil-attest/src/report/sevsnp.rs:1-123)

Parsing and the certificate chain of the `sev` crate are parameters. `TcbVersion` derives its order.
-/

namespace NilVpn.Attest.SevSnp
open Base
open NilVpn.Core (SevSnpTcbFloor)

structure TcbVersion where
  fmc : Option UInt8
  (bootloader tee snp microcode : UInt8)
  deriving DecidableEq,Repr

def fmcLt : Option UInt8 → Option UInt8 → Bool
  | none,some _ => true
  | some a,some b => a<b
  | _,none => false

def TcbVersion.lt (a b : TcbVersion) : Bool :=
  if a.fmc≠b.fmc then fmcLt a.fmc b.fmc
  else if a.bootloader≠b.bootloader then a.bootloader<b.bootloader
  else if a.tee≠b.tee then a.tee<b.tee
  else if a.snp≠b.snp then a.snp<b.snp
  else a.microcode<b.microcode

structure AttestationReport where
  (debugAllowed migrateMaAllowed : Bool)
  (currentTcb committedTcb : TcbVersion)
  measurement : Block 48
  reportData : Block 64
  deriving DecidableEq

/-- The `sev` crate: `V` are VCEK certificates, `A` the pairs of an ARK and an ASK. -/
structure Sev (V A : Type) where
  report : Bytes → Except String AttestationReport
  certificate : Bytes → Except String V
  (milan genoa turin : Option A)
  chainVerify : A → V → AttestationReport → Except String Unit

section
variable {V A : Type} (sev : Sev V A)
def tryChains (vek : V) (report : AttestationReport) :
    List (String × Option A) → String → Except AttestError A
  | [],last => .error (.chainVerification last)
  | (_,none)::cas,last => tryChains vek report cas last
  | (name,some ca)::cas,_ =>
    match sev.chainVerify ca vek report with
    | .ok () => .ok ca
    | .error e => tryChains vek report cas (name ++ ": " ++ e)

def verifyingChain (vek : V) (report : AttestationReport) : Except AttestError A :=
  tryChains sev vek report [("milan",sev.milan),("genoa",sev.genoa),("turin",sev.turin)]
    "no built-in AMD generation matched"

def TcbVersion.meets (tcb : TcbVersion) (floor : SevSnpTcbFloor) : Bool :=
  floor.isMetBy tcb.fmc tcb.bootloader tcb.tee tcb.snp tcb.microcode

def tcbStatus (report : AttestationReport) (minTcb : Option SevSnpTcbFloor) : TcbStatus :=
  if report.currentTcb.lt report.committedTcb then
    .outOfDate "SEV-SNP current_tcb below committed_tcb"
  else if minTcb.any (fun floor => !report.currentTcb.meets floor) then
    .outOfDate "SEV-SNP current_tcb below pinned minimum floor"
  else .upToDate

def appraiseReport (report : AttestationReport) (minTcb : Option SevSnpTcbFloor) :
    Except AttestError Evidence := do
  ensure (!report.debugAllowed) (.policyViolation "SEV-SNP guest policy permits DEBUG (memory introspection)")
  ensure (!report.migrateMaAllowed) (.policyViolation "SEV-SNP guest policy permits migration (MIGRATE_MA)")
  .ok ⟨.sevSnp,report.measurement.val,report.reportData,tcbStatus report minTcb⟩

def verifiedReport (reportBytes vcekDer : Bytes) : Except AttestError AttestationReport := do
  let report ← (sev.report reportBytes).mapError
    fun e => .malformed ("SEV-SNP report decode: " ++ e)
  let vek ← (sev.certificate vcekDer).mapError fun e => .cert ("VCEK DER: " ++ e)
  let chain ← verifyingChain sev vek report
  (sev.chainVerify chain vek report).mapError
    fun e => .chainVerification ("SEV-SNP chain/report: " ++ e)
  .ok report

def verify (reportBytes vcekDer : Bytes) (minTcb : Option SevSnpTcbFloor) :
    Except AttestError Evidence := do
  let report ← verifiedReport sev reportBytes vcekDer
  appraiseReport report minTcb
end

/-- Component by component, and the FMC where both sides carry one. -/
structure TcbVersion.AtLeast (a b : TcbVersion) : Prop where
  fmc : ∀ x y, a.fmc=some x → b.fmc=some y → y≤x
  bootloader : b.bootloader≤a.bootloader
  tee : b.tee≤a.tee
  snp : b.snp≤a.snp
  microcode : b.microcode≤a.microcode

def floorTcb (floor : SevSnpTcbFloor) : TcbVersion :=
  ⟨floor.fmc,floor.bootloader,floor.tee,floor.snp,floor.microcode⟩

lemma atLeast_of_meets {f : SevSnpTcbFloor} {tcb : TcbVersion} (h : tcb.meets f) :
    tcb.AtLeast (floorTcb f) := by
  simp only [TcbVersion.meets,SevSnpTcbFloor.isMetBy,Bool.and_eq_true,decide_eq_true_eq] at h
  obtain ⟨⟨⟨⟨hb,ht⟩,hs⟩,hm⟩,hc⟩ := h
  refine ⟨?_,hb,ht,hs,hm⟩
  intro x y hx hy
  have hf : f.fmc=some y := hy
  rw [hf,hx] at hc
  exact of_decide_eq_true hc

/-- The first component that differs is higher, and one behind it is lower. -/
def TcbVersion.Masks (a b : TcbVersion) : Prop :=
  fmcLt b.fmc a.fmc ∧ (a.bootloader<b.bootloader ∨ a.tee<b.tee ∨ a.snp<b.snp ∨
      a.microcode<b.microcode) ∨
  a.fmc=b.fmc ∧ (b.bootloader<a.bootloader ∧ (a.tee<b.tee ∨ a.snp<b.snp ∨ a.microcode<b.microcode) ∨
    a.bootloader=b.bootloader ∧ (b.tee<a.tee ∧ (a.snp<b.snp ∨ a.microcode<b.microcode) ∨
      a.tee=b.tee ∧ b.snp<a.snp ∧ a.microcode<b.microcode))

/-- What the lexicographic order misses of a rollback. -/
lemma masks_iff (a b : TcbVersion) : a.Masks b ↔ a.lt b=false ∧ ¬a.AtLeast b := by
  obtain ⟨f,bl,te,sn,mc⟩ := a
  obtain ⟨f',bl',te',sn',mc'⟩ := b
  have hat : (⟨f,bl,te,sn,mc⟩ : TcbVersion).AtLeast ⟨f',bl',te',sn',mc'⟩ ↔
      (∀ x∈f, ∀ y∈f', y≤x) ∧ bl'≤bl ∧ te'≤te ∧ sn' ≤ sn ∧ mc' ≤ mc :=
    ⟨fun h => ⟨fun x hx y hy => h.1 x y hx hy,h.2,h.3,h.4,h.5⟩,
      fun h => ⟨fun x y hx hy => h.1 x hx y hy,h.2.1,h.2.2.1,h.2.2.2.1,h.2.2.2.2⟩⟩
  rw [hat,TcbVersion.Masks,TcbVersion.lt]
  clear hat
  cases f <;> cases f' <;> simp [fmcLt] <;> grind

variable {r : AttestationReport} {V A : Type} {sev : Sev V A}
lemma tcbStatus_upToDate {m : Option SevSnpTcbFloor} : tcbStatus r m=.upToDate ↔
    r.currentTcb.lt r.committedTcb=false ∧ ∀ floor, m=some floor → r.currentTcb.meets floor := by
  unfold tcbStatus
  cases m <;> grind

lemma verify_eq_ok {reportBytes vcekDer : Bytes} {m : Option SevSnpTcbFloor}
    {e : Evidence} (h : verify sev reportBytes vcekDer m=.ok e) :
    ∃ r, verifiedReport sev reportBytes vcekDer=.ok r ∧ r.debugAllowed=false ∧ r.migrateMaAllowed=false ∧
      e=⟨.sevSnp,r.measurement.val,r.reportData,tcbStatus r m⟩ := by
  obtain ⟨r,hr,_,hd,h⟩ := except_bind_ok₂ h
  obtain ⟨_,hm,h⟩ := except_bind_ok h
  refine ⟨r,hr,?_,?_,(Except.ok.inj h).symm⟩
  · exact Bool.not_eq_true' _ ▸ ensure_eq_ok hd
  · exact Bool.not_eq_true' _ ▸ ensure_eq_ok hm
end NilVpn.Attest.SevSnp
