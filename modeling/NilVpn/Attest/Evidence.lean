import NilVpn.Base.Frames
import NilVpn.Core.Attestation

/-!
# Appraisal policy and attestation evidence (nil-attest/src/policy.rs, ratls.rs, report/mod.rs)

The evidence blob is `[tag][len|part]...` with big-endian lengths of four bytes.
The hashes are parameters.
-/

namespace NilVpn.Attest
open Base List
open Nwg2 (Tee)
open Coordinator (TdxPolicy)
open NilVpn.Core (SevSnpTcbFloor)

inductive AttestError
  | cert (reason : String)
  | malformed (reason : String)
  | unsupportedTee (tag : UInt8)
  | teeMismatch (expected found : Tee)
  | chainVerification (reason : String)
  | measurementMismatch
  | tlsSpkiMismatch
  | reportDataMismatch
  | tcbNotUpToDate (reason : String)
  | policyViolation (reason : String)
  | transparencyNotLogged (reason : String)
  deriving DecidableEq,Repr

inductive TcbStatus
  | upToDate
  | outOfDate (reason : String)
  deriving DecidableEq,Repr

structure AppraisalPolicy where
  tee : Tee
  expectedMeasurement : Bytes
  tlsSpkiSha256 : Option (Block 32)
  allowTcbOutOfDate : Bool
  minTcbSevsnp : Option SevSnpTcbFloor
  tdxPolicy : Option TdxPolicy
  transparencyLogKey : Option (Block 32)

def AppraisalPolicy.new (tee : Tee) (expectedMeasurement : Bytes) : AppraisalPolicy where
  tee := tee
  expectedMeasurement := expectedMeasurement
  tlsSpkiSha256 := none
  allowTcbOutOfDate := false
  minTcbSevsnp := none
  tdxPolicy := none
  transparencyLogKey := none

structure Verdict where
  tee : Tee
  measurement : Bytes
  tcbStatus : TcbStatus
  deriving DecidableEq

structure Evidence where
  tee : Tee
  measurement : Bytes
  reportData : Block 64
  tcbStatus : TcbStatus
  deriving DecidableEq

def tagSevsnp : UInt8 := 1
def tagTdx : UInt8 := 2

def encodeParts : List Bytes → Bytes
  | [] => []
  | part::parts => beBytes 4 part.length++(part++encodeParts parts)

def encode (tag : UInt8) (parts : List Bytes) : Bytes := tag::encodeParts parts

def decodeParts (rest : Bytes) : Except AttestError (List Bytes) :=
  if rest=[] then .ok []
  else if _h : rest.length<4 then .error (.malformed "truncated length prefix")
  else
    let len:=ofBe (rest.take 4)
    let body:=rest.drop 4
    if body.length<len then .error (.malformed "truncated evidence part")
    else do
      let parts ← decodeParts (body.drop len)
      .ok (body.take len::parts)
termination_by rest.length
decreasing_by
  simp only [List.length_drop]
  omega

lemma decodeParts_encodeParts (parts : List Bytes) (h : ∀ pr∈parts, pr.length<2^32) :
    decodeParts (encodeParts parts)=.ok parts := by
  induction parts with
  | nil =>
    rw [encodeParts,decodeParts]
    rfl
  | cons pr parts ih =>
    have he : encodeParts (pr::parts)=frame 4 pr++encodeParts parts := (append_assoc ..).symm
    have hl : ¬(frame 4 pr++encodeParts parts).length<4 := by
      rw [length_append,frame_length]
      omega
    have hb : ¬(pr++encodeParts parts).length<pr.length := by
      rw [length_append]
      omega
    rw [he,decodeParts,if_neg (frame_ne_nil (by decide)),dif_neg hl]
    simp only [take_frame,drop_frame,ofBe_beBytes 4 pr.length (h pr (mem_cons_self ..))]
    rw [if_neg hb,drop_left,take_left,ih (fun p hp => h p (mem_cons_of_mem _ hp)),ok_bind]

lemma encodeParts_of_decodeParts {rest : Bytes} {parts : List Bytes} (h : decodeParts rest=.ok parts) :
    encodeParts parts=rest := by
  induction rest using decodeParts.induct generalizing parts with
  | case1 =>
    rw [decodeParts,if_pos rfl] at h
    rw [← Except.ok.inj h]
    rfl
  | case2 rest hn hs =>
    rw [decodeParts,if_neg hn,dif_pos hs] at h
    cases h
  | case3 rest hn hs len bo =>
    rename_i ht
    rw [decodeParts,if_neg hn,dif_neg hs] at h
    dsimp only at h
    rw [if_pos ht] at h
    cases h
  | case4 rest hn hs len bo ht =>
    rename_i ih
    rw [decodeParts,if_neg hn,dif_neg hs] at h
    dsimp only at h
    rw [if_neg ht] at h
    obtain ⟨ps,hp,hr⟩ := except_bind_ok h
    rw [← Except.ok.inj hr,encodeParts,ih hp]
    have hl : (rest.take 4).length=4 := length_take_of_le (by omega)
    have hw : ((rest.drop 4).take (ofBe (rest.take 4))).length=ofBe (rest.take 4) :=
      length_take_of_le (Nat.le_of_not_lt ht)
    have hb:=beBytes_ofBe (rest.take 4)
    rw [hl] at hb
    rw [hw,hb,take_append_drop,take_append_drop]

theorem evidence_canonical :
    (∀ tag parts, (∀ part∈parts, part.length<2^32) → decodeParts (encode tag parts).tail=.ok parts) ∧
    (∀ tag rest parts, decodeParts rest=.ok parts → encode tag parts=tag::rest) ∧
    ∀ tag parts parts', (∀ part∈parts, part.length<2^32) → (∀ part∈parts', part.length<2^32) →
      encode tag parts=encode tag parts' → parts=parts' := by
  refine ⟨fun _ => decodeParts_encodeParts,fun tag rest parts h => ?_,fun tag parts parts' hp hp' h => ?_⟩
  · rw [encode,encodeParts_of_decodeParts h]
  · have he : encodeParts parts=encodeParts parts' := (List.cons.inj h).2
    have hd:=decodeParts_encodeParts parts hp
    rw [he,decodeParts_encodeParts parts' hp'] at hd
    exact (Except.ok.inj hd).symm

section
variable (sha256 : Bytes → Block 32) (sha512 : Bytes → Block 64)
def bindingInput (spki : Bytes) (nonce : Block 32) : Bytes := (sha256 spki).val++nonce.val

def bindReportData (spki : Bytes) (nonce : Block 32) : Block 64 :=
  sha512 (bindingInput sha256 spki nonce)

variable {sha256 sha512}
lemma bindReportData_inj {spkis bindings : Set Bytes} (h256 : Set.InjOn sha256 spkis)
    (h5 : Set.InjOn sha512 bindings) {sk sk' : Bytes} {nonce nonce' : Block 32}
    (hs : sk∈spkis) (hs' : sk'∈spkis) (hb : bindingInput sha256 sk nonce∈bindings)
    (hb' : bindingInput sha256 sk' nonce'∈bindings)
    (h : bindReportData sha256 sha512 sk nonce=bindReportData sha256 sha512 sk' nonce') :
    sk=sk' ∧ nonce=nonce' := by
  have hin : (sha256 sk).val++nonce.val=(sha256 sk').val++nonce'.val := h5 hb hb' h
  obtain ⟨hd,hn⟩ := Block.append_inj hin
  exact ⟨h256 hs hs' hd,Subtype.ext hn⟩
end
end NilVpn.Attest
