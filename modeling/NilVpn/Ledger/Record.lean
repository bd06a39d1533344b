import Mathlib.Data.List.Sort
import NilVpn.Base.Block
import NilVpn.Base.Prog
import NilVpn.Base.Result
import NilVpn.Base.Table
import NilVpn.Base.Utf8

/-!
# Redemption records and their lines (nil-coordinator/src/nullifier.rs)

A `str` is its UTF-8 bytes. AES-256-GCM under the store's key is a parameter.
-/

namespace NilVpn.Ledger
open Base

def recordVersion : Bytes := ascii "NR2"
def aadDomain : Bytes := ascii "nilvpn.redemption-result.v1"
def nonceLen : ℕ := 12
def tagLen : ℕ := 16
def maxReplayResultBytes : ℕ := 64*1024
def maxCiphertextBytes : ℕ := nonceLen+maxReplayResultBytes+tagLen
def maxStoredNullifierHex : ℕ := 16*1024
def maxRecordLineBytes : ℕ := 4+1+10+1+maxStoredNullifierHex+1+20+1+maxCiphertextBytes*2+1
def legacyEpoch : UInt32 := 0

structure Nonce where
  bytes : Bytes
  length_eq : bytes.length=nonceLen

/-- AES-256-GCM under the store's key: nonce, associated data, message. -/
structure Aead where
  encrypt : Nonce → Bytes → Bytes → Option Bytes
  decrypt : Bytes → Bytes → Bytes → Option Bytes

def aad (epoch : UInt32) (key : Bytes) (replayUntil : UInt64) : Bytes :=
  aadDomain++beBytes 4 epoch.toNat++beBytes 8 replayUntil.toNat++key

/-- `ReplayCipher::seal`; `entropy` is what `getrandom` delivers. -/
def sealReplay (cipher : Aead) (entropy : Option Nonce) (epoch : UInt32) (key : Bytes)
    (replayUntil : UInt64) (plaintext : Bytes) : Except IoError Bytes :=
  if plaintext=[] ∨ plaintext.length > maxReplayResultBytes then
    .error ⟨.invalidInput,"redemption replay result is empty or exceeds its fixed bound"⟩
  else match entropy with
    | none => .error ⟨.other,"redemption replay nonce entropy unavailable"⟩
    | some nonce => match cipher.encrypt nonce (aad epoch key replayUntil) plaintext with
      | none => .error ⟨.other,"encrypt redemption replay result"⟩
      | some encrypted => .ok (nonce.bytes++encrypted)

def openReplay (cipher : Aead) (epoch : UInt32) (key : Bytes) (replayUntil : UInt64)
    (stored : Bytes) : Except IoError Bytes :=
  if stored.length<nonceLen+tagLen ∨ maxCiphertextBytes<stored.length then
    .error ⟨.invalidData,"redemption replay ciphertext has an invalid length"⟩
  else match cipher.decrypt (stored.take nonceLen) (aad epoch key replayUntil)
      (stored.drop nonceLen) with
    | none => .error ⟨.invalidData,"redemption replay ciphertext authentication failed"⟩
    | some plaintext =>
      if plaintext=[] ∨ plaintext.length > maxReplayResultBytes then
        .error ⟨.invalidData,"redemption replay plaintext has an invalid length"⟩
      else .ok plaintext

def Aead.Opens (cipher : Aead) : Prop :=
  ∀ entropy epoch key replayUntil plaintext stored,
    sealReplay cipher entropy epoch key replayUntil plaintext=.ok stored →
    openReplay cipher epoch key replayUntil stored=.ok plaintext

structure StoredRecord where
  epoch : UInt32
  replayUntil : Option UInt64
  ciphertext : Option Bytes
  deriving DecidableEq

namespace StoredRecord
def spentOnly (epoch : UInt32) : StoredRecord := ⟨epoch,none,none⟩

def liveCiphertext (r : StoredRecord) (now : UInt64) : Option (UInt64 × Bytes) :=
  match r.replayUntil,r.ciphertext with
  | some replayUntil,some ciphertext =>
    if now < replayUntil then some (replayUntil,ciphertext) else none
  | _,_ => none

def clear (r : StoredRecord) : StoredRecord := {r with replayUntil := none,ciphertext := none}
end StoredRecord

inductive CommitOutcome
  | granted (response : Bytes) (newlyCommitted : Bool)
  | alreadySpent
  deriving DecidableEq

def validateCommit (key : Bytes) (replayUntil : UInt64) (proposedResponse : Bytes)
    (now : UInt64) : Except IoError Unit :=
  if key.length≠64 ∨ key.all isLowerHex=false then
    .error ⟨.invalidInput,"nullifier must be exactly 32 bytes of canonical lowercase hex"⟩
  else if replayUntil≤now then
    .error ⟨.invalidInput,"redemption replay result is already expired"⟩
  else if proposedResponse=[] ∨ proposedResponse.length > maxReplayResultBytes then
    .error ⟨.invalidInput,"redemption replay result is empty or exceeds its fixed bound"⟩
  else .ok ()

def liveOutcome (cipher : Aead) (key : Bytes) (record : StoredRecord) (now : UInt64)
    (newlyCommitted : Bool) : Option CommitOutcome :=
  match record.liveCiphertext now with
  | none => none
  | some (replayUntil,ciphertext) =>
    match openReplay cipher record.epoch key replayUntil ciphertext with
    | .ok response => some (.granted response newlyCommitted)
    | .error _ => some .alreadySpent

abbrev Records := Table Bytes StoredRecord

def StoredRecord.prune (now : UInt64) (r : StoredRecord) : StoredRecord × Bool :=
  match r.replayUntil with
  | some replayUntil => if replayUntil≤now then (r.clear,r.ciphertext.isSome) else (r,false)
  | none => (r,false)

def pruneRecords (now : UInt64) (t : Records) : Records := t.mapVal fun r => (r.prune now).1
def prunedCount (now : UInt64) (t : Records) : ℕ := t.entries.countP fun e => (e.2.prune now).2

inductive FileMode
  | flat
  | epoch
  deriving DecidableEq

def validateStoredKey (key : Bytes) : Except IoError Unit :=
  if key≠[] ∧ key.length ≤ maxStoredNullifierHex ∧ key.length % 2=0 ∧ key.all isLowerHex=true then .ok ()
  else .error ⟨.invalidData,"stored nullifier is not canonical lowercase hex"⟩

def dash : Bytes := ascii "-"

def recordText (epoch : UInt32) (key replayUntil ciphertext : Bytes) : Bytes :=
  recordVersion++[space]++decimal epoch.toNat++[space]++key++[space]++replayUntil++[space]++ciphertext

def encodeRecord (key : Bytes) (record : StoredRecord) : Except IoError Bytes := do
  validateStoredKey key
  let fields ← match record.replayUntil,record.ciphertext with
    | some replayUntil,some ciphertext => .ok (decimal replayUntil.toNat,toHex ciphertext)
    | none,none => .ok (dash,dash)
    | _,_ => .error ⟨.invalidData,"inconsistent redemption record"⟩
  let line:=recordText record.epoch key fields.1 fields.2++[newline]
  if line.length > maxRecordLineBytes then
    .error ⟨.invalidData,"redemption record exceeds its fixed bound"⟩
  else .ok line

def parseEpoch (text : String) (field : Bytes) : Except IoError UInt32 :=
  match parseUnsigned (2^32) field with
  | some n => .ok (UInt32.ofNat n)
  | none => .error ⟨.invalidData,text⟩

def parseReplay (epoch : UInt32) (replayUntil ciphertext : Bytes) : Except IoError StoredRecord :=
  if replayUntil=dash ∧ ciphertext=dash then .ok (StoredRecord.spentOnly epoch)
  else match parseUnsigned (2^64) replayUntil with
    | none => .error ⟨.invalidData,"invalid replay expiry"⟩
    | some n =>
      if ciphertext.length > maxCiphertextBytes*2 ∨ ciphertext.length % 2≠0 ∨
          ciphertext.all isLowerHex=false then
        .error ⟨.invalidData,"invalid replay ciphertext encoding"⟩
      else match fromHex ciphertext with
        | none => .error ⟨.invalidData,"invalid replay ciphertext"⟩
        | some bytes => .ok ⟨epoch,some (UInt64.ofNat n),some bytes⟩

def parseFields (mode : FileMode) (fields : List Bytes) : Except IoError (Bytes × StoredRecord) :=
  if fields.head?=some recordVersion then
    match fields with
    | [_,epoch,key,replayUntil,ciphertext] => do
      let epoch ← parseEpoch "invalid redemption epoch" epoch
      validateStoredKey key
      let record ← parseReplay epoch replayUntil ciphertext
      .ok (key,record)
    | _ => .error ⟨.invalidData,"malformed redemption record"⟩
  else match fields with
    | [key] => do
      validateStoredKey key
      .ok (key,StoredRecord.spentOnly legacyEpoch)
    | [epoch,key] => do
      let epoch ← parseEpoch "invalid legacy redemption epoch" epoch
      validateStoredKey key
      .ok (key,StoredRecord.spentOnly epoch)
    | _ => .error ⟨.invalidData,match mode with
      | .flat => "malformed flat nullifier record"
      | .epoch => "malformed epoch nullifier record"⟩

def stripReturn (line : Bytes) : Bytes :=
  if line.getLast?=some carriageReturn then line.dropLast else line

def loadLine (mode : FileMode) (t : Records) (line : Bytes) : Except IoError Records :=
  if line.length+1 > maxRecordLineBytes then
    .error ⟨.invalidData,"redemption record line exceeds its fixed bound"⟩
  else if stripReturn line=[] then .ok t
  else match scalars (stripReturn line) with
    | none => .error ⟨.invalidData,"redemption record is not UTF-8"⟩
    | some text => do
      let (key,record) ← parseFields mode (splitWhitespace text)
      .ok (t.orInsert key record)

def loadLines (mode : FileMode) : List Bytes → Records → Except IoError Records
  | [],t => .ok t
  | l::ls,t => do
    let t ← loadLine mode t l
    loadLines mode ls t

def loadBytes (mode : FileMode) (c : Bytes) : Except IoError Records := do
  let t ← loadLines mode (splitLines c).1 Table.empty
  if (splitLines c).2.length > maxRecordLineBytes then
    .error ⟨.invalidData,"redemption record line exceeds its fixed bound"⟩
  else .ok t

open Except List Table

lemma validateStoredKey_ok (key : Bytes) : validateStoredKey key=.ok () ↔
    key≠[] ∧ key.length ≤ maxStoredNullifierHex ∧ key.length % 2=0 ∧ key.all isLowerHex := by
  simp [validateStoredKey]

structure Storable (key : Bytes) (r : StoredRecord) : Prop where
  key_ok : validateStoredKey key=.ok ()
  consistent : r.replayUntil.isSome=r.ciphertext.isSome
  bounded : ∀ c, r.ciphertext=some c → c≠[] ∧ c.length ≤ maxCiphertextBytes

variable {key : Bytes} {r : StoredRecord} {mode : FileMode} {t t' : Records} {ls : List Bytes}
lemma Storable.clear (h : Storable key r) : Storable key r.clear :=
  ⟨h.key_ok,rfl,fun _ hc => by cases hc⟩

lemma storable_spentOnly (epoch : UInt32) (h : validateStoredKey key=.ok ()) :
    Storable key (StoredRecord.spentOnly epoch) :=
  ⟨h,rfl,fun _ hc => by cases hc⟩

def AllStorable (t : Records) : Prop := ∀ k r, t.get k=some r → Storable k r

def replayFields (r : StoredRecord) : Bytes × Bytes :=
  match r.replayUntil,r.ciphertext with
  | some replayUntil,some ciphertext => (decimal replayUntil.toNat,toHex ciphertext)
  | _,_ => (dash,dash)

def lineText (key : Bytes) (r : StoredRecord) : Bytes :=
  recordText r.epoch key (replayFields r).1 (replayFields r).2

lemma isWord_decimal (n : ℕ) : IsWord (decimal n) :=
  isWord_lowerHex _ fun b hb => isLowerHex_of_isDigit b (decimal_digits n b hb)

lemma isWord_dash : IsWord dash := isWord_of_all dash (by decide)

lemma isWord_recordVersion : IsWord recordVersion := isWord_of_all recordVersion (by decide)

lemma isWord_key (h : validateStoredKey key=.ok ()) : IsWord key := by
  grind [validateStoredKey_ok,isWord_lowerHex]

lemma decimal_epoch_length (e : UInt32) : (decimal e.toNat).length≤10 :=
  decimal_length _ 9 (lt_trans e.toNat_lt (by norm_num))

lemma parseEpoch_decimal (t : String) (e : UInt32) : parseEpoch t (decimal e.toNat)=.ok e := by
  simp [parseEpoch,parseUnsigned_decimal (2^32) e.toNat e.toNat_lt]

lemma decimal_ne_dash (n : ℕ) : decimal n≠dash := by
  intro h
  have hd:=decimal_digits n 45 (by rw [h]; decide)
  revert hd
  decide

section
variable (h : Storable key r)
include h
lemma replayFields_word :
    (IsWord (replayFields r).1 ∧ (replayFields r).1≠[] ∧ (replayFields r).1.length≤20) ∧
    (IsWord (replayFields r).2 ∧ (replayFields r).2≠[] ∧ (replayFields r).2.length≤2*maxCiphertextBytes) := by
  have hd : dash≠[] := by decide
  have hl : dash.length=1 := by decide
  have hm : 1 ≤ maxCiphertextBytes := by decide
  unfold replayFields
  split
  next ru c hu hc =>
    obtain ⟨hne,hle⟩ := h.bounded c hc
    have hu64 : ru.toNat<10^(19+1) := lt_trans ru.toNat_lt (by norm_num)
    refine ⟨⟨isWord_decimal _,decimal_ne_nil _,decimal_length _ 19 hu64⟩,
      isWord_lowerHex _ (toHex_lowerHex c),?_,?_⟩
    · intro (he : toHex c=[])
      have hl:=toHex_length c
      rw [he] at hl
      exact hne (length_eq_zero_iff.mp (by simpa using hl.symm))
    · show (toHex c).length≤_
      rw [toHex_length]
      omega
  · refine ⟨⟨isWord_dash,hd,?_⟩,isWord_dash,hd,?_⟩
    · show dash.length≤20
      omega
    · show dash.length≤_
      omega

lemma lineText_length : (lineText key r).length+1 ≤ maxRecordLineBytes := by
  obtain ⟨⟨-,-,h3⟩,-,-,h4⟩ := replayFields_word h
  obtain ⟨-,hk,-,-⟩ := (validateStoredKey_ok key).mp h.key_ok
  have he:=decimal_epoch_length r.epoch
  have hv : recordVersion.length=3 := by decide
  simp only [lineText,recordText,length_append,length_singleton,maxRecordLineBytes]
  omega

lemma encodeRecord_storable : encodeRecord key r=.ok (lineText key r++[newline]) := by
  have hlen:=lineText_length h
  have hcn:=h.consistent
  unfold encodeRecord
  rw [h.key_ok]
  cases hu : r.replayUntil with
  | none =>
    have hc : r.ciphertext=none := by simp_all
    have hl : lineText key r=recordText r.epoch key dash dash := by simp [lineText,replayFields,hu,hc]
    rw [hl] at hlen ⊢
    simp only [hc,bind,Except.bind,length_append,length_singleton]
    rw [if_neg (by omega)]
  | some u =>
    obtain ⟨c,hc⟩ : ∃ c, r.ciphertext=some c := by
      rw [hu] at hcn
      exact Option.isSome_iff_exists.mp hcn.symm
    have hl : lineText key r=recordText r.epoch key (decimal u.toNat) (toHex c) := by
      simp [lineText,replayFields,hu,hc]
    rw [hl] at hlen ⊢
    simp only [hc,bind,Except.bind,length_append,length_singleton]
    rw [if_neg (by omega)]

lemma parseReplay_replayFields : parseReplay r.epoch (replayFields r).1 (replayFields r).2=.ok r := by
  obtain ⟨ep,ru,ci⟩ := r
  have hc:=h.consistent
  cases ru with
  | none => simp_all [parseReplay,replayFields,StoredRecord.spentOnly]
  | some u =>
    cases ci with
    | none => cases hc
    | some c =>
      obtain ⟨-,hle⟩ := h.bounded c rfl
      have hl:=toHex_length c
      have hh : (toHex c).all isLowerHex := all_eq_true.mpr (toHex_lowerHex c)
      have hg : ¬((toHex c).length > maxCiphertextBytes*2 ∨ (toHex c).length % 2≠0 ∨
          (toHex c).all isLowerHex=false) := by
        rw [hh]
        simp only [Bool.true_eq_false,or_false]
        omega
      simp only [parseReplay,replayFields,decimal_ne_dash,false_and,if_false,
        parseUnsigned_decimal (2^64) u.toNat u.toNat_lt,if_neg hg,fromHex_toHex,
        UInt64.ofNat_toNat]

lemma splitWhitespace_lineText :
    splitWhitespace (asciiScalars (lineText key r)) =
      [recordVersion,decimal r.epoch.toNat,key,(replayFields r).1,(replayFields r).2] := by
  obtain ⟨⟨hw3,hn3,-⟩,hw4,hn4,-⟩ := replayFields_word h
  have hs : lineText key r=recordVersion++space::(decimal r.epoch.toNat++space ::
      (key++space::((replayFields r).1++space::(replayFields r).2))) := by
    simp [lineText,recordText]
  rw [hs,asciiScalars_word_space,splitWhitespace_cons _ _ isWord_recordVersion (by decide),
    asciiScalars_word_space,splitWhitespace_cons _ _ (isWord_decimal _) (decimal_ne_nil _),
    asciiScalars_word_space,splitWhitespace_cons _ _ (isWord_key h.key_ok)
      ((validateStoredKey_ok key).mp h.key_ok).1,
    asciiScalars_word_space,splitWhitespace_cons _ _ hw3 hn3,splitWhitespace_word _ hw4 hn4]

lemma mem_lineText (b : UInt8) (hb : b∈lineText key r) :
    b=space ∨ (b<0x80 ∧ isWhitespace b.toNat=false) := by
  obtain ⟨⟨hw3,-,-⟩,hw4,-,-⟩ := replayFields_word h
  simp only [lineText,recordText,mem_append,mem_singleton] at hb
  rcases hb with (((((((hb | hb) | hb) | hb) | hb) | hb) | hb) | hb) | hb
  · exact .inr (isWord_recordVersion b hb)
  · exact .inl hb
  · exact .inr (isWord_decimal _ b hb)
  · exact .inl hb
  · exact .inr (isWord_key h.key_ok b hb)
  · exact .inl hb
  · exact .inr (hw3 b hb)
  · exact .inl hb
  · exact .inr (hw4 b hb)

lemma newline_not_mem_lineText : newline∉lineText key r := by
  intro hb
  rcases mem_lineText h _ hb with hs | ⟨-,hw⟩
  · exact absurd hs (by decide)
  · exact absurd hw (by decide)

lemma isAscii_lineText : IsAscii (lineText key r) := by
  intro b hb
  rcases mem_lineText h b hb with rfl | ⟨hb,-⟩
  · decide
  · exact hb

lemma stripReturn_lineText : stripReturn (lineText key r)=lineText key r := by
  unfold stripReturn
  split
  next hl =>
    rcases mem_lineText h _ (mem_of_getLast? hl) with hs | ⟨-,hw⟩
    · exact absurd hs (by decide)
    · exact absurd hw (by decide)
  · rfl
end

lemma parseFields_record (mode : FileMode) (h : Storable key r) :
    parseFields mode [recordVersion,decimal r.epoch.toNat,key,(replayFields r).1,
      (replayFields r).2]=.ok (key,r) := by
  simp only [parseFields,List.head?_cons,if_true,parseEpoch_decimal,h.key_ok,
    parseReplay_replayFields h,bind,Except.bind]

lemma loadLine_lineText (mode : FileMode) (t : Records) (h : Storable key r) :
    loadLine mode t (lineText key r)=.ok (t.orInsert key r) := by
  have hl:=lineText_length h
  have hne : lineText key r≠[] := by simp [lineText,recordText]
  simp only [loadLine,stripReturn_lineText h,if_neg hne,if_neg (by omega :
    ¬(lineText key r).length+1 > maxRecordLineBytes),scalars_ascii _ (isAscii_lineText h),
    splitWhitespace_lineText h,parseFields_record mode h,bind,Except.bind]

lemma loadLine_cases {line : Bytes} (h : loadLine mode t line=.ok t') :
    t'=t ∨ ∃ key r, t'=t.orInsert key r ∧
      parseFields mode (splitWhitespace ((scalars (stripReturn line)).getD []))=.ok (key,r) := by
  unfold loadLine at h
  split at h
  · cases h
  split at h
  · exact .inl (ok.inj h).symm
  split at h
  · cases h
  next te ht =>
    cases hp : parseFields mode (splitWhitespace te) with
    | error e =>
      rw [hp] at h
      cases h
    | ok kr =>
      rw [hp] at h
      exact .inr ⟨kr.1,kr.2,(ok.inj h).symm,by rw [ht]; exact hp⟩

lemma loadLines_append (mode : FileMode) (xs ys : List Bytes) (t : Records) :
    loadLines mode (xs++ys) t=(loadLines mode xs t).bind (loadLines mode ys) := by
  induction xs generalizing t with
  | nil => rfl
  | cons x xs ih =>
    simp only [cons_append,loadLines]
    cases hx : loadLine mode t x with
    | error e => rfl
    | ok t1 => exact ih t1

lemma loadLines_keeps (h : loadLines mode ls t=.ok t') {k : Bytes} (hk : t.get k=some r) :
    t'.get k=some r := by
  induction ls generalizing t with
  | nil => exact (ok.inj h) ▸ hk
  | cons l ls ih =>
    simp only [loadLines] at h
    cases hl : loadLine mode t l with
    | error e =>
      rw [hl] at h
      cases h
    | ok t1 =>
      rw [hl] at h
      refine ih h ?_
      rcases loadLine_cases hl with rfl | ⟨key,rec,rfl,-⟩
      · exact hk
      · exact get_orInsert_of_some t key k rec r hk

lemma parseReplay_storable {epoch : UInt32} {u c : Bytes} (hk : validateStoredKey key=.ok ())
    (hc : c≠[]) (h : parseReplay epoch u c=.ok r) :
    Storable key r := by
  unfold parseReplay at h
  split at h
  · exact ok.inj h ▸ storable_spentOnly epoch hk
  split at h
  · cases h
  split at h
  · cases h
  next hg =>
    split at h
    · cases h
    next bt hb =>
      have hl:=fromHex_length c bt hb
      have hle : c.length ≤ maxCiphertextBytes*2 := by
        by_contra hn
        exact hg (.inl (by omega))
      rw [← ok.inj h]
      refine ⟨hk,rfl,?_⟩
      intro x hx
      rw [← Option.some.inj hx]
      refine ⟨?_,by omega⟩
      intro hnil
      rw [hnil] at hl
      exact hc (length_eq_zero_iff.mp hl)

lemma parseFields_storable {fields : List Bytes} (hne : ∀ f∈fields, f≠[])
    (h : parseFields mode fields=.ok (key,r)) :
    Storable key r := by
  unfold parseFields at h
  split at h
  · split at h
    next v e k u c _ =>
      obtain ⟨ep,-,⟨⟩,hk,h⟩ := except_bind_ok₂ h
      obtain ⟨re,hr,h⟩ := except_bind_ok h
      obtain ⟨rfl,rfl⟩ := Prod.mk.inj (ok.inj h)
      exact parseReplay_storable hk (hne c (by simp)) hr
    · cases h
  · split at h
    · obtain ⟨⟨⟩,hk,h⟩ := except_bind_ok h
      obtain ⟨rfl,rfl⟩ := Prod.mk.inj (ok.inj h)
      exact storable_spentOnly _ hk
    · obtain ⟨ep,-,⟨⟩,hk,h⟩ := except_bind_ok₂ h
      obtain ⟨rfl,rfl⟩ := Prod.mk.inj (ok.inj h)
      exact storable_spentOnly _ hk
    · cases h

lemma AllStorable.orInsert (ht : AllStorable t) (h : Storable key r) : AllStorable (t.orInsert key r) := by
  intro k s hk
  rw [get_orInsert] at hk
  split at hk
  next he =>
    cases hg : t.get key with
    | none =>
      rw [hg] at hk
      rw [he,← Option.some.inj hk]
      exact h
    | some w =>
      rw [hg] at hk
      rw [he,← Option.some.inj hk]
      exact ht key w hg
  · exact ht k s hk

lemma AllStorable.insert (ht : AllStorable t) (h : Storable key r) : AllStorable (t.insert key r) := by
  intro k s hk
  by_cases he : k=key
  · simp_all
  · rw [get_insert_ne t key k r he] at hk
    exact ht k s hk

lemma loadLines_storable (ht : AllStorable t) (h : loadLines mode ls t=.ok t') :
    AllStorable t' := by
  induction ls generalizing t with
  | nil => exact ok.inj h ▸ ht
  | cons l ls ih =>
    obtain ⟨t1,hl,h⟩ := except_bind_ok h
    refine ih ?_ h
    rcases loadLine_cases hl with rfl | ⟨key,r,rfl,hp⟩
    · exact ht
    · exact ht.orInsert (parseFields_storable (splitWhitespace_ne_nil _) hp)

variable (mode' : FileMode)
lemma parseFields_mode {f : List Bytes} {e : Bytes × StoredRecord} (h : parseFields mode f=.ok e) :
    parseFields mode' f=.ok e := by
  unfold parseFields at h ⊢
  split at h
  next hv =>
    rw [if_pos hv]
    exact h
  next hv =>
    rw [if_neg hv]
    split at h
    · exact h
    · exact h
    · cases h

lemma loadLine_mode {line : Bytes} (h : loadLine mode t line=.ok t') : loadLine mode' t line=.ok t' := by
  unfold loadLine at h ⊢
  split at h
  · cases h
  next hl =>
    rw [if_neg hl]
    split at h
    next hn =>
      rw [if_pos hn]
      exact h
    next hn =>
      rw [if_neg hn]
      split at h
      · cases h
      next text _ =>
        obtain ⟨kr,hp,h⟩ := except_bind_ok h
        simp only [parseFields_mode mode' hp,bind,bind]
        exact h

lemma loadLines_mode (h : loadLines mode ls t=.ok t') : loadLines mode' ls t=.ok t' := by
  induction ls generalizing t with
  | nil => exact h
  | cons l ls ih =>
    obtain ⟨t1,hl,h⟩ := except_bind_ok h
    simp only [loadLines,loadLine_mode mode' hl,bind,bind]
    exact ih h

def keyLe : Bytes → Bytes → Bool
  | [],_ => true
  | _::_,[] => false
  | a::as,b::bs => a<b||(a == b&&keyLe as bs)

/-- `ordered` of `rewrite_locked` (nullifier.rs:523-524); the keys are distinct, so
the order of equal ones does not matter. -/
def orderedEntries (t : Records) : List (Bytes × StoredRecord) :=
  t.entries.insertionSort fun a b => keyLe a.1 b.1=true

def recordLines : List (Bytes × StoredRecord) → List Bytes
  | [] => []
  | e::es => lineText e.1 e.2::recordLines es

def image (es : List (Bytes × StoredRecord)) : Bytes := joinLines (recordLines es)

lemma orderedEntries_perm (t : Records) : (orderedEntries t).Perm t.entries := perm_insertionSort _ _

lemma orderedEntries_storable (ht : AllStorable t) : ∀ e∈orderedEntries t, Storable e.1 e.2 := by
  intro e he
  have hm:=(orderedEntries_perm t).mem_iff.mp he
  exact ht e.1 e.2 ((get_eq_some t e.1 e.2).mpr hm)

lemma lookup_orderedEntries (t : Records) (k : Bytes) :
    Table.lookup k (orderedEntries t)=t.get k := lookup_perm t (orderedEntries_perm t) k

lemma loadLines_recordLines (mode : FileMode) (es : List (Bytes × StoredRecord)) (t : Records)
    (hs : ∀ e∈es, Storable e.1 e.2) :
    loadLines mode (recordLines es) t=.ok (t.orInsertAll es) := by
  induction es generalizing t with
  | nil => rfl
  | cons e es ih =>
    simp only [recordLines,loadLines,loadLine_lineText mode t (hs e (mem_cons_self ..)),bind,bind]
    exact ih _ fun x hx => hs x (mem_cons_of_mem _ hx)

variable (es : List (Bytes × StoredRecord))
lemma newline_not_mem_recordLines (hs : ∀ e∈es, Storable e.1 e.2) : ∀ l∈recordLines es, newline∉l := by
  induction es with
  | nil =>
    intro l hl
    cases hl
  | cons e es ih =>
    intro l hl
    rcases mem_cons.mp hl with hl | hl
    · rw [hl]
      exact newline_not_mem_lineText (hs e (mem_cons_self ..))
    · exact ih (fun x hx => hs x (mem_cons_of_mem _ hx)) l hl

lemma splitLines_image (hes : ∀ e∈es, Storable e.1 e.2) : splitLines (image es)=(recordLines es,[]) := by
  have h:=splitLines_joinLines (recordLines es) [] (newline_not_mem_recordLines es hes) not_mem_nil
  rw [append_nil] at h
  rw [image,h]
end NilVpn.Ledger
