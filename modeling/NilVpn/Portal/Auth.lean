import NilVpn.Base.Runs
import NilVpn.Portal.Backend

/-!
# Proofs of account ownership (nil-portal/src/account/auth.rs, account/error.rs)

The signature check is a parameter of the handlers. The store is locked inside each call, so a history is
the order in which the calls take the lock.
-/

namespace NilVpn.Portal
open Base

def challengeTtlSecs : UInt64 := 120
abbrev ChallengeStore := Table Bytes UInt64

namespace ChallengeStore
/-- `raw` is what `getrandom` delivers; expired nonces leave on the way. -/
def issue (challenges : ChallengeStore) (raw : Block 32) (now : UInt64) : ChallengeStore :=
  (challenges.retain fun _ t => saturatingSub now challengeTtlSecs≤t).insert (toHex raw.val) now

def consume (challenges : ChallengeStore) (nonce : Bytes) (now : UInt64) : ChallengeStore × Bool :=
  (challenges.erase nonce,
    (challenges.get nonce).any fun issuedAt => saturatingSub now issuedAt ≤ challengeTtlSecs)
end ChallengeStore

structure AccountAuth where
  (accountNumber challenge signature : Bytes)

inductive AuthError
  | malformed
  | unauthorized
  | backend
  deriving DecidableEq

def authSigLen : ℕ := 64

def parseSig (s : Bytes) : Option (Block authSigLen) :=
  if s.length≠authSigLen*2 then none else (fromHex s).bind (Block.ofBytes authSigLen)

def AccountAuth.parse (auth : AccountAuth) : Except AuthError (Hash × Block authSigLen) := do
  let accountNumber ← okOr (unhex32 auth.accountNumber) .malformed
  let signature ← okOr (parseSig auth.signature) .malformed
  .ok (accountNumber,signature)

def AccountAuth.resolve (auth : AccountAuth) (verify : Hash → Bytes → Block authSigLen → Bool)
    (signature : Block authSigLen) :
    Except StoreError (Option AccountRecord) → Except AuthError AccountRecord
  | .error _ => .error .backend
  | .ok none => .error .unauthorized
  | .ok (some record) =>
    if verify record.authPubkey auth.challenge signature then .ok record else .error .unauthorized

inductive ApiError
  | notImplemented
  | badRequest (text : String)
  | unauthorized
  | tooManyRequests
  | paymentRequired
  | conflict
  | internal
  deriving DecidableEq

def mapAuthErr : AuthError → ApiError
  | .malformed => .badRequest "malformed authentication proof"
  | .unauthorized => .unauthorized
  | .backend => .internal

open List Table

/-- `reply` is what the account store answers when it is asked: other calls may come first. -/
def authenticate (verify : Hash → Bytes → Block authSigLen → Bool) (challenges : ChallengeStore)
    (auth : AccountAuth) (now : UInt64) (reply : Hash → Except StoreError (Option AccountRecord)) :
    ChallengeStore × Except AuthError AccountRecord :=
  match auth.parse with
  | .error e => (challenges,.error e)
  | .ok (accountNumber,signature) =>
    let (rest,live) := challenges.consume auth.challenge now
    (rest,if live then auth.resolve verify signature (reply accountNumber) else .error .unauthorized)

inductive ChallengeCall
  | issue (raw : Block 32) (now : UInt64)
  | consume (nonce : Bytes) (now : UInt64)
  | authenticate (auth : AccountAuth) (now : UInt64)
      (reply : Hash → Except StoreError (Option AccountRecord))

namespace ChallengeCall
def clock : ChallengeCall → UInt64
  | issue _ now => now
  | consume _ now => now
  | authenticate _ now _ => now

def generated : ChallengeCall → Option Bytes
  | issue raw _ => some (toHex raw.val)
  | _ => none

/-- The nonce that the call hands to `ChallengeStore::consume`. -/
def consumed : ChallengeCall → Option Bytes
  | issue _ _ => none
  | consume nonce _ => some nonce
  | authenticate auth _ _ => auth.parse.toOption.map fun _ => auth.challenge

def apply (verify : Hash → Bytes → Block authSigLen → Bool) (challenges : ChallengeStore) :
    ChallengeCall → ChallengeStore
  | issue raw now => challenges.issue raw now
  | consume nonce now => (challenges.consume nonce now).1
  | authenticate auth now reply => (Portal.authenticate verify challenges auth now reply).1
end ChallengeCall

/-- The clock does not go back, and no nonce is generated twice. -/
structure ChallengeHistory (calls : List ChallengeCall) : Prop where
  ordered : calls.Pairwise fun a b => a.clock≤b.clock
  distinct : (calls.filterMap ChallengeCall.generated).Nodup

/-- The nonce was issued at `t` and no call has consumed it since. -/
def Outstanding (calls : List ChallengeCall) (nonce : Bytes) (t : UInt64) : Prop :=
  ∃ before raw after, calls=before++.issue raw t::after ∧ toHex raw.val=nonce ∧
    ∀ c∈after, c.consumed≠some nonce

lemma Outstanding.generated {c : List ChallengeCall} {nonce : Bytes} {t : UInt64}
    (h : Outstanding c nonce t) : nonce∈c.filterMap ChallengeCall.generated := by
  obtain ⟨be,raw,af,rfl,rfl,-⟩ := h
  simp [ChallengeCall.generated]

lemma outstanding_snoc (calls : List ChallengeCall) (c : ChallengeCall) (nonce : Bytes)
    (t : UInt64) : Outstanding (calls++[c]) nonce t ↔ (∃ raw, c=.issue raw t ∧ toHex raw.val=nonce) ∨
        (Outstanding calls nonce t ∧ c.consumed≠some nonce) := by
  constructor
  · rintro ⟨be,raw,af,hl,hn,ha⟩
    rcases eq_nil_or_concat af with rfl | ⟨af,last,rfl⟩
    · obtain ⟨-,hc⟩ := append_inj' hl rfl
      exact .inl ⟨raw,singleton_inj.mp hc,hn⟩
    · rw [concat_eq_append,← cons_append,← append_assoc] at hl
      obtain ⟨rfl,hc⟩ := append_inj' hl rfl
      obtain rfl := singleton_inj.mp hc
      exact .inr ⟨⟨be,raw,af,rfl,hn,fun d hd => ha d (by simp [hd])⟩,ha c (by simp)⟩
  · rintro (⟨raw,rfl,hn⟩ | ⟨⟨be,raw,af,rfl,hn,ha⟩,hc⟩)
    · exact ⟨calls,raw,[],rfl,hn,by simp⟩
    · refine ⟨be,raw,af++[c],by simp,hn,fun d hd => ?_⟩
      rcases mem_append.mp hd with hd | hd
      · exact ha d hd
      · exact mem_singleton.mp hd ▸ hc

section
variable (verify : Hash → Bytes → Block authSigLen → Bool)
/-- The store once the calls of a history have been made. -/
def challengesAfter (calls : List ChallengeCall) : ChallengeStore :=
  runFrom (ChallengeCall.apply verify) Table.empty calls

variable (challenges : ChallengeStore)
lemma authenticate_store (a : AccountAuth) (now : UInt64)
    (r : Hash → Except StoreError (Option AccountRecord)) : (authenticate verify challenges a now r).1 =
      if a.parse.toOption.isSome then challenges.erase a.challenge else challenges := by
  rw [authenticate]
  cases a.parse with
  | error | ok => rfl

/-- What one call leaves of the entry of a nonce it does not generate. -/
lemma get_apply (c : ChallengeCall) (nonce : Bytes) (hf : c.generated≠some nonce) :
    (c.apply verify challenges).get nonce =
      if c.consumed=some nonce then none
      else match c with
        | .issue _ now => (challenges.get nonce).filter fun t => saturatingSub now challengeTtlSecs≤t
        | _ => challenges.get nonce := by
  cases c with
  | issue raw now =>
    have hne : nonce≠toHex raw.val := fun h => hf (congrArg some h.symm)
    rw [if_neg (by simp [ChallengeCall.consumed])]
    exact (get_insert_ne _ _ _ _ hne).trans (get_retain ..)
  | consume nonce' now =>
    show (challenges.erase nonce').get nonce=_
    simp only [get_erase,ChallengeCall.consumed,Option.some.injEq,eq_comm]
  | authenticate au now re =>
    show (authenticate verify challenges au now re).1.get nonce=_
    rw [authenticate_store]
    cases hp : au.parse with
    | error e => simp [ChallengeCall.consumed,hp,Except.toOption]
    | ok pa => simp [ChallengeCall.consumed,hp,Except.toOption,get_erase,eq_comm]

/-- An entry of the store is an outstanding nonce. -/
lemma outstanding_of_get (calls : List ChallengeCall) {nonce : Bytes} {t : UInt64}
    (hg : (challengesAfter verify calls).get nonce=some t) : Outstanding calls nonce t := by
  induction calls using List.reverseRecOn with
  | nil => cases hg
  | append_singleton calls c ih =>
    rw [outstanding_snoc]
    rw [challengesAfter,runFrom,foldl_append] at hg
    by_cases hf : c.generated=some nonce
    · obtain ⟨raw,now,rfl⟩ : ∃ raw now, c=.issue raw now := by
        cases c with
        | issue raw now => exact ⟨raw,now,rfl⟩
        | consume | authenticate => cases hf
      obtain rfl := Option.some.inj hf
      obtain rfl := Option.some.inj ((get_insert_self ..).symm.trans hg)
      exact .inl ⟨raw,rfl,rfl⟩
    · replace hg := (get_apply verify _ c nonce hf).symm.trans hg
      split at hg
      · cases hg
      · rename_i hk
        refine .inr ⟨ih ?_,hk⟩
        split at hg
        · exact (Option.filter_eq_some_iff.mp hg).1
        · exact hg

/-- A nonce stays in the store until it is consumed or older than the time to live: no other
issue prunes it. -/
lemma get_of_outstanding {calls : List ChallengeCall} (hc : ChallengeHistory calls)
    {nonce : Bytes} {t : UInt64} (hl : Outstanding calls nonce t)
    (ha : ∀ c∈calls, c.clock.toNat≤t.toNat+challengeTtlSecs.toNat) :
    (challengesAfter verify calls).get nonce=some t := by
  induction calls using List.reverseRecOn with
  | nil =>
    obtain ⟨be,raw,af,hn,-⟩ := hl
    simp at hn
  | append_singleton calls c ih =>
    rw [challengesAfter,runFrom,foldl_append]
    rcases (outstanding_snoc calls c nonce t).mp hl with ⟨raw,rfl,rfl⟩ | ⟨hb,hk⟩
    · exact get_insert_self ..
    · have hdi:=hc.distinct
      rw [filterMap_append,nodup_append] at hdi
      have hfresh : c.generated≠some nonce := by
        intro hg
        exact hdi.2.2 nonce hb.generated nonce (by simp [hg]) rfl
      have hget:=ih ⟨(pairwise_append.mp hc.ordered).1,hdi.1⟩ hb
        fun d hd => ha d (mem_append_left _ hd)
      refine (get_apply verify _ c nonce hfresh).trans ?_
      rw [if_neg hk]
      replace hget : (List.foldl (ChallengeCall.apply verify) Table.empty calls).get nonce =
        some t := hget
      cases c with
      | issue raw now =>
        have hnow : now.toNat≤t.toNat+challengeTtlSecs.toNat := ha (.issue raw now) (by simp)
        have hfresh':=(saturatingSub_le_iff now challengeTtlSecs t).mpr (by omega)
        simp [hget,hfresh']
      | consume | authenticate => exact hget

lemma consume_iff_outstanding {calls : List ChallengeCall} {nonce : Bytes} {now : UInt64}
    (hcl : ChallengeHistory (calls++[.consume nonce now])) :
    ((challengesAfter verify calls).consume nonce now).2=true ↔
      ∃ t, Outstanding calls nonce t ∧ now.toNat≤t.toNat+challengeTtlSecs.toNat := by
  rw [ChallengeStore.consume,Option.any_eq_true]
  simp only [decide_eq_true_eq,saturatingSub_le_iff]
  constructor
  · rintro ⟨t,hg,ha⟩
    exact ⟨t,outstanding_of_get verify calls hg,ha⟩
  · rintro ⟨t,hl,ha⟩
    have ho:=pairwise_append.mp hcl.ordered
    have hd:=hcl.distinct
    rw [filterMap_append,nodup_append] at hd
    refine ⟨t,get_of_outstanding verify ⟨ho.1,hd.1⟩ hl fun c hc => ?_,ha⟩
    have hcc:=UInt64.le_iff_toNat_le.mp (ho.2.2 c hc _ (mem_singleton_self _))
    exact hcc.trans ha

/-- A call that succeeds has consumed an outstanding nonce. -/
lemma outstanding_of_authenticate {c : List ChallengeCall} {a : AccountAuth} {now : UInt64}
    {r : Hash → Except StoreError (Option AccountRecord)} {record : AccountRecord}
    (h : (authenticate verify (challengesAfter verify c) a now r).2=.ok record) :
    (ChallengeCall.authenticate a now r).consumed=some a.challenge ∧
      ∃ t, Outstanding c a.challenge t := by
  rw [authenticate] at h
  cases hp : a.parse with
  | error e =>
    rw [hp] at h
    cases h
  | ok pa =>
    rw [hp] at h
    refine ⟨by simp [ChallengeCall.consumed,hp,Except.toOption],?_⟩
    cases hg : (challengesAfter verify c).get a.challenge with
    | some t => exact ⟨t,outstanding_of_get verify c hg⟩
    | none => simp [ChallengeStore.consume,hg] at h
end

theorem challenges_single_use (verify : Hash → Bytes → Block authSigLen → Bool) :
    (∀ calls nonce now, ChallengeHistory (calls++[.consume nonce now]) →
      (((challengesAfter verify calls).consume nonce now).2=true ↔
        ∃ t, Outstanding calls nonce t ∧ now.toNat≤t.toNat+challengeTtlSecs.toNat)) ∧
    ∀ before auth now reply between auth' now' reply' record record',
      ChallengeHistory (before++.authenticate auth now reply::between) →
      auth'.challenge=auth.challenge →
      (authenticate verify (challengesAfter verify before) auth now reply).2=.ok record →
      (authenticate verify (challengesAfter verify (before++.authenticate auth now reply::between))
        auth' now' reply').2≠.ok record' := by
  refine ⟨fun calls nonce now => consume_iff_outstanding verify,?_⟩
  intro before auth now reply between auth' now' reply' record record' hl hsame hfirst hs
  obtain ⟨hc,t,hissued⟩ := outstanding_of_authenticate verify hfirst
  obtain ⟨-,t',ha⟩ := outstanding_of_authenticate verify hs
  rw [hsame] at ha
  -- the second issue comes after the first call, and so repeats a nonce
  have hlater : auth.challenge∈between.filterMap ChallengeCall.generated := by
    clear hl hs
    induction between using List.reverseRecOn with
    | nil =>
      rcases (outstanding_snoc ..).mp ha with ⟨raw,hissue,-⟩ | ⟨-,hkept⟩
      · cases hissue
      · exact absurd hc hkept
    | append_singleton between c ih =>
      rw [← cons_append,← append_assoc] at ha
      rw [filterMap_append,mem_append]
      rcases (outstanding_snoc ..).mp ha with ⟨raw,rfl,hraw⟩ | ⟨ha,-⟩
      · exact .inr (by simp [ChallengeCall.generated,hraw])
      · exact .inl (ih ha)
  have hdistinct:=hl.distinct
  rw [filterMap_append,nodup_append] at hdistinct
  refine hdistinct.2.2 _ hissued.generated _ ?_ rfl
  rw [filterMap_cons_none rfl]
  exact hlater

def sampleAuth : AccountAuth :=
  ⟨toHex (Block.fill 32 1).val,toHex (Block.fill 32 2).val,toHex (Block.fill 64 3).val⟩

def sampleRecord : AccountRecord := ⟨Block.fill 32 1,.none,Block.fill 32 9⟩
def sampleReply (_ : Hash) : Except StoreError (Option AccountRecord) := .ok (some sampleRecord)

def accepting (_ : Hash) (_ : Bytes) (_ : Block authSigLen) : Bool := true

theorem second_use_refused :
    ((challengesAfter accepting [.issue (Block.fill 32 2) 100]).consume sampleAuth.challenge 220).2=true ∧
    ∀ record, (authenticate accepting (challengesAfter accepting
      [.issue (Block.fill 32 2) 100,.authenticate sampleAuth 150 sampleReply]) sampleAuth 160 sampleReply).2 ≠
        .ok record := by
  have hc:=challenges_single_use accepting
  refine ⟨(hc.1 _ _ _ ⟨by decide,by decide⟩).mpr ⟨100,⟨[],_,[],rfl,rfl,by simp⟩,by decide⟩,fun record => ?_⟩
  exact hc.2 [.issue (Block.fill 32 2) 100] sampleAuth 150 sampleReply [] _ _ _ sampleRecord _
    ⟨by decide,by decide⟩ rfl (by decide +kernel)
end NilVpn.Portal
