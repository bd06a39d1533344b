import NilVpn.Portal.Postgres
import NilVpn.Portal.Survival

/-!
# The Postgres store answers as the memory store does

`Mirrors` says that the tables stand for the maps of a store, row by row.
-/

namespace NilVpn.Portal.Postgres
open IssuanceResult StoreState Base List Table Base.Sql

section
variable (cipher : ResultCipher)
/-- A scrubbed signature is a `NULL`; any other opens from its row. -/
structure IssuanceRow.Mirrors (key : Hash) (row : IssuanceRow) (r : IssuanceResult) : Prop where
  hash : row.requestHash=hex32 r.requestHash
  replayUntil : row.replayUntil=(r.replayUntil.toNat : ℤ)
  blob : (row.resultBlob=none ∧ r.blindSig=[]) ∨ ∃ blob, row.resultBlob=some blob ∧
    r.blindSig.length*2=blindTokenHexLen ∧
    cipher.openResult .oneShot key r.requestHash r.replayUntil blob=.ok r.blindSig

structure MintRow.Mirrors (key : Hash) (row : MintRow) (r : MintResult) : Prop where
  hash : row.requestHash=hex32 r.requestHash
  expiresAt : row.expiresAt=(r.expiresAt.toNat : ℤ)
  blob : ∃ blob, row.resultBlob=some blob ∧ r.blindSigs≠[] ∧
    (cipher.openResult .subscriptionMint key r.requestHash r.expiresAt blob).bind decodeMintPayload =
      .ok r.blindSigs

def quotaRow (row : QuotaRow) : MintQuotaRow := ⟨row.windowEnd.toNat,row.used.toNat,row.max.toNat⟩
def small (n : UInt64) : Bool := n.toNat<2^63

def Entitlement.small : Entitlement → Bool
  | .active untilSecs => Postgres.small untilSecs
  | .none | .expired => true

/-- `ops` are all operations of the run: a key that was activated belongs to an account
that is there. -/
structure Mirrors (ops : List Op) (db : Db) (s : StoreState) : Prop where
  accounts : ∀ a, db.accounts.get (hex32 a)=(s.accounts.get a).map fun r => (columns r).2
  numbers : ∀ a r, s.accounts.get a=some r → r.accountNumber=a ∧ Entitlement.small r.entitlement=true
  activations : ∀ k, db.subscriptionActivations.get (hex32 k) =
    (s.activationResults.get k).map fun untilSecs => (untilSecs.toNat : ℤ)
  claimed : ∀ k untilSecs, s.activationResults.get k=some untilSecs →
    ∀ a now bySecs, .activateSubscription a k now bySecs∈ops → s.accounts.get a≠none
  issuance : ∀ k, Option.Rel (IssuanceRow.Mirrors cipher k) (db.oneShotIssuances.get (hex32 k))
    (s.issuanceResults.get k)
  mint : ∀ k, Option.Rel (MintRow.Mirrors cipher k) (db.mintResults.get (hex32 k)) (s.mintResults.get k)
  quotas : ∀ k windowStart, db.mintQuotas.get (hex32 k,(UInt64.toNat windowStart : ℤ)) =
    (s.mintQuotas.get (k,windowStart)).map quotaRow
end

structure Follows {R : Type} (cipher : ResultCipher) (ops : List Op) (now : UInt64) (f : R → R)
    (out : Except StoreError R × Db) (plan : Plan R) : Prop where
  state : ∃ s, Mirrors cipher ops out.2 s ∧ s.AgreesAt now plan.state
  reply : (out.1.map f).toOption=(plan.reply.map f).toOption

lemma Follows.alike {R : Type} {cipher : ResultCipher} {ops : List Op} {now : UInt64} {f : R → R}
    {out : Except StoreError R × Db} {a b : Plan R} (h : Follows cipher ops now f out a)
    (hb : Plan.Alike now f a b) : Follows cipher ops now f out b := by
  obtain ⟨s,hm,ha⟩ := h.state
  exact ⟨⟨s,hm,ha.trans hb.state⟩,h.reply.trans (congrArg Except.toOption hb.reply.symm)⟩

section
variable {cipher : ResultCipher} {ops : List Op} {db : Db} {s : StoreState} {now t : UInt64}
lemma fromColumns_columns (r : AccountRecord) : fromColumns (columns r).1 (columns r).2=some r := by
  simp [fromColumns,columns,unhex32_hex32,entFrom_entStr,authFrom_authStr]

variable {record : AccountRecord} {now bySecs : UInt64}
  {account activation key requestKey : Hash} {r result : MintResult} {q : MintQuota}
lemma insert_follows (h : Mirrors cipher ops db s) (hs : Entitlement.small record.entitlement) :
    Follows cipher ops now id (insert db record) (s.insert record) := by
  have hr:=h.accounts record.accountNumber
  unfold insert StoreState.insert Table.contains
  cases hg : s.accounts.get record.accountNumber with
  | some r =>
    rw [hg] at hr
    rw [show (columns record).1=hex32 record.accountNumber from rfl,insertOrIgnore_present hr]
    exact ⟨⟨s,h,.refl s⟩,rfl⟩
  | none =>
    rw [hg] at hr
    rw [show (columns record).1=hex32 record.accountNumber from rfl,insertOrIgnore_absent hr,
      Option.isSome_none,if_neg Bool.false_ne_true]
    refine ⟨⟨{s with accounts := s.accounts.insert record.accountNumber record},
      ⟨?_,?_,h.activations,?_,h.issuance,h.mint,h.quotas⟩,.refl _⟩,rfl⟩
    · exact map_insert hex32_injective h.accounts record.accountNumber record
    · exact forall_insert h.numbers ⟨rfl,hs⟩
    · intro k u hk a t bySecs hop
      exact get_insert_ne_none (h.claimed k u hk a t bySecs hop) _ _

lemma get_reply (h : Mirrors cipher ops db s) (account : Hash) :
    get db account=.ok (s.accounts.get account) := by
  rw [get,h.accounts]
  cases hg : s.accounts.get account with
  | none => rfl
  | some r =>
    have hn:=(h.numbers account r hg).1
    have hc:=fromColumns_columns r
    rw [columns,hn] at hc
    simp only [Option.map_some,columns,hc,okOr_some]
    rfl

lemma currentUntil_entStr {e : Entitlement} (hs : Entitlement.small e) :
    currentUntil (entStr e)=.ok (e.expiry : ℤ) := by
  cases e with
  | none | expired => rfl
  | active u =>
    have hc : colon∉decimal u.toNat := by
      intro hm
      exact absurd (decimal_digits _ _ hm) (by decide)
    have hp : splitPart colon (entStr (.active u)) 1=decimal u.toNat :=
      splitPart_second (by decide) hc
    rw [currentUntil,hp,if_neg (decimal_ne_nil _)]
    exact castBigint_decimal (of_decide_eq_true hs)

lemma clockParam_of_small {n : UInt64} (h : small n) : clockParam n=(n.toNat : ℤ) := by
  rw [clockParam,ofUnsigned_of_lt (of_decide_eq_true h),Option.getD_some]

lemma extendedRow_columns (hs : Entitlement.small record.entitlement)
    (hu : ((record.entitlement.activeUntil now).getD now).toNat+bySecs.toNat<2^63) :
    extendedRow (now.toNat : ℤ) (bySecs.toNat : ℤ) (columns record).2 =
      .ok (columns { record with
        entitlement := .active (saturatingAdd ((record.entitlement.activeUntil now).getD now) bySecs) }).2 := by
  have hg : max (now.toNat : ℤ) (record.entitlement.expiry : ℤ)+(bySecs.toNat : ℤ) =
      (((record.entitlement.activeUntil now).getD now).toNat+bySecs.toNat : ℕ) := by
    rw [Entitlement.base_toNat]
    push_cast
    rfl
  simp only [extendedRow,columns,currentUntil_entStr hs,ok_bind,hg,bigint_ofNat hu,bigintText_ofNat]
  rw [entStr,saturatingAdd_toNat,min_eq_left (by omega)]

lemma activeUntil_extended {base : UInt64} (hb : now≤base) (hby : 1≤bySecs.toNat)
    (hs : base.toNat+bySecs.toNat<2^63) :
    (Entitlement.active (saturatingAdd base bySecs)).activeUntil now=some (saturatingAdd base bySecs) := by
  grind [UInt64.le_iff_toNat_le,saturatingAdd_toNat,Entitlement.activeUntil,Entitlement.resolved]

lemma base_ge (e : Entitlement) (now : UInt64) : now≤(e.activeUntil now).getD now := by
  rw [UInt64.le_iff_toNat_le,Entitlement.base_toNat]
  exact le_max_left _ _

lemma issuanceFromRow_mirrors {row : IssuanceRow} {r : IssuanceResult}
    (h : row.Mirrors cipher key r) (hash : Hash) (t : UInt64) :
    issuanceFromRow cipher row key hash t =
      .ok (if r.replays hash t then .replay r.blindSig else .conflict) := by
  rw [issuanceFromRow,h.hash,h.replayUntil,unhex32_hex32,okOr_some,toUnsigned_ofNat,okOr_some,ok_bind]
  by_cases hh : r.requestHash=hash
  · rw [if_neg (not_not.mpr hh),ok_bind]
    by_cases hl : r.replayUntil≤t
    · have hno : r.replays hash t=false := by
        rw [replays,decide_eq_false (UInt64.not_lt.mpr hl),Bool.and_false,Bool.false_and]
      rw [if_pos hl,hno]
      rfl
    · rw [if_neg hl]
      rcases h.blob with ⟨hb,hsig⟩ | ⟨blob,hb,hs,ho⟩
      · have hno : r.replays hash t=false := by rw [replays,hsig,isEmpty_nil,Bool.not_true,Bool.and_false]
        rw [hb,hno]
        rfl
      · have hn : blindTokenHexLen=512 := rfl
        have hne : r.blindSig.isEmpty=false := by grind [length_nil]
        have hy : r.replays hash t := by grind [replays,decide_eq_true]
        rw [hb,hy]
        simp only [ho,if_pos hs,if_true]
        rfl
  · have hno : r.replays hash t=false := by rw [replays,decide_eq_false hh,Bool.false_and,Bool.false_and]
    rw [if_pos hh,hno]
    rfl

lemma scrubbed_mirrors {row : IssuanceRow} {r : IssuanceResult} (h : row.Mirrors cipher key r)
    (t : UInt64) :
    (if row.replayUntil≤(t.toNat : ℤ)&&row.resultBlob.isSome then {row with resultBlob := none} else row :
      IssuanceRow).Mirrors cipher key (r.scrub t) := by
  have hd : decide (row.replayUntil≤(t.toNat : ℤ))=decide (r.replayUntil≤t) := by
    rw [h.replayUntil]
    simp only [Nat.cast_le,UInt64.le_iff_toNat_le]
  have hb : row.resultBlob.isSome=!r.blindSig.isEmpty := by
    rcases h.blob with ⟨hn,hg⟩ | ⟨blob,hs,hsz,-⟩
    · rw [hn,hg]
      rfl
    · have hl : blindTokenHexLen=512 := rfl
      cases hg : r.blindSig with
      | nil =>
        rw [hg,length_nil] at hsz
        omega
      | cons b rest =>
        rw [hs]
        rfl
  rw [hd,hb,scrub]
  split
  · exact ⟨h.hash,h.replayUntil,Or.inl ⟨rfl,rfl⟩⟩
  · exact h

section
variable (h : Mirrors cipher ops db s)
include h
lemma activate_new {ends : UInt64} (hr : s.accounts.get account=some record)
    (hk : s.activationResults.get activation=none) (hw : small now) (hby : 1≤bySecs.toNat)
    (hu : ((record.entitlement.activeUntil now).getD now).toNat+bySecs.toNat<2^63)
    (hen : saturatingAdd ((record.entitlement.activeUntil now).getD now) bySecs=ends) :
    activateSubscription db account activation now bySecs =
      (.ok (some (.newlyActivated ends)),
        { db with
          accounts := db.accounts.insert (hex32 account) (columns {record with entitlement := .active ends}).2
          subscriptionActivations := (db.subscriptionActivations.insert (hex32 activation) 0).insert
            (hex32 activation) (ends.toNat : ℤ) }) := by
  obtain ⟨-,hsm⟩ := h.numbers account record hr
  have hac:=activeUntil_extended (base_ge record.entitlement now) hby hu
  have hrow:=extendedRow_columns hsm hu
  have hp : ofUnsigned ends.toNat=some (ends.toNat : ℤ) := by
    apply ofUnsigned_of_lt
    rw [← hen,saturatingAdd_toNat]
    omega
  rw [hen] at hac hrow
  have hs : small bySecs := decide_eq_true (by omega)
  have hc : claimActivation db (hex32 activation) =
      (1,{db with subscriptionActivations := db.subscriptionActivations.insert (hex32 activation) 0}) := by
    have hn:=h.activations activation
    rw [hk] at hn
    rw [claimActivation,insertOrIgnore_absent hn]
  have ha:=h.accounts account
  rw [hr,Option.map_some] at ha
  have he : ∀ c : Db, c.accounts=db.accounts →
      extendSubscription c (hex32 account) (clockParam now) (clockParam bySecs) =
        .ok (some (columns {record with entitlement := .active ends}).2,
          { c with
            accounts := db.accounts.insert (hex32 account)
              (columns {record with entitlement := .active ends}).2 }) := by
    intro c hsa
    rw [clockParam_of_small hw,clockParam_of_small hs]
    simp only [extendSubscription,updateKey,hsa,ha,hrow,Except.map,ok_bind]
  have ht : entFrom (columns {record with entitlement := .active ends}).2.entitlement=some (.active ends) :=
    entFrom_entStr (.active ends)
  simp only [activateSubscription,hc,activateClaimed,he,sqlFailed,ok_bind,ht,Option.bind_some,
    hac,okOr_some,hp,finishActivation,get_insert_self]
  rfl

lemma activate_missing (hn : s.accounts.get account=none)
    (hk : s.activationResults.get activation=none) (now bySecs : UInt64) :
    activateSubscription db account activation now bySecs=(.ok none,db) := by
  have hc:=h.activations activation
  rw [hk] at hc
  have ha:=h.accounts account
  rw [hn] at ha
  simp only [activateSubscription,claimActivation,insertOrIgnore_absent hc,activateClaimed,
    extendSubscription,updateKey,ha,Option.map_none,ok_bind,sqlFailed]
  rfl

lemma activate_again {u : UInt64} (hk : s.activationResults.get activation=some u) (now bySecs : UInt64) :
    activateSubscription db account activation now bySecs=(.ok (some (.replay u)),db) := by
  have hc:=h.activations activation
  rw [hk] at hc
  simp [activateSubscription,claimActivation,insertOrIgnore_present hc,activationReplay,hc,
    okOr_some,ok_bind,toUnsigned_ofNat]

/-- Under the rule of one account for each key. -/
lemma activate_follows {t : UInt64} (hp : .activateSubscription account activation t bySecs∈ops)
    (ho : ∀ a t' by', .activateSubscription a activation t' by'∈ops → a=account)
    (hw : small t) (hby : 1≤bySecs.toNat)
    (hu : ∀ record, s.accounts.get account=some record →
      ((record.entitlement.activeUntil t).getD t).toNat+bySecs.toNat<2^63) :
    Follows cipher ops now id (activateSubscription db account activation t bySecs)
      (s.activateSubscription account activation t bySecs) := by
  unfold StoreState.activateSubscription
  cases hr : s.accounts.get account with
  | none =>
    have hy : s.activationResults.get activation=none := by
      cases hy : s.activationResults.get activation with
      | none => rfl
      | some un => exact absurd hr (h.claimed _ _ hy _ _ _ hp)
    rw [activate_missing h hr hy]
    exact ⟨⟨s,h,.refl s⟩,rfl⟩
  | some record =>
    cases hy : s.activationResults.get activation with
    | some un =>
      rw [activate_again h hy]
      exact ⟨⟨s,h,.refl s⟩,rfl⟩
    | none =>
      have hf:=hu record hr
      obtain ⟨hn,-⟩ := h.numbers _ _ hr
      rw [activate_new h hr hy hw hby hf rfl]
      dsimp only
      have hs : Entitlement.small (.active
          (saturatingAdd ((record.entitlement.activeUntil t).getD t) bySecs)) := by
        refine decide_eq_true ?_
        rw [saturatingAdd_toNat]
        omega
      generalize saturatingAdd ((record.entitlement.activeUntil t).getD t) bySecs=un at hs ⊢
      refine ⟨⟨{ s with
        accounts := s.accounts.insert account {record with entitlement := .active un}
        activationResults := s.activationResults.insert activation un },
        ⟨?_,?_,?_,?_,h.issuance,h.mint,h.quotas⟩,.refl _⟩,rfl⟩
      · exact map_insert hex32_injective h.accounts account {record with entitlement := .active un}
      · exact forall_insert h.numbers ⟨hn,hs⟩
      · intro k
        rw [get_insert_encoded hex32_injective,get_insert_encoded hex32_injective,get_insert,
          h.activations]
        split
        · rfl
        · rfl
      · intro k u hk a t' by' hp'
        by_cases hm : k=activation
        · rw [hm] at hp'
          rw [ho a t' by' hp',get_insert_self]
          exact Option.some_ne_none _
        · rw [get_insert_ne _ _ _ _ hm] at hk
          exact get_insert_ne_none (h.claimed k u hk a t' by' hp') _ _

lemma lookupIssuance_reply (key hash : Hash) (t : UInt64) :
    lookupIssuance cipher db key hash t=(s.lookupIssuance key hash t).reply := by
  have hrow:=h.issuance key
  unfold lookupIssuance StoreState.lookupIssuance
  generalize db.oneShotIssuances.get (hex32 key)=row at hrow ⊢
  generalize s.issuanceResults.get key=result at hrow ⊢
  cases hrow with
  | none => rfl
  | some hr => exact issuanceFromRow_mirrors hr hash t
end

structure Seals (cipher : ResultCipher) : Prop where
  opens : cipher.Opens
  encrypts : ∀ nonce aad plaintext, (cipher.encrypt nonce aad plaintext).isSome=true

lemma Seals.sealed (h : Seals cipher) (n : Block resultNonceLen) (kind : ResultKind)
    (o hash : Hash) (expiry : UInt64) {plaintext : Bytes} (hne : plaintext≠[])
    (hm : plaintext.length ≤ maxResultPlaintextBytes) :
    ∃ stored, cipher.sealResult (some n) kind o hash expiry plaintext=.ok stored ∧
      cipher.openResult kind o hash expiry stored=.ok plaintext := by
  obtain ⟨en,he⟩ := Option.isSome_iff_exists.mp
    (h.encrypts n (ResultCipher.aad kind o hash expiry) plaintext)
  have hs : cipher.sealResult (some n) kind o hash expiry plaintext=.ok (n.val++en) := by
    have hb : (plaintext.isEmpty||decide (maxResultPlaintextBytes<plaintext.length))=false := by
      simp_all [Bool.eq_false_iff]
    simp [ResultCipher.sealResult,hb,he]
  exact ⟨_,hs,h.opens _ _ _ _ _ _ _ hs⟩

lemma issuanceRow_sealed (hc : Seals cipher) (n : Block resultNonceLen) (key : Hash)
    {result : IssuanceResult} (hl : t < result.replayUntil) (hsm : small result.replayUntil)
    (hs : result.blindSig.length*2=blindTokenHexLen) :
    ∃ row, issuanceRow cipher (some n) key result t=.ok row ∧
      row.Mirrors cipher key result := by
  have hle : blindTokenHexLen=512 := rfl
  have hne : result.blindSig≠[] := by
    intro hn
    rw [hn,length_nil] at hs
    omega
  have hm : result.blindSig.length ≤ maxResultPlaintextBytes := by
    have : maxResultPlaintextBytes=4097 := rfl
    omega
  obtain ⟨bl,hsl,ho⟩ := hc.sealed n .oneShot key result.requestHash result.replayUntil hne hm
  refine ⟨⟨hex32 result.requestHash,some bl,(result.replayUntil.toNat : ℤ)⟩,?_,rfl,rfl,
    Or.inr ⟨bl,rfl,hs,ho⟩⟩
  rw [issuanceRow,ensure_of _ _ (decide_eq_true ⟨hl,hs⟩),ok_bind,hsl,ok_bind,
    ofUnsigned_of_lt (of_decide_eq_true hsm),okOr_some,ok_bind]
  rfl

lemma commitIssuance_follows (hc : Seals cipher) (h : Mirrors cipher ops db s)
    (n : Block resultNonceLen) (key : Hash) {result : IssuanceResult}
    (hl : t < result.replayUntil) (hsm : small result.replayUntil)
    (hsz : result.blindSig.length*2=blindTokenHexLen) :
    Follows cipher ops now id (commitIssuance cipher db (some n) key result t)
      (s.commitIssuance key result t) := by
  obtain ⟨row,hse,hm⟩ := issuanceRow_sealed hc n key hl hsm hsz
  have hs:=h.issuance key
  unfold commitIssuance StoreState.commitIssuance
  rw [hse]
  cases hg : s.issuanceResults.get key with
  | none =>
    have hn:=(rel_none_iff hs).mpr hg
    simp only [insertIssuance,insertOrIgnore_absent hn,if_true]
    exact ⟨⟨{s with issuanceResults := s.issuanceResults.insert key result},
      ⟨h.accounts,h.numbers,h.activations,h.claimed,rel_insert hex32_injective h.issuance hm,h.mint,
        h.quotas⟩,.refl _⟩,rfl⟩
  | some ex =>
    obtain ⟨st,ho,hr⟩ := rel_some hs hg
    simp only [insertIssuance,insertOrIgnore_present ho,zero_ne_one,if_false,ho,
      issuanceFromRow_mirrors hr]
    refine ⟨⟨s,h,.refl s⟩,?_⟩
    dsimp only [Plan.reply]
    split <;> rfl

lemma mintFromRow_mirrors {row : MintRow} (h : row.Mirrors cipher key r) (hash : Hash) (t : UInt64) :
    mintFromRow cipher row key hash t=.ok (if r.expiresAt≤t then .missing
        else if r.replays hash then .replay r.blindSigs else .conflict) := by
  obtain ⟨blob,hb,hne,ho⟩ := h.blob
  rw [mintFromRow,h.hash,h.expiresAt,unhex32_hex32,okOr_some,toUnsigned_ofNat,okOr_some,ok_bind,ok_bind]
  split
  · rfl
  · rw [MintResult.replays]
    by_cases hh : r.requestHash=hash
    · have hs : r.blindSigs.isEmpty=false := Bool.eq_false_iff.mpr fun hn => hne (List.isEmpty_iff.mp hn)
      rw [if_neg (not_not.mpr hh),hb,decide_eq_true hh,hs]
      simp only [ho]
      rfl
    · rw [if_pos hh,decide_eq_false hh]
      rfl

lemma mintExpired_of_expired (hr : s.mintResults.get requestKey=some r) (he : r.expiresAt≤t) :
    s.mintExpired requestKey t := by
  rw [mintExpired,hr,Option.any_some]
  exact decide_eq_true he

abbrev asked (q : MintQuota) : MintQuotaRow := quotaRow ⟨q.windowEnd,q.cost,q.max⟩

abbrev Fits (q : MintQuota) (row : QuotaRow) : Prop :=
  row.windowEnd=q.windowEnd ∧ row.max=q.max ∧ row.used.toNat+q.cost.toNat≤q.max.toNat

lemma mintRows_sealed (hc : Seals cipher) (n : Block resultNonceLen) (requestKey : Hash)
    (hs : small result.expiresAt)
    (hb : 1 ≤ result.blindSigs.length ∧ result.blindSigs.length ≤ maxMintBatchSize)
    (hsz : ∀ si∈result.blindSigs, si.length=rawSignatureBytes)
    (hst : small q.windowStart) (hn : small q.windowEnd) :
    ∃ row : MintRow, mintRows cipher (some n) requestKey result q =
        .ok (row,(q.windowStart.toNat : ℤ),asked q) ∧
      row.Mirrors cipher requestKey result := by
  have hne : result.blindSigs≠[] := length_pos_iff.mp hb.1
  have he : encodeMintPayload result.blindSigs =
      .ok (UInt8.ofNat result.blindSigs.length::result.blindSigs.flatten) := by
    have hbo : (result.blindSigs.isEmpty||decide (maxMintBatchSize < result.blindSigs.length))=false := by
      simp_all [Bool.eq_false_iff]
    have hl : (result.blindSigs.any fun si => si.length≠rawSignatureBytes)=false := by
      simp_all [any_eq_false]
    simp only [encodeMintPayload,hbo,hl,Bool.false_eq_true,if_false]
  have hm : (UInt8.ofNat result.blindSigs.length::result.blindSigs.flatten).length ≤
      maxResultPlaintextBytes := by
    rw [length_cons,flatten_length _ hsz]
    exact Nat.succ_le_succ (Nat.mul_le_mul_right _ hb.2)
  obtain ⟨bl,hsl,ho⟩ := hc.sealed n .subscriptionMint requestKey result.requestHash
    result.expiresAt (cons_ne_nil _ _) hm
  refine ⟨⟨hex32 result.requestHash,some bl,(result.expiresAt.toNat : ℤ)⟩,?_,rfl,rfl,bl,rfl,hne,?_⟩
  · rw [mintRows,he,ok_bind,hsl,ok_bind,ofUnsigned_of_lt (of_decide_eq_true hs),okOr_some,
      ok_bind,ofUnsigned_of_lt (of_decide_eq_true hst),okOr_some,ok_bind,
      ofUnsigned_of_lt (of_decide_eq_true hn),okOr_some,ok_bind]
    rfl
  · rw [ho]
    exact decodeMintPayload_encode he

/-- The two overflow checks of the memory store are one comparison. -/
lemma chargeMint_eq (hw : q.isWellFormed t) (hc : q.cost≤q.max) {row : QuotaRow}
    (hr : (s.mintQuotas.get (q.quotaKey,q.windowStart)).getD ⟨q.windowEnd,0,q.max⟩=row) :
    s.chargeMint requestKey result q t =
      if row.windowEnd≠q.windowEnd ∨ row.max≠q.max then
        .answer s (.error (.backend "mint quota window/max conflicts with persisted state"))
      else if q.max.toNat < row.used.toNat+q.cost.toNat then .answer s (.ok .quotaExceeded)
      else .write { s with
        mintResults := s.mintResults.insert requestKey result
        mintQuotas := s.mintQuotas.insert (q.quotaKey,q.windowStart)
          ⟨q.windowEnd,row.used+q.cost,q.max⟩ } .stored := by
  simp only [chargeMint,hw,hr,Bool.not_true,Bool.false_eq_true,if_false]
  rw [if_neg (UInt32.not_lt.mpr hc)]
  split
  · rfl
  · grind [UInt32.toNat_add,UInt32.lt_iff_toNat_lt,Nat.mod_eq_of_lt,q.max.toNat_lt]

lemma quotaCode_injective :
    Function.Injective fun key : Hash × UInt64 => (hex32 key.1,(key.2.toNat : ℤ)) := by
  rintro ⟨k,t⟩ ⟨k',t'⟩ heq
  obtain ⟨hk,ht⟩ := Prod.mk.inj heq
  rw [Nat.cast_inj,UInt64.toNat_inj] at ht
  dsimp only at hk ht
  rw [hex32_injective hk,ht]

lemma quotaRow_checked (hw : q.isWellFormed t) : 0≤(q.windowStart.toNat : ℤ) ∧
      (q.windowStart.toNat : ℤ)<(asked q).windowEnd ∧ 0≤(asked q).used ∧ 0<(asked q).maxValue := by
  simp only [MintQuota.isWellFormed,Bool.and_eq_true,decide_eq_true_eq] at hw
  obtain ⟨⟨⟨hs,he⟩,-⟩,hm⟩ := hw
  have hwi:=UInt64.lt_iff_toNat_lt.mp (UInt64.lt_of_le_of_lt hs he)
  have hp : q.max.toNat≠0 := fun hz => hm (UInt32.toNat_inj.mp hz)
  simp only [quotaRow]
  omega

section
variable (h : Mirrors cipher ops db s)
include h
lemma pruneIssuanceResults_follows (hn : small t) :
    Follows cipher ops now (fun _ => 0) (pruneIssuanceResults db t) (s.pruneIssuanceResults t) := by
  obtain ⟨hs,hrp⟩ := s.pruneIssuanceResults_plan t
  refine ⟨⟨{s with issuanceResults := s.issuanceResults.mapVal (scrub t)},
    ⟨h.accounts,h.numbers,h.activations,h.claimed,?_,h.mint,h.quotas⟩,?_⟩,?_⟩
  · intro k
    have hk:=h.issuance k
    rw [pruneIssuanceResults,pruneIssuance,clockParam_of_small hn]
    simp only [get_updateWhere,get_mapVal]
    generalize db.oneShotIssuances.get (hex32 k)=row at hk ⊢
    generalize s.issuanceResults.get k=result at hk ⊢
    cases hk with
    | none => exact .none
    | some hr => exact .some (scrubbed_mirrors hr t)
  · rw [hs]
    exact .refl _
  · rw [hrp]
    rfl

lemma deleteExpired_mirrors (hre : s.mintResults.get requestKey=some r) (he : r.expiresAt≤t)
    (hn : small t) :
    Mirrors cipher ops (deleteExpiredMintKey db (hex32 requestKey) (clockParam t)).2
      (s.dropMint requestKey) := by
  refine ⟨h.accounts,h.numbers,h.activations,h.claimed,h.issuance,?_,h.quotas⟩
  intro k
  have hk:=h.mint k
  rw [deleteExpiredMintKey,clockParam_of_small hn]
  dsimp only [dropMint]
  rw [get_deleteWhere,get_erase]
  by_cases hs : k=requestKey
  · subst hs
    obtain ⟨row,ho,hr⟩ := rel_some hk hre
    have hle : row.expiresAt≤(t.toNat : ℤ) := by
      rw [hr.expiresAt]
      exact_mod_cast UInt64.le_iff_toNat_le.mp he
    simp [ho,hle,Option.filter_some]
  · cases hg : db.mintResults.get (hex32 k) <;> simp_all [hex32_injective.eq_iff,Option.filter_some]

lemma lookupMint_follows (requestKey hash : Hash) (hn : small t) :
    Follows cipher ops t id (lookupMint cipher db requestKey hash t) (s.lookupMint requestKey hash t) := by
  have hrow:=h.mint requestKey
  unfold lookupMint StoreState.lookupMint
  cases hre : s.mintResults.get requestKey with
  | none =>
    rw [(rel_none_iff hrow).mpr hre,StoreState.mintExpired_of_absent hre]
    refine ⟨⟨s,h,.refl s⟩,?_⟩
    simp [Plan.reply,StoreState.mintLookup,hre]
  | some r =>
    obtain ⟨row,hrow,hr⟩ := rel_some hrow hre
    simp only [hrow,mintFromRow_mirrors hr]
    by_cases he : r.expiresAt≤t
    · rw [if_pos he,mintExpired_of_expired hre he,if_pos rfl]
      refine ⟨⟨s.dropMint requestKey,deleteExpired_mirrors h hre he hn,.refl _⟩,?_⟩
      simp only [Plan.reply,StoreState.mintLookup,StoreState.dropMint,get_erase,if_true]
    · rw [if_neg he,StoreState.mintExpired_of_live hre (UInt64.not_le.mp he)]
      have hl : s.mintLookup requestKey hash =
          if r.replays hash then .replay r.blindSigs else .conflict := by
        rw [StoreState.mintLookup,hre]
      rw [if_neg Bool.false_ne_true,hl]
      by_cases hp : r.replays hash
      · rw [if_pos hp]
        exact ⟨⟨s,h,.refl s⟩,rfl⟩
      · rw [if_neg hp]
        exact ⟨⟨s,h,.refl s⟩,rfl⟩

lemma chargeMintQuota_eq (w : Db) (hsm : w.mintQuotas=db.mintQuotas) (hw : q.isWellFormed t)
    (hcs : q.cost≤q.max) {row : QuotaRow}
    (ho : (s.mintQuotas.get (q.quotaKey,q.windowStart)).getD ⟨q.windowEnd,0,q.max⟩=row) :
    chargeMintQuota w (hex32 q.quotaKey) (q.windowStart.toNat : ℤ) (asked q) =
      if Fits q row then
        .ok (some (row.used.toNat+q.cost.toNat),{ w with
          mintQuotas := db.mintQuotas.insert (hex32 q.quotaKey,(q.windowStart.toNat : ℤ))
            (quotaRow ⟨q.windowEnd,row.used+q.cost,q.max⟩) })
      else .ok (none,w) := by
  have hs:=h.quotas q.quotaKey q.windowStart
  rw [← hsm] at hs ⊢
  rw [chargeMintQuota,if_pos (quotaRow_checked hw)]
  cases hg : s.mintQuotas.get (q.quotaKey,q.windowStart) with
  | none =>
    rw [hg] at hs ho
    rw [upsert_absent hs,← ho]
    have hf:=UInt32.le_iff_toNat_le.mp hcs
    simp [quotaRow,zero_add,hf]
  | some old =>
    rw [hg] at hs ho
    obtain rfl : old=row := ho
    rw [Option.map_some] at hs
    rw [upsert_present hs]
    have hc : ((quotaRow old).windowEnd=(asked q).windowEnd ∧ (quotaRow old).maxValue=(asked q).maxValue ∧
        (quotaRow old).used≤(asked q).maxValue - (asked q).used) ↔ Fits q old := by
      have hr : (old.used.toNat : ℤ)≤(q.max.toNat : ℤ) - q.cost.toNat ↔
          old.used.toNat+q.cost.toNat≤q.max.toNat := by
        omega
      simp only [quotaRow,Nat.cast_inj,UInt64.toNat_inj,UInt32.toNat_inj,hr]
    simp only [hc]
    by_cases hk : Fits q old
    · rw [if_pos hk,if_pos hk]
      obtain ⟨he,hm,hf⟩ := hk
      have hu : (old.used+q.cost).toNat=old.used.toNat+q.cost.toNat := by
        grind [UInt32.toNat_add,q.max.toNat_lt,Nat.mod_eq_of_lt]
      simp [quotaRow,he,hm,hu]
    · rw [if_neg hk,if_neg hk]
      rfl

lemma insertMint_dead (hd : s.liveMint t requestKey=none) (hn : small t) (row : MintRow) :
    insertMint db (hex32 requestKey) row (clockParam t) =
      (1,{db with mintResults := db.mintResults.insert (hex32 requestKey) row}) := by
  have hs:=h.mint requestKey
  rw [insertMint,clockParam_of_small hn]
  cases hre : s.mintResults.get requestKey with
  | none =>
    rw [upsert_absent ((rel_none_iff hs).mpr hre)]
    rfl
  | some r =>
    obtain ⟨old,ho,hr⟩ := rel_some hs hre
    have he : r.expiresAt≤t := by simp_all [liveMint,Option.filter_some]
    have hle : old.expiresAt≤(t.toNat : ℤ) := by
      rw [hr.expiresAt]
      exact_mod_cast UInt64.le_iff_toNat_le.mp he
    simp [upsert_present ho,if_pos hle]

lemma commitMintRows_dead {row : MintRow}
    (hd : s.liveMint t requestKey=none) (hm : row.Mirrors cipher requestKey result)
    (hn : small t) (hw : q.isWellFormed t) (hc : q.cost≤q.max) :
    Follows cipher ops t id (commitMintRows cipher db requestKey result.requestHash t (hex32 q.quotaKey)
        (row,(q.windowStart.toNat : ℤ),asked q))
      (s.chargeMint requestKey result q t) := by
  obtain ⟨held,hh⟩ : ∃ held, (s.mintQuotas.get (q.quotaKey,q.windowStart)).getD
    ⟨q.windowEnd,0,q.max⟩=held := ⟨_,rfl⟩
  rw [commitMintRows,insertMint_dead h hd hn,chargeMint_eq hw hc hh]
  dsimp only
  rw [if_pos rfl,chargeMintQuota_eq h {db with mintResults := db.mintResults.insert (hex32 requestKey) row} rfl
    hw hc hh]
  by_cases ho : Fits q held
  · obtain ⟨he,ha,hr⟩ := ho
    rw [if_pos ⟨he,ha,hr⟩,if_neg (by simp only [he,ha,ne_eq,not_true,or_self,not_false_iff]),
      if_neg (not_lt.mpr hr)]
    refine ⟨⟨{ s with
      mintResults := s.mintResults.insert requestKey result
      mintQuotas := s.mintQuotas.insert (q.quotaKey,q.windowStart)
        ⟨q.windowEnd,held.used+q.cost,q.max⟩ },
      ⟨h.accounts,h.numbers,h.activations,h.claimed,h.issuance,?_,?_⟩,.refl _⟩,rfl⟩
    · exact rel_insert hex32_injective h.mint hm
    · intro k ws
      exact map_insert quotaCode_injective (fun key => h.quotas key.1 key.2) (q.quotaKey,q.windowStart)
        ⟨q.windowEnd,held.used+q.cost,q.max⟩ (k,ws)
  · -- the refusal reads a row that was there before: a new row is always within its quota
    have hst : s.mintQuotas.get (q.quotaKey,q.windowStart)=some held := by
      cases hg : s.mintQuotas.get (q.quotaKey,q.windowStart) with
      | none =>
        rw [hg,Option.getD_none] at hh
        rw [← hh] at ho
        refine absurd ⟨rfl,rfl,?_⟩ ho
        rw [UInt32.toNat_zero,Nat.zero_add]
        exact UInt32.le_iff_toNat_le.mp hc
      | some old =>
        rw [hg,Option.getD_some] at hh
        rw [hh]
    have hrow:=h.quotas q.quotaKey q.windowStart
    rw [hst,Option.map_some] at hrow
    rw [if_neg ho]
    simp only [sqlFailed,hrow,chargeRefused,quotaRow,ne_eq,Nat.cast_inj,UInt64.toNat_inj,UInt32.toNat_inj]
    split
    · exact ⟨⟨s,h,.refl s⟩,rfl⟩
    next hs =>
      rw [not_or,not_not,not_not] at hs
      have hf : q.max.toNat<held.used.toNat+q.cost.toNat := by
        by_contra hr
        exact ho ⟨hs.1,hs.2,not_lt.mp hr⟩
      rw [if_pos hf]
      exact ⟨⟨s,h,.refl s⟩,rfl⟩

lemma commitMintRows_live {hash : Hash} {e : MintResult} (hlv : s.liveMint t requestKey=some e)
    (hn : small t) (quotaKey : Bytes) (r : MintRow × ℤ × MintQuotaRow) :
    commitMintRows cipher db requestKey hash t quotaKey r =
      (.ok (if e.replays hash then .replay e.blindSigs else .conflict),db) := by
  obtain ⟨hrs,hl⟩ := liveMint_eq_some.mp hlv
  obtain ⟨old,ho,hr⟩ := rel_some (h.mint requestKey) hrs
  have hk : ¬old.expiresAt≤(t.toNat : ℤ) := by
    rw [hr.expiresAt,Nat.cast_le,not_le]
    exact UInt64.lt_iff_toNat_lt.mp hl
  simp only [commitMintRows,insertMint,clockParam_of_small hn,upsert_present ho,if_neg hk,
    Option.isSome_none,Bool.false_eq_true,if_false,zero_ne_one,Option.elim_none,ho,
    mintFromRow_mirrors hr,if_neg (UInt64.not_le.mpr hl)]
  by_cases hre : e.replays hash
  · rw [if_pos hre,if_pos hre]
    rfl
  · rw [if_neg hre,if_neg hre]
    rfl

lemma pruneMintResults_follows (hn : small t) :
    Follows cipher ops now (fun _ => 0) (pruneMintResults db t) (s.pruneMintResults t) := by
  obtain ⟨hs,hrp⟩ := s.pruneMintResults_plan t
  have hl : ∀ n : UInt64, (!decide ((n.toNat : ℤ)≤(t.toNat : ℤ)))=decide (t<n) := by
    intro n
    simp [← UInt64.le_iff_toNat_le,← decide_not]
  refine ⟨⟨{ s with
      mintResults := s.mintResults.retain fun _ result => t < result.expiresAt
      mintQuotas := s.mintQuotas.retain fun _ row => t < row.windowEnd },
    ⟨h.accounts,h.numbers,h.activations,h.claimed,h.issuance,?_,?_⟩,?_⟩,?_⟩
  · intro k
    simp only [pruneMintResults,pruneMintQuota,pruneMint,clockParam_of_small hn,get_deleteWhere,
      get_retain]
    refine rel_filter (h.mint k) ?_
    intro row r hr
    rw [hr.expiresAt]
    exact hl r.expiresAt
  · intro k ws
    simp only [pruneMintResults,pruneMintQuota,pruneMint,clockParam_of_small hn,get_deleteWhere,
      get_retain,h.quotas]
    rw [Option.filter_map]
    congr 2
    funext row
    exact hl row.windowEnd
  · rw [hs]
    exact .refl _
  · rw [hrp]
    rfl
end

lemma commitMint_follows (hci : Seals cipher) (h : Mirrors cipher ops db s)
    (n : Block resultNonceLen) (requestKey : Hash) (hlv : t < result.expiresAt)
    (ho : small t) (hs : small result.expiresAt)
    (hb : 1 ≤ result.blindSigs.length ∧ result.blindSigs.length ≤ maxMintBatchSize)
    (hsz : ∀ signature∈result.blindSigs, signature.length=rawSignatureBytes)
    (hst : small q.windowStart) (he : small q.windowEnd)
    (hw : q.isWellFormed t) (hc : q.cost≤q.max) :
    Follows cipher ops t id (commitMint cipher db (some n) requestKey result q t)
      (s.commitMint requestKey result q t) := by
  obtain ⟨row,hrw,hm⟩ := mintRows_sealed hci n requestKey hs hb hsz hst he
  rw [commitMint,if_neg (UInt64.not_le.mpr hlv),hw,Bool.not_true,if_neg Bool.false_ne_true,
    if_neg (UInt32.not_lt.mpr hc),hrw]
  cases hg : s.liveMint t requestKey with
  | some ex =>
    obtain ⟨hr,hl⟩ := StoreState.liveMint_eq_some.mp hg
    have hp : s.commitMint requestKey result q t=.answer s
        (.ok (if ex.replays result.requestHash then .replay ex.blindSigs else .conflict)) := by
      simp [StoreState.commitMint,StoreState.mintExpired_of_live hr hl,hr]
    dsimp only
    rw [commitMintRows_live h hg ho,hp]
    exact ⟨⟨s,h,.refl s⟩,rfl⟩
  | none =>
    have hp : s.commitMint requestKey result q t=(s.living requestKey t).chargeMint requestKey result q t := by
      have hn : (s.living requestKey t).mintResults.get requestKey=none := by rw [StoreState.living_get,hg]
      rw [StoreState.living] at hn ⊢
      simp only [StoreState.commitMint,hn]
    rw [hp]
    exact (commitMintRows_dead h hg hm ho hw hc).alike
      ((StoreState.AgreesAt.living s requestKey t).chargeMint requestKey result q t)
end

/-- Signatures and batches of their sizes, quotas in shape, and the other times and the
sums that fit a `BIGINT`. The sum of an activation depends on the account. -/
def argumentsFit (s : StoreState) : Op → Bool
  | .insert record => Entitlement.small record.entitlement
  | .activateSubscription accountNumber _ now bySecs =>
    1≤bySecs.toNat&&(s.accounts.get accountNumber).all fun record =>
      ((record.entitlement.activeUntil now).getD now).toNat+bySecs.toNat<2^63
  | .commitIssuance _ result _ => result.blindSig.length=rawSignatureBytes&&small result.replayUntil
  | .commitMint _ result quota now =>
    small result.expiresAt&&1 ≤ result.blindSigs.length&&result.blindSigs.length ≤ maxMintBatchSize &&
      result.blindSigs.all (fun signature => signature.length=rawSignatureBytes) &&
      small quota.windowStart&&small quota.windowEnd&&quota.isWellFormed now&&quota.cost≤quota.max
  | .get _ | .lookupIssuance .. | .pruneIssuanceResults _ | .lookupMint .. | .pruneMintResults _ => true

def fits (s : StoreState) (op : Op) : Bool := op.clock.all small&&argumentsFit s op

def allFit (s : StoreState) : List Op → Bool
  | [] => true
  | op::ops => fits s op&&allFit (InMemoryStore.perform op.refused op.plan s).1 ops

def OneAccountPerKey (ops : List Op) : Prop :=
  ∀ activationKey a t b a' t' b', .activateSubscription a activationKey t b∈ops →
    .activateSubscription a' activationKey t' b'∈ops → a'=a

section
variable {cipher : ResultCipher} {ops : List Op} {db : Db} {s m : StoreState} {now : UInt64} {op : Op}
lemma fits_congr (h : ∀ a, m.accounts.get a=s.accounts.get a) (op : Op) : fits m op=fits s op := by
  simp [fits,argumentsFit,h]

lemma perform_follows (hci : Seals cipher) (h : Mirrors cipher ops db s) (n : Block resultNonceLen)
    (hp : op∈ops) (hk : OneAccountPerKey ops) (hf : fits s op) (ha : op.refused=none) :
    Follows cipher ops (op.clock.getD now) op.uncounted (perform cipher db (some n) op) (op.plan s) := by
  rw [fits,Bool.and_eq_true] at hf
  obtain ⟨hc,hf⟩ := hf
  cases op with
  | insert rc => exact insert_follows h hf
  | get ac =>
    refine ⟨⟨s,h,.refl s⟩,?_⟩
    rw [perform,get_reply h]
    rfl
  | activateSubscription ac av t bc =>
    rw [argumentsFit,Bool.and_eq_true,decide_eq_true_eq] at hf
    refine activate_follows h hp (fun a t' by' hp' => hk _ _ _ _ _ _ _ hp hp') hc hf.1 ?_
    intro rc hr
    have hsum:=hf.2
    rw [hr,Option.all_some,decide_eq_true_eq] at hsum
    exact hsum
  | lookupIssuance ik rh t =>
    refine ⟨⟨s,h,.refl s⟩,?_⟩
    rw [perform,lookupIssuance_reply h]
    rfl
  | commitIssuance ik result t =>
    rw [argumentsFit,Bool.and_eq_true,decide_eq_true_eq] at hf
    have hl : t < result.replayUntil := by simp_all [Op.refused,refuseIssuance,not_or,decide_eq_true_eq]
    refine commitIssuance_follows hci h n ik hl hf.2 ?_
    rw [hf.1]
    rfl
  | pruneIssuanceResults t => exact pruneIssuanceResults_follows h hc
  | lookupMint rq rh t => exact lookupMint_follows h rq rh hc
  | commitMint rq result qu t =>
    simp only [argumentsFit,Bool.and_eq_true,decide_eq_true_eq,all_eq_true] at hf
    obtain ⟨⟨⟨⟨⟨⟨⟨hs,ho⟩,hm⟩,hsz⟩,hst⟩,he⟩,hw⟩,hcs⟩ := hf
    have hl : t < result.expiresAt := by grind [Op.refused,refuseMint,UInt64.not_le.mp]
    exact commitMint_follows hci h n rq hl hc hs ⟨ho,hm⟩ hsz hst he hw hcs
  | pruneMintResults t => exact pruneMintResults_follows h hc

lemma perform_refused (cipher : ResultCipher) (db : Db) {e : StoreError} (hr : op.refused=some e)
    (n : Option (Block resultNonceLen)) :
    ∃ e', perform cipher db n op=(.error e',db) := by
  cases op with
  | commitIssuance ik result t =>
    rw [Op.refused,refuseIssuance] at hr
    split at hr
    next hd =>
      have hc : ¬(t < result.replayUntil ∧ result.blindSig.length*2=blindTokenHexLen) := by
        have hn : blindTokenHexLen≠0 := by decide
        grind [UInt64.not_le,List.isEmpty_iff]
      refine ⟨.backend "refusing to persist an expired or wrong-length issuance result",?_⟩
      rw [perform,commitIssuance,issuanceRow,ensure,decide_eq_false hc]
      rfl
    · cases hr
  | commitMint rq result qu t =>
    rw [Op.refused,refuseMint] at hr
    split at hr
    next hd =>
      refine ⟨.backend "refusing to store an already-expired mint result",?_⟩
      rw [perform,commitMint,if_pos hd]
      rfl
    · cases hr
  | insert | get | activateSubscription | lookupIssuance | pruneIssuanceResults | lookupMint
  | pruneMintResults => cases hr
end

structure Outcome where
  op : Op
  reply : Option op.Reply

def Answer.outcome (a : Answer) : Outcome := ⟨a.op,(a.reply.map a.op.uncounted).toOption⟩

def postgresRun (cipher : ResultCipher) (db : Db) : List (Op × Block resultNonceLen) → List Answer
  | [] => []
  | (op,nonce)::calls =>
    let out:=perform cipher db (some nonce) op
    ⟨op,out.1⟩::postgresRun cipher out.2 calls

section
variable {cipher : ResultCipher} {ops : List Op} {db : Db} {s m : StoreState} {now : UInt64} {op : Op}
def Tracks (cipher : ResultCipher) (ops : List Op) (now : UInt64) (db : Db) (m : StoreState) : Prop :=
  ∃ s, Mirrors cipher ops db s ∧ s.AgreesAt now m

lemma step_tracks (hc : Seals cipher) (h : Tracks cipher ops now db m) (n : Block resultNonceLen)
    (hop : op∈ops) (hk : OneAccountPerKey ops) (ht : fits m op)
    (hcl : now≤op.clock.getD now) :
    Tracks cipher ops (op.clock.getD now) (perform cipher db (some n) op).2
        (InMemoryStore.perform op.refused op.plan m).1 ∧
      Answer.outcome ⟨op,(perform cipher db (some n) op).1⟩ =
        Answer.outcome ⟨op,(InMemoryStore.perform op.refused op.plan m).2⟩ := by
  obtain ⟨s,hm,ha⟩ := h
  have ha:=ha.mono hcl
  cases hr : op.refused with
  | some e =>
    obtain ⟨e',ho⟩ := perform_refused cipher db hr (some n)
    rw [ho]
    exact ⟨⟨s,hm,ha⟩,rfl⟩
  | none =>
    rw [fits_congr ha.accounts] at ht
    have hf:=(perform_follows hc hm n hop hk ht hr).alike (ha.plan op)
    rw [InMemoryStore.perform_none]
    exact ⟨hf.state,congrArg (Outcome.mk op) hf.reply⟩

lemma run_tracks (hci : Seals cipher) (hk : OneAccountPerKey ops)
    (c : List (Op × Block resultNonceLen)) (hc : ∀ call∈c, call.1∈ops)
    (h : Tracks cipher ops now db m) (hcl : Forward now (c.filterMap fun call => call.1.clock))
    (hf : allFit m (c.map Prod.fst)) :
    (postgresRun cipher db c).map Answer.outcome =
      (memoryRun m (c.map Prod.fst)).map Answer.outcome := by
  induction c generalizing db m now with
  | nil => rfl
  | cons call c ih =>
    obtain ⟨op,no⟩ := call
    obtain ⟨hop,hc⟩ := forall_mem_cons.mp hc
    rw [map_cons,allFit,Bool.and_eq_true] at hf
    obtain ⟨hn,hl⟩ := hcl.next
    obtain ⟨ht,hs⟩ := step_tracks hci h no hop hk hf.1 hn
    rw [postgresRun,map_cons,map_cons,memoryRun,map_cons,hs]
    exact congrArg _ (ih hc ht hl hf.2)
end

lemma mirrors_empty (cipher : ResultCipher) (ops : List Op) : Mirrors cipher ops Db.empty empty where
  accounts _ := rfl
  numbers _ _ hg := by cases hg
  activations _ := rfl
  claimed _ _ hg := by cases hg
  issuance _ := .none
  mint _ := .none
  quotas _ _ := rfl

theorem postgres_store_answers_as_memory_store (cipher : ResultCipher) (hcipher : Seals cipher)
    (calls : List (Op × Block resultNonceLen))
    (hclocks : (calls.filterMap fun call => call.1.clock).Pairwise (·≤·))
    (hkeys : OneAccountPerKey (calls.map Prod.fst))
    (hfits : allFit StoreState.empty (calls.map Prod.fst)=true) :
    (postgresRun cipher Db.empty calls).map Answer.outcome =
      (memoryRun StoreState.empty (calls.map Prod.fst)).map Answer.outcome := by
  have ht : Tracks cipher (calls.map Prod.fst) 0 Db.empty empty :=
    ⟨empty,mirrors_empty cipher _,.refl _⟩
  exact run_tracks hcipher hkeys calls (fun _ hc => mem_map_of_mem hc) ht (.start hclocks) hfits

open Survival (claimKey claim tagOnly tagOnly_opens)

def subscriber : AccountRecord := ⟨Block.fill 32 3,.none,Block.fill 32 9⟩
def batch : MintResult := ⟨Block.fill 32 4,[List.replicate 256 7,List.replicate 256 8],50⟩
def batchQuota : MintQuota := ⟨Block.fill 32 3,0,100,2,3⟩

/-- The second activation is a replay, and so is the lookup of the batch; its quota then
has no room for another one. -/
def subscriberCalls : List (Op × Block resultNonceLen) :=
  [.insert subscriber,.activateSubscription subscriber.accountNumber (Block.fill 32 5) 10 30,
    .activateSubscription subscriber.accountNumber (Block.fill 32 5) 11 30,.get subscriber.accountNumber,
    .commitMint (Block.fill 32 6) batch batchQuota 12,.lookupMint (Block.fill 32 6) batch.requestHash 13,
    .commitMint (Block.fill 32 7) batch batchQuota 14,.commitIssuance claimKey claim 15,
    .pruneIssuanceResults 200,.lookupIssuance claimKey claim.requestHash 201,.pruneMintResults 202].map
    fun op => (op,Block.fill 12 0)

theorem subscriber_answered_alike :
    ((postgresRun tagOnly Db.empty subscriberCalls).all fun a => a.reply.isOk)=true ∧
      (postgresRun tagOnly Db.empty subscriberCalls).map Answer.outcome =
        (memoryRun StoreState.empty (subscriberCalls.map Prod.fst)).map Answer.outcome := by
  have hk : OneAccountPerKey (subscriberCalls.map Prod.fst) := by
    have ho : ∀ a k t b, .activateSubscription a k t b∈subscriberCalls.map Prod.fst →
        a=subscriber.accountNumber := by
      intro a k t b hp
      simp [subscriberCalls] at hp
      exact hp.elim And.left And.left
    intro k a t b a' t' b' hp hp'
    rw [ho a k t b hp,ho a' k t' b' hp']
  refine ⟨by decide +kernel,?_⟩
  exact postgres_store_answers_as_memory_store tagOnly ⟨tagOnly_opens,fun _ _ _ => rfl⟩ subscriberCalls
    (by decide +kernel) hk (by decide +kernel)
end NilVpn.Portal.Postgres
