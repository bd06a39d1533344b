import NilVpn.Base.Sql
import NilVpn.Ledger.Memory

/-!
# The Postgres ledger (nullifier.rs:917-1100)
-/

namespace NilVpn.Ledger.Postgres
open StoredRecord Base Option List Table Base.Sql

structure NullifierRow where
  epoch : ℤ
  replayUntil : Option ℤ
  replayBlob : Option Bytes
  deriving DecidableEq

abbrev Db := Table Bytes NullifierRow

/-- What the conflict clause makes of a row. `NULL > $5` is not true. -/
def conflictUpdate (now : ℤ) (old : NullifierRow) : NullifierRow :=
  { old with
    replayUntil := if old.replayUntil.any fun replayUntil => now < replayUntil then old.replayUntil else none
    replayBlob := if old.replayUntil.any fun replayUntil => now < replayUntil then old.replayBlob else none }

def commitSql (db : Db) (msg : Bytes) (row : NullifierRow) (now : ℤ) : Option NullifierRow × Db :=
  upsert db msg row fun old => some (conflictUpdate now old)

def pruneSql (db : Db) (now : ℤ) : ℕ × Db :=
  updateWhere db (fun row => row.replayBlob.isSome&&row.replayUntil.any fun replayUntil => replayUntil≤now)
    fun row => {row with replayUntil := none,replayBlob := none}

def toEpoch (n : ℤ) : Option UInt32 := if 0≤n ∧ n<2^32 then some (UInt32.ofNat n.toNat) else none

def commitParams (cipher : Aead) (entropy : Option Nonce) (a : Commit) :
    Except IoError (Bytes × NullifierRow × ℤ) := do
  validateCommit a.key a.replayUntil a.response a.now
  let ciphertext ← sealReplay cipher entropy a.epoch a.key a.replayUntil a.response
  let replayUntil ← okOr (ofUnsigned a.replayUntil.toNat)
    ⟨.invalidInput,"replay expiry exceeds Postgres BIGINT"⟩
  let now ← okOr (ofUnsigned a.now.toNat) ⟨.invalidInput,"current time exceeds Postgres BIGINT"⟩
  return (ciphertext,⟨a.epoch.toNat,some replayUntil,some ciphertext⟩,now)

def returnedOutcome (cipher : Aead) (a : Commit) (ciphertext : Bytes) (row : NullifierRow) :
    Except IoError CommitOutcome :=
  match row.replayUntil,row.replayBlob with
  | some storedUntil,some storedCiphertext => do
    let storedEpoch ← okOr (toEpoch row.epoch) ⟨.invalidData,"stored redemption epoch is invalid"⟩
    let storedUntil ← okOr (toUnsigned storedUntil) ⟨.invalidData,"stored replay expiry is invalid"⟩
    if storedUntil≤a.now then return .alreadySpent
    match openReplay cipher storedEpoch a.key storedUntil storedCiphertext with
    | .ok response => return .granted response (storedCiphertext=ciphertext)
    | .error _ => return .alreadySpent
  | _,_ => .ok .alreadySpent

def commitOrReplay (cipher : Aead) (entropy : Option Nonce) (a : Commit) (db : Db) :
    Db × Except IoError CommitOutcome :=
  match commitParams cipher entropy a with
  | .error e => (db,.error e)
  | .ok (ciphertext,row,now) =>
    match commitSql db a.key row now with
    | (none,db') => (db',.error ⟨.other,"postgres redemption commit: query returned an unexpected number of rows"⟩)
    | (some stored,db') => (db',returnedOutcome cipher a ciphertext stored)

def pruneExpiredReplays (now : UInt64) (db : Db) : Db × Except IoError ℕ :=
  match ofUnsigned now.toNat with
  | none => (db,.error ⟨.invalidInput,"current time exceeds Postgres BIGINT"⟩)
  | some now => ((pruneSql db now).2,.ok (pruneSql db now).1)

def postgresStep (cipher : Aead) (db : Db) : Op → Db × Reply
  | .commit a entropy => ((commitOrReplay cipher entropy a db).1,.commit (commitOrReplay cipher entropy a db).2)
  | .prune now => ((pruneExpiredReplays now db).1,.prune (pruneExpiredReplays now db).2)

section
variable {memory postgres : Aead} {used : List Bytes} {key : Bytes}
/-- Both ledgers hold the same response, each under its own ciphertext; the one in the
row is among those that were sealed before. -/
inductive Stands (memory postgres : Aead) (used : List Bytes) (key : Bytes) : NullifierRow → StoredRecord → Prop
  | spent (epoch : UInt32) : Stands memory postgres used key ⟨epoch.toNat,none,none⟩ (.spentOnly epoch)
  | held (epoch : UInt32) (replayUntil : UInt64) {ciphertext blob response : Bytes}
      (hmemory : openReplay memory epoch key replayUntil ciphertext=.ok response)
      (hpostgres : openReplay postgres epoch key replayUntil blob=.ok response) (hused : blob∈used) :
      Stands memory postgres used key ⟨epoch.toNat,some replayUntil.toNat,some blob⟩
        ⟨epoch,some replayUntil,some ciphertext⟩

variable {row : NullifierRow} {r : StoredRecord}
lemma Stands.mono (h : Stands memory postgres used key row r) {later : List Bytes}
    (hs : used ⊆ later) : Stands memory postgres later key row r := by
  cases h with
  | spent ep => exact .spent ep
  | held ep ru hm hp hu => exact .held ep ru hm hp (hs hu)

lemma toEpoch_toNat (epoch : UInt32) : toEpoch (epoch.toNat : ℤ)=some epoch := by
  have hlt : (epoch.toNat : ℤ)<2^32 := by exact_mod_cast epoch.toNat_lt
  rw [toEpoch,if_pos ⟨Int.natCast_nonneg _,hlt⟩,Int.toNat_natCast,UInt32.ofNat_toNat]

lemma conflict_live {a : Commit} {sealed : Bytes}
    (h : Stands memory postgres used a.key row r) {outcome : CommitOutcome}
    (hlv : liveOutcome memory a.key r a.now false=some outcome) (hf : sealed∉used) :
    conflictUpdate (a.now.toNat : ℤ) row=row ∧
      returnedOutcome postgres a sealed row=.ok outcome := by
  cases h with
  | spent epoch => cases hlv
  | @held epoch replayUntil c blob response hm hp hu =>
    have hl : a.now < replayUntil := by grind [liveOutcome,liveCiphertext]
    have hk : (a.now.toNat : ℤ)<(replayUntil.toNat : ℤ) := by
      exact_mod_cast UInt64.lt_iff_toNat_lt.mp hl
    simp only [liveOutcome,liveCiphertext,if_pos hl,hm,Option.some.injEq] at hlv
    have ho : decide (blob=sealed)=false := by
      refine decide_eq_false ?_
      rintro rfl
      exact hf hu
    constructor
    · simp only [conflictUpdate,any_some,decide_eq_true hk,if_true]
    · simp only [returnedOutcome,toEpoch_toNat,toUnsigned_ofNat,okOr_some,ok_bind,
        if_neg (UInt64.not_le.mpr hl),hp,ho,← hlv]
      rfl

lemma conflict_spent {a : Commit} (sealed : Bytes) (h : Stands memory postgres used a.key row r)
    (hd : liveOutcome memory a.key r a.now false=none) :
    Stands memory postgres used a.key (conflictUpdate (a.now.toNat : ℤ) row) r.clear ∧
      returnedOutcome postgres a sealed (conflictUpdate (a.now.toNat : ℤ) row)=.ok .alreadySpent := by
  cases h with
  | spent ep => exact ⟨.spent ep,rfl⟩
  | @held ep replayUntil c bl re hm hp hu =>
    have he : ¬a.now < replayUntil := by grind [liveOutcome,liveCiphertext]
    have hc : conflictUpdate (a.now.toNat : ℤ) ⟨ep.toNat,some replayUntil.toNat,some bl⟩ =
        ⟨ep.toNat,none,none⟩ := by
      have hle : ¬(a.now.toNat : ℤ)<(replayUntil.toNat : ℤ) := by
        rw [Nat.cast_lt,← UInt64.lt_iff_toNat_lt]
        exact he
      simp only [conflictUpdate,any_some,decide_eq_false hle,Bool.false_eq_true,if_false]
    rw [hc]
    exact ⟨.spent ep,rfl⟩

lemma prune_stands (h : Stands memory postgres used key row r) (now : UInt64) :
    (row.replayBlob.isSome&&row.replayUntil.any fun ru => ru≤(now.toNat : ℤ))=(r.prune now).2 ∧
      Stands memory postgres used key
        (if row.replayBlob.isSome&&row.replayUntil.any fun ru => ru≤(now.toNat : ℤ) then
          {row with replayUntil := none,replayBlob := none} else row)
        (r.prune now).1 := by
  cases h with
  | spent ep => exact ⟨rfl,.spent ep⟩
  | @held ep ru c blob re hm hp hu =>
    have hle : decide ((ru.toNat : ℤ)≤(now.toNat : ℤ))=decide (ru≤now) := by
      simp only [Nat.cast_le,UInt64.le_iff_toNat_le]
    simp only [isSome_some,any_some,hle,Bool.true_and,prune]
    by_cases hd : ru≤now
    · simp only [hd,decide_true,if_true]
      exact ⟨trivial,.spent ep⟩
    · simp only [hd,decide_false,Bool.false_eq_true,if_false]
      exact ⟨trivial,.held ep ru hm hp hu⟩
end
section
variable {memory postgres : Aead} {used : List Bytes} {db : Db} {t : Records} {a : Commit}
def Mirrors (memory postgres : Aead) (used : List Bytes) (db : Db) (t : Records) : Prop :=
  ∀ key, Option.Rel (Stands memory postgres used key) (db.get key) (t.get key)

structure Seals (cipher : Aead) : Prop where
  opens : cipher.Opens
  encrypts : ∀ nonce aad message, (cipher.encrypt nonce aad message).isSome=true

lemma Seals.sealed {c : Aead} (h : Seals c) (n : Nonce) (ha : a.Valid) :
    ∃ ciphertext, sealReplay c (some n) a.epoch a.key a.replayUntil a.response=.ok ciphertext ∧
      openReplay c a.epoch a.key a.replayUntil ciphertext=.ok a.response := by
  obtain ⟨en,he⟩ := isSome_iff_exists.mp (h.encrypts n (aad a.epoch a.key a.replayUntil) a.response)
  have hb : ¬(a.response=[] ∨ a.response.length > maxReplayResultBytes) := by
    grind [Commit.Valid,validateCommit]
  have hs : sealReplay c (some n) a.epoch a.key a.replayUntil a.response=.ok (n.bytes++en) := by
    simp only [sealReplay,if_neg hb,he]
  exact ⟨_,hs,h.opens _ _ _ _ _ _ hs⟩

def Commit.small (a : Commit) : Bool := a.replayUntil.toNat<2^63&&a.now.toNat<2^63

lemma commitParams_eq {cipher : Aead} {e : Option Nonce} {c : Bytes} (ha : a.Valid)
    (hs : Commit.small a)
    (hsl : sealReplay cipher e a.epoch a.key a.replayUntil a.response=.ok c) :
    commitParams cipher e a=.ok (c,⟨a.epoch.toNat,some a.replayUntil.toNat,some c⟩,a.now.toNat) := by
  rw [Commit.small,Bool.and_eq_true,decide_eq_true_eq,decide_eq_true_eq] at hs
  rw [commitParams,ha,ok_bind,hsl,ok_bind,ofUnsigned_of_lt hs.1,okOr_some,ok_bind,
    ofUnsigned_of_lt hs.2,okOr_some,ok_bind]
  rfl

lemma commit_mirrors (hm : Seals memory) (hp : Seals postgres) (h : Mirrors memory postgres used db t)
    (n nonce' : Nonce) (ha : a.Valid) (hsm : Commit.small a) {sealed : Bytes}
    (hsl : sealReplay postgres (some nonce') a.epoch a.key a.replayUntil a.response=.ok sealed)
    (hf : sealed∉used) :
    Mirrors memory postgres (sealed::used) (commitOrReplay postgres (some nonce') a db).1
        (Ledger.commitOrReplay memory (some n) a t).1 ∧
      (commitOrReplay postgres (some nonce') a db).2=(Ledger.commitOrReplay memory (some n) a t).2 := by
  have hu : used ⊆ sealed::used := subset_cons_self sealed used
  have hk : ∀ key, Option.Rel (Stands memory postgres (sealed::used) key) (db.get key) (t.get key) := by
    intro key
    have hkey:=h key
    generalize db.get key=row at hkey ⊢
    generalize t.get key=r at hkey ⊢
    cases hkey with
    | none => exact .none
    | some hr => exact .some (hr.mono hu)
  have hv : validateCommit a.key a.replayUntil a.response a.now=.ok () := ha
  simp only [commitOrReplay,commitParams_eq ha hsm hsl,Ledger.commitOrReplay,hv,commitSql]
  cases hg : t.get a.key with
  | none =>
    obtain ⟨c,hse,hon⟩ := hm.sealed n ha
    have hs : Stands memory postgres (sealed::used) a.key
        ⟨a.epoch.toNat,some a.replayUntil.toNat,some sealed⟩ (a.record c) :=
      .held a.epoch a.replayUntil hon (hp.opens _ _ _ _ _ _ hsl) mem_cons_self
    rw [upsert_absent ((rel_none_iff (h a.key)).mpr hg),hse]
    dsimp only
    rw [liveOutcome_record hm.opens ha hse]
    refine ⟨rel_insert Function.injective_id hk hs,?_⟩
    simp only [returnedOutcome,toEpoch_toNat,toUnsigned_ofNat,okOr_some,ok_bind,
      if_neg (UInt64.not_le.mpr (validateCommit_lt ha)),hp.opens _ _ _ _ _ _ hsl,decide_true]
    rfl
  | some r =>
    obtain ⟨row,hrow,hr⟩ := rel_some (h a.key) hg
    rw [upsert_present hrow]
    dsimp only [elim_some]
    cases hl : liveOutcome memory a.key r a.now false with
    | some o =>
      obtain ⟨hkp,ho⟩ := conflict_live hr hl hf
      rw [hkp]
      refine ⟨?_,ho⟩
      intro key
      rw [get_insert]
      split
      next hkey =>
        rw [hkey,hg]
        exact .some (hr.mono hu)
      · exact hk key
    | none =>
      obtain ⟨hs,ho⟩ := conflict_spent sealed hr hl
      refine ⟨?_,ho⟩
      intro key
      rw [get_insert,get_modify]
      split
      next hkey =>
        rw [hkey,hg]
        exact .some (hs.mono hu)
      · exact hk key

lemma commit_invalid {e : IoError} (hin : validateCommit a.key a.replayUntil a.response a.now=.error e)
    (n entropy' : Option Nonce) :
    commitOrReplay postgres entropy' a db=(db,.error e) ∧
      Ledger.commitOrReplay memory n a t=(t,.error e) := by
  simp only [commitOrReplay,commitParams,Ledger.commitOrReplay,hin]
  exact ⟨rfl,trivial⟩

lemma prune_mirrors (h : Mirrors memory postgres used db t) {now : UInt64} (hs : now.toNat<2^63) :
    Mirrors memory postgres used (pruneExpiredReplays now db).1 (Ledger.pruneExpiredReplays now t).1 ∧
      (pruneExpiredReplays now db).2=(Ledger.pruneExpiredReplays now t).2 := by
  rw [pruneExpiredReplays,ofUnsigned_of_lt hs]
  constructor
  · intro key
    have hk:=h key
    simp only [pruneSql,get_updateWhere,Ledger.pruneExpiredReplays,pruneRecords,get_mapVal]
    generalize db.get key=row at hk ⊢
    generalize t.get key=r at hk ⊢
    cases hk with
    | none => exact .none
    | some hr => exact .some (prune_stands hr now).2
  · have hc:=countP_rel h fun key row r hr => (prune_stands hr now).1
    exact congrArg Except.ok hc
end

inductive Call
  | commit (a : Commit)
  | prune (now : UInt64)

structure Event where
  call : Call
  (memoryNonce postgresNonce : Nonce)

def Call.op (nonce : Nonce) : Call → Op
  | commit a => .commit a (some nonce)
  | prune now => .prune now

def Call.small : Call → Bool
  | commit a => Commit.small a
  | prune now => now.toNat<2^63

def Event.sealed (cipher : Aead) (e : Event) : Option Bytes :=
  match e.call with
  | .commit a =>
    match validateCommit a.key a.replayUntil a.response a.now with
    | .ok () => (sealReplay cipher (some e.postgresNonce) a.epoch a.key a.replayUntil a.response).toOption
    | .error _ => none
  | .prune _ => none

def replies {σ : Type} (step : σ → Op → σ × Reply) : σ → List Op → List Reply
  | _,[] => []
  | s,op::ops => (step s op).2::replies step (step s op).1 ops

section
variable {m postgres : Aead} {used : List Bytes} {db : Db} {t : Records}
lemma step_mirrors (hm : Seals m) (hp : Seals postgres) (h : Mirrors m postgres used db t) (e : Event)
    (hsm : e.call.small) (hf : ∀ c∈e.sealed postgres, c∉used) :
    Mirrors m postgres ((e.sealed postgres).toList++used)
      (postgresStep postgres db (e.call.op e.postgresNonce)).1
        (memoryStep m t (e.call.op e.memoryNonce)).1 ∧
      (postgresStep postgres db (e.call.op e.postgresNonce)).2 =
        (memoryStep m t (e.call.op e.memoryNonce)).2 := by
  obtain ⟨call,no,no'⟩ := e
  cases call with
  | prune now =>
    obtain ⟨hs,hr⟩ := prune_mirrors h (of_decide_eq_true hsm)
    exact ⟨hs,congrArg Reply.prune hr⟩
  | commit a =>
    cases hv : validateCommit a.key a.replayUntil a.response a.now with
    | error e =>
      obtain ⟨hpo,hme⟩ := @commit_invalid m postgres db t a e hv (some no) (some no')
      simp only [Call.op,postgresStep,memoryStep,hpo,hme,Event.sealed,hv]
      exact ⟨h,trivial⟩
    | ok =>
      obtain ⟨c,hl,-⟩ := hp.sealed no' hv
      have hse : Event.sealed postgres ⟨.commit a,no,no'⟩=some c := by
        simp only [Event.sealed,hv,hl]
        rfl
      rw [hse] at hf ⊢
      obtain ⟨hs,hr⟩ := commit_mirrors hm hp h no no' hv hsm hl (hf c rfl)
      exact ⟨hs,congrArg Reply.commit hr⟩

lemma run_mirrors (hm : Seals m) (hp : Seals postgres) (h : Mirrors m postgres used db t)
    (es : List Event) (hs : ∀ e∈es, e.call.small)
    (hd : (es.filterMap (Event.sealed postgres)).Nodup)
    (hf : ∀ c∈es.filterMap (Event.sealed postgres), c∉used) :
    replies (postgresStep postgres) db (es.map fun e => e.call.op e.postgresNonce) =
      replies (memoryStep m) t (es.map fun e => e.call.op e.memoryNonce) := by
  induction es generalizing used db t with
  | nil => rfl
  | cons e es ih =>
    obtain ⟨hh,ht⟩ := forall_mem_cons.mp hs
    have hsp : (e::es).filterMap (Event.sealed postgres) =
        (e.sealed postgres).toList++es.filterMap (Event.sealed postgres) := by
      rw [filterMap_cons]
      cases e.sealed postgres with
      | none | some => rfl
    rw [hsp] at hd hf
    obtain ⟨-,hrs,ha⟩ := nodup_append.mp hd
    obtain ⟨hst,hr⟩ := step_mirrors hm hp h e hh fun c hc =>
      hf c (mem_append_left _ (mem_toList.mpr hc))
    have hl : ∀ c∈es.filterMap (Event.sealed postgres), c∉(e.sealed postgres).toList++used := by grind
    rw [map_cons,map_cons,replies,replies,hr,ih hst ht hrs hl]
end

theorem postgres_ledger_answers_as_memory_ledger (memory postgres : Aead) (hmemory : Seals memory)
    (hpostgres : Seals postgres) (es : List Event) (hsmall : ∀ e∈es, e.call.small=true)
    (hdistinct : (es.filterMap (Event.sealed postgres)).Nodup) :
    replies (postgresStep postgres) Table.empty (es.map fun e => e.call.op e.postgresNonce) =
      replies (memoryStep memory) Table.empty (es.map fun e => e.call.op e.memoryNonce) := by
  have hm : Mirrors memory postgres [] Table.empty Table.empty := fun _ => .none
  exact run_mirrors hmemory hpostgres hm es hsmall hdistinct fun _ _ => not_mem_nil

def retried : List Event :=
  [⟨.commit ⟨1,List.replicate 64 97,20,[1],10⟩,⟨List.replicate 12 0,rfl⟩,⟨List.replicate 12 0,rfl⟩⟩,
    ⟨.commit ⟨1,List.replicate 64 97,25,[2],15⟩,⟨List.replicate 12 1,rfl⟩,⟨List.replicate 12 1,rfl⟩⟩,
    ⟨.commit ⟨1,List.replicate 64 97,40,[3],30⟩,⟨List.replicate 12 2,rfl⟩,⟨List.replicate 12 2,rfl⟩⟩,
    ⟨.prune 50,⟨List.replicate 12 3,rfl⟩,⟨List.replicate 12 3,rfl⟩⟩]

theorem retried_answered_alike :
    replies (postgresStep plainAead) Table.empty (retried.map fun e => e.call.op e.postgresNonce) =
      [.commit (.ok (.granted [1] true)),.commit (.ok (.granted [1] false)),.commit (.ok .alreadySpent),
        .prune (.ok 0)] ∧
    replies (postgresStep plainAead) Table.empty (retried.map fun e => e.call.op e.postgresNonce) =
      replies (memoryStep plainAead) Table.empty (retried.map fun e => e.call.op e.memoryNonce) :=
  ⟨by decide +kernel,postgres_ledger_answers_as_memory_ledger plainAead plainAead
    ⟨plainAead_opens,fun _ _ _ => rfl⟩
    ⟨plainAead_opens,fun _ _ _ => rfl⟩ retried (by decide +kernel) (by decide +kernel)⟩
end NilVpn.Ledger.Postgres
