import NilVpn.Ledger.FileSpec

/-!
# The file ledger's operations
-/

namespace NilVpn.Ledger
open Except Base Option List Table
open Program (Safe)

lemma validateStoredKey_of_valid {a : Commit} (h : a.Valid) : validateStoredKey a.key=.ok () := by
  unfold Commit.Valid validateCommit at h
  split at h
  · cases h
  next hk =>
    have hl : a.key.length=64 := by
      by_contra hn
      exact hk (.inl hn)
    have ha : a.key.all isLowerHex := by
      by_contra hn
      exact hk (.inr (Bool.not_eq_true _ ▸ hn))
    refine (validateStoredKey_ok a.key).mpr ⟨?_,?_,?_,ha⟩
    · intro hnil
      rw [hnil] at hl
      cases hl
    · rw [hl]
      decide
    · rw [hl]

variable {key : Bytes} {t : Records} {r : StoredRecord}
lemma openReplay_length {cipher : Aead} {epoch : UInt32} {u : UInt64} {st p : Bytes}
    (h : openReplay cipher epoch key u st=.ok p) :
    nonceLen+tagLen ≤ st.length ∧ st.length ≤ maxCiphertextBytes := by
  unfold openReplay at h
  split at h
  · cases h
  next hn => omega

lemma storable_record {cipher : Aead} (hc : cipher.Opens) {a : Commit} (ha : a.Valid)
    {e : Option Nonce} {sealed : Bytes}
    (hs : sealReplay cipher e a.epoch a.key a.replayUntil a.response=.ok sealed) :
    Storable a.key (a.record sealed) := by
  obtain ⟨hl,hhi⟩ := openReplay_length (hc _ _ _ _ _ _ hs)
  refine ⟨validateStoredKey_of_valid ha,rfl,?_⟩
  intro c hcc
  rw [← Option.some.inj hcc]
  refine ⟨?_,hhi⟩
  intro hn
  rw [hn] at hl
  cases hl

lemma AllStorable.descends {t' : Records} (ht : AllStorable t)
    (h : ∀ k r', t'.get k=some r' → ∃ r, t.get k=some r ∧ Descends r r') : AllStorable t' := by
  intro k r' hr'
  obtain ⟨r,hr,hd⟩ := h k r' hr'
  rcases hd with rfl | rfl
  · exact ht k r' hr
  · exact (ht k r hr).clear

lemma AllStorable.modify (ht : AllStorable t) (k : Bytes) :
    AllStorable (t.modify k StoredRecord.clear) := by
  refine ht.descends ?_
  intro j r' hr'
  rw [get_modify] at hr'
  split at hr'
  · obtain ⟨r,hr,rfl⟩ := map_eq_some_iff.mp hr'
    exact ⟨r,hr,.inr rfl⟩
  · exact ⟨r',hr',.inl rfl⟩

lemma AllStorable.prune (ht : AllStorable t) (now : UInt64) : AllStorable (pruneRecords now t) := by
  refine ht.descends ?_
  intro k r' hr'
  rw [pruneRecords,get_mapVal] at hr'
  obtain ⟨r,hr,rfl⟩ := map_eq_some_iff.mp hr'
  exact ⟨r,hr,prune_descends now r⟩

lemma prune_eq_self (h : Storable key r) (now : UInt64) (hn : (r.prune now).2=false) :
    (r.prune now).1=r := by
  obtain ⟨ep,ru,c⟩ := r
  have hc:=h.consistent
  cases ru with
  | none => rfl
  | some u => grind [StoredRecord.prune]

lemma pruneRecords_eq_self (ht : AllStorable t) (now : UInt64) (h : prunedCount now t=0) :
    pruneRecords now t=t := by
  obtain ⟨es,hnd⟩ := t
  have hn : ∀ e∈es, (e.2.prune now).2=false := by
    intro e he
    have := countP_eq_zero.mp h e he
    exact Bool.not_eq_true _ ▸ this
  have hm : es.map (fun e => (e.1,(e.2.prune now).1))=es := by
    refine (map_congr_left ?_).trans (List.map_id es)
    intro e he
    have hst:=ht e.1 e.2 ((get_eq_some _ _ _).mpr he)
    rw [prune_eq_self hst now (hn e he)]
    rfl
  simp only [pruneRecords,Table.mapVal,hm]

/-- Each record of `t` is there, possibly cleared. -/
def heldBy (t : Records) : (Records → Prop) → Prop :=
  fun A => ∃ k r, t.get k=some r ∧ A=fun t' => ∃ r', t'.get k=some r' ∧ Descends r r'

lemma heldBy_persistent (t : Records) : ∀ A, heldBy t A → Persistent A := by
  intro A hA
  obtain ⟨k,r,-,rfl⟩ := hA
  intro u u' hu he
  obtain ⟨r1,hr1,hd1⟩ := hu
  obtain ⟨r2,hr2,hd2⟩ := he k r1 hr1
  exact ⟨r2,hr2,hd1.trans hd2⟩

lemma heldBy_of_extends {t' : Records} (h : Extends t t') : ∀ A, heldBy t A → A t' := by
  intro A hA
  obtain ⟨k,r,hr,rfl⟩ := hA
  exact h k r hr

lemma keepsAll_heldBy {c : Bytes}
    (h : ∀ m t', loadLines m (splitLines c).1 Table.empty=.ok t' → Extends t t') :
    KeepsAll (heldBy t) (some c) := by
  intro A hA
  rw [keeps_iff]
  intro m t' ht'
  exact heldBy_of_extends (h m t' ht') A hA

/-- A crash can take back neither the ledger's name nor a record the store holds,
and the ledger has no key the store does not know. -/
structure DurableAt (fd : ℕ) (inner : FileInner) (v : Volume FileName) : Prop where
  file : inner.file=some fd
  settled : v.Settled .ledger fd
  inv : Inv (KeepsAll (heldBy inner.records)) v
  covers : ∀ mode t k, loadLines mode (splitLines (v.file fd).current).1 Table.empty=.ok t →
    inner.records.get k=none → t.get k=none

def Durable (inner : FileInner) (v : Volume FileName) : Prop := ∃ fd, DurableAt fd inner v

lemma durable_image {i : FileInner} {v : Volume FileName} {fd : ℕ}
    (hf : i.file=some fd) (hs : v.Settled .ledger fd)
    (hst : AllStorable i.records) (hsc : v.Scratch .rewriteTmp .ledger)
    (hm : (v.file fd).images=[image (orderedEntries i.records)]) : Durable i v := by
  have hu : (v.file fd).current=image (orderedEntries i.records) :=
    mem_singleton.mp (hm ▸ (v.file fd).current_mem)
  refine ⟨fd,hf,hs,⟨Volume.holds_of_settled hs (forall_of_singleton hm ?_),hsc⟩,?_⟩
  · intro A hA
    exact keeps_image (heldBy_persistent _ A hA) hst (heldBy_of_extends (Extends.refl _) A hA)
  · intro m t k ht hk
    have hes:=orderedEntries_storable hst
    rw [hu,splitLines_image _ hes,loadLines_recordLines m _ _ hes] at ht
    rw [← ok.inj ht,get_orInsertAll,lookup_orderedEntries,hk]
    rfl

lemma loadLines_line {c : Bytes} (htr : Terminated c) (hs : Storable key r) {m : FileMode}
    (ht : loadLines m (splitLines (c++(lineText key r++[newline]))).1 Table.empty=.ok t) :
    ∃ t0, loadLines m (splitLines c).1 Table.empty=.ok t0 ∧ t=t0.orInsert key r := by
  have hl:=splitLines_line (lineText key r) [] (newline_not_mem_lineText hs)
  rw [splitLines_append _ _ htr,hl,loadLines_append] at ht
  obtain ⟨t0,h0,ht⟩ := except_bind_ok ht
  simp only [splitLines,loadLines,loadLine_lineText m t0 hs,bind,bind] at ht
  exact ⟨t0,h0,(ok.inj ht).symm⟩

lemma DurableAt.commit {i : FileInner} {v v' : Volume FileName} {fd : ℕ}
    (h : DurableAt fd i v) (htr : Terminated (v.file fd).current) (hst : Storable key r)
    (hn : i.records.get key=none) (hr : v'.dir=v.dir)
    (hsc : v'.Scratch .rewriteTmp .ledger)
    (hm : (v'.file fd).images=[(v.file fd).current++(lineText key r++[newline])]) :
    DurableAt fd ⟨i.records.insert key r,some fd⟩ v' := by
  have hse : v'.Settled .ledger fd := by
    intro d hd
    rw [hr] at hd
    exact h.settled d hd
  have hcur : (v'.file fd).current=(v.file fd).current++(lineText key r++[newline]) :=
    mem_singleton.mp (hm ▸ (v'.file fd).current_mem)
  refine ⟨rfl,hse,⟨Volume.holds_of_settled hse (forall_of_singleton hm (keepsAll_heldBy ?_)),hsc⟩,?_⟩
  · intro m t ht
    obtain ⟨t0,h0,rfl⟩ := loadLines_line htr hst ht
    intro k s hs
    by_cases hk : k=key
    · rw [hk,get_insert_self] at hs
      refine ⟨s,?_,.inl rfl⟩
      rw [hk,get_orInsert,if_pos rfl,h.covers m t0 key h0 hn,← Option.some.inj hs]
      rfl
    · rw [get_insert_ne _ _ _ _ hk] at hs
      have hkp:=h.inv.visible (h.settled _ v.dir.current_mem)
      obtain ⟨s',hs',hd⟩ := keeps_iff.mp (hkp _ ⟨k,s,hs,rfl⟩) m t0 h0
      exact ⟨s',get_orInsert_of_some t0 key k r s' hs',hd⟩
  · grind [get_insert_self,get_insert_ne,get_orInsert,loadLines_line,h.covers]

section
variable {S : (Records → Prop) → Prop} {faults : Prop} {cipher : Aead}
def commitLine (a : Commit) (ciphertext : Bytes) : Bytes :=
  lineText a.key (a.record ciphertext)++[newline]

structure Answered (S : (Records → Prop) → Prop) (faults : Prop) (cipher : Aead)
    (inner : FileInner) (op : Op) (v : Volume FileName) (inner' : FileInner) (reply : Reply)
    (v' : Volume FileName) : Prop where
  inv : Inv (KeepsAll S) v'
  live : Live S inner' v'
  grows : Extends inner.records inner'.records
  refines : ¬faults → inner.file≠none →
    inner'.file≠none ∧ memoryStep cipher inner.records op=(inner'.records,reply)
  granted : ∀ a entropy resp, op=.commit a entropy → reply=.commit (.ok (.granted resp true)) →
    resp=a.response ∧ a.Valid ∧ inner.records.get a.key=none ∧ ∃ fd ciphertext, inner.file=some fd ∧
      sealReplay cipher entropy a.epoch a.key a.replayUntil a.response=.ok ciphertext ∧
      inner'.records=inner.records.insert a.key (a.record ciphertext) ∧ v'.dir=v.dir ∧
      (v'.file fd).images=[(v.file fd).current++commitLine a ciphertext]
  replayed : ∀ a entropy resp, op=.commit a entropy → reply=.commit (.ok (.granted resp false)) →
    inner'=inner ∧ v'=v ∧ ∃ r, inner.records.get a.key=some r ∧
      liveOutcome cipher a.key r a.now false=some (.granted resp false)
  durable : ¬faults → Durable inner v → Durable inner' v'

lemma asserts_of_extends (hS : ∀ A, S A → Persistent A) {t t' : Records}
    (h : ∀ A, S A → A t) (he : Extends t t') : ∀ A, S A → A t' :=
  fun A hA => hS A hA t t' (h A hA) he

variable {v : Volume FileName} {inner : FileInner} {a : Commit}
lemma rewrite_answered (hS : ∀ A, S A → Persistent A) (h : Inv (KeepsAll S) v)
    (hl : Live S inner v) {op : Op} {records : Records} (hst : AllStorable records)
    (he : Extends inner.records records) (reply : Except IoError Unit → Reply)
    (ht : ∀ r rs b, reply r≠.commit (.ok (.granted rs b)))
    (hsp : memoryStep cipher inner.records op=(records,reply (.ok ()))) :
    Safe faults (Inv (KeepsAll S))
      (fun out v' => Answered S faults cipher inner op v out.1 (reply out.2) v')
      (fun _ _ => False) (rewriteLocked inner records) v := by
  have ha:=asserts_of_extends hS hl.asserts he
  refine (rewriteLocked_safe hS h hl hst ha).mono (fun _ => id) ?_ (fun _ _ hv => hv)
  intro out v' ho
  refine ⟨ho.inv,ho.live,?_,?_,?_,?_,?_⟩
  · rcases ho.records_eq with heq | heq
    · rw [heq]
      exact Extends.refl _
    · rw [heq]
      exact he
  · intro hn _
    have hok:=ho.succeeds hn
    obtain ⟨hc,fd,hf,-⟩ := ho.done hok
    refine ⟨?_,?_⟩
    · rw [hf]
      exact some_ne_none fd
    · rw [hsp,hok,hc]
  · intro a en rs _ hr
    exact absurd hr (ht _ _ _)
  · intro a en rs _ hr
    exact absurd hr (ht _ _ _)
  · intro hn _
    obtain ⟨hc,fd,hf,hs,him⟩ := ho.done (ho.succeeds hn)
    rw [← hc] at him
    exact durable_image hf hs ho.live.storable ho.inv.scratch him

lemma quiet_answered (h : Inv (KeepsAll S) v) (hl : Live S inner v) {op : Op} {reply : Reply}
    (hs : memoryStep cipher inner.records op=(inner.records,reply))
    (hn : ∀ resp, reply≠.commit (.ok (.granted resp true)))
    (hd : ∀ a entropy resp, op=.commit a entropy → reply=.commit (.ok (.granted resp false)) →
      ∃ r, inner.records.get a.key=some r ∧ liveOutcome cipher a.key r a.now false=some (.granted resp false)) :
    Answered S faults cipher inner op v inner reply v :=
  ⟨h,hl,Extends.refl _,fun _ hf => ⟨hf,hs⟩,
    fun _ _ _ _ hr => absurd hr (hn _),
    fun a entropy resp ho hr => ⟨rfl,rfl,hd a entropy resp ho hr⟩,fun _ => id⟩

lemma terminated_commitLine {c : Bytes} (h : Storable a.key (a.record c)) :
    Terminated (commitLine a c) := by
  have hs:=splitLines_line (lineText a.key (a.record c)) [] (newline_not_mem_lineText h)
  rw [Terminated,commitLine,hs]
  rfl

lemma commit_refused {v' : Volume FileName} {n : Option Nonce} {s : Option ℕ}
    {e : IoError} (hv' : Inv (KeepsAll S) v') (hl : Live S ⟨inner.records,s⟩ v')
    (hc : ¬faults → inner.file≠none → False) :
    Answered S faults cipher inner (.commit a n) v ⟨inner.records,s⟩ (.commit (.error e)) v' where
  inv := hv'
  live := hl
  grows := Extends.refl _
  refines := fun hn hne => (hc hn hne).elim
  granted := fun _ _ _ _ hr => by cases hr
  replayed := fun _ _ _ _ hr => by cases hr
  durable := by
    intro hn hd
    obtain ⟨fd,hfd⟩ := hd
    refine (hc hn ?_).elim
    rw [hfd.file]
    exact some_ne_none fd

lemma commit_granted (hc : cipher.Opens) (hS : ∀ A, S A → Persistent A) {v' : Volume FileName}
    (hl : Live S inner v) (ha : a.Valid) (hn : inner.records.get a.key=none)
    {e : Option Nonce} {c : Bytes}
    (hs : sealReplay cipher e a.epoch a.key a.replayUntil a.response=.ok c)
    {fd : ℕ} (hf : inner.file=some fd)
    (ho : Appended S faults fd (commitLine a c) v (some fd) (.ok ()) v') :
    Answered S faults cipher inner (.commit a e) v ⟨inner.records.insert a.key (a.record c),some fd⟩
      (.commit (expectLive (liveOutcome cipher a.key (a.record c) a.now true))) v' := by
  have hst:=storable_record hc ha hs
  have han:=liveOutcome_record hc ha hs true
  have hg:=extends_insert (a.record c) hn
  obtain ⟨hb,ht⟩ := hl.handle fd hf
  obtain ⟨-,hm⟩ := ho.written rfl
  refine ⟨ho.inv,⟨hl.storable.insert hst,asserts_of_extends hS hl.asserts hg,?_⟩,hg,?_,?_,?_,?_⟩
  · grind [ho.dir,ho.handle]
  · intro _ _
    refine ⟨some_ne_none fd,?_⟩
    have hv : validateCommit a.key a.replayUntil a.response a.now=.ok () := ha
    simp only [memoryStep,commitOrReplay,hv,hn,hs]
  · intro a' en' re hop hr
    obtain ⟨rfl,rfl⟩ := Op.commit.inj hop
    rw [han] at hr
    obtain ⟨rfl,-⟩ := CommitOutcome.granted.inj (ok.inj (Reply.commit.inj hr))
    exact ⟨rfl,ha,hn,fd,c,hf,hs,rfl,ho.dir,hm⟩
  · intro a' en' re _ hr
    rw [han] at hr
    cases hr
  · intro _ hd
    obtain ⟨fd',hd⟩ := hd
    have heq : fd'=fd := Option.some.inj (hd.file.symm.trans hf)
    rw [heq] at hd
    exact ⟨fd,hd.commit ht hst hn ho.dir ho.inv.scratch hm⟩

lemma firstCommit_safe (hc : cipher.Opens) (hS : ∀ A, S A → Persistent A) (h : Inv (KeepsAll S) v)
    (hl : Live S inner v) (ha : a.Valid) (hnn : inner.records.get a.key=none)
    (n : Option Nonce) :
    Safe faults (Inv (KeepsAll S))
      (fun out v' => Answered S faults cipher inner (.commit a n) v out.1 (.commit out.2) v')
      (fun _ _ => False) (firstCommit cipher n a inner) v := by
  unfold firstCommit
  cases hs : sealReplay cipher n a.epoch a.key a.replayUntil a.response with
  | error e =>
    have hm : memoryStep cipher inner.records (.commit a n)=(inner.records,.commit (.error e)) := by
      have hv : validateCommit a.key a.replayUntil a.response a.now=.ok () := ha
      simp only [memoryStep,commitOrReplay,hv,hnn,hs]
    exact quiet_answered h hl hm (by rintro _ ⟨⟩) (by rintro _ _ _ _ ⟨⟩)
  | ok c =>
    have hst:=storable_record hc ha hs
    simp only [encodeRecord_storable hst]
    cases hf : inner.file with
    | none =>
      refine commit_refused h ?_ (fun _ hne => hne hf)
      exact ⟨hl.storable,hl.asserts,(by simp)⟩
    | some fd =>
      obtain ⟨hb,ht⟩ := hl.handle fd hf
      refine Safe.andThen (appendAndSync_safe hS h hb ht (terminated_commitLine hst)) ?_
      rintro ⟨sl,r⟩ v' ho
      cases r with
      | error e =>
        refine commit_refused ho.inv ⟨hl.storable,hl.asserts,?_⟩ ?_
        · grind [ho.dir,ho.handle]
        · intro hn _
          cases ho.succeeds hn
      | ok u =>
        obtain ⟨hsl,-⟩ := ho.written rfl
        have hsl : sl=some fd := hsl
        subst hsl
        exact commit_granted hc hS hl ha hnn hs hf ho

lemma fileCommitOrReplay_safe (hc : cipher.Opens) (hS : ∀ A, S A → Persistent A)
    (h : Inv (KeepsAll S) v) (hl : Live S inner v) (a : Commit) (n : Option Nonce) :
    Safe faults (Inv (KeepsAll S))
      (fun out v' => Answered S faults cipher inner (.commit a n) v out.1 (.commit out.2) v')
      (fun _ _ => False) (fileCommitOrReplay cipher n a inner) v := by
  unfold fileCommitOrReplay
  cases hv : validateCommit a.key a.replayUntil a.response a.now with
  | error e =>
    refine quiet_answered h hl ?_ (by rintro _ ⟨⟩) (by rintro _ _ _ _ ⟨⟩)
    simp only [memoryStep,commitOrReplay,hv]
  | ok u =>
    cases hg : inner.records.get a.key with
    | none =>
      simp only
      exact firstCommit_safe hc hS h hl hv hg n
    | some r =>
      simp only
      cases ho : liveOutcome cipher a.key r a.now false with
      | some o =>
        refine quiet_answered h hl ?_ (fun re hr => ?_) (fun a' en' re hop hr => ?_)
        · simp only [memoryStep,commitOrReplay,hv,hg,ho]
        · rw [ok.inj (Reply.commit.inj hr)] at ho
          cases (liveOutcome_granted ho).1
        · grind [ok.inj,Op.commit.inj]
      | none =>
        have hm : memoryStep cipher inner.records (.commit a n) =
            (inner.records.modify a.key StoredRecord.clear,.commit (.ok .alreadySpent)) := by
          simp only [memoryStep,commitOrReplay,hv,hg,ho]
        simp only
        split
        · refine Safe.bind ((rewrite_answered hS h hl (hl.storable.modify a.key)
            (extends_modify _ _) (fun r => .commit (r.map fun _ => .alreadySpent)) ?_ hm).mono
            (fun _ => id) (fun _ _ hw => hw) (fun _ _ hw => hw))
          intro r re b hr
          cases r with
          | error | ok => cases hr
        next hct =>
          -- the record is already a bare marker, so clearing it changes nothing
          have hs : r.clear=r := by
            have hcn:=(hl.storable a.key r hg).consistent
            obtain ⟨ep,ru,ci⟩ := r
            cases ci with
            | some c => exact absurd rfl hct
            | none =>
              cases ru with
              | none => rfl
              | some w => cases hcn
          rw [modify_eq_self _ _ _ r hg hs] at hm
          exact quiet_answered h hl hm (by rintro _ ⟨⟩) (by rintro _ _ _ _ ⟨⟩)

lemma pruneExpiredSync_safe (hS : ∀ A, S A → Persistent A) (h : Inv (KeepsAll S) v)
    (hl : Live S inner v) (now : UInt64) :
    Safe faults (Inv (KeepsAll S))
      (fun out v' => Answered S faults cipher inner (.prune now) v out.1 (.prune out.2) v')
      (fun _ _ => False) (pruneExpiredSync now inner) v := by
  unfold pruneExpiredSync
  split
  · refine Safe.bind ((rewrite_answered hS h hl (hl.storable.prune now)
      (extends_prune now _) (fun r => .prune (r.map fun _ => prunedCount now inner.records))
      (by simp) rfl).mono (fun _ => id) (fun _ _ hw => hw)
      (fun _ _ hw => hw))
  next hz =>
    have hc : prunedCount now inner.records=0 := by omega
    refine quiet_answered h hl ?_ (by rintro _ ⟨⟩) (by rintro _ _ _ _ ⟨⟩)
    simp only [memoryStep,pruneExpiredReplays,pruneRecords_eq_self hl.storable now hc,hc]

lemma fileOp_safe (hc : cipher.Opens) (hS : ∀ A, S A → Persistent A) (h : Inv (KeepsAll S) v)
    (hl : Live S inner v) (op : Op) :
    Safe faults (Inv (KeepsAll S)) (fun out v' => Answered S faults cipher inner op v out.1 out.2 v')
      (fun _ _ => False) (fileOp cipher inner op) v := by
  cases op with
  | commit a en =>
    exact Safe.bind ((fileCommitOrReplay_safe hc hS h hl a en).mono (fun _ => id)
      (fun _ _ hw => hw) (fun _ _ hw => hw))
  | prune now =>
    exact Safe.bind ((pruneExpiredSync_safe hS h hl now).mono (fun _ => id)
      (fun _ _ hw => hw) (fun _ _ hw => hw))
end
end NilVpn.Ledger
