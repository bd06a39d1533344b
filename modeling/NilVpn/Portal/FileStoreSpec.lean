import NilVpn.Base.Replace
import NilVpn.Portal.Records

/-!
# What the file store's programs do to the volume
-/

namespace NilVpn.Portal
open Record Base Option List
open Program (sys Safe)

lemma tmp_ne_snapshot : FileName.tmp≠FileName.snapshot := by decide

section
variable (codec : Codec)
def Backs (s : StoreState) (contents : Option Bytes) : Prop :=
  ∀ s' rewrite, loadContents codec contents=.ok (s',rewrite) → s.Within s'

def Keeps (rs : List Record) (contents : Option Bytes) : Prop :=
  ∀ s' rewrite, loadContents codec contents=.ok (s',rewrite) → ∀ r∈rs, r.isIn s'=true

structure Live (rs : List Record) (store : FileStore) (v : Volume FileName) : Prop where
  guarded : Guarded .snapshot .tmp (Keeps codec rs) v
  storable : store.inner.Storable
  known : ∀ r∈rs, r.isIn store.inner=true
  current : v.Entry (Backs codec store.inner) (v.dir.current .snapshot)
  settled : store.durabilityUncertain=false → v.Holds .snapshot (Backs codec store.inner)

variable {codec} {rs : List Record} {s : StoreState} {v : Volume FileName}
lemma Backs.keeps {contents : Option Bytes} (h : Backs codec s contents)
    (hrs : ∀ r∈rs, r.isIn s) : Keeps codec rs contents :=
  fun s' rewrite hl r hr => h s' rewrite hl r (hrs r hr)

lemma Backs.within {s' : StoreState} {contents : Option Bytes} (h : Backs codec s contents)
    (hw : s'.Within s) : Backs codec s' contents :=
  fun s0 rewrite hl r hr => h s0 rewrite hl r (hw r hr)

lemma backs_loaded {contents : Option Bytes} {migrates : Bool}
    (h : loadContents codec contents=.ok (s,migrates)) : Backs codec s contents := by
  intro s' re' h'
  rw [h] at h'
  cases h'
  exact .refl s

lemma Live.ofSettled (hs : s.Storable) (hsc : v.Scratch .tmp .snapshot)
    (hr : ∀ r∈rs, r.isIn s) (hv : v.Holds .snapshot (Backs codec s)) :
    Live codec rs ⟨s,false⟩ v where
  guarded := ⟨hv.mono fun _ h => h.keeps hr,hsc⟩
  storable := hs
  known := hr
  current := hv _ v.dir.current_mem
  settled := fun _ => hv

section
variable {P Q N : Option Bytes → Prop} {draws : Draws}
/-- A kill leaves the old contents or the new ones, and the new ones only if they show. -/
def Interrupted (P Q : Option Bytes → Prop) (v v' : Volume FileName) : Prop :=
  Guarded .snapshot .tmp Q v' ∧ (v'.visible .snapshot=v.visible .snapshot → Guarded .snapshot .tmp P v')

lemma Interrupted.ofGuarded (hPQ : ∀ o, P o → Q o) {v' : Volume FileName}
    (h : Guarded .snapshot .tmp P v') : Interrupted P Q v v' :=
  ⟨h.mono hPQ,fun _ => h⟩

lemma rename_snapshot_safe (hq : ∀ o, P o → Q o) (hn : ∀ o, N o → Q o)
    (hv : v.Holds .snapshot P) {v3 : Volume FileName} (h3 : Guarded .snapshot .tmp P v3) {i : ℕ}
    (hi : v3.dir.current .tmp=some i) {bytes : Bytes} (him : (v3.file i).images=[bytes])
    (hb : N (some bytes)) :
    Safe True (Interrupted P Q v)
      (fun _ v' => Interrupted P Q v v' ∧ v'.Entry N (v'.dir.current .snapshot))
      (fun _ => Guarded .snapshot .tmp P) (sys (.rename .tmp .snapshot)) v3 := by
  have he:=Call.exec_rename .snapshot hi
  have hc : (v3.rename .tmp .snapshot i).dir.current .snapshot=some i := by
    simp only [Volume.rename,Cached.current_write,Function.update_self]
  have ha : ∀ {R : Option Bytes → Prop}, R (some bytes) → ∀ c∈(v3.file i).images, R (some c) := by grind
  refine Safe.sys_ok he (fun _ => .ofGuarded hq h3) (fun _ _ => h3) ⟨⟨?_,?_⟩,?_⟩
  · exact (h3.mono hq).rename tmp_ne_snapshot hi (ha (hn _ hb))
  · intro hs
    -- the contents that show are the old ones, so they satisfy `P`
    have hvi : (v3.rename .tmp .snapshot i).visible .snapshot=some bytes := by
      have hf : (v3.file i).current=bytes := by
        have hm:=(v3.file i).current_mem
        rw [him] at hm
        exact mem_singleton.mp hm
      rw [Volume.visible,hc,map_some]
      exact congrArg some hf
    have hP:=hv.visible
    rw [← hs,hvi] at hP
    exact h3.rename tmp_ne_snapshot hi (ha hP)
  · rw [hc]
    exact ha hb

def Writes (codec : Codec) (draws : Draws) (s : StoreState)
    (N : Option Bytes → Prop) : Prop :=
  ∀ dto bytes, snapshotOf codec.cipher draws s=.ok dto → codec.json.toVec dto=some bytes → N (some bytes)

lemma writeSnapshotAndRename_safe (hP : ∀ o, P o → Q o) (hnew : ∀ o, N o → Q o)
    (hw : Writes codec draws s N) (h : Guarded .snapshot .tmp P v) :
    Safe True (Interrupted P Q v)
      (fun _ v' => Interrupted P Q v v' ∧ v'.Entry N (v'.dir.current .snapshot))
      (fun _ => Guarded .snapshot .tmp P)
      (writeSnapshotAndRename codec draws s) v := by
  unfold writeSnapshotAndRename
  refine Safe.bind (Safe.ofExcept ?_ (fun _ _ => h))
  intro dto hd
  refine Safe.bind (Safe.ofExcept ?_ (fun _ _ => h))
  intro bt hb
  have hn:=hw dto bt hd (okOr_eq_ok hb)
  refine Safe.bind ((openTrunc_safe tmp_ne_snapshot h fun _ _ => h).mono (fun _ => .ofGuarded hP) ?_
    (fun _ _ hv => hv))
  rintro i v1 ⟨h1,-,hi1,hc1,he⟩
  refine Safe.bind ((write_safe h1 hi1 bt).mono (fun _ => .ofGuarded hP) ?_ (fun _ _ hv => hv.1.guarded))
  rintro - v2 ⟨h2,hc⟩
  have hg2:=h2.guarded
  refine Safe.bind ((fsync_safe hg2 (hi1.of_dir h2.dir) fun _ _ => hg2).mono (fun _ => .ofGuarded hP) ?_
    (fun _ _ hv => hv))
  rintro - v3 ⟨h3,hm⟩
  have hcr : v3.dir.current .tmp=some i := by
    rw [h3.dir,h2.dir]
    exact hc1
  rw [hc,he,nil_append] at hm
  exact rename_snapshot_safe hP hnew h.holds h3.guarded hcr hm hn

def Written (P Q N : Option Bytes → Prop) : Except PersistError Unit → Volume FileName → Prop
  | .ok _,v' => Guarded .snapshot .tmp Q v' ∧ v'.Holds .snapshot N
  | .error ⟨_,true⟩,v' => Guarded .snapshot .tmp Q v' ∧ v'.Entry N (v'.dir.current .snapshot)
  | .error ⟨_,false⟩,v' => Guarded .snapshot .tmp P v'

lemma persist_writes (hPQ : ∀ o, P o → Q o) (hn : ∀ o, N o → Q o)
    (hw : Writes codec draws s N) (h : Guarded .snapshot .tmp P v) :
    Safe True (Interrupted P Q v) (Written P Q N) (fun _ _ => False) (persist codec draws s) v := by
  refine Safe.bind (Safe.attempt ((writeSnapshotAndRename_safe hPQ hn hw h).mono
    (fun _ h => h) ?_ ?_))
  · rintro - v1 ⟨h1,hc⟩
    refine Safe.bind (Safe.attempt (Safe.sys_ok rfl (fun _ => h1) (fun _ _ => ⟨h1.1,hc⟩) ?_))
    exact ⟨h1.1.syncDir,forall_of_singleton rfl hc⟩
  · intro e v1 h1
    exact h1

lemma writes_backs (hc : codec.Faithful) (hs : s.Storable) :
    Writes codec draws s (Backs codec s) := by
  intro dto bt hd hb
  obtain ⟨s',hl,ha⟩ := loadContents_snapshot hc hs hd hb
  refine (backs_loaded hl).within ?_
  intro r hr
  rw [ha.isIn]
  exact hr

end

lemma ensureDurable_safe {st : FileStore} (h : Live codec rs st v) : Safe True (fun v' => v'=v)
      (fun r v' => (∀ e, r=.error e → v'=v) ∧ (r=.ok () →
        v'.Scratch .tmp .snapshot ∧ v'.Holds .snapshot (Backs codec st.inner) ∧
          v'.visible .snapshot=v.visible .snapshot))
      (fun _ _ => False) (ensureDurable st.durabilityUncertain) v := by
  unfold ensureDurable
  cases hf : st.durabilityUncertain with
  | false => exact ⟨fun _ _ => rfl,fun _ => ⟨h.guarded.scratch,h.settled hf,rfl⟩⟩
  | true =>
    refine Safe.bind (Safe.attempt (Safe.sys_ok rfl (fun _ => rfl) (fun _ _ => ?_) ?_))
    · exact ⟨fun _ _ => rfl,nofun⟩
    · refine ⟨nofun,fun _ => ⟨h.guarded.scratch.syncDir,?_,rfl⟩⟩
      exact forall_of_singleton rfl h.current

/-- The records known after an operation: those still in memory, and on an `Ok` all
of memory, among them every record the answer is taken from or written to. -/
def knownAfter {R : Type} (rs : List Record) (out : FileStore × Except StoreError R) : List Record :=
  rs.filter (Record.isIn out.1.inner) ++
    match out.2 with
    | .ok _ => out.1.inner.records
    | .error _ => []

lemma knownAfter_isIn {R : Type} {out : FileStore × Except StoreError R} :
    ∀ r∈knownAfter rs out, r.isIn out.1.inner := by
  intro r hr
  rcases mem_append.mp hr with h | h
  · exact (mem_filter.mp h).2
  · grind [StoreState.isIn_of_mem_records]

lemma commitWrite_safe {R : Type} (hci : codec.Faithful)
    {before : StoreState} (hb : before.Storable) (hs : s.Storable)
    (hrs : ∀ r∈rs, r.isIn before) (hsc : v.Scratch .tmp .snapshot)
    (hv : v.Holds .snapshot (Backs codec before)) (draws : Draws) (reply : R) :
    Safe True (Interrupted (Keeps codec rs) (Keeps codec (rs.filter (isIn s))) v)
      (fun out v' => Live codec (knownAfter rs out) out.1 v') (fun _ _ => False)
      (commitWrite codec draws before s reply) v := by
  have hf : ∀ r∈rs.filter (isIn s), r.isIn s := fun r hr => (mem_filter.mp hr).2
  have hg : Guarded .snapshot .tmp (Backs codec before) v := ⟨hv,hsc⟩
  have hw : ∀ o, Backs codec before o → Keeps codec (rs.filter (isIn s)) o :=
    fun o ho => ho.keeps fun r hr => hrs r (mem_filter.mp hr).1
  refine Safe.bind ((persist_writes hw (fun o ho => ho.keeps hf) (writes_backs hci hs) hg).mono ?_ ?_
    (fun _ _ h => h))
  · rintro v' ⟨hQ,hP⟩
    exact ⟨hQ,fun hsm => (hP hsm).mono fun o ho => ho.keeps hrs⟩
  · intro rl v' h
    match rl,h with
    | .ok (),⟨hQ,hh⟩ => exact Live.ofSettled hs hQ.scratch knownAfter_isIn hh
    | .error ⟨e,true⟩,⟨hQ,hc⟩ =>
      -- the rename stands, so the maps stay as they are and the sync is owed
      have hk : knownAfter rs ((⟨s,true⟩,.error (.backend e.text)) :
          FileStore × Except StoreError R)=rs.filter (isIn s) := append_nil _
      show Live codec (knownAfter rs (⟨s,true⟩,.error (.backend e.text))) ⟨s,true⟩ v'
      rw [hk]
      exact ⟨hQ,hs,hf,hc,nofun⟩
    | .error ⟨e,false⟩,hP => exact Live.ofSettled hb hP.scratch knownAfter_isIn hP.holds

lemma Op.perform_safe (hc : codec.Faithful) (op : Op)
    (hsz : op.wellSized) {st : FileStore} (h : Live codec rs st v) (draws : Draws) :
    Safe True (Interrupted (Keeps codec rs)
        (Keeps codec (rs.filter (isIn (op.plan st.inner).state))) v)
      (fun out v' => Live codec (knownAfter rs out) out.1 v') (fun _ _ => False)
      (st.perform codec op.refused op.plan draws) v := by
  have hf : ∀ e, Live codec
      (knownAfter rs ((st,.error e) : FileStore × Except StoreError op.Reply)) st v := by
    intro e
    have hsm : rs.filter (isIn st.inner)=rs := filter_eq_self.mpr h.known
    rw [knownAfter,hsm,append_nil]
    exact h
  have hs:=op.plan_storable hsz h.storable
  have hm : ∀ o, Keeps codec rs o →
      Keeps codec (rs.filter (isIn (op.plan st.inner).state)) o :=
    fun o ho s' rr hl r hr => ho s' rr hl r (mem_filter.mp hr).1
  unfold FileStore.perform FileStore.performWith
  cases op.refused with
  | some e => exact hf e
  | none =>
    refine Safe.bind ((ensureDurable_safe h).mono ?_ ?_ (fun _ _ h => h))
    · rintro v' rfl
      exact .ofGuarded hm h.guarded
    · rintro r v1 ⟨he,hok⟩
      cases r with
      | error e =>
        rw [he e rfl]
        exact hf e
      | ok u =>
        obtain ⟨hsc,hh,hv⟩ := hok rfl
        cases hp : op.plan st.inner with
        | answer sta re =>
          rw [hp] at hs
          have hw:=op.answer_within hp
          exact Live.ofSettled hs hsc knownAfter_isIn (hh.mono fun o ho => ho.within hw)
        | write sta re =>
          rw [hp] at hs
          refine (commitWrite_safe hc h.storable hs h.known hsc hh draws
            re).mono ?_ (fun _ _ h => h) (fun _ _ h => h)
          rintro v' ⟨hQ,hP⟩
          exact ⟨hQ,fun hsm => hP (hsm.trans hv.symm)⟩

section
variable {P : Option Bytes → Prop} {faults : Prop}
lemma visible_of_untouched {v' : Volume FileName} (h : Untouched .snapshot v v') :
    v'.visible .snapshot=v.visible .snapshot := by
  unfold Volume.visible
  rw [h.bound]
  cases hn : v.dir.current .snapshot with
  | none => rfl
  | some i => rw [map_some,map_some,h.same i hn]

lemma openProcessLock_safe (h : Guarded .snapshot .tmp P v) (path : String) :
    Safe faults (Guarded .snapshot .tmp P)
      (fun _ v' => Guarded .snapshot .tmp P v' ∧ Untouched .snapshot v v')
      (fun _ v' => Guarded .snapshot .tmp P v' ∧ faults) (openProcessLock path) v := by
  -- the sidecar is there, or it is created beside the snapshot
  have ho : Safe faults (Guarded .snapshot .tmp P)
      (fun _ v' => Guarded .snapshot .tmp P v' ∧ Untouched .snapshot v v')
      (fun _ v' => Guarded .snapshot .tmp P v' ∧ faults) (sys (.openAppend .lock)) v := by
    cases hn : v.dir.current .lock with
    | some i =>
      have he:=Call.exec_openAppend hn
      exact Safe.sys_ok he (fun _ => h) (fun hf _ => ⟨h,hf⟩) ⟨h,.refl _ _⟩
    | none =>
      have he : (Call.openAppend FileName.lock).exec v=(.ok v.next,v.create .lock) := by
        simp only [Call.exec,hn]
      exact Safe.sys_ok he (fun _ => h) (fun hf _ => ⟨h,hf⟩) (h.create_other tmp_ne_snapshot (by decide))
  refine Safe.bind (ho.mono (fun _ h => h) ?_ (fun _ _ h => h))
  rintro fd v1 ⟨h1,hs⟩
  refine Safe.bind (Safe.attempt (Safe.sys_ok rfl (fun _ => h1) (fun hf _ => ⟨h1,hf⟩) ?_))
  exact ⟨h1,hs⟩

lemma readSnapshot_safe (h : Guarded .snapshot .tmp P v) : Safe faults (Guarded .snapshot .tmp P)
      (fun contents v' => v'=v ∧ contents=v.visible .snapshot)
      (fun _ v' => v'=v ∧ faults) readSnapshot v := by
  refine Safe.bind (Safe.attempt (Safe.bind ?_))
  cases hn : v.dir.current .snapshot with
  | none =>
    have he:=Call.exec_missing hn
    refine Safe.sys_error he (fun _ => h) (fun hf _ => ⟨rfl,hf⟩) ?_
    refine ⟨rfl,?_⟩
    rw [Volume.visible,hn]
    rfl
  | some i =>
    have he:=Call.exec_openExisting hn
    refine Safe.sys_ok he (fun _ => h) (fun hf _ => ⟨rfl,hf⟩) ?_
    refine Safe.sys_ok rfl (fun _ => h) (fun hf _ => ⟨rfl,hf⟩) ?_
    refine ⟨rfl,?_⟩
    rw [Volume.visible,hn]
    rfl

/-- An open store has every known record; it is live if all a crash may leave is
what the open reads. -/
lemma openWithResultKey_safe (hci : codec.Faithful)
    (h : Guarded .snapshot .tmp P v) (hP : ∀ o, P o → Keeps codec rs o) (path : String)
    (ns : Bool) (draws : Draws) :
    Safe True (Guarded .snapshot .tmp (Keeps codec rs))
      (fun store v' => (∀ r∈rs, r.isIn store.inner) ∧
        ((∀ o, P o → o=v.visible .snapshot) → Live codec rs store v'))
      (fun _ v' => Guarded .snapshot .tmp (Keeps codec rs) v')
      (openWithResultKey codec path ns draws) v := by
  have hw : ∀ v' : Volume FileName, Guarded .snapshot .tmp P v' → Guarded .snapshot .tmp (Keeps codec rs) v' :=
    fun v' h' => h'.mono hP
  have hd : Safe True (Guarded .snapshot .tmp (Keeps codec rs)) (fun _ v' => v'=v)
      (fun _ v' => Guarded .snapshot .tmp (Keeps codec rs) v')
      (if ns then sys .createDirAll else pure () : FileProg Unit) v := by
    split
    · exact Safe.sys_ok rfl (fun _ => hw _ h) (fun _ _ => hw _ h) rfl
    · rfl
  refine Safe.bind (hd.mono (fun _ h => h) ?_ (fun _ _ h => h))
  rintro - v1 rfl
  refine Safe.bind ((openProcessLock_safe h path).mono hw ?_ (fun _ v' h' => hw v' h'.1))
  rintro - v2 ⟨h2,hsm⟩
  refine Safe.bind ((readSnapshot_safe h2).mono hw ?_ ?_)
  · rintro c v3 ⟨rfl,hc⟩
    rw [visible_of_untouched hsm] at hc
    refine Safe.bind (Safe.ofExcept ?_ (fun _ _ => hw _ h2))
    rintro ⟨s,re⟩ hl
    have hk : ∀ r∈rs, r.isIn s := by
      rw [hc] at hl
      exact hP _ h.holds.visible s re hl
    have hs:=loadContents_storable hl
    dsimp only
    split
    · refine Safe.bind ((persist_writes hP (fun o ho => ho.keeps hk) (writes_backs hci hs) h2).mono
        (fun _ h => h.1) ?_ (fun _ _ h => h.elim))
      intro rl v4 h4
      match rl,h4 with
      | .ok (),⟨hQ,hh⟩ => exact ⟨hk,fun _ => Live.ofSettled hs hQ.scratch hk hh⟩
      | .error ⟨e,true⟩,⟨hQ,_⟩ => exact hQ
      | .error ⟨e,false⟩,hkp => exact hw _ hkp
    · refine ⟨hk,?_⟩
      intro hf
      refine Live.ofSettled hs h2.scratch hk (h2.holds.mono ?_)
      intro o ho
      rw [hf o ho,← hc]
      exact backs_loaded hl
  · rintro e v' ⟨rfl,-⟩
    exact hw _ h2
end
end
end NilVpn.Portal
