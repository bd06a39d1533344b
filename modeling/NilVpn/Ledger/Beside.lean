import NilVpn.Ledger.FileOpen

/-!
# What the store's programs leave alone beside the ledger

The legacy ledger is a file that no program of the store writes to; only the last call
of an open takes its name away.
-/

namespace NilVpn.Ledger
open Base List Function
open Program (sys Safe)

/-- The legacy ledger, an inode with one image, under its own name in every image of the
directory. -/
structure Beside (inode : ℕ) (bytes : Bytes) (v : Volume FileName) : Prop where
  scratch : v.Scratch .rewriteTmp .ledger
  coherent : Coherent v
  file : (v.file inode).images=[bytes]
  names : ∀ d∈v.dir.images, d .legacy=some inode ∧ d .ledger≠some inode ∧ d .rewriteTmp≠some inode

namespace Beside
variable {inode : ℕ} {bytes : Bytes} {v : Volume FileName}
section
variable (h : Beside inode bytes v)
include h
lemma current : (v.file inode).current=bytes := mem_singleton.mp (h.file ▸ (v.file inode).current_mem)

lemma setFile {i : ℕ} (hi : i≠inode) {c : Cached Bytes} (hc : (∃ d∈v.dir.images, d .ledger=some i) →
      ∀ x∈c.images, (splitLines x).1=(splitLines c.current).1) : Beside inode bytes (v.setFile i c) := by
  refine ⟨h.scratch.setFile i c,?_,?_,h.names⟩
  · intro d hd j hj
    by_cases hji : j=i
    · rw [hji,Volume.setFile_file_self]
      exact hc ⟨d,hd,hji ▸ hj⟩
    · rw [Volume.setFile_file_ne v c hji]
      exact h.coherent d hd j hj
  · rw [Volume.setFile_file_ne v c hi.symm]
    exact h.file

lemma scribble {i : ℕ} (hb : Unbound .ledger v i) (hi : i≠inode)
    (c : Cached Bytes) : Beside inode bytes (v.setFile i c) := by
  refine h.setFile hi ?_
  rintro ⟨d,hd,hdi⟩
  exact absurd hdi (hb d hd)

lemma fsync (i : ℕ) : Beside inode bytes (v.fsync i) := by
  by_cases hi : i=inode
  · refine ⟨h.scratch.setFile _ _,?_,?_,h.names⟩
    · intro d hd j hj
      have hne : j≠i := by
        rintro rfl
        exact (h.names d hd).2.1 (hi ▸ hj)
      rw [Volume.fsync,Volume.setFile_file_ne v _ hne]
      exact h.coherent d hd j hj
    · rw [hi,Volume.fsync_file,Cached.images_flush,h.current]
  · refine h.setFile hi ?_
    intro _ x hx
    rw [Cached.images_flush,mem_singleton] at hx
    rw [hx,Cached.current_flush]

lemma writeDir {d' : FileName → Option ℕ}
    (hs : ({v with dir := v.dir.write d'} : Volume FileName).Scratch .rewriteTmp .ledger)
    (hl : ∀ i, d' .ledger=some i → ∀ c∈(v.file i).images,
      (splitLines c).1=(splitLines (v.file i).current).1)
    (hn : d' .legacy=some inode ∧ d' .ledger≠some inode ∧ d' .rewriteTmp≠some inode) :
    Beside inode bytes {v with dir := v.dir.write d'} := by
  refine ⟨hs,?_,h.file,?_⟩
  · intro d hd
    rcases mem_cons.mp hd with rfl | hd
    · exact hl
    · exact h.coherent d hd
  · intro d hd
    rcases mem_cons.mp hd with rfl | hd
    · exact hn
    · exact h.names d hd

lemma create {n : FileName} (hnm : n≠.legacy) : Beside inode bytes (v.create n) := by
  obtain ⟨hl,hle,ht⟩ := h.names _ v.dir.current_mem
  have hn : inode≠v.next := (h.scratch.bounded _ v.dir.current_mem _ _ hl).ne
  have hb : ∀ m, Function.update v.dir.current n (some v.next) m=some inode →
      v.dir.current m=some inode := by
    intro m hm
    by_cases hmn : m=n
    · grind
    · rw [update_of_ne hmn] at hm
      exact hm
  refine ⟨h.scratch.create rewriteTmp_ne_ledger n,h.coherent.create h.scratch n,?_,?_⟩
  · rw [Volume.create_file_ne v n hn]
    exact h.file
  · intro d hd
    rcases mem_cons.mp hd with rfl | hd
    · refine ⟨?_,fun hm => hle (hb _ hm),fun hm => ht (hb _ hm)⟩
      rw [Volume.create_current,update_of_ne hnm.symm]
      exact hl
    · exact h.names d hd

lemma syncDir : Beside inode bytes v.syncDir := by
  have hm : ∀ d∈v.syncDir.dir.images, d∈v.dir.images := by
    intro d hd
    rw [Volume.syncDir,Cached.images_flush,mem_singleton] at hd
    exact hd ▸ v.dir.current_mem
  exact ⟨h.scratch.syncDir,fun d hd => h.coherent d (hm d hd),h.file,
    fun d hd => h.names d (hm d hd)⟩

lemma unlinkTmp : Beside inode bytes (v.unlink .rewriteTmp) := by
  obtain ⟨hl,hle,-⟩ := h.names _ v.dir.current_mem
  refine h.writeDir (h.scratch.unlink .rewriteTmp rewriteTmp_ne_ledger.symm) ?_ ?_
  · rw [update_of_ne rewriteTmp_ne_ledger.symm]
    exact h.coherent _ v.dir.current_mem
  · grind [update_of_ne,update_self]

lemma replace {i : ℕ} (hi : v.dir.current .rewriteTmp=some i) {x : Bytes}
    (ho : (v.file i).images=[x]) : Beside inode bytes (v.rename .rewriteTmp .ledger i) := by
  obtain ⟨hl,-,ht⟩ := h.names _ v.dir.current_mem
  refine h.writeDir (h.scratch.rename_scratch rewriteTmp_ne_ledger i hi) ?_ ?_
  · rw [update_self]
    intro j hj c hc
    rw [← Option.some.inj hj] at hc ⊢
    have hu : (v.file i).current=x := mem_singleton.mp (ho ▸ (v.file i).current_mem)
    rw [ho,mem_singleton] at hc
    rw [hc,hu]
  · grind [update_self,update_of_ne]

lemma trimmed {v' : Volume FileName} (hv : Trimmed v v') : Beside inode bytes v' := by
  have hc : ∀ {fd p}, v.dir.current .ledger=some fd → CutPoint (v.file fd).current p →
      Beside inode bytes (v.truncate fd p) := by
    intro fd p hfd hp
    have hne : fd≠inode := by
      rintro rfl
      exact (h.names _ v.dir.current_mem).2.1 hfd
    refine h.setFile hne ?_
    rintro - x hx
    rw [Cached.current_write,hp.lines]
    rcases mem_cons.mp hx with rfl | hx
    · exact hp.lines
    · exact h.coherent _ v.dir.current_mem fd hfd x hx
  cases hv with
  | same => exact h
  | cut hfd hp => exact hc hfd hp
  | synced hfd hp => exact (hc hfd hp).fsync _

lemma crash (p : ℕ → ℕ) (pickDir : ℕ) : Beside inode bytes (v.crash p pickDir) := by
  refine ⟨h.scratch.crash p pickDir,?_,?_,?_⟩
  · intro d _ i _ c hc
    simp only [Volume.crash,Cached.images_restore,mem_singleton] at hc
    rw [hc]
    rfl
  · have hm:=Cached.restore_current_mem (v.file inode) (p inode)
    rw [h.file,mem_singleton] at hm
    simp only [Volume.crash,Cached.images_restore,hm]
  · intro d hd
    simp only [Volume.crash,Cached.images_restore,mem_singleton] at hd
    exact h.names d (hd ▸ Cached.restore_current_mem v.dir pickDir)

lemma withDir {d : FileName → Option ℕ} (hl : d .ledger=v.dir.current .ledger)
    (ht : d .rewriteTmp=v.dir.current .rewriteTmp) (hle : d .legacy=some inode)
    (hb : ∀ m i, d m=some i → i<v.next) : Beside inode bytes (v.withDir d) := by
  obtain ⟨-,ho,hn⟩ := h.names _ v.dir.current_mem
  refine ⟨h.scratch.withDir ht hl hb,?_,h.file,?_⟩
  · intro d' hd' i hi
    rw [mem_singleton.mp hd'] at hi
    exact h.coherent _ v.dir.current_mem i (hl ▸ hi)
  · intro d' hd'
    rw [mem_singleton.mp hd']
    refine ⟨hle,?_,?_⟩
    · intro hi
      exact ho (hl ▸ hi)
    · intro hi
      exact hn (ht ▸ hi)
end
end Beside
section
variable {inode : ℕ} {bytes : Bytes} {v : Volume FileName}
lemma permitted_beside (h : Beside inode bytes v) {fd : ℕ} {Q : ℕ → Volume FileName → Prop} (hq : Q fd v) :
    Safe True (Beside inode bytes) Q (fun _ => Beside inode bytes)
      (sys (.setPermissions fd) >>= fun _ => pure fd) v :=
  Safe.bind (Safe.sys_ok rfl (fun _ => h) (fun _ _ => h) hq)

lemma openPrivate_beside {n : FileName} (hnm : n≠.legacy) :
    Program.Keeps (Beside inode bytes) (openPrivate n true) := by
  intro v h
  refine Safe.bind ?_
  cases hn : v.dir.current n with
  | some fd =>
    have he:=Call.exec_openAppend hn
    exact Safe.sys_ok he (fun _ => h) (fun _ _ => h) (permitted_beside h h)
  | none =>
    have he : (Call.openAppend n).exec v=(.ok v.next,v.create n) := by simp only [Call.exec,hn]
    have hc:=h.create hnm
    exact Safe.sys_ok he (fun _ => h) (fun _ _ => h) (permitted_beside hc hc)

lemma acquireProcessLock_beside {n : FileName} (hn : n≠.legacy) :
    Program.Keeps (Beside inode bytes) (acquireProcessLock n) := by
  intro v h
  refine Safe.andThen (openPrivate_beside hn _ h) ?_
  intro fd v1 h1
  exact Safe.bind (Safe.attempt (Safe.sys_ok rfl (fun _ => h1) (fun _ _ => h1) h1))

lemma lockLegacy_beside (m : FileMode) (l : Option LegacyPath) :
    Program.Keeps (Beside inode bytes) (lockLegacy m l) := by
  intro v h
  refine Safe.afterReading (legacyPresent_reads m l) h (fun _ => h) ?_
  intro b _
  split
  · exact acquireProcessLock_beside (by decide) v h
  · exact h

lemma writeOrdered_beside (h : Beside inode bytes v) {i : ℕ} (hi : v.dir.current .rewriteTmp=some i)
    (es : List (Bytes × StoredRecord)) :
    Safe True (Beside inode bytes) (fun _ v' => Beside inode bytes v' ∧ v'.dir=v.dir)
      (fun _ v' => Beside inode bytes v') (writeOrdered i es) v := by
  have hne : ∀ w : Volume FileName, Beside inode bytes w → w.dir=v.dir → i≠inode ∧ Unbound .ledger w i := by
    intro w hw hd
    rw [← hd] at hi
    refine ⟨?_,hw.scratch.fresh i hi⟩
    rintro rfl
    exact (hw.names _ w.dir.current_mem).2.2 hi
  induction es generalizing v with
  | nil => exact ⟨h,rfl⟩
  | cons e es ih =>
    obtain ⟨ho,hb⟩ := hne v h rfl
    refine Safe.bind (Safe.ofExcept (fun line _ => ?_) (fun _ _ => h))
    have ha : ∀ bs, Beside inode bytes (v.append i bs) := fun bs => h.scribble hb ho _
    refine Safe.bind (Safe.sys_ok rfl (fun _ => ha _) (fun _ _ => ha _) ?_)
    exact ih (ha line) hi fun w hw hd => hne w hw hd

lemma openTmp_beside (h : Beside inode bytes v) : Safe True (Beside inode bytes)
      (fun i v' => Beside inode bytes v' ∧ v'.dir.current .rewriteTmp=some i)
      (fun _ => Beside inode bytes) (openPrivate .rewriteTmp false) v := by
  refine Safe.bind ?_
  cases hn : v.dir.current .rewriteTmp with
  | some i =>
    have he : (Call.openTrunc .rewriteTmp).exec v=(.ok i,v.truncate i 0) := by simp only [Call.exec,hn]
    have hne : i≠inode := by
      rintro rfl
      exact (h.names _ v.dir.current_mem).2.2 hn
    have hc : Beside inode bytes (v.truncate i 0) := h.scribble (h.scratch.fresh i hn) hne _
    exact Safe.sys_ok he (fun _ => h) (fun _ _ => h) (permitted_beside hc ⟨hc,hn⟩)
  | none =>
    have he : (Call.openTrunc .rewriteTmp).exec v=(.ok v.next,v.create .rewriteTmp) := by
      simp only [Call.exec,hn]
    have hu : (v.create .rewriteTmp).dir.current .rewriteTmp=some v.next := by
      rw [Volume.create_current,update_self]
    have hc:=h.create (by decide : FileName.rewriteTmp≠.legacy)
    exact Safe.sys_ok he (fun _ => h) (fun _ _ => h) (permitted_beside hc ⟨hc,hu⟩)

lemma replaceLedger_beside (r : Records) : Program.Keeps (Beside inode bytes) (replaceLedger r) := by
  intro v h
  refine Safe.andThen (openTmp_beside h) ?_
  rintro i v1 ⟨h1,hi⟩
  refine Safe.andThen (writeOrdered_beside h1 hi _) ?_
  rintro _ v2 ⟨h2,hd⟩
  have h3:=h2.fsync i
  have hi3 : (v2.fsync i).dir.current .rewriteTmp=some i :=
      (congrArg (fun d => d.current .rewriteTmp) hd).trans hi
  have ho : ((v2.fsync i).file i).images=[(v2.file i).current] := by
    rw [Volume.fsync_file,Cached.images_flush]
  have he : (Call.rename .rewriteTmp .ledger).exec (v2.fsync i) =
      (.ok (),(v2.fsync i).rename .rewriteTmp .ledger i) := by
    simp only [Call.exec,hi3]
  refine Safe.bind (Safe.sys_ok rfl (fun _ => h2) (fun _ _ => h2) ?_)
  exact Safe.sys_ok he (fun _ => h3) (fun _ _ => h3) (h3.replace hi3 ho)

lemma rewriteLocked_beside (h : Beside inode bytes v) (f : FileInner) (r : Records) :
    Safe True (Beside inode bytes) (fun _ => Beside inode bytes) (fun _ _ => False)
      (rewriteLocked f r) v := by
  refine Safe.bind (Safe.attempt ((replaceLedger_beside r _ h).mono (fun _ => id) ?_ ?_))
  · intro _ v1 h1
    refine Safe.bind (Safe.attempt ((openPrivate_beside (by decide) _ h1).mono (fun _ => id) ?_ ?_))
    · intro fd v2 h2
      exact Safe.bind (Safe.attempt (Safe.sys_ok rfl (fun _ => h2) (fun _ _ => h2) h2.syncDir))
    · intro e v2 h2
      exact h2
  · intro e v1 h1
    refine Safe.bind (Safe.attempt ?_)
    cases hn : v1.dir.current .rewriteTmp with
    | some i =>
      have he : (Call.remove .rewriteTmp).exec v1=(.ok (),v1.unlink .rewriteTmp) := by
        simp only [Call.exec,hn]
      exact Safe.sys_ok he (fun _ => h1) (fun _ _ => h1) h1.unlinkTmp
    | none =>
      have he : (Call.remove .rewriteTmp).exec v1=(.error notFoundError,v1) := by
        simp only [Call.exec,hn]
      exact Safe.sys_error he (fun _ => h1) (fun _ _ => h1) h1

lemma pruneExpiredSync_beside (h : Beside inode bytes v) (now : UInt64) (i : FileInner) :
    Safe True (Beside inode bytes) (fun _ => Beside inode bytes) (fun _ _ => False)
      (pruneExpiredSync now i) v := by
  unfold pruneExpiredSync
  split
  · exact Safe.andThen (rewriteLocked_beside h i _) fun _ _ hv => hv
  · exact h

lemma rewriteFolded_beside (f : Bool) (expected : ℕ) (i : FileInner) :
    Program.Keeps (Beside inode bytes) (rewriteFolded f expected i) := by
  intro v h
  unfold rewriteFolded
  split
  · refine Safe.bind ((rewriteLocked_beside h i _).mono (fun _ => id) ?_ (fun _ _ hv => hv.elim))
    intro out v' hv'
    exact Safe.bind (Safe.ofExcept (fun _ _ => hv') (fun _ _ => hv'))
  · exact h

/-- The rename is the last call, so until the program has returned the legacy ledger keeps
its name. -/
lemma moveLegacyAside_beside (h : Beside inode bytes v) (m : FileMode) (l : Option LegacyPath) :
    Safe True (Beside inode bytes) (fun _ _ => True) (fun _ => Beside inode bytes)
      (moveLegacyAside m l) v := by
  refine Safe.afterReading (legacyPresent_reads m l) h (fun _ => h) ?_
  intro b hw
  split
  next hb =>
    obtain ⟨i,hi⟩ := hw hb
    have he:=Call.exec_rename .migrated hi
    exact Safe.sys_ok he (fun _ => h) (fun _ _ => h) trivial
  · trivial

lemma prepareOpen_beside (m : FileMode) (l : Option LegacyPath) :
    Program.Keeps (Beside inode bytes) (prepareOpen m l) := by
  intro v h
  refine Safe.bind (Safe.sys_ok rfl (fun _ => h) (fun _ _ => h) ?_)
  refine Safe.andThen (acquireProcessLock_beside (by decide) _ h) ?_
  intro _ v1 h1
  refine Safe.andThen (lockLegacy_beside m l _ h1) ?_
  intro _ v2 h2
  exact (truncateUnterminatedTail_trims v2).mono (fun _ => h2.trimmed) (fun _ _ hv => h2.trimmed hv.1)
    (fun _ _ hv => h2.trimmed hv.1)

lemma openLoaded_beside (h : Beside inode bytes v) (m : FileMode) (l : Option LegacyPath) (now : UInt64)
    (lo : Records × Bool) :
    Safe True (Beside inode bytes) (fun _ _ => True) (fun _ => Beside inode bytes)
      (openLoaded m l now lo) v := by
  refine Safe.andThen (openPrivate_beside (by decide) _ h) ?_
  intro fd v1 h1
  refine Safe.bind (Safe.sys_ok rfl (fun _ => h1) (fun _ _ => h1) ?_)
  refine Safe.bind ((pruneExpiredSync_beside h1.syncDir now _).mono (fun _ => id) ?_
    (fun _ _ hv => hv.elim))
  intro pr v2 h2
  refine Safe.bind (Safe.ofExcept (fun ex _ => ?_) (fun _ _ => h2))
  refine Safe.andThen (rewriteFolded_beside lo.2 ex pr.1 _ h2) ?_
  intro ir v3 h3
  exact Safe.bind ((moveLegacyAside_beside h3 m l).mono (fun _ => id) (fun _ _ _ => trivial)
    (fun _ _ hv => hv))
end
end NilVpn.Ledger
