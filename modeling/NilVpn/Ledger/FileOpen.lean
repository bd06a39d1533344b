import NilVpn.Ledger.FileOps

/-!
# Opening the file ledger (nullifier.rs:424-495, 717-826)
-/

namespace NilVpn.Ledger
open Except Option Base List Table Function
open Program (sys ofExcept Safe Reads)

section
variable {P : Option Bytes → Prop} {S : (Records → Prop) → Prop} {faults : Prop}
variable {I : Volume FileName → Prop} {v v' : Volume FileName} {fd : ℕ} {mode : FileMode}
  {own : Records} {out : Records × Bool} {inner : FileInner} {ls : List Bytes}
/-- What the scan gives up on. -/
def LongTail (c : Bytes) : Prop := ∃ p, newline∉c.drop p ∧ p+maxRecordLineBytes ≤ c.length

lemma scanBack_safe (h : I v) (fd pos scanned : ℕ) (hlen : pos+scanned=(v.file fd).current.length)
    (hn : newline∉(v.file fd).current.drop pos) :
    Safe faults I (fun p v' => v'=v ∧ CutPoint (v.file fd).current p)
      (fun _ v' => v'=v ∧ (faults ∨ LongTail (v.file fd).current)) (scanBack fd pos scanned) v := by
  induction pos generalizing scanned with
  | zero =>
    refine ⟨rfl,terminated_nil,?_⟩
    exact hn
  | succ pos ih =>
    unfold scanBack
    split
    next hl => exact ⟨rfl,.inr ⟨pos+1,hn,by omega⟩⟩
    obtain ⟨b,hb⟩ : ∃ b, (v.file fd).current[pos]?=some b := ⟨_,List.getElem?_eq_getElem (by omega)⟩
    have he : (Call.readByte fd pos : Call FileName).exec v=(.ok b,v) := by simp only [Call.exec,hb]
    refine Safe.bind (Safe.sys_ok he (fun _ => h) (fun hf _ => ⟨rfl,.inl hf⟩) ?_)
    split
    next heq =>
      rw [heq] at hb
      exact ⟨rfl,cutPoint_newline hb hn⟩
    next hne => exact ih (scanned+1) (by omega) (drop_noNewline hb hne hn)

def CleanTail (v : Volume FileName) : Prop :=
  ∀ fd, v.dir.current .ledger=some fd → Terminated (v.file fd).current

lemma terminated_of_last {text : Bytes} (h : text[text.length - 1]?=some newline) : Terminated text := by
  obtain ⟨hlt,hg⟩ := List.getElem?_eq_some_iff.mp h
  have hc:=take_succ_eq_append_getElem hlt
  have he : text.length - 1+1=text.length := by omega
  rw [hg,he,take_length] at hc
  rw [hc]
  exact terminated_snoc_newline _

lemma Inv.cut (hP : Shape P) (h : Inv P v) {p : ℕ} (hfd : v.dir.current .ledger=some fd)
    (hp : CutPoint (v.file fd).current p) :
    Inv P (v.truncate fd p) := by
  refine ⟨h.holds.truncate fd p ?_,h.scratch.setFile fd _⟩
  intro d hd hn
  exact hP.cut _ p hp (h.visible hfd)

inductive Trimmed (v : Volume FileName) : Volume FileName → Prop
  | same : Trimmed v v
  | cut {fd p : ℕ} (hfd : v.dir.current .ledger=some fd) (hp : CutPoint (v.file fd).current p) :
      Trimmed v (v.truncate fd p)
  | synced {fd p : ℕ} (hfd : v.dir.current .ledger=some fd) (hp : CutPoint (v.file fd).current p) :
      Trimmed v ((v.truncate fd p).fsync fd)

lemma Inv.trimmed (hP : Shape P) (h : Inv P v) (hv : Trimmed v v') : Inv P v' := by
  cases hv with
  | same => exact h
  | cut hf hp => exact h.cut hP hf hp
  | synced hf hp => exact (h.cut hP hf hp).fsync _

lemma truncateUnterminatedTail_trims (v : Volume FileName) :
    Safe faults (Trimmed v) (fun _ v' => Trimmed v v' ∧ CleanTail v')
      (fun _ v' => Trimmed v v' ∧ (faults ∨ LongTail ((v.visible .ledger).getD [])))
      truncateUnterminatedTail v := by
  refine Safe.bind (Safe.attempt ?_)
  cases hn : v.dir.current .ledger with
  | none =>
    have he:=Call.exec_missing hn
    refine Safe.sys_error he (fun _ => .same) (fun hf _ => ⟨.same,.inl hf⟩) ?_
    refine ⟨.same,?_⟩
    intro fd hd
    rw [hn] at hd
    cases hd
  | some fd =>
    have he:=Call.exec_openExisting hn
    have hc : Terminated (v.file fd).current → CleanTail v := by
      intro ht i hi
      rw [some.inj (hi.symm.trans hn)]
      exact ht
    refine Safe.sys_ok he (fun _ => .same) (fun hf _ => ⟨.same,.inl hf⟩) ?_
    refine Safe.bind (Safe.sys_ok rfl (fun _ => .same) (fun hf _ => ⟨.same,.inl hf⟩) ?_)
    split
    next hz =>
      refine ⟨.same,hc ?_⟩
      rw [length_eq_zero_iff.mp hz]
      exact terminated_nil
    next hpos =>
      obtain ⟨b,hb⟩ : ∃ b, (v.file fd).current[(v.file fd).current.length - 1]?=some b :=
        ⟨_,List.getElem?_eq_getElem (by omega)⟩
      have hr : (Call.readByte fd ((v.file fd).current.length - 1) : Call FileName).exec v=(.ok b,v) := by
        simp only [Call.exec,hb]
      refine Safe.bind (Safe.sys_ok hr (fun _ => .same) (fun hf _ => ⟨.same,.inl hf⟩) ?_)
      split
      next hq =>
        rw [hq] at hb
        exact ⟨.same,hc (terminated_of_last hb)⟩
      next hne =>
        have hl : newline∉(v.file fd).current.drop ((v.file fd).current.length - 1) := by
          grind [drop_eq_nil_of_le,drop_noNewline]
        refine Safe.bind ((scanBack_safe .same fd _ 1 (by omega) hl).mono (fun _ => id) ?_ ?_)
        swap
        · rintro _ v' ⟨rfl,hln⟩
          rw [Volume.visible,hn]
          exact ⟨.same,hln⟩
        rintro p v' ⟨rfl,hp⟩
        refine Safe.bind (Safe.sys_ok rfl (fun _ => .same) (fun hf _ => ⟨.same,.inl hf⟩) ?_)
        refine Safe.sys_ok rfl (fun _ => .cut hn hp) (fun hf _ => ⟨.cut hn hp,.inl hf⟩) ⟨.synced hn hp,?_⟩
        intro i hi
        have hq : i=fd := some.inj (hi.symm.trans hn)
        rw [hq,Volume.fsync_file,Cached.current_flush,Volume.truncate_file,Cached.current_write]
        exact hp.1

lemma truncateUnterminatedTail_safe (hP : Shape P) (h : Inv P v) :
    Safe faults (Inv P) (fun _ v' => Inv P v' ∧ CleanTail v') (fun _ => Inv P)
      truncateUnterminatedTail v :=
  (truncateUnterminatedTail_trims v).mono (fun _ => h.trimmed hP)
    (fun _ _ hv => ⟨h.trimmed hP hv.1,hv.2⟩) (fun _ _ hv => h.trimmed hP hv.1)

lemma allStorable_empty : AllStorable empty := by
  intro k r hr
  cases hr

lemma loadBytes_lines {c : Bytes} {t : Records} (h : loadBytes mode c=.ok t) :
    loadLines mode (splitLines c).1 empty=.ok t := by
  obtain ⟨t0,h0,h⟩ := except_bind_ok h
  split at h
  · cases h
  · rw [h0,ok.inj h]

def shownLines (v : Volume FileName) : List Bytes := (splitLines ((v.visible .ledger).getD [])).1

lemma loadRecords_reads {faults : Call FileName → Prop} (n : FileName) (mode : FileMode) :
    Reads faults (fun t => loadLines mode (splitLines ((v.visible n).getD [])).1 empty=.ok t)
      (loadRecords n mode) v := by
  refine Safe.bind (Safe.attempt ?_)
  cases hn : v.dir.current n with
  | none =>
    have he:=Call.exec_missing hn
    refine Safe.sys_error he (fun _ => rfl) (fun _ _ => rfl) ?_
    refine ⟨rfl,?_⟩
    rw [Volume.visible,hn]
    rfl
  | some fd =>
    have he:=Call.exec_openExisting hn
    refine Safe.sys_ok he (fun _ => rfl) (fun _ _ => rfl) ?_
    refine Safe.bind (Safe.sys_ok (c := .read fd) rfl (fun _ => rfl) (fun _ _ => rfl) ?_)
    cases hl : loadBytes mode (v.file fd).current with
    | error e => rfl
    | ok t =>
      refine ⟨rfl,?_⟩
      rw [Volume.visible,hn]
      exact loadBytes_lines hl

lemma AllStorable.orInsertAll {t : Records} (ht : AllStorable t)
    {es : List (Bytes × StoredRecord)} (hs : ∀ e∈es, Storable e.1 e.2) :
    AllStorable (t.orInsertAll es) := by
  induction es generalizing t with
  | nil => exact ht
  | cons e es ih =>
    have he:=ht.orInsert (hs e (mem_cons_self ..))
    exact ih he fun x hx => hs x (mem_cons_of_mem _ hx)

lemma foldLegacy_storable {old : Records} (ho : AllStorable own) (hl : AllStorable old) :
    AllStorable (foldLegacy own old).1 :=
  ho.orInsertAll fun e he => hl e.1 e.2 ((get_eq_some _ _ _).mpr he)

lemma foldLegacy_same {old : Records} (h : (foldLegacy own old).2=false) (k : Bytes) :
    (foldLegacy own old).1.get k=own.get k := by
  have hn : ∀ e∈old.entries, own.get e.1≠none := by grind [foldLegacy]
  rw [foldLegacy,get_orInsertAll]
  cases hk : own.get k with
  | some r => rfl
  | none =>
    cases hl : Table.lookup k old.entries with
    | none => rfl
    | some r => exact absurd hk (hn (k,r) (lookup_mem k r _ hl))

structure LoadedFrom (ls : List Bytes) (mode : FileMode) (own : Records) (out : Records × Bool) :
    Prop where
  lines : loadLines mode ls Table.empty=.ok own
  storable : AllStorable out.1
  keeps : ∀ k r, own.get k=some r → out.1.get k=some r
  same : out.2=false → ∀ k, out.1.get k=own.get k

lemma LoadedFrom.asserts (hS : ∀ A, S A → Persistent A) (h : Inv (KeepsAll S) v)
    (hd : LoadedFrom (shownLines v) mode own out) :
    ∀ A, S A → A out.1 := by
  intro A hA
  refine hS A hA own out.1 ?_ (extends_of_get hd.keeps)
  have hl:=hd.lines
  have hk : Keeps A (v.visible .ledger) := h.holds.visible A hA
  rw [shownLines] at hl
  obtain ⟨c,hc,ha⟩ := hk
  rw [hc] at hl
  exact ha mode own hl

lemma pathExists_reads (n : FileName) :
    Reads faults (fun b => b=true → ∃ i, v.dir.current n=some i) (pathExists n) v := by
  refine Safe.bind (Safe.attempt (Safe.sys_ok rfl (fun _ => rfl) (fun _ _ => ?_) ?_))
  · exact ⟨rfl,nofun⟩
  · exact ⟨rfl,fun hb => isSome_iff_exists.mp hb⟩

lemma legacyPresent_reads (mode : FileMode) (l : Option LegacyPath) :
    Reads faults (fun b => b=true → ∃ i, v.dir.current .legacy=some i) (legacyPresent mode l) v := by
  unfold legacyPresent
  split
  · exact pathExists_reads .legacy
  · exact ⟨rfl,(by simp)⟩

lemma loadWithLegacy_reads (mode : FileMode) (l : Option LegacyPath) :
    Reads faults (fun out => ∃ own, LoadedFrom (shownLines v) mode own out) (loadWithLegacy mode l) v := by
  refine Reads.andThen (loadRecords_reads .ledger mode) ?_
  intro own hl
  have ho:=loadLines_storable allStorable_empty hl
  refine Reads.andThen (legacyPresent_reads mode l) ?_
  intro b _
  split
  · refine Reads.andThen (loadRecords_reads .legacy .flat) ?_
    intro old hf
    exact ⟨rfl,own,hl,foldLegacy_storable ho (loadLines_storable allStorable_empty hf),
      fun k r hr => get_orInsertAll_of_some own old.entries k r hr,foldLegacy_same⟩
  · exact ⟨rfl,own,hl,ho,fun _ _ hr => hr,fun _ _ => rfl⟩

lemma acquireProcessLock_safe (hP : Shape P) (h : Inv P v) (n : FileName) :
    Safe faults (Inv P) (fun _ => Inv P) (fun _ => Inv P) (acquireProcessLock n) v := by
  refine Safe.andThen (openPrivate_append_safe hP h n) ?_
  rintro fd v1 ⟨h1,-⟩
  exact Safe.bind (Safe.attempt (Safe.sys_ok rfl (fun _ => h1) (fun _ _ => h1) h1))

structure Ready (S : (Records → Prop) → Prop) (inner : FileInner) (v : Volume FileName) : Prop where
  inv : Inv (KeepsAll S) v
  live : Live S inner v
  settled : ∃ fd, inner.file=some fd ∧ v.Settled .ledger fd

lemma Rewritten.ready {inner' : FileInner} {records : Records} {r : Except IoError Unit}
    (h : Rewritten S faults inner records inner' r v') (hr : r=.ok ()) :
    Ready S inner' v' := by
  obtain ⟨-,fd,hf,hs,-⟩ := h.done hr
  exact ⟨h.inv,h.live,fd,hf,hs⟩

lemma openPrune_safe (hS : ∀ A, S A → Persistent A) (h : Ready S inner v) (now : UInt64) :
    Safe faults (Inv (KeepsAll S))
      (fun out v' => Inv (KeepsAll S) v' ∧
        ∀ n, out.2=.ok n → Ready S out.1 v' ∧ Extends inner.records out.1.records)
      (fun _ _ => False) (pruneExpiredSync now inner) v := by
  unfold pruneExpiredSync
  split
  · have ha:=asserts_of_extends hS h.live.asserts (extends_prune now inner.records)
    refine Safe.andThen (rewriteLocked_safe hS h.inv h.live (h.live.storable.prune now) ha) ?_
    rintro ⟨inner',r⟩ v' ho
    refine ⟨ho.inv,?_⟩
    intro n hn
    cases r with
    | error e => cases hn
    | ok u =>
      refine ⟨ho.ready rfl,?_⟩
      rw [(ho.done rfl).1]
      exact extends_prune now inner.records
  · exact ⟨h.inv,fun _ _ => ⟨h,Extends.refl _⟩⟩

lemma Ready.migrate (h : Ready S inner v) {i : ℕ} (hi : v.dir.current .legacy=some i) :
    Ready S inner (v.rename .legacy .migrated i) := by
  have hc : (v.rename .legacy .migrated i).dir.current .ledger=v.dir.current .ledger := by
    simp [Volume.rename,Cached.current_write,update_of_ne]
  have hf : Frame v (v.rename .legacy .migrated i) := ⟨hc,fun _ _ => rfl⟩
  refine ⟨⟨h.inv.holds.rename_other _ _ i (by decide) (by decide),?_⟩,h.live.frame hf,?_⟩
  · exact h.inv.scratch.rename_other _ _ i (by decide) (by decide) (by decide) (by decide) hi
  · obtain ⟨fd,hfl,hs⟩ := h.settled
    refine ⟨fd,hfl,?_⟩
    intro d hd
    rcases mem_cons.mp hd with rfl | hd
    · exact hc.trans (hs _ v.dir.current_mem)
    · exact hs d hd

lemma lockLegacy_safe (hP : Shape P) (h : Inv P v) (mode : FileMode) (l : Option LegacyPath) :
    Safe faults (Inv P) (fun _ => Inv P) (fun _ => Inv P) (lockLegacy mode l) v := by
  refine Safe.afterReading (legacyPresent_reads mode l) h (fun _ => h) ?_
  intro b _
  split
  · exact acquireProcessLock_safe hP h .legacyLock
  · exact h

lemma rewriteFolded_safe (hS : ∀ A, S A → Persistent A) (h : Ready S inner v) (f : Bool) (expected : ℕ) :
    Safe faults (Inv (KeepsAll S)) (fun inner' v' => Ready S inner' v' ∧ inner'.records=inner.records)
      (fun _ v' => Inv (KeepsAll S) v') (rewriteFolded f expected inner) v := by
  unfold rewriteFolded
  split
  · refine Safe.bind ((rewriteLocked_safe hS h.inv h.live h.live.storable h.live.asserts).mono
      (fun _ => id) ?_ (fun _ _ hv => hv.elim))
    intro out v' ho
    obtain ⟨inner',r⟩ := out
    cases r with
    | error e => exact ho.inv
    | ok u => exact ⟨ho.ready rfl,(ho.done rfl).1⟩
  · exact ⟨h,rfl⟩

lemma moveLegacyAside_safe (h : Ready S inner v) (mode : FileMode) (l : Option LegacyPath) :
    Safe faults (Inv (KeepsAll S)) (fun _ => Ready S inner) (fun _ v' => Inv (KeepsAll S) v')
      (moveLegacyAside mode l) v := by
  refine Safe.afterReading (legacyPresent_reads mode l) h.inv (fun _ => h.inv) ?_
  intro b hw
  split
  next hb =>
    obtain ⟨i,hi⟩ := hw hb
    have he:=Call.exec_rename .migrated hi
    exact Safe.sys_ok he (fun _ => h.inv) (fun _ _ => h.inv) (h.migrate hi)
  · exact h

lemma appended_file {n : FileName} (hfd : v'.dir.current n=some fd)
    (hc : v.dir.current n=some fd ∧ v'=v ∨ v.dir.current n=none ∧ v'=v.create n) :
    v.dir.current n=some fd ∧ v'=v ∨ (v'.file fd).current=[] := by
  rcases hc with hs | ⟨_,hv'⟩
  · exact .inl hs
  · simp_all [update_self,Volume.create]

def prepareOpen (mode : FileMode) (legacy : Option LegacyPath) : FileProg Unit := do
  sys .createDirAll
  acquireProcessLock .lock
  lockLegacy mode legacy
  truncateUnterminatedTail

def openLoaded (mode : FileMode) (legacy : Option LegacyPath) (now : UInt64) (loaded : Records × Bool) :
    FileProg FileInner := do
  let file ← openPrivate .ledger true
  sys .syncDir
  let pruned ← pruneExpiredSync now ⟨loaded.1,some file⟩
  let expired ← ofExcept pruned.2
  let inner ← rewriteFolded loaded.2 expired pruned.1
  moveLegacyAside mode legacy
  return inner

lemma openStore_eq (mode : FileMode) (l : Option LegacyPath) (now : UInt64) :
    openStore mode l now =
      (prepareOpen mode l >>= fun _ => loadWithLegacy mode l >>= openLoaded mode l now) := by
  rw [prepareOpen,Program.bind_assoc]
  simp only [Program.bind_assoc]
  rfl

lemma prepareOpen_safe (hP : Shape P) (h : Inv P v) (mode : FileMode) (l : Option LegacyPath) :
    Safe faults (Inv P) (fun _ v' => Inv P v' ∧ CleanTail v') (fun _ => Inv P)
      (prepareOpen mode l) v := by
  refine Safe.bind (Safe.sys_ok rfl (fun _ => h) (fun _ _ => h) ?_)
  refine Safe.andThen (acquireProcessLock_safe hP h .lock) ?_
  intro _ v1 h1
  refine Safe.andThen (lockLegacy_safe hP h1 mode l) ?_
  intro _ v2 h2
  exact truncateUnterminatedTail_safe hP h2

lemma openLoaded_safe (hS : ∀ A, S A → Persistent A) (h : Inv (KeepsAll S) v)
    (hc : CleanTail v) {lo : Records × Bool} (hst : AllStorable lo.1)
    (ha : ∀ A, S A → A lo.1) (mode : FileMode) (l : Option LegacyPath) (now : UInt64) :
    Safe faults (Inv (KeepsAll S)) (fun inner v' => Ready S inner v' ∧ Extends lo.1 inner.records)
      (fun _ v' => Inv (KeepsAll S) v') (openLoaded mode l now lo) v := by
  refine Safe.andThen (openPrivate_append_safe (shape_keepsAll S) h .ledger) ?_
  intro fd v4 ho
  obtain ⟨h4,hf,hcs⟩ := ho
  have ht : Terminated (v4.file fd).current := by
    rcases appended_file hf hcs with ⟨hb,hv4⟩ | hn
    · rw [hv4]
      exact hc fd hb
    · rw [hn]
      exact terminated_nil
  have hr : Ready S ⟨lo.1,some fd⟩ v4.syncDir := by
    refine ⟨h4.syncDir,⟨hst,ha,?_⟩,fd,rfl,?_⟩
    · rintro _ ⟨⟩
      exact ⟨hf,ht⟩
    · exact forall_of_singleton rfl hf
  refine Safe.bind (Safe.sys_ok rfl (fun _ => h4) (fun _ _ => h4) ?_)
  refine Safe.bind ((openPrune_safe hS hr now).mono (fun _ => id) ?_
    (fun _ _ hv => hv.elim))
  intro pr v5 h5
  obtain ⟨inner,re⟩ := pr
  cases re with
  | error e => exact h5.1
  | ok ex =>
    obtain ⟨hp,hg⟩ := h5.2 ex rfl
    refine Safe.bind ?_
    change Safe faults (Inv (KeepsAll S)) _ _ (rewriteFolded lo.2 ex inner >>= fun inner' =>
      moveLegacyAside mode l >>= fun _ => pure inner') v5
    refine Safe.andThen (rewriteFolded_safe hS hp lo.2 ex) ?_
    intro inner' v6 h6
    refine Safe.bind ((moveLegacyAside_safe h6.1 mode l).mono (fun _ => id) ?_
      (fun _ _ hv => hv))
    intro _ v7 h7
    refine ⟨h7,?_⟩
    rw [h6.2]
    exact hg

lemma openStore_safe (hS : ∀ A, S A → Persistent A) (h : Inv (KeepsAll S) v) (mode : FileMode)
    (l : Option LegacyPath) (now : UInt64) :
    Safe faults (Inv (KeepsAll S)) (fun inner v' => Ready S inner v') (fun _ v' => Inv (KeepsAll S) v')
      (openStore mode l now) v := by
  rw [openStore_eq]
  refine Safe.andThen (prepareOpen_safe (shape_keepsAll S) h mode l) ?_
  rintro _ v1 ⟨h1,hc⟩
  refine Safe.afterReading (loadWithLegacy_reads mode l) h1 (fun _ => h1) ?_
  rintro lo ⟨own,hl⟩
  exact (openLoaded_safe hS h1 hc hl.storable (hl.asserts hS h1) mode l now).mono
    (fun _ => id) (fun _ _ hv => hv.1) (fun _ _ hv => hv)

def linesAre (ls : List Bytes) (o : Option Bytes) : Prop := (splitLines (o.getD [])).1=ls

instance (ls : List Bytes) : DecidablePred (linesAre ls) := fun _ => inferInstanceAs (Decidable (_=_))

lemma shape_linesAre (ls : List Bytes) : Shape (linesAre ls) := by
  refine ⟨fun h => h,?_⟩
  intro c p hp h
  have hc : (splitLines c).1=ls := h
  change (splitLines (c.take p)).1=ls
  rw [hp.lines,hc]

/-- Whatever a crash leaves of the ledger has the complete lines it shows now. -/
def Steady (v : Volume FileName) : Prop :=
  v.Holds .ledger (linesAre (splitLines ((v.visible .ledger).getD [])).1)

instance (v : Volume FileName) : Decidable (Steady v) := inferInstanceAs (Decidable (v.Holds ..))

/-- All images of one ledger file have the same complete lines. A crash may still choose
between ledger files. -/
def Coherent (v : Volume FileName) : Prop :=
  ∀ d∈v.dir.images, ∀ i, d .ledger=some i → ∀ c∈(v.file i).images,
    (splitLines c).1=(splitLines (v.file i).current).1

lemma coherent_of_linesAre (h : Inv (linesAre ls) v) : Coherent v := by
  intro d hd i hi c hc
  have hold:=h.holds d hd
  rw [hi] at hold
  have hu : (splitLines (v.file i).current).1=ls := hold _ (v.file i).current_mem
  rw [hu]
  exact hold c hc

lemma Coherent.syncDir (h : Coherent v) (hs : v.Scratch .rewriteTmp .ledger) :
    Inv (linesAre (shownLines v)) v.syncDir := by
  refine ⟨forall_of_singleton (a := v.dir.current) rfl ?_,hs.syncDir⟩
  unfold shownLines Volume.visible
  cases hn : v.dir.current .ledger with
  | none => exact rfl
  | some i => exact fun c hc => h _ v.dir.current_mem i hn c hc

lemma Coherent.create (h : Coherent v) (hs : v.Scratch .rewriteTmp .ledger)
    (n : FileName) : Coherent (v.create n) := by
  -- a bound inode is an older one, whose images the new file leaves alone
  have ho : ∀ d∈v.dir.images, ∀ i, d .ledger=some i → ∀ c∈((v.create n).file i).images,
      (splitLines c).1=(splitLines ((v.create n).file i).current).1 := by
    intro d hd i hi
    have hne : i≠v.next := (hs.bounded d hd _ i hi).ne
    rw [Volume.create_file_ne v n hne]
    exact h d hd i hi
  intro d hd i hi
  rcases mem_cons.mp hd with rfl | hd
  · rw [Volume.create_current] at hi
    by_cases hn : FileName.ledger=n
    · rw [hn,update_self] at hi
      rw [← some.inj hi,Volume.create_file_self,Cached.images_clean,Cached.current_clean]
      intro c hc
      rw [mem_singleton.mp hc]
    · rw [update_of_ne hn] at hi
      exact ho _ v.dir.current_mem i hi
  · exact ho d hd i hi

lemma inv_heldBy (h : Inv (linesAre ls) v) (hw : loadLines mode ls empty=.ok own) :
    Inv (KeepsAll (heldBy own)) v := by
  refine ⟨h.holds.mono ?_,h.scratch⟩
  intro o ho
  cases o with
  | none =>
    have hn : ls=[] := Eq.symm ho
    rw [hn] at hw
    intro A hA
    obtain ⟨k,r,hr,-⟩ := hA
    rw [← ok.inj hw] at hr
    cases hr
  | some c =>
    have hl : (splitLines c).1=ls := ho
    refine keepsAll_heldBy ?_
    intro mode' t' ht'
    rw [hl] at ht'
    have heq : t'=own := ok.inj (ht'.symm.trans (loadLines_mode mode' hw))
    rw [heq]
    exact Extends.refl own

structure Loaded (own : Records) (fd : ℕ) (inner : FileInner) (v : Volume FileName) : Prop where
  file : inner.file=some fd
  settled : v.Settled .ledger fd
  inv : Inv (KeepsAll (heldBy own)) v
  live : Live (heldBy own) inner v
  covers : ∀ mode t k, loadLines mode (splitLines (v.file fd).current).1 Table.empty=.ok t →
    inner.records.get k=none → t.get k=none

lemma Loaded.durable (h : Loaded own fd inner v) (hs : ∀ k, inner.records.get k=own.get k) :
    Durable inner v := by
  refine ⟨fd,h.file,h.settled,⟨h.inv.holds.mono ?_,h.inv.scratch⟩,h.covers⟩
  intro o ho A hA
  obtain ⟨k,r,hr,rfl⟩ := hA
  rw [hs] at hr
  exact ho _ ⟨k,r,hr,rfl⟩

lemma Rewritten.durable {S : (Records → Prop) → Prop} {inner' : FileInner} {records : Records}
    {r : Except IoError Unit} (h : Rewritten S faults inner records inner' r v') (hr : r=.ok ()) :
    Durable inner' v' := by
  obtain ⟨hc,fd,hf,hs,hm⟩ := h.done hr
  rw [← hc] at hm
  exact durable_image hf hs h.live.storable h.inv.scratch hm

def AnyVolume (_ : Volume FileName) : Prop := True
def AnyError (_ : IoError) (_ : Volume FileName) : Prop := True

lemma Durable.migrate (h : Durable inner v) {i : ℕ} (hi : v.dir.current .legacy=some i) :
    Durable inner (v.rename .legacy .migrated i) := by
  obtain ⟨fd,h⟩ := h
  have hc : (v.rename .legacy .migrated i).dir.current .ledger=v.dir.current .ledger := by
    simp [Volume.rename,Cached.current_write,update_of_ne]
  refine ⟨fd,h.file,?_,⟨h.inv.holds.rename_other _ _ i (by decide) (by decide),?_⟩,h.covers⟩
  · intro d hd
    rcases mem_cons.mp hd with rfl | hd
    · exact hc.trans (h.settled _ v.dir.current_mem)
    · exact h.settled d hd
  · exact h.inv.scratch.rename_other _ _ i (by decide) (by decide) (by decide) (by decide) hi

lemma moveLegacyAside_durable (h : Durable inner v) (mode : FileMode) (l : Option LegacyPath) :
    Safe faults AnyVolume (fun _ => Durable inner) AnyError (moveLegacyAside mode l) v := by
  refine Safe.afterReading (legacyPresent_reads mode l) trivial (fun _ => trivial) ?_
  intro b hw
  split
  next hb =>
    obtain ⟨i,hi⟩ := hw hb
    have he:=Call.exec_rename .migrated hi
    exact Safe.sys_ok he (fun _ => trivial) (fun _ _ => trivial) (h.migrate hi)
  · exact h

lemma openPrune_durable (h : Loaded own fd inner v) (now : UInt64) : Safe faults AnyVolume
      (fun out v' => ∀ n, out.2=.ok n → n≠0 ∧ Durable out.1 v' ∨ n=0 ∧ out.1=inner ∧ v'=v)
      (fun _ _ => False) (pruneExpiredSync now inner) v := by
  unfold pruneExpiredSync
  split
  next hp =>
    have ha:=asserts_of_extends (heldBy_persistent own) h.live.asserts (extends_prune now inner.records)
    refine Safe.bind ((rewriteLocked_safe (heldBy_persistent own) h.inv h.live
      (h.live.storable.prune now) ha).mono (fun _ _ => trivial) ?_ (fun _ _ hv => hv))
    intro out v' ho n hn
    obtain ⟨inner',r⟩ := out
    cases r with
    | error e => cases hn
    | ok u =>
      have hc : prunedCount now inner.records=n := ok.inj hn
      exact .inl ⟨by omega,ho.durable rfl⟩
  · intro n hn
    exact .inr ⟨(ok.inj hn).symm,rfl,rfl⟩

lemma LoadedFrom.loaded (hl : LoadedFrom ls mode own out) (h : Inv (linesAre ls) v)
    (hc : ∀ i, v.dir.current .ledger=some i → Terminated (v.file i).current)
    (h' : Inv (KeepsAll (heldBy own)) v') (hfd : v'.dir.current .ledger=some fd)
    (hcs : v.dir.current .ledger=some fd ∧ v'=v ∨ (v'.file fd).current=[]) :
    Loaded own fd ⟨out.1,some fd⟩ v'.syncDir := by
  have hf : Terminated (v'.file fd).current ∧ ∀ mode' t k,
      loadLines mode' (splitLines (v'.file fd).current).1 empty=.ok t →
      out.1.get k=none → t.get k=none := by
    rcases hcs with ⟨hb,hv'⟩ | hn
    · rw [hv']
      refine ⟨hc fd hb,?_⟩
      intro mode' t k ht hk
      have hln : (splitLines (v.file fd).current).1=ls := h.visible hb
      rw [hln] at ht
      have heq : t=own := ok.inj (ht.symm.trans (loadLines_mode mode' hl.lines))
      rw [heq]
      cases ho : own.get k with
      | none => rfl
      | some r =>
        rw [hl.keeps k r ho] at hk
        cases hk
    · rw [hn]
      refine ⟨terminated_nil,?_⟩
      intro mode' t k ht _
      rw [← ok.inj ht]
      rfl
  refine ⟨rfl,forall_of_singleton rfl hfd,h'.syncDir,
    ⟨hl.storable,heldBy_of_extends (extends_of_get hl.keeps),?_⟩,hf.2⟩
  rintro _ ⟨⟩
  exact ⟨hfd,hf.1⟩

/-- The rewrite of `open` happens only if legacy keys came in and nothing was pruned;
without it the loaded records are the durable ones. -/
lemma rewriteFolded_durable (hl : LoadedFrom ls mode own out) {expected : ℕ}
    (h : Loaded own fd ⟨out.1,some fd⟩ v)
    (hp : expected≠0 ∧ Durable inner v' ∨ expected=0 ∧ inner=⟨out.1,some fd⟩ ∧ v'=v) :
    Safe faults AnyVolume (fun inner' w => Durable inner' w) AnyError
      (rewriteFolded out.2 expected inner) v' := by
  unfold rewriteFolded
  rcases hp with ⟨hne,hd⟩ | ⟨hz,hin,hv'⟩
  · have hc : ¬((out.2&&decide (expected=0))=true) := by simp [hne]
    rw [if_neg hc]
    exact hd
  · rw [hin,hv']
    split
    · refine Safe.bind ((rewriteLocked_safe (heldBy_persistent own) h.inv h.live
        h.live.storable h.live.asserts).mono (fun _ _ => trivial) ?_ (fun _ _ hv => hv.elim))
      intro re w hw
      obtain ⟨inner',r⟩ := re
      cases r with
      | error e => trivial
      | ok u => exact hw.durable rfl
    next hc =>
      have hf : out.2=false := by
        rw [hz] at hc
        simpa using hc
      exact h.durable (hl.same hf)

/-- From a coherent ledger, the store that opens is durable: the directory sync makes
the loaded lines the only ones. -/
lemma openLoaded_durable (hs : v.Scratch .rewriteTmp .ledger) (hc : Coherent v)
    (hcl : CleanTail v) {lo : Records × Bool}
    (hd : LoadedFrom (shownLines v) mode own lo) (l : Option LegacyPath) (now : UInt64) :
    Safe faults AnyVolume (fun inner v' => Durable inner v') AnyError
      (openLoaded mode l now lo) v := by
  have ha : Inv (fun _ => True) v := by
    refine ⟨?_,hs⟩
    intro d _
    cases d .ledger with
    | none => trivial
    | some i => exact fun _ _ => trivial
  have hsh : Shape fun _ => True := ⟨fun _ => trivial,fun _ _ _ _ => trivial⟩
  refine Safe.bind ((openPrivate_append_safe hsh ha .ledger).mono
    (fun _ _ => trivial) ?_ (fun _ _ _ => trivial))
  intro fd v4 ho
  obtain ⟨h4,hf,hca⟩ := ho
  have hln : Inv (linesAre (shownLines v)) v4.syncDir := by
    rcases hca with ⟨-,hv4⟩ | ⟨hn,hv4⟩
    · rw [hv4]
      exact hc.syncDir hs
    · have hsw : shownLines (v.create .ledger)=shownLines v := by
        simp only [shownLines,Volume.visible,Volume.create_current,update_self,hn]
        simp [Volume.create]
      rw [hv4,← hsw]
      exact (hc.create hs .ledger).syncDir (hs.create rewriteTmp_ne_ledger .ledger)
  have hca' : v.syncDir.dir.current .ledger=some fd ∧ v4.syncDir=v.syncDir ∨
      (v4.syncDir.file fd).current=[] := by
    rcases appended_file hf hca with ⟨hb,hv4⟩ | hnil
    · exact .inl ⟨hb,by rw [hv4]⟩
    · exact .inr hnil
  -- syncing twice is syncing once
  have hl : Loaded own fd ⟨lo.1,some fd⟩ v4.syncDir.syncDir :=
    hd.loaded (hc.syncDir hs) hcl (inv_heldBy hln hd.lines) hf hca'
  refine Safe.bind (Safe.sys_ok rfl (fun _ => trivial) (fun _ _ => trivial) ?_)
  refine Safe.bind ((openPrune_durable hl now).mono (fun _ => id) ?_
    (fun _ _ hv => hv.elim))
  intro pr v5 h5
  obtain ⟨inner,re⟩ := pr
  cases re with
  | error e => trivial
  | ok ex =>
    refine Safe.bind ?_
    change Safe faults AnyVolume _ _ (rewriteFolded lo.2 ex inner >>= fun inner' =>
      moveLegacyAside mode l >>= fun _ => pure inner') v5
    refine Safe.andThen (rewriteFolded_durable hd hl (h5 ex rfl)) ?_
    intro inner' v6 h6
    exact Safe.bind ((moveLegacyAside_durable h6 mode l).mono (fun _ => id)
      (fun _ _ hv => hv) (fun _ _ hv => hv))

lemma openStore_durable (hs : v.Scratch .rewriteTmp .ledger) (hst : Steady v)
    (mode : FileMode) (l : Option LegacyPath) (now : UInt64) :
    Safe faults AnyVolume (fun inner v' => Durable inner v') AnyError (openStore mode l now) v := by
  have h : Inv (linesAre (shownLines v)) v := ⟨hst,hs⟩
  rw [openStore_eq]
  refine Safe.bind ((prepareOpen_safe (shape_linesAre _) h mode l).mono (fun _ _ => trivial) ?_
    (fun _ _ _ => trivial))
  rintro _ v1 ⟨h1,hc⟩
  refine Safe.afterReading (loadWithLegacy_reads mode l) trivial (fun _ => trivial) ?_
  rintro lo ⟨own,hl⟩
  exact openLoaded_durable h1.scratch (coherent_of_linesAre h1) hc hl l now
end
end NilVpn.Ledger
