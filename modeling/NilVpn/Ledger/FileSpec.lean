import NilVpn.Base.Replace
import NilVpn.Ledger.File

/-!
# What the file ledger keeps across calls and crashes

An assertion on records is persistent when it survives new keys and cleared responses.
-/

namespace NilVpn.Ledger
open Base List Table
open Program (sys Safe)

def Extends (t t' : Records) : Prop := ∀ k r, t.get k=some r → ∃ r', t'.get k=some r' ∧ Descends r r'

lemma Extends.refl (t : Records) : Extends t t := fun _ r hr => ⟨r,hr,Or.inl rfl⟩

lemma extends_of_get {t t' : Records} (h : ∀ k r, t.get k=some r → t'.get k=some r) :
    Extends t t' := fun k r hr => ⟨r,h k r hr,Or.inl rfl⟩

lemma extends_modify (t : Records) (k : Bytes) : Extends t (t.modify k StoredRecord.clear) := by
  intro j r hr
  rw [get_modify,hr]
  split
  · exact ⟨r.clear,rfl,.inr rfl⟩
  · exact ⟨r,rfl,.inl rfl⟩

lemma extends_insert {t : Records} {k : Bytes} (r : StoredRecord) (h : t.get k=none) :
    Extends t (t.insert k r) := by
  refine extends_of_get ?_
  intro j s hs
  have hne : j≠k := by
    rintro rfl
    rw [h] at hs
    cases hs
  rw [get_insert_ne _ _ _ _ hne]
  exact hs

lemma extends_prune (now : UInt64) (t : Records) : Extends t (pruneRecords now t) := by
  intro k r hr
  refine ⟨(r.prune now).1,?_,prune_descends now r⟩
  rw [pruneRecords,get_mapVal,hr]
  rfl

def Persistent (A : Records → Prop) : Prop := ∀ t t', A t → Extends t t' → A t'

/-- The complete lines of a present file load, if at all, into records that satisfy `A`. -/
def Keeps (A : Records → Prop) (o : Option Bytes) : Prop :=
  ∃ c, o=some c ∧ ∀ mode t, loadLines mode (splitLines c).1 Table.empty=.ok t → A t

section
variable {A : Records → Prop}
lemma keeps_iff {c : Bytes} : Keeps A (some c) ↔
    ∀ mode t, loadLines mode (splitLines c).1 Table.empty=.ok t → A t := by
  constructor
  · rintro ⟨c',hc,h⟩
    rw [Option.some.inj hc]
    exact h
  · exact fun h => ⟨c,rfl,h⟩

lemma Keeps.append (hA : Persistent A) {c : Bytes} (x : Bytes) (hc : Terminated c)
    (h : Keeps A (some c)) : Keeps A (some (c++x)) := by
  rw [keeps_iff] at h ⊢
  intro m t ht
  rw [splitLines_append c x hc,loadLines_append] at ht
  obtain ⟨t0,h0,ht⟩ := except_bind_ok ht
  exact hA t0 t (h m t0 h0) (extends_of_get fun k r hr => loadLines_keeps ht hr)

lemma keeps_image (hA : Persistent A) {t : Records} (ht : AllStorable t) (h : A t) :
    Keeps A (some (image (orderedEntries t))) := by
  rw [keeps_iff]
  intro m t' ht'
  have hes:=orderedEntries_storable ht
  rw [splitLines_image _ hes,loadLines_recordLines m _ _ hes] at ht'
  refine hA t t' h (extends_of_get ?_)
  intro k r hr
  rw [← Except.ok.inj ht',get_orInsertAll,lookup_orderedEntries,hr]
  rfl
end

lemma terminated_snoc_newline (x : Bytes) : Terminated (x++[newline]) := by
  have hx:=joinLines_splitLines x
  have hs : x++[newline]=joinLines ((splitLines x).1++[(splitLines x).2]) := by
    grind [joinLines_append,newline,joinLines,append_assoc]
  rw [hs]
  exact terminated_joinLines _

lemma splitLines_torn (x y : Bytes) (hx : Terminated x) (hy : newline∉y) :
    splitLines (x++y)=((splitLines x).1,y) := by
  rw [splitLines_append x y hx,splitLines_noNewline y hy,append_nil]

/-- Where the scan may stop: at the start or right after a newline, with none behind. -/
def CutPoint (c : Bytes) (p : ℕ) : Prop := Terminated (c.take p) ∧ newline∉c.drop p

variable {p : ℕ}
lemma CutPoint.lines {c : Bytes} (h : CutPoint c p) : (splitLines (c.take p)).1=(splitLines c).1 := by
  have hs:=splitLines_torn (c.take p) (c.drop p) h.1 h.2
  rw [take_append_drop] at hs
  rw [hs]

lemma drop_noNewline {t : Bytes} {b : UInt8} (hp : t[p]?=some b) (hb : b≠newline)
    (h : newline∉t.drop (p+1)) : newline∉t.drop p := by
  obtain ⟨hlt,hg⟩ := List.getElem?_eq_some_iff.mp hp
  rw [drop_eq_getElem_cons hlt,hg]
  intro hm
  rcases mem_cons.mp hm with he | hm
  · exact hb he.symm
  · exact h hm

lemma cutPoint_newline {t : Bytes} (hp : t[p]?=some newline)
    (h : newline∉t.drop (p+1)) : CutPoint t (p+1) := by
  obtain ⟨hlt,hg⟩ := List.getElem?_eq_some_iff.mp hp
  refine ⟨?_,h⟩
  rw [take_succ_eq_append_getElem hlt,hg]
  exact terminated_snoc_newline _

/-- All assertions of a family at once; an absent ledger satisfies no assertion. -/
def KeepsAll (S : (Records → Prop) → Prop) (o : Option Bytes) : Prop := ∀ A, S A → Keeps A o

lemma KeepsAll.of_none {S : (Records → Prop) → Prop} (h : KeepsAll S none) (o : Option Bytes) :
    KeepsAll S o := by
  intro A hA
  obtain ⟨c,hc,-⟩ := h A hA
  cases hc

abbrev Inv (P : Option Bytes → Prop) : Volume FileName → Prop :=
  Guarded FileName.ledger FileName.rewriteTmp P

lemma rewriteTmp_ne_ledger : FileName.rewriteTmp≠FileName.ledger := by decide

abbrev Frame : Volume FileName → Volume FileName → Prop := Untouched FileName.ledger

/-- Contents properties that opening the ledger keeps: a new empty file, and a cut
at the last complete line. -/
structure Shape (P : Option Bytes → Prop) : Prop where
  create : P none → P (some [])
  cut : ∀ c p, CutPoint c p → P (some c) → P (some (c.take p))

lemma shape_keepsAll (S : (Records → Prop) → Prop) : Shape (KeepsAll S) := by
  refine ⟨fun h => KeepsAll.of_none h _,?_⟩
  intro c p hp h A hA
  have hk:=keeps_iff.mp (h A hA)
  rw [keeps_iff,hp.lines]
  exact hk

structure Live (S : (Records → Prop) → Prop) (inner : FileInner) (v : Volume FileName) : Prop where
  storable : AllStorable inner.records
  asserts : ∀ A, S A → A inner.records
  handle : ∀ fd, inner.file=some fd → v.dir.current .ledger=some fd ∧ Terminated (v.file fd).current

section
variable {P : Option Bytes → Prop} {S : (Records → Prop) → Prop} {faults : Prop}
variable {v : Volume FileName} {fd : ℕ}
lemma Inv.append (hS : ∀ A, S A → Persistent A) (h : Inv (KeepsAll S) v)
    (hfd : v.dir.current .ledger=some fd) (ht : Terminated (v.file fd).current) (bs : Bytes) :
    Inv (KeepsAll S) (v.append fd bs) := by
  refine Guarded.append h fd bs ?_
  intro p hp A hA
  exact (h.visible hfd A hA).append (hS A hA) p ht

lemma Inv.create (hP : Shape P) (h : Inv P v) {n : FileName}
    (hnm : v.dir.current n=none) : Inv P (v.create n) := by
  by_cases hn : n=.ledger
  · subst hn
    exact h.create_self rewriteTmp_ne_ledger (hP.create (h.absent hnm))
  · exact (h.create_other rewriteTmp_ne_ledger (Ne.symm hn)).1

lemma openPrivate_append_safe (hP : Shape P) (h : Inv P v) (n : FileName) :
    Safe faults (Inv P) (fun fd v' => Inv P v' ∧ v'.dir.current n=some fd ∧
      ((v.dir.current n=some fd ∧ v'=v) ∨ (v.dir.current n=none ∧ v'=v.create n)))
      (fun _ v' => Inv P v') (openPrivate n true) v := by
  refine Safe.bind ?_
  cases hn : v.dir.current n with
  | some fd =>
    have he:=Call.exec_openAppend hn
    refine Safe.sys_ok he (fun _ => h) (fun _ _ => h) ?_
    refine Safe.bind (Safe.sys_ok rfl (fun _ => h) (fun _ _ => h) ?_)
    exact ⟨h,hn,.inl ⟨rfl,rfl⟩⟩
  | none =>
    have he : (Call.openAppend n).exec v=(.ok v.next,v.create n) := by simp only [Call.exec,hn]
    have hc:=h.create hP hn
    refine Safe.sys_ok he (fun _ => h) (fun _ _ => h) ?_
    refine Safe.bind (Safe.sys_ok rfl (fun _ => hc) (fun _ _ => hc) ?_)
    refine ⟨hc,?_,.inr ⟨rfl,rfl⟩⟩
    rw [Volume.create_current,Function.update_self]

lemma Inv.rollback {w : Volume FileName} {x : Bytes} (h : Inv (KeepsAll S) w)
    (hv : KeepsAll S (some (v.file fd).current))
    (hw : (w.file fd).current=(v.file fd).current++x) :
    Inv (KeepsAll S) (w.truncate fd (v.file fd).current.length) ∧
      ((w.truncate fd (v.file fd).current.length).file fd).current=(v.file fd).current := by
  have hc : (w.file fd).current.take (v.file fd).current.length=(v.file fd).current := by
    rw [hw,take_left' rfl]
  refine ⟨⟨h.holds.truncate fd _ ?_,h.scratch.setFile fd _⟩,?_⟩
  · intro d hd hn
    rw [hc]
    exact hv
  · rw [Volume.truncate_file,Cached.current_write,hc]

structure Appended (S : (Records → Prop) → Prop) (faults : Prop) (fd : ℕ) (line : Bytes)
    (v : Volume FileName) (slot : Option ℕ) (r : Except IoError Unit) (v' : Volume FileName) :
    Prop where
  inv : Inv (KeepsAll S) v'
  dir : v'.dir=v.dir
  handle : ∀ i, slot=some i → i=fd ∧ Terminated (v'.file fd).current
  written : r=.ok () → slot=some fd ∧ (v'.file fd).images=[(v.file fd).current++line]
  succeeds : ¬faults → r=.ok ()

lemma rollbackAppend_safe (hf : faults) {w : Volume FileName} {x : Bytes}
    (hk : KeepsAll S (v.file fd).current) (ht : Terminated (v.file fd).current)
    (hw : Inv (KeepsAll S) w) (hr : w.dir=v.dir)
    (hcur : (w.file fd).current=(v.file fd).current++x) (line : Bytes) (e : IoError) :
    Safe faults (Inv (KeepsAll S)) (fun out v' => Appended S faults fd line v out.1 out.2 v')
      (fun _ _ => False)
      ((do sys (.setLen fd (v.file fd).current.length)
           sys (.fsync fd) : FileProg Unit).attempt >>= fun
        | .ok () => pure (some fd,.error e)
        | .error rollbackError =>
          pure (none,.error ⟨.other,"redemption append failed (" ++ e.text ++
            "); rollback failed (" ++ rollbackError.text ++ ")"⟩)) w := by
  obtain ⟨hcu,hc⟩ := hw.rollback hk hcur
  have hl : ∀ (u : Volume FileName) (e' : IoError), Inv (KeepsAll S) u → u.dir=v.dir →
      Appended S faults fd line v none (.error e') u := fun u e' hu hd =>
    ⟨hu,hd,nofun,nofun,fun hn => absurd hf hn⟩
  refine Safe.bind (Safe.attempt (Safe.bind ?_))
  refine Safe.sys_ok rfl (fun _ => hw) (fun _ _ => hl w _ hw hr) ?_
  refine Safe.sys_ok rfl (fun _ => hcu) (fun _ _ => hl _ _ hcu hr) ?_
  refine ⟨hcu.fsync fd,hr,?_,nofun,fun hn => absurd hf hn⟩
  intro i hi
  refine ⟨(Option.some.inj hi).symm,?_⟩
  rw [Volume.fsync_file,Cached.current_flush,hc]
  exact ht

lemma appendAndSync_safe (hS : ∀ A, S A → Persistent A) (h : Inv (KeepsAll S) v)
    (hd : v.dir.current .ledger=some fd) (ht : Terminated (v.file fd).current) {line : Bytes}
    (hl : Terminated line) :
    Safe faults (Inv (KeepsAll S)) (fun out v' => Appended S faults fd line v out.1 out.2 v')
      (fun _ _ => False) (appendAndSync (some fd) line) v := by
  have hk:=h.visible hd
  have ha : ∀ bs, Inv (KeepsAll S) (v.append fd bs) := h.append hS hd ht
  refine Safe.bind (Safe.attempt ?_)
  refine Safe.sys_ok rfl (fun _ => h) (fun hf _ => ?_) ?_
  · exact ⟨h,rfl,fun i hi => ⟨(Option.some.inj hi).symm,ht⟩,nofun,
      fun hn => absurd hf hn⟩
  refine Safe.bind (Safe.attempt (Safe.bind ?_))
  refine Safe.sys_ok rfl (fun n => ha _) (fun hf n => ?_) ?_
  · exact rollbackAppend_safe hf hk ht (ha (line.take n)) rfl (append_file_current v fd _) line _
  refine Safe.sys_ok rfl (fun _ => ha line) (fun hf _ => ?_) ?_
  · exact rollbackAppend_safe hf hk ht (ha line) rfl (append_file_current v fd line) line _
  have him : (((v.append fd line).fsync fd).file fd).images=[(v.file fd).current++line] := by
    rw [Volume.fsync_file,Cached.images_flush,append_file_current]
  refine ⟨(ha line).fsync fd,rfl,?_,fun _ => ⟨rfl,him⟩,fun _ => rfl⟩
  intro i hi
  refine ⟨(Option.some.inj hi).symm,?_⟩
  rw [Volume.fsync_file,Cached.current_flush,append_file_current]
  exact terminated_append _ _ ht hl

lemma Live.frame {i : FileInner} {v' : Volume FileName} (h : Live S i v) (hf : Frame v v') :
    Live S i v' := by
  refine ⟨h.storable,h.asserts,?_⟩
  intro fd hfd
  obtain ⟨hb,ht⟩ := h.handle fd hfd
  refine ⟨hf.bound.trans hb,?_⟩
  rw [hf.same fd hb]
  exact ht

lemma image_cons (e : Bytes × StoredRecord) (es : List (Bytes × StoredRecord)) :
    image (e::es)=(lineText e.1 e.2++[newline])++image es := by
  simp [image,recordLines,joinLines]

lemma writeOrdered_safe (h : Inv (KeepsAll S) v) {i : ℕ} (hi : Unbound FileName.ledger v i)
    {es : List (Bytes × StoredRecord)} (hs : ∀ e∈es, Storable e.1 e.2) :
    Safe faults (Inv (KeepsAll S))
      (fun _ v' => Scribbled .ledger .rewriteTmp (KeepsAll S) v v' ∧
        (v'.file i).current=(v.file i).current++image es)
      (fun _ v' => Scribbled .ledger .rewriteTmp (KeepsAll S) v v' ∧ faults) (writeOrdered i es) v := by
  induction es generalizing v with
  | nil =>
    refine ⟨Scribbled.refl h,?_⟩
    simp [image,recordLines,joinLines]
  | cons e es ih =>
    have he:=encodeRecord_storable (hs e (mem_cons_self ..))
    have ht : ∀ x∈es, Storable x.1 x.2 := fun x hx => hs x (mem_cons_of_mem _ hx)
    simp only [writeOrdered,he,Program.ofExcept]
    refine Safe.bind ?_
    refine Safe.andThen (write_safe h hi _) ?_
    rintro _ v1 ⟨h1,hc⟩
    refine (ih h1.guarded (hi.of_dir h1.dir) ht).mono (fun _ => id) ?_ ?_
    · rintro _ v' ⟨hv',hu⟩
      refine ⟨h1.trans hv',?_⟩
      rw [hu,hc,image_cons,append_assoc]
    · rintro _ v' ⟨hv',hf⟩
      exact ⟨h1.trans hv',hf⟩

lemma openPrivate_trunc_safe (h : Inv (KeepsAll S) v) :
    Safe faults (Inv (KeepsAll S)) (fun i v' => Inv (KeepsAll S) v' ∧ Frame v v' ∧
        Unbound FileName.ledger v' i ∧ v'.dir.current .rewriteTmp=some i ∧ (v'.file i).current=[])
      (fun _ v' => Inv (KeepsAll S) v' ∧ Frame v v' ∧ faults) (openPrivate .rewriteTmp false) v := by
  refine Safe.andThen (openTrunc_safe rewriteTmp_ne_ledger h fun hf _ => ⟨h,Untouched.refl _ _,hf⟩) ?_
  rintro i v1 ⟨h1,hf1,hr⟩
  exact Safe.bind (Safe.sys_ok rfl (fun _ => h1) (fun hf _ => ⟨h1,hf1,hf⟩) ⟨h1,hf1,hr⟩)

lemma replaceLedger_safe (hS : ∀ A, S A → Persistent A) (h : Inv (KeepsAll S) v)
    {r : Records} (hs : AllStorable r) (ha : ∀ A, S A → A r) :
    Safe faults (Inv (KeepsAll S)) (fun _ v' => Inv (KeepsAll S) v' ∧ ∃ i, v'.dir.current .ledger=some i ∧
        (v'.file i).images=[image (orderedEntries r)])
      (fun _ v' => Inv (KeepsAll S) v' ∧ Frame v v' ∧ faults) (replaceLedger r) v := by
  have hes:=orderedEntries_storable hs
  refine Safe.andThen (openPrivate_trunc_safe h) ?_
  rintro i v1 ⟨h1,hf1,hi1,hp,he⟩
  refine Safe.bind ((writeOrdered_safe h1 hi1 hes).mono (fun _ => id) ?_ ?_)
  swap
  · rintro _ v2 ⟨hw,hf⟩
    exact ⟨hw.guarded,hf1.trans hw.untouched,hf⟩
  rintro _ v2 ⟨hw,hcur⟩
  have hf2:=hf1.trans hw.untouched
  refine Safe.andThen (fsync_safe hw.guarded (hi1.of_dir hw.dir) fun hf _ => ⟨hw.guarded,hf2,hf⟩) ?_
  rintro _ v3 ⟨h3,hm⟩
  rw [hcur,he,nil_append] at hm
  have ht : v3.dir.current .rewriteTmp=some i := by
    rw [h3.dir,hw.dir]
    exact hp
  have hk : ∀ c∈(v3.file i).images, KeepsAll S (some c) :=
    forall_of_singleton hm fun A hA => keeps_image (hS A hA) hs (ha A hA)
  refine (rename_safe rewriteTmp_ne_ledger h3.guarded ht hk fun hf _ =>
    ⟨h3.guarded,hf2.trans h3.untouched,hf⟩).mono (fun _ => id) ?_ (fun _ _ hv => hv)
  grind

structure Rewritten (S : (Records → Prop) → Prop) (faults : Prop) (inner : FileInner)
    (records : Records) (inner' : FileInner) (r : Except IoError Unit) (v' : Volume FileName) :
    Prop where
  inv : Inv (KeepsAll S) v'
  live : Live S inner' v'
  records_eq : inner'.records=inner.records ∨ inner'.records=records
  done : r=.ok () → inner'.records=records ∧ ∃ fd, inner'.file=some fd ∧
    v'.Settled .ledger fd ∧ (v'.file fd).images=[image (orderedEntries records)]
  succeeds : ¬faults → r=.ok ()

lemma rewriteLocked_safe (hS : ∀ A, S A → Persistent A) (h : Inv (KeepsAll S) v)
    {f : FileInner} (hl : Live S f v) {r : Records} (hs : AllStorable r)
    (ha : ∀ A, S A → A r) :
    Safe faults (Inv (KeepsAll S)) (fun out v' => Rewritten S faults f r out.1 out.2 v')
      (fun _ _ => False) (rewriteLocked f r) v := by
  refine Safe.bind (Safe.attempt ((replaceLedger_safe hS h hs ha).mono (fun _ => id) ?_ ?_))
  · rintro _ v1 ⟨h1,i,hi,hm⟩
    have hc : (v1.file i).current=image (orderedEntries r) :=
      mem_singleton.mp (hm ▸ (v1.file i).current_mem)
    have ht : Terminated (v1.file i).current := by
      rw [hc,Terminated,splitLines_image _ (orderedEntries_storable hs)]
    have hls : Live S ⟨r,none⟩ v1 := ⟨hs,ha,(by simp)⟩
    have hh : ∀ w : Volume FileName, w.dir.current .ledger=some i → w.file i=v1.file i →
        Live S ⟨r,some i⟩ w := by
      intro w hw hfl
      refine ⟨hs,ha,?_⟩
      intro fd hfd
      rw [← Option.some.inj hfd,hfl]
      exact ⟨hw,ht⟩
    refine Safe.bind (Safe.attempt (Safe.bind ?_))
    have he:=Call.exec_openAppend hi
    have hfa : faults → ∀ e : IoError, Rewritten S faults f r ⟨r,none⟩ (.error e) v1 := fun hf e =>
      ⟨h1,hls,.inr rfl,(by simp),fun hn => absurd hf hn⟩
    refine Safe.sys_ok he (fun _ => h1) (fun hf _ => hfa hf _) ?_
    refine Safe.bind (Safe.sys_ok rfl (fun _ => h1) (fun hf _ => hfa hf _) ?_)
    refine Safe.bind (Safe.attempt (Safe.sys_ok rfl (fun _ => h1) (fun hf _ => ?_) ?_))
    · exact ⟨h1,hh v1 hi rfl,.inr rfl,(by simp),fun hn => absurd hf hn⟩
    · refine ⟨h1.syncDir,hh _ hi rfl,.inr rfl,?_,fun _ => rfl⟩
      exact fun _ => ⟨rfl,i,rfl,forall_of_singleton rfl hi,hm⟩
  · rintro e v1 ⟨h1,hfr,hf⟩
    have ho : ∀ w : Volume FileName, Inv (KeepsAll S) w → Frame v w →
        Rewritten S faults f r f (.error e) w := fun w hw hfw =>
      ⟨hw,hl.frame hfw,.inl rfl,(by simp),fun hn => absurd hf hn⟩
    refine Safe.andThen (remove_safe rewriteTmp_ne_ledger h1) ?_
    rintro _ v2 ⟨h2,hf2⟩
    exact ho v2 h2 (hfr.trans hf2)
end
end NilVpn.Ledger
