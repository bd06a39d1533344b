import NilVpn.Base.Prog

/-!
# Replacing a file through a scratch name

`Guarded n t P` is what programs keep that write to `t`, sync and rename it over `n`.
-/

namespace NilVpn.Base
open Cached Volume Function List
open Program (sys Safe)

variable {N : Type}
def Unbound (n : N) (v : Volume N) (i : ℕ) : Prop := ∀ d∈v.dir.images, d n≠some i

/-- The current inode under `n` and its contents are untouched. -/
structure Untouched (n : N) (v v' : Volume N) : Prop where
  bound : v'.dir.current n=v.dir.current n
  same : ∀ i, v.dir.current n=some i → v'.file i=v.file i

lemma Untouched.refl (n : N) (v : Volume N) : Untouched n v v := ⟨rfl,fun _ _ => rfl⟩

lemma Untouched.trans {n : N} {u v w : Volume N} (h : Untouched n u v) (h' : Untouched n v w) :
    Untouched n u w := by
  refine ⟨h'.bound.trans h.bound,?_⟩
  intro i hi
  have hv : v.dir.current n=some i := h.bound.trans hi
  exact (h'.same i hv).trans (h.same i hi)

lemma Unbound.of_dir {n : N} {v v' : Volume N} {i : ℕ} (h : Unbound n v i) (hd : v'.dir=v.dir) :
    Unbound n v' i := by
  intro d hm
  rw [hd] at hm
  exact h d hm

lemma append_file_current (v : Volume N) (i : ℕ) (bs : Bytes) :
    ((v.append i bs).file i).current=(v.file i).current++bs := by
  rw [append_file,current_append]

structure Kept (n : N) (P : Option Bytes → Prop) (v : Volume N) : Prop where
  holds : v.Holds n P
  bounded : v.Bounded

namespace Kept
variable {n t : N} {P : Option Bytes → Prop} {v : Volume N}
lemma mono {Q : Option Bytes → Prop} (h : Kept n P v) (hPQ : ∀ o, P o → Q o) : Kept n Q v :=
  ⟨h.holds.mono hPQ,h.bounded⟩

section
variable (h : Kept n P v)
include h
lemma crash (p : ℕ → ℕ) (pickDir : ℕ) : Kept n P (v.crash p pickDir) :=
  ⟨h.holds.crash p pickDir,h.bounded.crash p pickDir⟩

lemma setFile {i : ℕ} (hi : Unbound n v i) (c : Cached Bytes) :
    Kept n P (v.setFile i c) ∧ Untouched n v (v.setFile i c) := by
  refine ⟨⟨h.holds.setFile i c ?_,h.bounded⟩,rfl,?_⟩
  · intro d hd hn
    exact absurd hn (hi d hd)
  · intro j hj
    have hne : j≠i := by
      rintro rfl
      exact hi _ v.dir.current_mem hj
    exact setFile_file_ne v c hne

variable [DecidableEq N] (htn : t≠n)
include htn
lemma create : Kept n P (v.create t) ∧ Untouched n v (v.create t) := by
  refine ⟨⟨h.holds.create_other h.bounded htn.symm,h.bounded.create t⟩,?_,?_⟩
  · rw [create_current,update_of_ne htn.symm]
  · intro i hi
    have hlt:=h.bounded _ v.dir.current_mem _ _ hi
    exact update_of_ne (Nat.ne_of_lt hlt) ..

lemma unlink : Kept n P (v.unlink t) ∧ Untouched n v (v.unlink t) := by
  refine ⟨⟨h.holds.unlink t htn.symm,h.bounded.unlink t⟩,?_,fun _ _ => rfl⟩
  simp only [Volume.unlink,current_write]
  exact update_of_ne htn.symm ..

lemma unbound_create : Unbound n (v.create t) v.next := by
  intro d hd hn
  rcases mem_cons.mp hd with rfl | hd
  · rw [create_current,update_of_ne htn.symm] at hn
    exact Nat.lt_irrefl _ (h.bounded _ v.dir.current_mem _ _ hn)
  · exact Nat.lt_irrefl _ (h.bounded d hd _ _ hn)
end
end Kept

structure Guarded (n t : N) (P : Option Bytes → Prop) (v : Volume N) : Prop where
  holds : v.Holds n P
  scratch : v.Scratch t n

namespace Guarded
variable {n t : N} {P : Option Bytes → Prop} {v : Volume N}
lemma mono {Q : Option Bytes → Prop} (h : Guarded n t P v) (hPQ : ∀ o, P o → Q o) :
    Guarded n t Q v := ⟨h.holds.mono hPQ,h.scratch⟩

section
variable (h : Guarded n t P v)
include h
lemma kept : Kept n P v := ⟨h.holds,h.scratch.bounded⟩

lemma visible {i : ℕ} (hi : v.dir.current n=some i) : P (some (v.file i).current) := by
  have hold:=h.holds v.dir.current v.dir.current_mem
  rw [hi] at hold
  exact hold _ (v.file i).current_mem

lemma absent (hn : v.dir.current n=none) : P none := by
  have hold:=h.holds v.dir.current v.dir.current_mem
  rw [hn] at hold
  exact hold

lemma fsync (i : ℕ) : Guarded n t P (v.fsync i) := ⟨h.holds.fsync i,h.scratch.setFile i _⟩

lemma syncDir : Guarded n t P v.syncDir := ⟨h.holds.syncDir,h.scratch.syncDir⟩

lemma crash (p : ℕ → ℕ) (pickDir : ℕ) : Guarded n t P (v.crash p pickDir) :=
  ⟨h.holds.crash p pickDir,h.scratch.crash p pickDir⟩

lemma append (i : ℕ) (bs : Bytes)
    (hP : ∀ p, p <+: bs → P (some ((v.file i).current++p))) : Guarded n t P (v.append i bs) :=
  ⟨h.holds.append i bs fun _ _ _ p hp => hP p hp,h.scratch.setFile i _⟩

lemma setFile {i : ℕ} (hi : Unbound n v i) (c : Cached Bytes) :
    Guarded n t P (v.setFile i c) ∧ Untouched n v (v.setFile i c) :=
  ⟨⟨(h.kept.setFile hi c).1.holds,h.scratch.setFile i c⟩,(h.kept.setFile hi c).2⟩

variable [DecidableEq N] (htn : t≠n)
include htn
lemma create_self (hn : P (some [])) : Guarded n t P (v.create n) :=
  ⟨h.holds.create_self h.scratch.bounded hn,h.scratch.create htn n⟩

lemma create_other {m : N} (hm : n≠m) : Guarded n t P (v.create m) ∧ Untouched n v (v.create m) :=
  ⟨⟨(h.kept.create hm.symm).1.holds,h.scratch.create htn m⟩,(h.kept.create hm.symm).2⟩

lemma rename {i : ℕ} (hi : v.dir.current t=some i)
    (hP : ∀ c∈(v.file i).images, P (some c)) : Guarded n t P (v.rename t n i) :=
  ⟨h.holds.rename t i hP,h.scratch.rename_scratch htn i hi⟩

lemma unlink_scratch : Guarded n t P (v.unlink t) ∧ Untouched n v (v.unlink t) :=
  ⟨⟨(h.kept.unlink htn).1.holds,h.scratch.unlink t htn.symm⟩,(h.kept.unlink htn).2⟩
end
end Guarded
section
variable [DecidableEq N] {n t : N} {P : Option Bytes → Prop} {v : Volume N} {faults : Prop}
  {E : IoError → Volume N → Prop}
lemma openTrunc_safe (ht : t≠n) (h : Guarded n t P v) (hE : faults → ∀ e, E e v) :
    Safe faults (Guarded n t P)
      (fun i v' => Guarded n t P v' ∧ Untouched n v v' ∧ Unbound n v' i ∧
        v'.dir.current t=some i ∧ (v'.file i).current=[]) E (sys (.openTrunc t)) v := by
  cases hn : v.dir.current t with
  | some i =>
    have hi : Unbound n v i := h.scratch.fresh i hn
    have he : (Call.openTrunc t).exec v=(.ok i,v.truncate i 0) := by simp only [Call.exec,hn]
    obtain ⟨hg,hu⟩ := h.setFile hi ((v.file i).write ((v.file i).current.take 0))
    refine Safe.sys_ok he (fun _ => h) (fun hf _ => hE hf _) ?_
    refine ⟨hg,hu,hi,hn,?_⟩
    rw [truncate_file,current_write,List.take_zero]
  | none =>
    have he : (Call.openTrunc t).exec v=(.ok v.next,v.create t) := by simp only [Call.exec,hn]
    obtain ⟨hg,hu⟩ := h.create_other ht ht.symm
    have hc : (v.create t).dir.current t=some v.next := by rw [create_current,update_self]
    refine Safe.sys_ok he (fun _ => h) (fun hf _ => hE hf _) ?_
    refine ⟨hg,hu,hg.scratch.fresh _ hc,hc,?_⟩
    simp only [create,update_self,current_clean]

structure Scribbled (n t : N) (P : Option Bytes → Prop) (v v' : Volume N) : Prop where
  guarded : Guarded n t P v'
  dir : v'.dir=v.dir
  untouched : Untouched n v v'

omit [DecidableEq N] in
lemma Scribbled.refl (h : Guarded n t P v) : Scribbled n t P v v := ⟨h,rfl,Untouched.refl n v⟩

omit [DecidableEq N] in
lemma Scribbled.trans {u w : Volume N} (h : Scribbled n t P u v) (h' : Scribbled n t P v w) :
    Scribbled n t P u w :=
  ⟨h'.guarded,h'.dir.trans h.dir,h.untouched.trans h'.untouched⟩

omit [DecidableEq N] in
lemma Guarded.scribble (h : Guarded n t P v) {i : ℕ} (hi : Unbound n v i) (bs : Bytes) :
    Scribbled n t P v (v.append i bs) :=
  ⟨(h.setFile hi _).1,rfl,(h.setFile hi _).2⟩

lemma write_safe (h : Guarded n t P v) {i : ℕ} (hi : Unbound n v i) (bs : Bytes) :
    Safe faults (Guarded n t P)
      (fun _ v' => Scribbled n t P v v' ∧ (v'.file i).current=(v.file i).current++bs)
      (fun _ v' => Scribbled n t P v v' ∧ faults) (sys (.write i bs)) v := by
  refine Safe.sys_ok rfl (fun k => (h.scribble hi _).guarded) (fun hf k => ⟨h.scribble hi _,hf⟩) ?_
  exact ⟨h.scribble hi bs,append_file_current v i bs⟩

lemma fsync_safe (h : Guarded n t P v) {i : ℕ} (hi : Unbound n v i) (hE : faults → ∀ e, E e v) :
    Safe faults (Guarded n t P)
      (fun _ v' => Scribbled n t P v v' ∧ (v'.file i).images=[(v.file i).current]) E
      (sys (.fsync i)) v := by
  refine Safe.sys_ok rfl (fun _ => h) (fun hf _ => hE hf _) ?_
  obtain ⟨hg,hu⟩ := h.setFile hi (v.file i).flush
  refine ⟨⟨hg,rfl,hu⟩,?_⟩
  rw [fsync_file,images_flush]

lemma rename_safe (htn : t≠n) (h : Guarded n t P v) {i : ℕ} (hi : v.dir.current t=some i)
    (hP : ∀ c∈(v.file i).images, P (some c)) (hE : faults → ∀ e, E e v) :
    Safe faults (Guarded n t P)
      (fun _ v' => Guarded n t P v' ∧ v'.dir.current n=some i ∧ v'.file=v.file) E
      (sys (.rename t n)) v := by
  have he:=Call.exec_rename n hi
  refine Safe.sys_ok he (fun _ => h) (fun hf _ => hE hf _) ?_
  refine ⟨h.rename htn hi hP,?_,rfl⟩
  simp only [rename,current_write,update_self]

lemma syncDir_safe (h : Guarded n t P v) (hE : faults → ∀ e, E e v) : Safe faults (Guarded n t P)
      (fun _ v' => Guarded n t P v' ∧ v'.file=v.file ∧ v'.dir.images=[v.dir.current]) E
      (sys .syncDir) v :=
  Safe.sys_ok rfl (fun _ => h) (fun hf _ => hE hf _) ⟨h.syncDir,rfl,rfl⟩

lemma remove_safe (htn : t≠n) (h : Guarded n t P v) :
    Safe faults (Guarded n t P) (fun _ v' => Guarded n t P v' ∧ Untouched n v v') E
      (sys (.remove t)).attempt v := by
  refine Safe.attempt ?_
  cases hn : v.dir.current t with
  | none =>
    have he : (Call.remove t).exec v=(.error notFoundError,v) := by simp only [Call.exec,hn]
    refine Safe.sys_error he (fun _ => h) (fun _ _ => ⟨h,Untouched.refl n v⟩) ?_
    exact ⟨h,Untouched.refl n v⟩
  | some i =>
    have he : (Call.remove t).exec v=(.ok (),v.unlink t) := by simp only [Call.exec,hn]
    exact Safe.sys_ok he (fun _ => h) (fun _ _ => ⟨h,Untouched.refl n v⟩) (h.unlink_scratch htn)
end
end NilVpn.Base
