import NilVpn.Base.Text
import Mathlib.Logic.Function.Basic

/-!
# A volume that can lose unsynced data

Mutations go to a write-back cache: a machine crash brings back, for every file and for the directory, any
one of the values since the last successful sync. `Holds v n P` is what survives.
-/

namespace NilVpn.Base
open List Function

lemma forall_of_singleton {α : Type} {xs : List α} {a : α} {P : α → Prop} (h : xs=[a]) (ha : P a) :
    ∀ x∈xs, P x := by
  rw [h]
  exact forall_mem_singleton.mpr ha

/-- `current` is what running code sees; `stale` are the values since the last
flush that a crash may bring back. -/
structure Cached (α : Type) where
  current : α
  stale : List α

namespace Cached
variable {α : Type}
def clean (a : α) : Cached α := ⟨a,[]⟩
def write (c : Cached α) (a : α) : Cached α := ⟨a,c.current::c.stale⟩
def flush (c : Cached α) : Cached α := ⟨c.current,[]⟩
def images (c : Cached α) : List α := c.current::c.stale
def restore (c : Cached α) (i : ℕ) : Cached α := clean ((c.images[i]?).getD c.current)

@[simp] lemma images_clean (a : α) : (clean a).images=[a] := rfl
variable (c : Cached α)
@[simp] lemma images_flush : c.flush.images=[c.current] := rfl
@[simp] lemma current_clean (a : α) : (clean a).current=a := rfl
@[simp] lemma current_write (a : α) : (c.write a).current=a := rfl
@[simp] lemma current_flush : c.flush.current=c.current := rfl

lemma current_mem : c.current∈c.images := List.mem_cons_self ..

lemma restore_current_mem (i : ℕ) : (c.restore i).current∈c.images := by
  simp only [restore,current_clean]
  cases h : c.images[i]? with
  | none => exact c.current_mem
  | some a => exact mem_of_getElem? h

@[simp] lemma images_restore (i : ℕ) : (c.restore i).images=[(c.restore i).current] := rfl

/-- Byte-wise append: every prefix of the new bytes is an image of its own. -/
def append (c : Cached Bytes) : Bytes → Cached Bytes
  | [] => c
  | b::bs => append (c.write (c.current++[b])) bs

@[simp] lemma current_append (c : Cached Bytes) (bs : Bytes) : (c.append bs).current=c.current++bs := by
  induction bs generalizing c with
  | nil => simp [append]
  | cons b bs ih => simp [append,ih]

lemma mem_images_append (c : Cached Bytes) (bs x : Bytes) (h : x∈(c.append bs).images) :
    x∈c.images ∨ ∃ p, p <+: bs ∧ x=c.current++p := by
  induction bs generalizing c with
  | nil => exact .inl h
  | cons b bs ih =>
    rcases ih (c.write (c.current++[b])) h with h | ⟨p,hp,hx⟩
    · rcases mem_cons.mp h with rfl | h
      · exact .inr ⟨[b],prefix_cons_inj b |>.mpr (List.nil_prefix),rfl⟩
      · exact .inl h
    · exact .inr ⟨b::p,prefix_cons_inj b |>.mpr hp,by simpa using hx⟩
end Cached

structure Volume (N : Type) where
  file : ℕ → Cached Bytes
  next : ℕ
  dir : Cached (N → Option ℕ)

namespace Volume
variable {N : Type}
def empty : Volume N := ⟨fun _ => Cached.clean [],0,Cached.clean fun _ => none⟩
def visible (v : Volume N) (n : N) : Option Bytes := (v.dir.current n).map fun i => (v.file i).current

def setFile (v : Volume N) (i : ℕ) (c : Cached Bytes) : Volume N :=
  {v with file := Function.update v.file i c}

section
variable [DecidableEq N]
def create (v : Volume N) (n : N) : Volume N :=
  { file := Function.update v.file v.next (Cached.clean [])
    next := v.next+1
    dir := v.dir.write (Function.update v.dir.current n (some v.next)) }

def rename (v : Volume N) (a b : N) (i : ℕ) : Volume N :=
  {v with dir := v.dir.write (Function.update (Function.update v.dir.current a none) b (some i))}

def unlink (v : Volume N) (a : N) : Volume N :=
  {v with dir := v.dir.write (Function.update v.dir.current a none)}

variable (v : Volume N)
@[simp] lemma create_current (n : N) :
    (v.create n).dir.current=update v.dir.current n (some v.next) := rfl

lemma create_file_self (n : N) : (v.create n).file v.next=Cached.clean [] :=
  update_self ..

lemma create_file_ne (n : N) {i : ℕ} (h : i≠v.next) : (v.create n).file i=v.file i :=
  update_of_ne h ..
end

def append (v : Volume N) (i : ℕ) (bs : Bytes) : Volume N := v.setFile i ((v.file i).append bs)

def truncate (v : Volume N) (i n : ℕ) : Volume N :=
  v.setFile i ((v.file i).write ((v.file i).current.take n))

def fsync (v : Volume N) (i : ℕ) : Volume N := v.setFile i (v.file i).flush

@[simp] lemma setFile_file_self (v : Volume N) (i : ℕ) (c : Cached Bytes) :
    (v.setFile i c).file i=c := update_self ..

lemma setFile_file_ne (v : Volume N) {i j : ℕ} (c : Cached Bytes) (h : j≠i) :
    (v.setFile i c).file j=v.file j := update_of_ne h ..

lemma append_file (v : Volume N) (i : ℕ) (bs : Bytes) :
    (v.append i bs).file i=(v.file i).append bs := setFile_file_self ..

lemma truncate_file (v : Volume N) (i n : ℕ) :
    (v.truncate i n).file i=(v.file i).write ((v.file i).current.take n) := setFile_file_self ..

lemma fsync_file (v : Volume N) (i : ℕ) : (v.fsync i).file i=(v.file i).flush := setFile_file_self ..

def syncDir (v : Volume N) : Volume N := {v with dir := v.dir.flush}

/-- A machine crash: every file and the directory fall back to one of their images. -/
def crash (v : Volume N) (pickFile : ℕ → ℕ) (pickDir : ℕ) : Volume N :=
  {v with file := fun i => (v.file i).restore (pickFile i),dir := v.dir.restore pickDir}

def Found (file : ℕ → Cached Bytes) (P : Option Bytes → Prop) : Option ℕ → Prop
  | none => P none
  | some i => ∀ c∈(file i).images, P (some c)

abbrev Entry (v : Volume N) (P : Option Bytes → Prop) (o : Option ℕ) : Prop := Found v.file P o

/-- `P` is true of whatever a crash may leave under `n`. -/
def Holds (v : Volume N) (n : N) (P : Option Bytes → Prop) : Prop := ∀ d∈v.dir.images, v.Entry P (d n)

def Settled (v : Volume N) (n : N) (i : ℕ) : Prop := ∀ d∈v.dir.images, d n=some i

/-- No image of the directory uses an inode that is not allocated. -/
def Bounded (v : Volume N) : Prop := ∀ d∈v.dir.images, ∀ m i, d m=some i → i<v.next

/-- The scratch name `t` never shares an inode with `n`: neither inside one image nor, for the
current scratch file, with what `n` named in an older image. -/
structure Scratch (v : Volume N) (t n : N) : Prop where
  bounded : v.Bounded
  apart : ∀ d∈v.dir.images, ∀ i, d t=some i → d n≠some i
  fresh : ∀ i, v.dir.current t=some i → ∀ d∈v.dir.images, d n≠some i

variable {v : Volume N} {P Q : Option Bytes → Prop} {n t : N}
lemma Entry.mono (h : ∀ o, P o → Q o) : ∀ {o : Option ℕ}, v.Entry P o → v.Entry Q o
  | none,hp => h none hp
  | some _,hp => fun c hc => h (some c) (hp c hc)

lemma Holds.mono (hp : v.Holds n P) (h : ∀ o, P o → Q o) : v.Holds n Q := fun d hd => (hp d hd).mono h

lemma Holds.and (hp : v.Holds n P) (hq : v.Holds n Q) : v.Holds n fun o => P o ∧ Q o := by
  intro d hd
  have h1:=hp d hd
  have h2:=hq d hd
  cases hn : d n with
  | none =>
    rw [hn] at h1 h2
    exact ⟨h1,h2⟩
  | some i =>
    rw [hn] at h1 h2
    exact fun c hc => ⟨h1 c hc,h2 c hc⟩

lemma Holds.visible (h : v.Holds n P) : P (v.visible n) := by
  have hc:=h v.dir.current v.dir.current_mem
  unfold Volume.visible
  cases hn : v.dir.current n with
  | none =>
    rw [hn] at hc
    exact hc
  | some i =>
    rw [hn] at hc
    exact hc _ (v.file i).current_mem

instance [DecidablePred P] : DecidablePred (v.Entry P)
  | none => inferInstanceAs (Decidable (P none))
  | some i => inferInstanceAs (Decidable (∀ c∈(v.file i).images, P (some c)))

instance [DecidablePred P] : Decidable (v.Holds n P) :=
  inferInstanceAs (Decidable (∀ d∈v.dir.images, v.Entry P (d n)))

instance {i : ℕ} : Decidable (v.Settled n i) := inferInstanceAs (Decidable (∀ d∈v.dir.images, d n=some i))

def isFixed (v : Volume N) (n : N) : Bool := v.Holds n fun o => o=v.visible n

lemma holds_of_settled {i : ℕ} (hs : v.Settled n i) (hc : ∀ c∈(v.file i).images, P (some c)) :
    v.Holds n P := by
  intro d hd
  rw [hs d hd]
  exact hc

section
variable (h : v.Holds n P)
include h
lemma Holds.setFile (i : ℕ) (c : Cached Bytes)
    (hi : ∀ d∈v.dir.images, d n=some i → ∀ x∈c.images, P (some x)) :
    (v.setFile i c).Holds n P := by
  intro d hd
  have ho:=h d hd
  cases hn : d n with
  | none =>
    rw [hn] at ho
    exact ho
  | some j =>
    rw [hn] at ho
    intro x hx
    by_cases hj : j=i
    · subst hj
      simp only [Volume.setFile,update_self] at hx
      exact hi d hd hn x hx
    · simp only [Volume.setFile,update_of_ne hj] at hx
      exact ho x hx

lemma Holds.append (i : ℕ) (bs : Bytes)
    (hi : ∀ d∈v.dir.images, d n=some i → ∀ p, p <+: bs → P (some ((v.file i).current++p))) :
    (v.append i bs).Holds n P := by
  refine h.setFile i _ ?_
  intro d hd hn x hx
  have ho:=h d hd
  rw [hn] at ho
  rcases Cached.mem_images_append _ _ _ hx with hx | ⟨p,hp,rfl⟩
  · exact ho x hx
  · exact hi d hd hn p hp

lemma Holds.truncate (i k : ℕ)
    (hi : ∀ d∈v.dir.images, d n=some i → P (some ((v.file i).current.take k))) :
    (v.truncate i k).Holds n P := by
  refine h.setFile i _ ?_
  intro d hd hn x hx
  have ho:=h d hd
  rw [hn] at ho
  rcases mem_cons.mp hx with rfl | hx
  · exact hi d hd hn
  · exact ho x hx

lemma Holds.fsync (i : ℕ) : (v.fsync i).Holds n P := by
  refine h.setFile i _ ?_
  intro d hd hn
  have ho:=h d hd
  rw [hn] at ho
  exact forall_of_singleton rfl (ho _ (v.file i).current_mem)

lemma Holds.writeDir (d' : N → Option ℕ) (hd' : v.Entry P (d' n)) :
    ({v with dir := v.dir.write d'} : Volume N).Holds n P := by
  intro d hd
  rcases mem_cons.mp hd with rfl | hd
  · exact hd'
  · exact h d hd

lemma Holds.syncDir : v.syncDir.Holds n P := by
  intro d hd
  rw [mem_singleton.mp hd]
  exact h _ v.dir.current_mem

lemma Holds.crash (p : ℕ → ℕ) (pickDir : ℕ) : (v.crash p pickDir).Holds n P := by
  intro d hd
  have ho:=h d (mem_singleton.mp hd ▸ Cached.restore_current_mem v.dir pickDir)
  cases hn : d n with
  | none =>
    rw [hn] at ho
    exact ho
  | some i =>
    rw [hn] at ho
    intro c hc
    exact ho c (mem_singleton.mp hc ▸ Cached.restore_current_mem (v.file i) (p i))
end

lemma Holds.rename [DecidableEq N] (h : v.Holds n P) (a : N) (i : ℕ)
    (hi : ∀ c∈(v.file i).images, P (some c)) : (v.rename a n i).Holds n P := by
  refine h.writeDir _ ?_
  rw [update_self]
  exact hi

lemma Holds.rename_other [DecidableEq N] (h : v.Holds n P) (a b : N) (i : ℕ) (ha : n≠a)
    (hb : n≠b) : (v.rename a b i).Holds n P := by
  refine h.writeDir _ ?_
  rw [update_of_ne hb,update_of_ne ha]
  exact h _ v.dir.current_mem

lemma Holds.unlink [DecidableEq N] (h : v.Holds n P) (a : N) (ha : n≠a) : (v.unlink a).Holds n P := by
  refine h.writeDir _ ?_
  rw [update_of_ne ha]
  exact h _ v.dir.current_mem

section
variable (h : v.Holds n P) (hb : v.Bounded)
include h hb
lemma Holds.allocate : (v.setFile v.next (Cached.clean [])).Holds n P := by
  refine h.setFile _ _ ?_
  intro d hd hn
  exact absurd (hb d hd n _ hn) (Nat.lt_irrefl _)

variable [DecidableEq N]
lemma Holds.create_other {m : N} (hm : n≠m) : (v.create m).Holds n P := by
  refine (h.allocate hb).writeDir _ ?_
  rw [update_of_ne hm]
  exact h.allocate hb _ v.dir.current_mem

lemma Holds.create_self (hnil : P (some [])) : (v.create n).Holds n P := by
  refine (h.allocate hb).writeDir _ ?_
  rw [update_self]
  exact forall_of_singleton (by rw [setFile_file_self,Cached.images_clean]) hnil
end

lemma bounded_update [DecidableEq N] {c : N → Option ℕ} {a : N} {o : Option ℕ} {k : ℕ}
    (hc : ∀ m i, c m=some i → i<k) (ho : ∀ i, o=some i → i<k) (m : N) (i : ℕ)
    (h : update c a o m=some i) : i<k := by
  rw [Function.update_apply] at h
  split at h
  · exact ho i h
  · exact hc m i h

lemma bounded_empty : (empty : Volume N).Bounded := by
  intro d hd m i hi
  rw [mem_singleton.mp hd] at hi
  cases hi

section
variable (h : v.Bounded)
include h
lemma Bounded.writeDir {w : Volume N} (d' : N → Option ℕ) (hw : w.dir=v.dir.write d') (hle : v.next≤w.next)
    (hd' : ∀ m i, d' m=some i → i<w.next) : w.Bounded := by
  intro d hd m i hi
  rw [hw] at hd
  rcases mem_cons.mp hd with rfl | hd
  · exact hd' m i hi
  · exact Nat.lt_of_lt_of_le (h d hd m i hi) hle

lemma Bounded.syncDir : v.syncDir.Bounded := by
  intro d hd
  rw [mem_singleton.mp hd]
  exact h _ v.dir.current_mem

lemma Bounded.crash (p : ℕ → ℕ) (pickDir : ℕ) : (v.crash p pickDir).Bounded := by
  intro d hd
  rw [mem_singleton.mp hd]
  exact h _ (Cached.restore_current_mem v.dir pickDir)

variable [DecidableEq N]
lemma Bounded.unlink (n : N) : (v.unlink n).Bounded :=
  h.writeDir _ rfl le_rfl (bounded_update (h _ v.dir.current_mem) nofun)

lemma Bounded.rename {a b : N} {i : ℕ} (hi : v.dir.current a=some i) : (v.rename a b i).Bounded := by
  refine h.writeDir _ rfl le_rfl (bounded_update (bounded_update (h _ v.dir.current_mem) nofun) fun j he => ?_)
  exact Option.some.inj he ▸ h _ v.dir.current_mem a i hi

lemma Bounded.create (n : N) : (v.create n).Bounded :=
  h.writeDir _ rfl (Nat.le_succ _)
    (bounded_update (fun m i hi => Nat.lt_succ_of_lt (h _ v.dir.current_mem m i hi))
      fun _ he => Option.some.inj he ▸ Nat.lt_succ_self _)
end

lemma scratch_empty (t n : N) : (empty : Volume N).Scratch t n := by
  refine ⟨bounded_empty,?_,?_⟩
  · intro d hd i hi
    rw [mem_singleton.mp hd] at hi
    cases hi
  · intro i hi
    cases hi

section
variable (h : v.Scratch t n)
include h
lemma Scratch.setFile (i : ℕ) (c : Cached Bytes) :
    (v.setFile i c).Scratch t n := ⟨h.bounded,h.apart,h.fresh⟩

lemma Scratch.syncDir : v.syncDir.Scratch t n := by
  have hm : ∀ d∈v.syncDir.dir.images, d∈v.dir.images := by
    intro d hd
    exact mem_singleton.mp hd ▸ v.dir.current_mem
  exact ⟨h.bounded.syncDir,fun d hd => h.apart d (hm d hd),fun i hi d hd => h.fresh i hi d (hm d hd)⟩

lemma Scratch.crash (p : ℕ → ℕ) (pickDir : ℕ) : (v.crash p pickDir).Scratch t n := by
  have ha:=h.apart _ (Cached.restore_current_mem v.dir pickDir)
  refine ⟨h.bounded.crash p pickDir,?_,?_⟩
  · intro d hd
    rw [mem_singleton.mp hd]
    exact ha
  · intro i hi d hd
    rw [mem_singleton.mp hd]
    exact ha i hi

lemma Scratch.writeDir {w : Volume N} (d' : N → Option ℕ) (hw : w.dir=v.dir.write d') (hb : w.Bounded)
    (hf : ∀ i, d' t=some i → d' n≠some i ∧ ∀ d∈v.dir.images, d n≠some i) : w.Scratch t n := by
  have hm : ∀ d∈w.dir.images, d=d' ∨ d∈v.dir.images := by
    intro d hd
    rw [hw] at hd
    exact mem_cons.mp hd
  refine ⟨hb,?_,?_⟩
  · intro d hd
    rcases hm d hd with rfl | hd
    · exact fun i hi => (hf i hi).1
    · exact h.apart d hd
  · intro i hi d hd
    rw [hw] at hi
    rcases hm d hd with rfl | hd
    · exact (hf i hi).1
    · exact (hf i hi).2 d hd
end

section
variable [DecidableEq N] (h : v.Scratch t n)
include h
lemma Scratch.rename_scratch (htn : t≠n) (i : ℕ) (hi : v.dir.current t=some i) :
    (v.rename t n i).Scratch t n := by
  refine h.writeDir _ rfl (h.bounded.rename hi) ?_
  grind

lemma Scratch.rename_other (a b : N) (i : ℕ) (ha : t≠a) (hb : t≠b) (hna : n≠a) (hnb : n≠b)
    (hi : v.dir.current a=some i) : (v.rename a b i).Scratch t n := by
  refine h.writeDir _ rfl (h.bounded.rename hi) fun j hj => ?_
  rw [update_of_ne hb,update_of_ne ha] at hj
  refine ⟨?_,h.fresh j hj⟩
  rw [update_of_ne hnb,update_of_ne hna]
  exact h.fresh j hj _ v.dir.current_mem

lemma Scratch.unlink (a : N) (hna : n≠a) : (v.unlink a).Scratch t n := by
  refine h.writeDir _ rfl (h.bounded.unlink a) fun j hj => ?_
  by_cases hta : t=a
  · rw [hta,update_self] at hj
    contradiction
  · rw [update_of_ne hta] at hj
    refine ⟨?_,h.fresh j hj⟩
    rw [update_of_ne hna]
    exact h.fresh j hj _ v.dir.current_mem

lemma Scratch.create (htn : t≠n) (m : N) : (v.create m).Scratch t n := by
  have hn : ∀ d∈v.dir.images, ∀ k, d k≠some v.next :=
    fun d hd k hk => Nat.lt_irrefl _ (h.bounded d hd k _ hk)
  refine h.writeDir _ rfl (h.bounded.create m) fun i hi => ?_
  by_cases htm : t=m
  · rw [htm,update_self] at hi
    rw [update_of_ne fun he => htn (htm.trans he.symm),← hi]
    exact ⟨hn _ v.dir.current_mem n,fun d hd => hn d hd n⟩
  · rw [update_of_ne htm] at hi
    refine ⟨?_,h.fresh i hi⟩
    by_cases hnm : n=m
    · rw [hnm,update_self,← hi]
      exact fun he => hn _ v.dir.current_mem t he.symm
    · rw [update_of_ne hnm]
      exact h.fresh i hi _ v.dir.current_mem
end

def withDir (v : Volume N) (d : N → Option ℕ) : Volume N := {v with dir := Cached.clean d}

lemma Holds.withDir (h : v.Holds n P) {d : N → Option ℕ} (hd : d n=v.dir.current n) :
    (v.withDir d).Holds n P := by
  intro d' hd'
  obtain rfl : d'=d := mem_singleton.mp hd'
  rw [hd]
  exact h _ v.dir.current_mem

lemma Scratch.withDir (h : v.Scratch t n) {d : N → Option ℕ} (ht : d t=v.dir.current t)
    (hn : d n=v.dir.current n) (hb : ∀ m i, d m=some i → i<v.next) :
    (v.withDir d).Scratch t n := by
  have ha : ∀ i, d t=some i → d n≠some i := by
    intro i hi
    rw [ht] at hi
    rw [hn]
    exact h.apart _ v.dir.current_mem i hi
  refine ⟨?_,?_,?_⟩
  · intro d' hd'
    rw [mem_singleton.mp hd']
    exact hb
  · intro d' hd'
    rw [mem_singleton.mp hd']
    exact ha
  · intro i hi d' hd'
    rw [mem_singleton.mp hd']
    exact ha i hi
end Volume
end NilVpn.Base
