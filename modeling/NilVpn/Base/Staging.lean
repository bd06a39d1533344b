import NilVpn.Base.Disks
import NilVpn.Base.Replace

/-!
# Replacing a file through a name made for it

That the file is new is all that keeps it apart from what `n` names, in any image of the directory.
-/

namespace NilVpn.Base
open Cached Volume List Function
open Routine (SafeOn io attempt)

lemma Volume.holds_true {N : Type} (v : Volume N) (n : N) : v.Holds n fun _ => True := by
  intro d _
  cases h : d n with
  | none => trivial
  | some i => exact fun _ _ => trivial

variable {N : Type}
lemma Untouched.visible {n : N} {v v' : Volume N} (h : Untouched n v v') : v'.visible n=v.visible n := by
  unfold Volume.visible
  rw [h.bound]
  cases hn : v.dir.current n with
  | none => rfl
  | some i => simp [h.same i hn]

lemma Kept.unlink_self [DecidableEq N] {n : N} {P : Option Bytes → Prop} {v : Volume N} (h : Kept n P v)
    (hn : P none) : Kept n P (v.unlink n) := by
  refine ⟨h.holds.writeDir _ ?_,h.bounded.unlink n⟩
  rw [update_self]
  exact hn

structure Staged (n t : N) (P : Option Bytes → Prop) (o : Option Bytes) (i : ℕ) (v : Volume N) :
    Prop where
  kept : Kept n P v
  unbound : Unbound n v i
  bound : v.dir.current t=some i
  shows : v.visible n=o

def Unmoved (n : N) (P : Option Bytes → Prop) (o : Option Bytes) (v : Volume N) : Prop :=
  Kept n P v ∧ v.visible n=o

lemma Staged.unmoved {n t : N} {P : Option Bytes → Prop} {o : Option Bytes} {i : ℕ} {v : Volume N}
    (h : Staged n t P o i v) : Unmoved n P o v := ⟨h.kept,h.shows⟩

lemma Staged.setFile {n t : N} {P : Option Bytes → Prop} {o : Option Bytes} {i : ℕ} {v : Volume N}
    (h : Staged n t P o i v) (c : Cached Bytes) : Staged n t P o i (v.setFile i c) := by
  obtain ⟨hk,hu⟩ := h.kept.setFile h.unbound c
  exact ⟨hk,h.unbound,h.bound,hu.visible.trans h.shows⟩

section
variable [DecidableEq N] {D ε : Type} [DecidableEq D] {faults : D × Call N → Prop} {d : D}
  {wrap : IoError → ε} {n t : N} {P : Option Bytes → Prop} {o : Option Bytes} {w : Disks D N}
lemma createNew_safeOn (htn : t≠n) (h : Unmoved n P o (w d)) : SafeOn faults d (Kept n P)
      (fun i v => Staged n t P o i v ∧ (v.file i).current=[]) (fun _ => Unmoved n P o)
      (io d wrap (.createNew t)) w := by
  apply SafeOn.io
  · exact fun _ => h.1
  · exact fun _ _ => h
  · intro i hi
    cases hc : (w d).dir.current t with
    | some j =>
      simp only [Call.exec,hc] at hi
      cases hi
    | none =>
      simp only [Call.exec,hc] at hi ⊢
      rw [← Except.ok.inj hi]
      obtain ⟨hk,hu⟩ := h.1.create htn
      refine ⟨⟨hk,h.1.unbound_create htn,?_,hu.visible.trans h.2⟩,?_⟩
      · rw [create_current,update_self]
      · simp only [create,update_self,current_clean]
  · grind [Call.exec]

variable {i : ℕ} {bs : Bytes}
lemma write_safeOn (bs : Bytes) (h : Staged n t P o i (w d)) (hem : ((w d).file i).current=[]) :
    SafeOn faults d (Kept n P)
      (fun _ v => Staged n t P o i v ∧ (v.file i).current=bs) (fun _ => Unmoved n P o)
      (io d wrap (.write i bs)) w := by
  apply SafeOn.io
  · exact fun k => (h.setFile _).kept
  · exact fun _ k => (h.setFile _).unmoved
  · intro _ _
    refine ⟨h.setFile _,?_⟩
    simp only [Call.exec]
    rw [append_file_current,hem,nil_append]
  · intro e he
    cases he

lemma fsync_safeOn (h : Staged n t P o i (w d)) (hbs : ((w d).file i).current=bs) :
    SafeOn faults d (Kept n P)
      (fun _ v => Staged n t P o i v ∧ (v.file i).images=[bs]) (fun _ => Unmoved n P o)
      (io d wrap (.fsync i)) w := by
  apply SafeOn.io
  · exact fun _ => h.kept
  · exact fun _ _ => h.unmoved
  · intro _ _
    refine ⟨h.setFile _,?_⟩
    simp only [Call.exec]
    rw [fsync_file,images_flush,hbs]
  · intro e he
    cases he

structure Renamed (n : N) (P : Option Bytes → Prop) (bs : Bytes) (i : ℕ) (v : Volume N) : Prop where
  kept : Kept n P v
  bound : v.dir.current n=some i
  synced : (v.file i).images=[bs]

omit [DecidableEq N] in
lemma Renamed.visible {v : Volume N} (h : Renamed n P bs i v) : v.visible n=some bs := by
  have hc : (v.file i).current=bs := by
    have hm:=(v.file i).current_mem
    rw [h.synced,mem_singleton] at hm
    exact hm
  simp [Volume.visible,h.bound,hc]

lemma rename_safeOn (h : Staged n t P o i (w d)) (hbs : ((w d).file i).images=[bs]) (hP : P (some bs)) :
    SafeOn faults d (Kept n P) (fun _ => Renamed n P bs i) (fun _ => Unmoved n P o)
      (io d wrap (.rename t n)) w := by
  have hec : (Call.rename t n).exec (w d)=(.ok (),(w d).rename t n i) := by
    simp only [Call.exec,h.bound]
  apply SafeOn.io
  · exact fun _ => h.kept
  · exact fun _ _ => h.unmoved
  · intro _ _
    rw [hec]
    have him : ∀ c∈((w d).file i).images, P (some c) := by
      intro c hc
      rw [hbs,mem_singleton] at hc
      exact hc ▸ hP
    refine ⟨⟨h.kept.holds.rename t i him,h.kept.bounded.rename h.bound⟩,?_,hbs⟩
    simp only [rename,current_write,update_self]
  · intro e he
    rw [hec] at he
    cases he

lemma syncDir_safeOn (h : Renamed n P bs i (w d)) :
    SafeOn faults d (Kept n P) (fun _ => Kept n fun o => o=some bs)
      (fun _ v => faults (d,.syncDir) ∧ Kept n P v ∧ v.visible n=some bs) (io d wrap .syncDir) w := by
  apply SafeOn.io
  · exact fun _ => h.kept
  · exact fun hf _ => ⟨hf,h.kept,h.visible⟩
  · intro _ _
    refine ⟨?_,h.kept.bounded.syncDir⟩
    intro e he
    simp only [Call.exec,syncDir,images_flush,mem_singleton] at he
    rw [he,h.bound]
    intro c hc
    have hc : c∈((w d).file i).images := hc
    rw [h.synced,mem_singleton] at hc
    rw [hc]
  · intro e he
    cases he

lemma remove_safeOn (htn : t≠n) (h : Unmoved n P o (w d)) {F : ε → Volume N → Prop} :
    SafeOn faults d (Kept n P) (fun _ => Unmoved n P o) F (attempt d (.remove t)) w := by
  apply SafeOn.attempt
  · exact fun _ => h.1
  · exact fun _ _ => h
  · cases hc : (w d).dir.current t with
    | none =>
      simp only [Call.exec,hc]
      exact h
    | some i =>
      simp only [Call.exec,hc]
      obtain ⟨hk,hu⟩ := h.1.unlink htn
      exact ⟨hk,hu.visible.trans h.2⟩
end
end NilVpn.Base
