import NilVpn.Durable.LogSpec

/-!
# What a durable set shows to the next process

A process that ends takes nothing of a file with it: without a crash of the machine the
next one reads every byte written, synced or not.
-/

namespace NilVpn.Durable
open Base List Table
open Program (sys Safe Keeps)

section
variable {N V : Type} [DecidableEq V] (F : Format V) (path : LogPath N)
/-- The file shows every entry of the set; the set appends only behind a whole record. -/
structure Recorded (s : KeySet N V) (v : Volume N) : Prop where
  path_eq : s.path=some path
  retains : Retains F path (fun k x => s.seen.get k=some x) (v.visible path.file)
  handle : ∀ fd, s.file=some fd → v.dir.current path.file=some fd ∧ Terminated (v.file fd).current

variable {F path} {s : KeySet N V} {v : Volume N}
omit [DecidableEq V] in
lemma visible_of_current {n : N} {fd : ℕ} (h : v.dir.current n=some fd) :
    v.visible n=some (v.file fd).current := by
  rw [Volume.visible,h]
  rfl

lemma Recorded.close (h : Recorded F path s v) {v' : Volume N}
    (hr : Retains F path (fun k x => s.seen.get k=some x) (v'.visible path.file)) :
    Recorded F path {s with file := none} v' :=
  ⟨h.path_eq,hr,nofun⟩

lemma Recorded.written (hF : F.Lawful) (h : Recorded F path s v) {key : Bytes} (value : V)
    (hy : F.accepts key) {fd : ℕ} (hfd : s.file=some fd)
    {v' : Volume N} (hd : v'.dir=v.dir)
    (hc : (v'.file fd).current=(v.file fd).current++(F.record key value++[newline])) :
    Recorded F path {s with seen := s.seen.insert key value,file := some fd} v' := by
  obtain ⟨hb,ht⟩ := h.handle fd hfd
  have hb' : v'.dir.current path.file=some fd := by
    rw [hd]
    exact hb
  have hs:=h.retains
  rw [visible_of_current hb] at hs
  refine ⟨h.path_eq,?_,?_⟩
  · rw [visible_of_current hb',hc]
    refine (hs.snoc hF ht value hy).mono ?_
    intro k x hk
    dsimp only at hk
    rw [get_insert] at hk
    split at hk
    next hsm =>
      cases hk
      exact Or.inr ⟨hsm,rfl⟩
    · exact Or.inl hk
  · intro i hi
    cases hi
    refine ⟨hb',?_⟩
    rw [hc]
    exact terminated_snoc ht (hF.record_line key value hy)
end
section
variable {N V : Type} [DecidableEq N] [DecidableEq V] {F : Format V} {path : LogPath N}
  {s : KeySet N V} {v : Volume N}
inductive Grown (fd : ℕ) (record : Bytes) (v v' : Volume N) : Option ℕ × Except IoError Unit → Prop
  | whole (dir : v'.dir=v.dir) (current : (v'.file fd).current=(v.file fd).current++record) :
      Grown fd record v v' (some fd,.ok ())
  | part (e : IoError) (bs : Bytes) (dir : v'.dir=v.dir)
      (current : (v'.file fd).current=(v.file fd).current++bs) :
      Grown fd record v v' (none,.error e)

lemma appendRecord_grown (fd : ℕ) (r : Bytes) (v : Volume N) :
    Safe True (fun _ => True) (fun out v' => Grown fd r v v' out) (fun _ _ => False)
      (appendRecord (some fd) r) v := by
  have ht : ∀ e n, Grown fd r v (v.append fd (r.take n)) (none,.error e) := fun e n =>
    .part e _ rfl (append_file_current v fd _)
  refine Safe.bind (Safe.attempt (Safe.bind ?_))
  refine Safe.sys_ok (c := .write fd r) rfl (fun _ => trivial) (fun _ n => ht _ n) ?_
  refine Safe.sys_ok (c := .fsync fd) rfl (fun _ => trivial)
    (fun _ _ => .part _ _ rfl (append_file_current v fd r)) ?_
  refine .whole rfl ?_
  rw [Volume.fsync_file,Cached.current_flush,append_file_current]

lemma insertWithCapacity_recorded (hF : F.Lawful) (h : Recorded F path s v) (key : Bytes) (value : V)
    (cap : Option ℕ) :
    Safe True (fun _ => True)
      (fun out v' => Recorded F path out.1 v' ∧ (cap=none → ∀ r, out.2=.ok r → out.1.seen.get key≠none))
      (fun _ _ => False) (insertWithCapacity F key value cap s) v := by
  unfold insertWithCapacity
  split
  · exact ⟨h,by simp⟩
  next hk =>
    have hk : F.accepts key := by simpa using hk
    split
    next ht => exact ⟨h,fun _ _ _ => Option.isSome_iff_ne_none.mp ht⟩
    next hn =>
      have hn : s.seen.get key=none := by simpa [Table.contains] using hn
      split
      next hfl =>
        refine ⟨h,fun hc => ?_⟩
        rw [hc] at hfl
        cases hfl
      · rw [if_pos (by rw [h.path_eq]; rfl)]
        refine Safe.bind ?_
        cases hf : s.file with
        | none => exact ⟨h.close h.retains,by simp⟩
        | some fd =>
          obtain ⟨hb,htr⟩ := h.handle fd hf
          refine (appendRecord_grown fd _ v).mono (fun _ => id) ?_ (fun _ _ hv => hv)
          intro out v' ho
          cases ho with
          | whole dir c =>
            refine ⟨h.written hF value hk hf dir c,fun _ _ _ => ?_⟩
            dsimp only
            rw [get_insert_self]
            exact Option.some_ne_none value
          | part e bs dir c =>
            -- whatever follows the whole records takes none of them away
            have hs:=h.retains
            rw [visible_of_current hb] at hs
            refine ⟨h.close ?_,by simp⟩
            rw [visible_of_current (by rw [dir]; exact hb),c]
            exact hs.append htr bs

variable {K : Bytes → V → Prop}
lemma openOrCreatePrivateAppend_shows (h : Retains F path K (v.visible path.file)) :
    Safe True (fun _ => True)
      (fun out v' => v'.dir.current path.file=some out.1 ∧ Retains F path K (some (v'.file out.1).current))
      (fun _ v' => Retains F path K (v'.visible path.file)) (openOrCreatePrivateAppend path.file) v := by
  refine Safe.bind (Safe.attempt ?_)
  cases hn : v.dir.current path.file with
  | some i =>
    have he:=Call.exec_openExisting hn
    refine Safe.sys_ok he (fun _ => trivial) (fun _ _ => h) ⟨hn,?_⟩
    rw [visible_of_current hn] at h
    exact h
  | none =>
    have he:=Call.exec_missing hn
    have hc : (Call.createNew path.file).exec v=(.ok v.next,v.create path.file) := by
      simp only [Call.exec,hn]
    have hnn : Retains F path K none := by
      rw [Volume.visible,hn] at h
      exact h
    refine Safe.sys_error he (fun _ => trivial) (fun _ _ => h) ?_
    refine Safe.bind (Safe.attempt (Safe.sys_ok hc (fun _ => trivial) (fun _ _ => h) ⟨?_,?_⟩))
    · rw [Volume.create_current,Function.update_self]
    · exact hnn.of_none _

lemma openSet_recorded (hF : F.Lawful) (h : Retains F path K (v.visible path.file)) :
    Safe True (fun _ => True)
      (fun s v' => Recorded F path s v' ∧ ∀ k x, K k x → s.seen.get k=some x)
      (fun _ v' => Retains F path K (v'.visible path.file)) (openSet F path) v := by
  have hr : Safe True (fun _ => True) (fun _ v' => v'=v) (fun _ v' => v'=v)
      (if path.nested then sys .createDirAll else pure () : Prog N Unit) v := by
    split
    · exact Safe.sys_ok (c := .createDirAll) rfl (fun _ => trivial) (fun _ _ => rfl) rfl
    · rfl
  refine Safe.bind (hr.mono (fun _ => id) ?_ (fun _ _ hv => hv ▸ h))
  rintro _ _ rfl
  refine Safe.bind ((openOrCreatePrivateAppend_shows h).mono (fun _ => id) ?_ (fun _ _ hv => hv))
  rintro ⟨fd,cr⟩ v1 ⟨hbn,hs⟩
  have hss : Retains F path K (v1.visible path.file) := by
    rw [visible_of_current hbn]
    exact hs
  refine Safe.bind (Safe.bind (Safe.sys_ok (c := .read fd) rfl (fun _ => trivial) (fun _ _ => hss) ?_))
  refine Safe.ofExcept ?_ (fun _ _ => hss)
  intro ls hls
  refine Safe.bind (Safe.ofExcept ?_ (fun _ _ => hss))
  intro seen hse
  obtain ⟨hm,hl,-⟩ := Mirrors.of_load hF hls hse
  have hsn : Safe True (fun _ => True)
      (fun _ v' => v'.dir=v1.dir ∧ (v'.file fd).current=(v1.file fd).current)
      (fun _ v' => v'=v1) (if cr then sys (.fsync fd) else pure () : Prog N Unit) v1 := by
    split
    · refine Safe.sys_ok (c := .fsync fd) rfl (fun _ => trivial) (fun _ _ => rfl) ⟨rfl,?_⟩
      rw [Volume.fsync_file,Cached.current_flush]
    · exact ⟨rfl,rfl⟩
  refine Safe.bind (hsn.mono (fun _ => id) ?_ (fun _ _ hv => hv ▸ hss))
  rintro _ v2 ⟨hd,hc⟩
  have hb : v2.dir.current path.file=some fd := by
    rw [hd]
    exact hbn
  have hst : Retains F path K (v2.visible path.file) := by
    rw [visible_of_current hb,hc]
    exact hs
  refine Safe.bind (Safe.sys_ok (c := .syncDir) rfl (fun _ => trivial) (fun _ _ => hst) ⟨⟨rfl,?_,?_⟩,?_⟩)
  · rw [visible_of_current (v := v2.syncDir) hb]
    exact (hc ▸ hm).retains fun _ _ hk => hk
  · intro i hi
    cases hi
    exact ⟨hb,hc ▸ hm.terminated⟩
  · intro k x hk
    exact hs.loaded hl hk
end
section
variable {N V : Type} [DecidableEq V] (F : Format V) (path : LogPath N)
def Admits (A : Bytes → Prop) (o : Option Bytes) : Prop :=
  ∀ c, o=some c → ∀ t, loadLog F path c=.ok t → ∀ k, t.get k≠none → A k

variable {F path} {A : Bytes → Prop}
lemma admits_nil : Admits F path A (some []) := by
  intro c hc t ht k hk
  cases hc
  cases ht
  exact absurd rfl hk

lemma Admits.append (hF : F.Lawful) {c : Bytes} (h : Admits F path A (some c)) (hc : Terminated c)
    {key : Bytes} {v : V} (hy : F.accepts key) (hA : A key) {bs : Bytes}
    (hbs : bs <+: F.record key v++[newline]) : Admits F path A (some (c++bs)) := by
  intro c' hc' t ht k hk
  cases hc'
  have hl:=hF.record_line key v hy
  rcases prefix_concat_iff.mp hbs with rfl | hpr
  · -- the whole record: one more key
    rw [loadLog,splitLines_snoc hc hl,loadRecords_append] at ht
    obtain ⟨t0,h0,h1⟩ := except_bind_ok ht
    obtain ⟨j,y,hp,-,hr⟩ := loadRecords_cons h1
    rw [hF.parse_record key v hy] at hp
    cases hp
    cases hr
    by_cases hs : k=key
    · rw [hs]
      exact hA
    · rw [get_insert_ne _ _ _ _ hs] at hk
      exact h c rfl t0 h0 k hk
  · -- a torn one: no more complete lines
    have hn : newline∉bs := fun hm => hl (hpr.subset hm)
    rw [loadLog,splitLines_append c bs hc,splitLines_noNewline bs hn,append_nil] at ht
    exact h c rfl t ht k hk
end
section
variable {N V : Type} [DecidableEq N] [DecidableEq V] {F : Format V} {path : LogPath N} {faults : Prop}
  {P : Option Bytes → Prop} {s : KeySet N V} {v : Volume N}
omit [DecidableEq V] in
lemma insertWithCapacity_keeps (h : Guarded path.file path.compactTmp P v) (key : Bytes) (value : V)
    (cap : Option ℕ)
    (ha : F.accepts key → ∀ fd, s.file=some fd → ∀ bs, bs <+: F.record key value++[newline] →
      P (some ((v.file fd).current++bs))) :
    Safe faults (Guarded path.file path.compactTmp P)
      (fun _ v' => Guarded path.file path.compactTmp P v') (fun _ _ => False)
      (insertWithCapacity F key value cap s) v := by
  unfold insertWithCapacity
  split
  · exact h
  next hk =>
    split
    · exact h
    split
    · exact h
    split
    swap
    · exact h
    refine Safe.bind ?_
    cases hf : s.file with
    | none => exact h
    | some fd =>
      have hpr : ∀ bs, bs <+: F.record key value++[newline] →
          Guarded path.file path.compactTmp P (v.append fd bs) := by
        intro bs hbs
        apply h.append
        intro p hp
        exact ha (by simpa using hk) fd hf p (hp.trans hbs)
      have hw:=hpr _ (prefix_refl _)
      refine Safe.bind (Safe.attempt (Safe.bind ?_))
      refine Safe.sys_ok (c := .write fd (F.record key value++[newline])) rfl
        (fun n => hpr _ (List.take_prefix n _)) (fun _ n => hpr _ (List.take_prefix n _)) ?_
      exact Safe.sys_ok (c := .fsync fd) rfl (fun _ => hw) (fun _ _ => hw) (hw.fsync fd)

lemma openSet_keeps (hn : P (some [])) :
    Keeps (Guarded path.file path.compactTmp P) (openSet F path) := by
  have hf : ∀ fd, Keeps (Guarded path.file path.compactTmp P) (sys (.fsync fd) : Prog N Unit) :=
    fun fd => .sys (fun _ _ hv => hv) fun _ hv => hv.fsync fd
  have hc : Keeps (Guarded path.file path.compactTmp P) (sys (.createNew path.file) : Prog N ℕ) := by
    refine .sys (fun _ _ hv => hv) ?_
    intro u hu
    simp only [Call.exec]
    split
    · exact hu
    · exact hu.create_self path.apart hn
  refine .bind ?_ fun _ => .bind ?_ fun out => ?_
  · split
    · exact .reads rfl
    · exact fun _ hv => hv
  · refine .bind (Keeps.reads rfl).attempt ?_
    intro r
    cases r with
    | ok fd => exact fun _ hv => hv
    | error e =>
      dsimp only
      split
      · refine .bind hc.attempt ?_
        intro r
        cases r with
        | ok fd => exact fun _ hv => hv
        | error e =>
          dsimp only
          split
          · exact .bind (.reads rfl) fun _ _ hv => hv
          · exact fun _ hv => hv
      · exact fun _ hv => hv
  · refine .bind (.bind (.reads rfl) fun _ => .ofExcept _) fun _ => .bind (.ofExcept _) fun _ => ?_
    refine .bind ?_ fun _ => .bind (.sys (fun _ _ hv => hv) fun _ hv => hv.syncDir) fun _ _ hv => hv
    split
    · exact hf out.1
    · exact fun _ hv => hv
end
end NilVpn.Durable
