import NilVpn.Base.Prog

/-!
# Two programs on one volume, call by call

`Local mine Q E p v`: `p` touches only the names in `mine`, and returns into `Q` or errs into `E` whatever
others do to the rest of the volume between its calls.
-/

namespace NilVpn.Base
open Function

section
variable {N : Type}
/-- No file under a name in `mine` is also under one in `other`, and both have allocated inodes. -/
structure Apart (mine other : N → Prop) (v : Volume N) : Prop where
  bounded : ∀ n i, mine n ∨ other n → v.dir.current n=some i → i<v.next
  unshared : ∀ n m i, mine n → other m → v.dir.current n=some i → v.dir.current m≠some i

variable {mine : N → Prop} {v : Volume N}
lemma Apart.symm {o : N → Prop} (h : Apart mine o v) : Apart o mine v :=
  ⟨fun n i hn => h.bounded n i hn.symm,fun n m i hn hm hi hj => h.unshared m n i hm hn hj hi⟩

/-- The names in `mine` and the files under them are as they were. -/
structure Aside (mine : N → Prop) (v v' : Volume N) : Prop where
  names : ∀ n, mine n → v'.dir.current n=v.dir.current n
  files : ∀ n i, mine n → v.dir.current n=some i → (v'.file i).current=(v.file i).current

lemma Aside.refl (mine : N → Prop) (v : Volume N) : Aside mine v v := ⟨fun _ _ => rfl,fun _ _ _ _ => rfl⟩

lemma Aside.trans {u w : Volume N} (h : Aside mine u v) (h' : Aside mine v w) :
    Aside mine u w := by
  refine ⟨fun n hn => (h'.names n hn).trans (h.names n hn),?_⟩
  intro n i hn hi
  have hv : v.dir.current n=some i := (h.names n hn).trans hi
  exact (h'.files n i hn hv).trans (h.files n i hn hi)

lemma Aside.bound {v' : Volume N} (h : Aside mine v v') {n : N} (hn : mine n) {i : ℕ}
    (hi : v.dir.current n=some i) :
    v'.dir.current n=some i ∧ (v'.file i).current=(v.file i).current :=
  ⟨(h.names n hn).trans hi,h.files n i hn hi⟩

section
variable {mine o : N → Prop} {v : Volume N}
variable {n : N}
lemma Apart.setFile (h : Apart mine o v) (hn : mine n) {i : ℕ} (hi : v.dir.current n=some i)
    (c : Cached Bytes) : Aside o v (v.setFile i c) ∧ Apart mine o (v.setFile i c) := by
  refine ⟨⟨fun _ _ => rfl,?_⟩,h.bounded,h.unshared⟩
  intro m j hm hj
  have hne : j≠i := by
    rintro rfl
    exact h.unshared n m j hn hm hi hj
  rw [Volume.setFile_file_ne v c hne]

lemma Apart.writeDir (h : Apart mine o v) (hd : ∀ n, mine n → ¬o n) {d : N → Option ℕ}
    (ho : ∀ n, ¬mine n → d n=v.dir.current n)
    (hmn : ∀ n i, mine n → d n=some i → ∃ m, mine m ∧ v.dir.current m=some i) :
    Aside o v {v with dir := v.dir.write d} ∧ Apart mine o {v with dir := v.dir.write d} := by
  have hs : ∀ n, o n → d n=v.dir.current n := fun n hn => ho n fun hm => hd n hm hn
  refine ⟨⟨hs,fun _ _ _ _ => rfl⟩,?_,?_⟩
  · rintro n i (hn | hn) hi
    · obtain ⟨m,hm,hi⟩ := hmn n i hn hi
      exact h.bounded m i (.inl hm) hi
    · exact h.bounded n i (.inr hn) ((hs n hn).symm.trans hi)
  · intro n m i hn hm hi hj
    obtain ⟨n',hn',hi⟩ := hmn n i hn hi
    exact h.unshared n' m i hn' hm hi ((hs m hm).symm.trans hj)

variable [DecidableEq N]
lemma Apart.create (h : Apart mine o v) (hd : ∀ n, mine n → ¬o n) (hn : mine n) :
    Aside o v (v.create n) ∧ Apart mine o (v.create n) := by
  have ho : ∀ m, m≠n → (v.create n).dir.current m=v.dir.current m := fun m hm => by
    rw [Volume.create_current,update_of_ne hm]
  have hne : ∀ m, o m → m≠n := by
    rintro m hm rfl
    exact hd m hn hm
  have hf : ∀ m, o m → v.dir.current m≠some v.next := fun m hm hi =>
    Nat.lt_irrefl _ (h.bounded m _ (.inr hm) hi)
  refine ⟨⟨fun m hm => ho m (hne m hm),?_⟩,?_,?_⟩
  · intro m j hm hj
    rw [Volume.create_file_ne v n fun he => hf m hm (he ▸ hj)]
  · intro m j hm hj
    by_cases hmn : m=n
    · rw [hmn,Volume.create_current,update_self] at hj
      rw [← Option.some.inj hj]
      exact Nat.lt_succ_self _
    · rw [ho m hmn] at hj
      exact Nat.lt_succ_of_lt (h.bounded m j hm hj)
  · intro m m' j hm hm' hj hj'
    rw [ho m' (hne m' hm')] at hj'
    by_cases hmn : m=n
    · simp_all [Volume.create_current,update_self]
    · rw [ho m hmn] at hj
      exact h.unshared m m' j hm hm' hj hj'

lemma Apart.unlink (h : Apart mine o v) (hd : ∀ n, mine n → ¬o n) (hn : mine n) :
    Aside o v (v.unlink n) ∧ Apart mine o (v.unlink n) := by
  refine h.writeDir hd ?_ ?_
  · grind [update_of_ne]
  · grind [update_self,update_of_ne]

lemma rename_current (v : Volume N) (a b : N) (i : ℕ) :
    (v.rename a b i).dir.current=Function.update (Function.update v.dir.current a none) b (some i) := rfl

lemma Apart.rename (h : Apart mine o v) (hd : ∀ n, mine n → ¬o n) {a b : N} (ha : mine a)
    (hb : mine b) {i : ℕ} (hi : v.dir.current a=some i) :
    Aside o v (v.rename a b i) ∧ Apart mine o (v.rename a b i) := by
  refine h.writeDir hd ?_ ?_
  · grind [update_of_ne]
  · grind [update_self,update_of_ne]
end
end
section
variable {N : Type}
/-- The call names nothing but `mine`, and a descriptor is that of a file under such a name. -/
def Call.Within (mine : N → Prop) (v : Volume N) : Call N → Prop
  | .openAppend n | .openTrunc n | .openExisting n | .createNew n | .found n | .remove n => mine n
  | .rename a b => mine a ∧ mine b
  | .setPermissions fd | .lock fd | .read fd | .readByte fd _ | .size fd | .write fd _ | .setLen fd _
  | .fsync fd => ∃ n, mine n ∧ v.dir.current n=some fd
  | .syncDir | .createDirAll => True

variable [DecidableEq N]
lemma Call.Within.aside {mine o : N → Prop} (hd : ∀ n, mine n → ¬o n) {c : Call N} {v : Volume N}
    (hc : c.Within mine v) (h : Apart mine o v) :
    Aside o v (c.exec v).2 ∧ Apart mine o (c.exec v).2 := by
  have hs : Aside o v v ∧ Apart mine o v := ⟨Aside.refl o v,h⟩
  cases c with
  | openAppend n | createNew n =>
    cases hn : v.dir.current n with
    | none =>
      simp only [Call.exec,hn]
      exact h.create hd hc
    | some i =>
      simp only [Call.exec,hn]
      exact hs
  | openTrunc n =>
    cases hn : v.dir.current n with
    | none =>
      simp only [Call.exec,hn]
      exact h.create hd hc
    | some i =>
      simp only [Call.exec,hn]
      exact h.setFile hc hn _
  | remove n =>
    cases hn : v.dir.current n with
    | none =>
      simp only [Call.exec,hn]
      exact hs
    | some i =>
      simp only [Call.exec,hn]
      exact h.unlink hd hc
  | rename a b =>
    cases hn : v.dir.current a with
    | none =>
      simp only [Call.exec,hn]
      exact hs
    | some i =>
      simp only [Call.exec,hn]
      exact h.rename hd hc.1 hc.2 hn
  | write fd bs | setLen fd bs | fsync fd =>
    obtain ⟨n,hn,hfd⟩ := hc
    exact h.setFile hn hfd _
  | syncDir => exact ⟨⟨fun _ _ => rfl,fun _ _ _ _ => rfl⟩,h.bounded,h.unshared⟩
  | openExisting n | found n | setPermissions fd | lock fd | read fd | readByte fd pos | size fd
  | createDirAll =>
    rw [(Call.unchanged_of_reads rfl v).2]
    exact hs
end
namespace Program
variable {N α β : Type} [DecidableEq N]
def Local (mine : N → Prop) (Q : α → Volume N → Prop) (E : IoError → Volume N → Prop) :
    Prog N α → Volume N → Prop
  | pure a,v => Q a v
  | throw e,v => E e v
  | call c k,v => ∀ v', Aside mine v v' →
      c.Within mine v' ∧ Local mine Q E (k (c.exec v').1) (c.exec v').2

section
variable {mine : N → Prop} {E : IoError → Volume N → Prop} {v : Volume N}
variable {Q : α → Volume N → Prop} {p : Prog N α}
lemma Local.mono {Q' : α → Volume N → Prop} {E' : IoError → Volume N → Prop}
    (h : Local mine Q E p v) (hQ : ∀ a v, Q a v → Q' a v) (hE : ∀ e v, E e v → E' e v) :
    Local mine Q' E' p v := by
  induction p generalizing v with
  | pure a => exact hQ a v h
  | throw e => exact hE e v h
  | call c k ih =>
    intro v' hv
    obtain ⟨hc,hk⟩ := h v' hv
    exact ⟨hc,ih _ hk⟩

lemma Local.bind {Q : β → Volume N → Prop} {f : α → Prog N β}
    (h : Local mine (fun a v => Local mine Q E (f a) v) E p v) : Local mine Q E (p >>= f) v := by
  induction p generalizing v with
  | pure | throw => exact h
  | call c k ih =>
    intro v' hv
    obtain ⟨hc,hk⟩ := h v' hv
    exact ⟨hc,ih _ hk⟩

lemma Local.andThen {Q' : β → Volume N → Prop} {f : α → Prog N β} (h : Local mine Q E p v)
    (hf : ∀ a v', Q a v' → Local mine Q' E (f a) v') :
    Local mine Q' E (p >>= f) v :=
  Local.bind (h.mono hf (fun _ _ hv => hv))

lemma Local.attempt {Q : Except IoError α → Volume N → Prop}
    (h : Local mine (fun a => Q (.ok a)) (fun e => Q (.error e)) p v) :
    Local mine Q E p.attempt v := by
  induction p generalizing v with
  | pure | throw => exact h
  | call c k ih =>
    intro v' hv
    obtain ⟨hc,hk⟩ := h v' hv
    exact ⟨hc,ih _ hk⟩

lemma Local.ofExcept {r : Except IoError α} (hok : ∀ a, r=.ok a → Q a v) (he : ∀ e, r=.error e → E e v) :
    Local mine Q E (Program.ofExcept r) v := by
  cases h : r with
  | ok a => exact hok a h
  | error e => exact he e h

lemma Local.sys {c : Call N} {Q : c.Ret → Volume N → Prop}
    (h : ∀ v', Aside mine v v' → c.Within mine v' ∧ ∃ r w, c.exec v'=(.ok r,w) ∧ Q r w) :
    Local mine Q E (Program.sys c) v := by
  intro v' hv
  obtain ⟨hc,r,w,he,hQ⟩ := h v' hv
  refine ⟨hc,?_⟩
  rw [he]
  exact hQ

lemma Local.sys_error {c : Call N} {Q : c.Ret → Volume N → Prop}
    (h : ∀ v', Aside mine v v' → c.Within mine v' ∧ ∃ e w, c.exec v'=(.error e,w) ∧ E e w) :
    Local mine Q E (Program.sys c) v := by
  intro v' hv
  obtain ⟨hc,e,w,he,hE⟩ := h v' hv
  refine ⟨hc,?_⟩
  rw [he]
  exact hE

/-- What the program says of its own names stays true while others move. -/
lemma Local.stable (hQ : ∀ a v v', Q a v → Aside mine v v' → Q a v')
    (hE : ∀ e v v', E e v → Aside mine v v' → E e v') {v' : Volume N} (h : Local mine Q E p v)
    (hv : Aside mine v v') : Local mine Q E p v' := by
  cases p with
  | pure a => exact hQ a v v' h hv
  | throw e => exact hE e v v' h hv
  | call c k => exact fun w hw => h w (hv.trans hw)

lemma Local.run (h : Local mine Q E p v) : Meets (fun _ => False) Q E (p.run (fun _ => .ok) v) := by
  induction p generalizing v with
  | pure | throw => exact h
  | call c k ih => exact ih _ (h v (Aside.refl mine v)).2

lemma Local.run_aside {o : N → Prop} (hd : ∀ n, mine n → ¬o n)
    (h : Local mine Q E p v) (hv : Apart mine o v) :
    Aside o v (p.run (fun _ => .ok) v).2 ∧ Apart mine o (p.run (fun _ => .ok) v).2 := by
  induction p generalizing v with
  | pure | throw => exact ⟨Aside.refl o v,hv⟩
  | call c k ih =>
    obtain ⟨hc,hk⟩ := h v (Aside.refl mine v)
    obtain ⟨ha,hv'⟩ := hc.aside hd hv
    obtain ⟨hr,hl⟩ := ih _ hk hv'
    exact ⟨ha.trans hr,hl⟩
end

def advance : Prog N α → Volume N → Prog N α × Volume N
  | call c k,v => (k (c.exec v).1,(c.exec v).2)
  | p,v => (p,v)

/-- `schedule` says whose call is next. When it is used up, the left program runs to its
end and then the right one. -/
def interleave : List Bool → Prog N α → Prog N β → Volume N →
    (Outcome IoError α × Outcome IoError β) × Volume N
  | [],p,q,v =>
    let left:=p.run (fun _ => .ok) v
    let right:=q.run (fun _ => .ok) left.2
    ((left.1,right.1),right.2)
  | true::schedule,p,q,v => interleave schedule (p.advance v).1 q (p.advance v).2
  | false::schedule,p,q,v => interleave schedule p (q.advance v).1 (q.advance v).2

section
variable {mine o : N → Prop} {v : Volume N}
lemma Local.advance {Q : α → Volume N → Prop} {E : IoError → Volume N → Prop}
    (hd : ∀ n, mine n → ¬o n) {p : Prog N α} (h : Local mine Q E p v) (hv : Apart mine o v) :
    Local mine Q E (p.advance v).1 (p.advance v).2 ∧ Aside o v (p.advance v).2 ∧
      Apart mine o (p.advance v).2 := by
  cases p with
  | pure | throw => exact ⟨h,Aside.refl o v,hv⟩
  | call c k =>
    obtain ⟨hc,hk⟩ := h v (Aside.refl mine v)
    exact ⟨hk,hc.aside hd hv⟩

/-- Two local programs that never err end as each says for itself. -/
lemma interleave_local {P : α → Volume N → Prop} {Q : β → Volume N → Prop} (hd : ∀ n, mine n → ¬o n)
    (hP : ∀ a v v', P a v → Aside mine v v' → P a v') (hQ : ∀ b v v', Q b v → Aside o v v' → Q b v')
    (s : List Bool) {p : Prog N α} {q : Prog N β}
    (hp : Local mine P (fun _ _ => False) p v) (hq : Local o Q (fun _ _ => False) q v)
    (hv : Apart mine o v) :
    ∃ a b w, interleave s p q v=((.done a,.done b),w) ∧ P a w ∧ Q b w := by
  have hd' : ∀ n, o n → ¬mine n := fun n ho hm => hd n hm ho
  have he : ∀ (m : N → Prop) (e : IoError) (v v' : Volume N), False → Aside m v v' → False :=
    fun _ _ _ _ hf _ => hf
  induction s generalizing p q v with
  | nil =>
    have hl:=hp.run
    obtain ⟨ha,hv1⟩ := hp.run_aside hd hv
    rcases hu : p.run (fun _ => .ok) v with ⟨outcome,v1⟩
    rw [hu] at hl ha hv1
    cases outcome with
    | error | killed => exact hl.elim
    | done a =>
      have hq1:=hq.stable hQ (he o) ha
      have hr:=hq1.run
      obtain ⟨ha',-⟩ := hq1.run_aside hd' hv1.symm
      rcases hu' : q.run (fun _ => .ok) v1 with ⟨outcome',v2⟩
      rw [hu'] at hr ha'
      cases outcome' with
      | error | killed => exact hr.elim
      | done b =>
        refine ⟨a,b,v2,?_,hP a v1 v2 hl ha',hr⟩
        simp only [interleave,hu,hu']
  | cons side s ih =>
    cases side with
    | true =>
      obtain ⟨hp1,ha,hv1⟩ := hp.advance hd hv
      exact ih hp1 (hq.stable hQ (he o) ha) hv1
    | false =>
      obtain ⟨hq1,ha,hv1⟩ := hq.advance hd' hv.symm
      exact ih (hp.stable hP (he mine) ha) hq1 hv1.symm
end
end Program
end NilVpn.Base
