import NilVpn.Base.Interleave
import NilVpn.Durable.Sets

/-!
# Two timed sets in one directory (durable.rs:639-834)
-/

namespace NilVpn.Durable
open TimedDurableSet Base List Function
open Program (sys Local interleave)

def dot : UInt8 := 46

def fileStem (name : Bytes) : Bytes :=
  match splitOnce dot name.reverse with
  | none => name
  | some (_,before) => if before.isEmpty then name else before.reverse

def compactSuffix : Bytes := ascii ".compact.tmp"
def withCompactTmp (name : Bytes) : Bytes := fileStem name++compactSuffix

section
variable {N : Type}
def TimedDurableSet.calls : List TimedOp → TimedDurableSet N → Prog N (TimedDurableSet N)
  | [],s => pure s
  | op::ops,s => do
    let out ← TimedDurableSet.call op s
    TimedDurableSet.calls ops out.1

/-- A new open of the path succeeds on both volumes and sees one map. -/
def SameMap [DecidableEq N] (path : LogPath N) (v v' : Volume N) : Prop :=
  ∃ s s' w w', (TimedDurableSet.open path).run (fun _ => .ok) v=(.done s,w) ∧
    (TimedDurableSet.open path).run (fun _ => .ok) v'=(.done s',w') ∧
    ∀ k, s.seen.get k=s'.seen.get k

/-- Each set reopens as if only its own calls had been made. -/
def Undisturbed [DecidableEq N] (p q : LogPath N) (s t : TimedDurableSet N) (ops ops' : List TimedOp)
    (schedule : List Bool) (v : Volume N) : Prop :=
  let w:=(interleave schedule (TimedDurableSet.calls ops s) (TimedDurableSet.calls ops' t) v).2
  SameMap p w ((TimedDurableSet.calls ops s).run (fun _ => .ok) v).2 ∧
    SameMap q w ((TimedDurableSet.calls ops' t).run (fun _ => .ok) v).2
end
section
variable {N V : Type} [DecidableEq N] [DecidableEq V] {F : Format V} {path : LogPath N} {v : Volume N}
  {E : IoError → Volume N → Prop}
def LogPath.names (path : LogPath N) (n : N) : Prop := n=path.file ∨ n=path.compactTmp

structure Held (F : Format V) (path : LogPath N) (s : KeySet N V) (v : Volume N) : Prop where
  path_eq : s.path=some path
  accepted : AllAccepted F s.seen
  exact : Exact F path s v

variable {s : KeySet N V}
omit [DecidableEq N] in
lemma Held.stable {v' : Volume N} (h : Held F path s v) (hv : Aside path.names v v') :
    Held F path s v' := by
  obtain ⟨fd,hfd,hb,hm⟩ := h.exact
  obtain ⟨hb',hc⟩ := hv.bound (.inl rfl) hb
  refine ⟨h.path_eq,h.accepted,fd,hfd,hb',?_⟩
  rw [hc]
  exact hm

def insertedInto (F : Format V) (key : Bytes) (value : V) (maxEntries : Option ℕ) (seen : Table Bytes V) :
    Table Bytes V :=
  if F.accepts key=false then seen
  else if seen.contains key then seen
  else if maxEntries.any (fun capacity => capacity ≤ seen.len) then seen
  else seen.insert key value

lemma appendRecord_local {fd : ℕ} (hb : v.dir.current path.file=some fd) (r : Bytes) : Local path.names
      (fun out v' => out=(some fd,.ok ()) ∧ v'.dir.current path.file=some fd ∧
        (v'.file fd).current=(v.file fd).current++r)
      E (appendRecord (some fd) r) v := by
  refine Local.bind (Local.attempt (Local.bind (Local.sys ?_)))
  intro v1 hv1
  obtain ⟨hb1,hc1⟩ := hv1.bound (.inl rfl) hb
  refine ⟨⟨path.file,.inl rfl,hb1⟩,(),v1.append fd r,rfl,Local.sys ?_⟩
  intro v2 hv2
  obtain ⟨hb2,hc2⟩ := hv2.bound (.inl rfl) (v := v1.append fd r) hb1
  refine ⟨⟨path.file,.inl rfl,hb2⟩,(),v2.fsync fd,rfl,rfl,hb2,?_⟩
  rw [Volume.fsync_file,Cached.current_flush,hc2,append_file_current,hc1]

lemma insertWithCapacity_local (hF : F.Lawful) (h : Held F path s v) {key : Bytes}
    (hu : isUtf8 key) (value : V) (cap : Option ℕ) :
    Local path.names
      (fun out v' => Held F path out.1 v' ∧ out.1.seen=insertedInto F key value cap s.seen)
      E (insertWithCapacity F key value cap s) v := by
  unfold insertWithCapacity insertedInto
  split
  · exact ⟨h,rfl⟩
  next hk =>
    have hk : F.accepts key := by simpa using hk
    split
    · exact ⟨h,rfl⟩
    next hn =>
      have hn : s.seen.get key=none := by simpa [Table.contains] using hn
      split
      · exact ⟨h,rfl⟩
      · obtain ⟨fd,hfd,hb,hm⟩ := h.exact
        rw [if_pos (by rw [h.path_eq]; rfl),hfd]
        refine Local.andThen (appendRecord_local hb _) ?_
        rintro out v' ⟨rfl,hb',hc⟩
        refine ⟨⟨h.path_eq,h.accepted.insert value hk hu,fd,rfl,hb',?_⟩,rfl⟩
        rw [hc]
        exact hm.snoc hF value hk hu hn

lemma openTrunc_local : Local path.names
      (fun i v' => v'.dir.current path.compactTmp=some i ∧ (v'.file i).current=[])
      E (sys (.openTrunc path.compactTmp)) v := by
  refine Local.sys ?_
  intro v1 _
  refine ⟨.inr rfl,?_⟩
  cases hn : v1.dir.current path.compactTmp with
  | none =>
    refine ⟨v1.next,v1.create path.compactTmp,by simp only [Call.exec,hn],?_,?_⟩
    · rw [Volume.create_current,update_self]
    · rw [Volume.create_file_self,Cached.current_clean]
  | some i =>
    refine ⟨i,v1.truncate i 0,by simp only [Call.exec,hn],hn,?_⟩
    rw [Volume.truncate_file,Cached.current_write,take_zero]

omit [DecidableEq V] in
lemma writeSurvivors_local {i : ℕ} (hi : v.dir.current path.compactTmp=some i) (es : List (Bytes × V)) :
    Local path.names
      (fun _ v' => v'.dir.current path.compactTmp=some i ∧ (v'.file i).current=(v.file i).current++image F es)
      E (writeSurvivors F i es) v := by
  induction es generalizing v with
  | nil =>
    refine ⟨hi,?_⟩
    simp [image,joinLines]
  | cons e es ih =>
    refine Local.bind (Local.sys ?_)
    intro v1 hv1
    obtain ⟨hi1,hc1⟩ := hv1.bound (.inr rfl) hi
    refine ⟨⟨path.compactTmp,.inr rfl,hi1⟩,(),v1.append i _,rfl,?_⟩
    refine (ih (v := v1.append i (F.record e.1 e.2++[newline])) hi1).mono ?_ (fun _ _ hv => hv)
    rintro _ v2 ⟨hi2,hc2⟩
    refine ⟨hi2,?_⟩
    rw [hc2,append_file_current,hc1,image_cons,append_assoc]

omit [DecidableEq V] in
lemma compact_local (es : List (Bytes × V)) : Local path.names
      (fun fd v' => v'.dir.current path.file=some fd ∧ (v'.file fd).current=image F es)
      E (compact F path es) v := by
  refine Local.andThen openTrunc_local ?_
  rintro i v1 ⟨hi1,he⟩
  refine Local.andThen (writeSurvivors_local hi1 es) ?_
  rintro _ v2 ⟨hi2,hc⟩
  rw [he,nil_append] at hc
  refine Local.bind (Local.sys ?_)
  intro v3 hv3
  obtain ⟨hi3,hc3⟩ := hv3.bound (.inr rfl) hi2
  refine ⟨⟨path.compactTmp,.inr rfl,hi3⟩,(),v3.fsync i,rfl,?_⟩
  refine Local.bind (Local.sys ?_)
  intro v4 hv4
  obtain ⟨hi4,hc4⟩ := hv4.bound (.inr rfl) (v := v3.fsync i) hi3
  refine ⟨⟨.inr rfl,.inl rfl⟩,(),v4.rename path.compactTmp path.file i,by simp only [Call.exec,hi4],?_⟩
  have hb : (v4.rename path.compactTmp path.file i).dir.current path.file=some i := by
    rw [rename_current,update_self]
  have hf : (v4.file i).current=image F es := by rw [hc4,Volume.fsync_file,Cached.current_flush,hc3,hc]
  refine Local.bind (Local.sys ?_)
  intro v5 hv5
  obtain ⟨hb5,hc5⟩ := hv5.bound (.inl rfl) hb
  refine ⟨trivial,(),v5.syncDir,rfl,Local.sys ?_⟩
  intro v6 hv6
  obtain ⟨hb6,hc6⟩ := hv6.bound (.inl rfl) (v := v5.syncDir) hb5
  refine ⟨.inl rfl,i,v6,by simp only [Call.exec,hb6],hb6,?_⟩
  exact hc6.trans (hc5.trans hf)

lemma retainValues_local (hF : F.Lawful) (h : Held F path s v) (k : V → Bool) : Local path.names
      (fun out v' => Held F path out.1 v' ∧ out.1.seen=s.seen.retain fun _ => k)
      E (retainValues F k s) v := by
  obtain ⟨se,f,sp⟩ := s
  obtain rfl : sp=some path := h.path_eq
  simp only [retainValues]
  split
  next hz =>
    refine ⟨h,?_⟩
    have hn : ∀ e∈se.entries, k e.2 := by grind [filter_eq_nil_iff.mp]
    obtain ⟨en,no⟩ := se
    simp only [Table.retain,Table.mk.injEq]
    exact (filter_eq_self.mpr hn).symm
  · have ha:=h.accepted.retain fun _ => k
    refine Local.bind (Local.attempt ((compact_local _).mono ?_ (fun _ _ => id)))
    rintro fd v' ⟨hb,hc⟩
    refine ⟨⟨rfl,ha,fd,rfl,hb,?_⟩,rfl⟩
    rw [hc]
    exact mirrors_image hF ha

lemma openOrCreatePrivateAppend_local : Local path.names
      (fun out v' => v'.dir.current path.file=some out.1 ∧
        ∀ i, v.dir.current path.file=some i → out.1=i ∧ (v'.file i).current=(v.file i).current)
      E (openOrCreatePrivateAppend path.file) v := by
  refine Local.bind (Local.attempt ?_)
  cases hn : v.dir.current path.file with
  | some fd =>
    refine Local.sys ?_
    intro v1 hv
    obtain ⟨hb,hc1⟩ := hv.bound (.inl rfl) hn
    refine ⟨.inl rfl,fd,v1,by simp only [Call.exec,hb],hb,?_⟩
    rintro _ ⟨⟩
    exact ⟨rfl,hc1⟩
  | none =>
    refine Local.sys_error ?_
    intro v1 hv
    have hn1 : v1.dir.current path.file=none := (hv.names _ (.inl rfl)).trans hn
    refine ⟨.inl rfl,notFoundError,v1,by simp only [Call.exec,hn1],?_⟩
    refine Local.bind (Local.attempt (Local.sys ?_))
    intro v2 hv2
    have hn2 : v2.dir.current path.file=none := (hv2.names _ (.inl rfl)).trans hn1
    refine ⟨.inl rfl,v2.next,v2.create path.file,by simp only [Call.exec,hn2],?_,(by simp)⟩
    rw [Volume.create_current,update_self]

lemma syncCreated_local {fd : ℕ} (hb : v.dir.current path.file=some fd) (c : Bool) : Local path.names
      (fun _ v' => v'.dir.current path.file=some fd ∧ (v'.file fd).current=(v.file fd).current)
      E (if c then sys (.fsync fd) else pure () : Prog N Unit) v := by
  split
  · refine Local.sys ?_
    intro v1 hv1
    obtain ⟨hb1,hc1⟩ := hv1.bound (.inl rfl) hb
    refine ⟨⟨path.file,.inl rfl,hb1⟩,(),v1.fsync fd,rfl,hb1,?_⟩
    rw [Volume.fsync_file,Cached.current_flush,hc1]
  · exact ⟨hb,rfl⟩

lemma openSet_local (hF : F.Lawful) (path : LogPath N) (v : Volume N) : Local path.names
      (fun s v' => Held F path s v' ∧
        ∀ fd, v.dir.current path.file=some fd → loadLog F path (v.file fd).current=.ok s.seen)
      (fun _ _ => ¬Readable F path v) (openSet F path) v := by
  have hd : Local path.names (fun _ => Aside path.names v) (fun _ _ => ¬Readable F path v)
      (if path.nested then sys .createDirAll else pure () : Prog N Unit) v := by
    split
    · exact Local.sys fun v1 hv1 => ⟨trivial,(),v1,rfl,hv1⟩
    · exact Aside.refl _ v
  refine Local.andThen hd ?_
  intro _ v0 hv0
  refine Local.andThen openOrCreatePrivateAppend_local ?_
  rintro ⟨fd,c⟩ v1 ⟨hb,hsm⟩
  -- a file that was there is the one that is read
  have ht : ∀ i, v.dir.current path.file=some i → i=fd ∧ (v.file i).current=(v1.file fd).current := by
    intro i hi
    obtain ⟨hi0,hc0⟩ := hv0.bound (.inl rfl) hi
    obtain ⟨hfd,hc1⟩ := hsm i hi0
    exact ⟨hfd.symm,by rw [← hc0,← hc1,← hfd]⟩
  have hrd : Readable F path v → ∃ seen, Mirrors F path (v1.file fd).current seen := by
    rintro ⟨i,seen,hi,hm⟩
    rw [(ht i hi).2] at hm
    exact ⟨seen,hm⟩
  refine Local.bind (Local.bind (Local.sys ?_))
  intro v2 hv2
  obtain ⟨hb2,hc2⟩ := hv2.bound (.inl rfl) hb
  refine ⟨⟨path.file,.inl rfl,hb2⟩,(v2.file fd).current,v2,rfl,?_⟩
  rw [hc2]
  refine Local.ofExcept ?_ ?_
  swap
  · intro e he hr
    obtain ⟨seen,hm⟩ := hrd hr
    rw [hm.records] at he
    cases he
  intro ls hls
  refine Local.bind (Local.ofExcept ?_ ?_)
  swap
  · intro e he hr
    obtain ⟨seen,hm⟩ := hrd hr
    exact hm.load_ne_error hls e he
  intro seen hs
  obtain ⟨hmi,hl,ha⟩ := Mirrors.of_load hF hls hs
  refine Local.andThen (syncCreated_local hb2 c) ?_
  rintro _ v3 ⟨hb3,hc3⟩
  refine Local.bind (Local.sys ?_)
  intro v4 hv4
  obtain ⟨hb4,hc4⟩ := hv4.bound (.inl rfl) hb3
  refine ⟨trivial,(),v4.syncDir,rfl,⟨rfl,ha,fd,rfl,hb4,?_⟩,?_⟩
  · have hc : (v4.syncDir.file fd).current=(v1.file fd).current := hc4.trans (hc3.trans hc2)
    rw [hc]
    exact hmi
  · intro i hi
    rw [(ht i hi).2]
    exact hl
end
section
variable {N : Type} [DecidableEq N] {path : LogPath N} {v : Volume N} {E : IoError → Volume N → Prop}
def TimedOp.apply : TimedOp → Table Bytes UInt64 → Table Bytes UInt64
  | .insert key now,t => insertedInto timedFormat key.1 now none t
  | .insertIfBelowCapacity key now maxEntries,t => insertedInto timedFormat key.1 now (some maxEntries) t
  | .pruneOlderThan cutoff,t => t.retain fun _ x => notOlder cutoff x

variable {s : TimedDurableSet N}
lemma opens_held {v v' : Volume N} (h : (TimedDurableSet.open path).run (fun _ => .ok) v=(.done s,v')) :
    Held timedFormat path s v' := by
  have hm:=(openSet_local timedFormat_lawful path v).run
  rw [show openSet timedFormat path=TimedDurableSet.open path from rfl,h] at hm
  exact hm.1

section
variable (h : Held timedFormat path s v)
include h
lemma call_local (op : TimedOp) :
    Local path.names (fun out v' => Held timedFormat path out.1 v' ∧ out.1.seen=op.apply s.seen)
      E (call op s) v := by
  cases op with
  | insert key now =>
    refine Local.bind (Local.andThen (insertWithCapacity_local timedFormat_lawful h key.2 now none) ?_)
    rintro ⟨s',r⟩ v' ho
    cases r with
    | error e => exact ho
    | ok r =>
      cases r with
      | inserted | alreadyPresent | capacityReached => exact ho
  | insertIfBelowCapacity key now me =>
    exact Local.andThen (insertWithCapacity_local timedFormat_lawful h key.2 now (some me))
      fun _ _ ho => ho
  | pruneOlderThan c =>
    exact Local.andThen (retainValues_local timedFormat_lawful h (notOlder c)) fun _ _ ho => ho

lemma calls_local (ops : List TimedOp) : Local path.names
      (fun s' v' => Held timedFormat path s' v' ∧ s'.seen=ops.foldl (fun t op => op.apply t) s.seen)
      E (calls ops s) v := by
  induction ops generalizing s v with
  | nil => exact ⟨h,rfl⟩
  | cons op ops ih =>
    refine Local.andThen (call_local h op) ?_
    rintro ⟨s',re⟩ v' ⟨hh,hs⟩
    refine (ih hh).mono ?_ (fun _ _ hf => hf)
    rintro s'' v'' ⟨hh',hs'⟩
    refine ⟨hh',?_⟩
    rw [hs',hs]
    rfl

lemma reopens : ∃ s' w, (TimedDurableSet.open path).run (fun _ => .ok) v=(.done s',w) ∧
      ∀ k, s'.seen.get k=s.seen.get k := by
  obtain ⟨fd,-,hb,hmi⟩ := h.exact
  obtain ⟨t,hl,hg⟩ := hmi.loads
  have hm:=(openSet_local timedFormat_lawful path v).run
  rcases hr : (TimedDurableSet.open path).run (fun _ => .ok) v with ⟨outcome,w⟩
  rw [show openSet timedFormat path=TimedDurableSet.open path from rfl,hr] at hm
  cases outcome with
  | error e => exact absurd ⟨fd,s.seen,hb,hmi⟩ hm
  | killed => exact hm.elim
  | done s' => grind [Except.ok.inj,hm.2]

lemma calls_alone (ops : List TimedOp) :
    ∃ s', Held timedFormat path s' ((calls ops s).run (fun _ => .ok) v).2 ∧
      s'.seen=ops.foldl (fun t op => op.apply t) s.seen := by
  have hm:=(calls_local (E := fun _ _ => False) h ops).run
  rcases hr : (calls ops s).run (fun _ => .ok) v with ⟨outcome,w⟩
  rw [hr] at hm
  cases outcome with
  | error | killed => exact hm.elim
  | done s' => exact ⟨s',hm.1,hm.2⟩
end

lemma sameMap_of_held {v w : Volume N} {t : TimedDurableSet N} (hs : Held timedFormat path s v)
    (ht : Held timedFormat path t w) (hsn : s.seen=t.seen) : SameMap path v w := by
  obtain ⟨s',v',hr,hg⟩ := reopens hs
  obtain ⟨t',w',hr',hg'⟩ := reopens ht
  refine ⟨s',t',v',w',hr,hr',?_⟩
  intro k
  rw [hg,hg',hsn]

lemma undisturbed_of_apart {p q : LogPath N} (hd : ∀ n, p.names n → ¬q.names n)
    {t : TimedDurableSet N} (hs : Held timedFormat p s v) (ht : Held timedFormat q t v)
    (hv : Apart p.names q.names v) (ops ops' : List TimedOp) (b : List Bool) :
    Undisturbed p q s t ops ops' b v := by
  obtain ⟨s',t',w,hr,⟨hs',hn⟩,ht',hn'⟩ :=
    Program.interleave_local hd (fun _ _ _ h hv => ⟨h.1.stable hv,h.2⟩) (fun _ _ _ h hv => ⟨h.1.stable hv,h.2⟩)
      b (calls_local hs ops) (calls_local ht ops') hv
  obtain ⟨sa,hsa,hse⟩ := calls_alone hs ops
  obtain ⟨ta,hta,hsn⟩ := calls_alone ht ops'
  unfold Undisturbed
  rw [hr]
  exact ⟨sameMap_of_held hs' hsa (hn.trans hse.symm),sameMap_of_held ht' hta (hn'.trans hsn.symm)⟩
end

lemma names_apart {p q : LogPath Bytes} (hp : p.compactTmp=withCompactTmp p.file)
    (hq : q.compactTmp=withCompactTmp q.file) (hpt : ¬compactSuffix <:+ p.file)
    (hqt : ¬compactSuffix <:+ q.file) (hs : fileStem p.file≠fileStem q.file) :
    ∀ n, p.names n → ¬q.names n := by
  rintro n (rfl | rfl) (hn | hn)
  · exact hs (by rw [hn])
  · rw [hq,withCompactTmp] at hn
    exact hpt (hn ▸ suffix_append _ _)
  · rw [hp,withCompactTmp] at hn
    exact hqt (hn ▸ suffix_append _ _)
  · rw [hp,hq,withCompactTmp,withCompactTmp] at hn
    exact hs (append_cancel_right hn)

/-- Two sets whose file names have different stems, and that share no file through hard links,
reopen as if each had been alone, in every order of their file-system calls. -/
theorem sets_do_not_interfere (p q : LogPath Bytes) (hp : p.compactTmp=withCompactTmp p.file)
    (hq : q.compactTmp=withCompactTmp q.file) (hpt : ¬compactSuffix <:+ p.file)
    (hqt : ¬compactSuffix <:+ q.file) (hstem : fileStem p.file≠fileStem q.file)
    (v0 v1 v2 : Volume Bytes) (hv : Apart p.names q.names v0) (s t : TimedDurableSet Bytes)
    (hs : (TimedDurableSet.open p).run (fun _ => .ok) v0=(.done s,v1))
    (ht : (TimedDurableSet.open q).run (fun _ => .ok) v1=(.done t,v2)) (ops ops' : List TimedOp)
    (schedule : List Bool) : Undisturbed p q s t ops ops' schedule v2 := by
  have hdisj:=names_apart hp hq hpt hqt hstem
  have hdisj' : ∀ n, q.names n → ¬p.names n := fun n hn hm => hdisj n hm hn
  obtain ⟨-,hv1⟩ := (openSet_local timedFormat_lawful p v0).run_aside hdisj hv
  rw [show openSet timedFormat p=TimedDurableSet.open p from rfl,hs] at hv1
  obtain ⟨ha,hv2⟩ := (openSet_local timedFormat_lawful q v1).run_aside hdisj' hv1.symm
  rw [show openSet timedFormat q=TimedDurableSet.open q from rfl,ht] at ha hv2
  exact undisturbed_of_apart hdisj ((opens_held hs).stable ha) (opens_held ht) hv2.symm ops ops' schedule

def namedLog (name : String) (h : withCompactTmp (ascii name)≠ascii name) : LogPath Bytes :=
  ⟨ascii name,withCompactTmp (ascii name),name,false,h⟩

def pendingLog : LogPath Bytes := namedLog "r.a" (by decide)
def bindingLog : LogPath Bytes := namedLog "r.b" (by decide)
def otherLog : LogPath Bytes := namedLog "s.b" (by decide)
def onePath : Volume Bytes := ((Volume.empty.create pendingLog.file).fsync 0).syncDir
def twoPaths (second : LogPath Bytes) : Volume Bytes := ((onePath.create second.file).fsync 1).syncDir
def pendingSet : TimedDurableSet Bytes := ⟨Table.empty,some 0,some pendingLog⟩
def secondSet (second : LogPath Bytes) : TimedDurableSet Bytes := ⟨Table.empty,some 1,some second⟩

def insertAndPrune (old young : Str) : List TimedOp :=
  [.insert old 10,.insert young 20,.pruneOlderThan 15]

def leftOps : List TimedOp := insertAndPrune ⟨[97],by decide⟩ ⟨[98],by decide⟩
def rightOps : List TimedOp := insertAndPrune ⟨[99],by decide⟩ ⟨[100],by decide⟩

/-- Both compactions have synced their temporary file when the left one renames it. -/
def bothSynced : List Bool := List.replicate 7 true++List.replicate 7 false

lemma apart_empty (m o : Bytes → Prop) : Apart m o Volume.empty := ⟨nofun,nofun⟩

def reopenedGet (path : LogPath Bytes) (v : Volume Bytes) (k : Bytes) : Option (Option UInt64) :=
  match (TimedDurableSet.open path).run (fun _ => .ok) v with
  | (.done s,_) => some (s.seen.get k)
  | _ => none

lemma SameMap.reopenedGet_eq {path : LogPath Bytes} {v v' : Volume Bytes} (h : SameMap path v v') (k : Bytes) :
    reopenedGet path v k=reopenedGet path v' k := by
  obtain ⟨s,s',w,w',hr,hr',hg⟩ := h
  simp only [reopenedGet,hr,hr',hg]

lemma bothSynced_outcome : reopenedGet pendingLog (interleave bothSynced (calls leftOps pendingSet)
      (calls rightOps (secondSet bindingLog)) (twoPaths bindingLog)).2 [98]=some none ∧
    reopenedGet pendingLog ((calls leftOps pendingSet).run (fun _ => .ok)
      (twoPaths bindingLog)).2 [98]=some (some 20) := by
  decide +kernel

/-- Two paths with one stem: the left set loses the key it kept to the right set's file. -/
theorem shared_stem_interferes : pendingLog.compactTmp=withCompactTmp pendingLog.file ∧
      bindingLog.compactTmp=withCompactTmp bindingLog.file ∧ pendingLog.file≠bindingLog.file ∧
      ¬compactSuffix <:+ pendingLog.file ∧ ¬compactSuffix <:+ bindingLog.file ∧
      Apart pendingLog.names bindingLog.names Volume.empty ∧
      (TimedDurableSet.open pendingLog).run (fun _ => .ok) Volume.empty=(.done pendingSet,onePath) ∧
      (TimedDurableSet.open bindingLog).run (fun _ => .ok) onePath =
        (.done (secondSet bindingLog),twoPaths bindingLog) ∧
      ¬Undisturbed pendingLog bindingLog pendingSet (secondSet bindingLog) leftOps rightOps bothSynced
        (twoPaths bindingLog) := by
  refine ⟨rfl,rfl,by decide,by decide,by decide,apart_empty _ _,rfl,rfl,?_⟩
  intro h
  have hsame:=h.1.reopenedGet_eq [98]
  rw [bothSynced_outcome.1,bothSynced_outcome.2] at hsame
  cases hsame

theorem sets_do_not_interfere_bothSynced : fileStem pendingLog.file≠fileStem otherLog.file ∧
      Undisturbed pendingLog otherLog pendingSet (secondSet otherLog) leftOps rightOps bothSynced
        (twoPaths otherLog) :=
  ⟨by decide,sets_do_not_interfere pendingLog otherLog rfl rfl (by decide) (by decide) (by decide)
    Volume.empty onePath (twoPaths otherLog) (apart_empty _ _) pendingSet (secondSet otherLog) rfl rfl
    leftOps rightOps bothSynced⟩
end NilVpn.Durable
