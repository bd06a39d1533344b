import NilVpn.Base.Runs
import NilVpn.Durable.LogSpec

/-!
# Durable sets keep every accepted key
-/

namespace NilVpn.Durable
open TimedDurableSet Inserted Base
open Program (Safe Meets Outcome Verdict Faulty faulty_of_failed)

inductive Report (V P : Type)
  | inserted (key : Bytes) (value : V)
  | pruned (p : P)

section
variable {V P : Type} (keep : P → V → Bool)
/-- The entries reported inserted that no later prune covers; reports come newest first. -/
def Kept : List (Report V P) → Bytes → V → Prop
  | [] => fun _ _ => False
  | .inserted key value::older => Extended (Kept older) key value
  | .pruned p::older => fun k x => Kept older k x ∧ keep p x=true

/-- Between two insertions of one key, a prune covered the first. -/
def InsertsOnce (log : List (Report V P)) : Prop :=
  ∀ newer k y between x older, log=newer++.inserted k y::(between++.inserted k x::older) →
    ∃ p, .pruned p∈between ∧ keep p x=false

variable {keep}
lemma kept_of_split {n o : List (Report V P)} {k : Bytes} {x : V}
    (h : ∀ p, .pruned p∈n → keep p x) :
    Kept keep (n++.inserted k x::o) k x := by
  induction n with
  | nil => exact Or.inr ⟨rfl,rfl⟩
  | cons r n ih =>
    have hr:=ih fun p hp => h p (List.mem_cons_of_mem _ hp)
    cases r with
    | inserted j y => exact Or.inl hr
    | pruned p => exact ⟨hr,h p (List.mem_cons_self ..)⟩

lemma insertsOnce_nil : InsertsOnce keep ([] : List (Report V P)) := by
  intro nw k y be x o h
  simp at h

lemma InsertsOnce.pruned {log : List (Report V P)} (h : InsertsOnce keep log) (p : P) :
    InsertsOnce keep (.pruned p::log) := by
  intro nw k y be x o he
  cases nw with
  | nil => cases he
  | cons r nw =>
    injection he with _ he
    exact h nw k y be x o he

lemma InsertsOnce.inserted {log : List (Report V P)} (h : InsertsOnce keep log) {key : Bytes}
    (v : V) (hn : ∀ x, ¬Kept keep log key x) : InsertsOnce keep (.inserted key v::log) := by
  intro nw k y be x o he
  cases nw with
  | nil =>
    injection he with hr he
    cases hr
    by_contra hno
    apply hn x
    rw [he]
    apply kept_of_split
    intro p hp
    by_contra hk
    exact hno ⟨p,hp,Bool.eq_false_iff.mpr hk⟩
  | cons r nw =>
    injection he with _ he
    exact h nw k y be x o he
end

/-- The calls of one kind of set. `cutoff` is the prune a call makes, `accepted` the
entry its reply reports newly inserted. -/
structure Api (N V P Op Reply : Type) where
  openSet : Prog N (KeySet N V)
  call : Op → KeySet N V → Prog N (KeySet N V × Reply)
  cutoff : Op → Option P
  accepted : Op → Reply → Option (Bytes × V)

/-- What happens next; `env` decides the fate of every file-system call. -/
inductive Event (Op : Type)
  | openSet (env : ℕ → Verdict)
  | call (op : Op) (env : ℕ → Verdict)
  | kill
  | crash (pickFile : ℕ → ℕ) (pickDir : ℕ)

def Event.Quiet {Op : Type} : Event Op → Prop
  | .openSet env | .call _ env => ∀ i, env i=.ok
  | .kill => True
  | .crash _ _ => False

structure World (N V P : Type) where
  volume : Volume N
  live : Option (KeySet N V)
  log : List (Report V P)

section
variable {N V P Op Reply : Type}
def Api.counted (api : Api N V P Op Reply) (op : Op) (log : List (Report V P)) : List (Report V P) :=
  ((api.cutoff op).map Report.pruned).toList++log

def Api.replied (api : Api N V P Op Reply) (op : Op) (r : Reply) (log : List (Report V P)) :
    List (Report V P) :=
  ((api.accepted op r).map fun e => Report.inserted e.1 e.2).toList++log

def World.opened (w : World N V P) : Outcome IoError (KeySet N V) × Volume N → World N V P
  | (.done s,v) => {w with volume := v,live := some s}
  | (_,v) => {w with volume := v,live := none}

def Api.answered (api : Api N V P Op Reply) (op : Op) (log : List (Report V P)) :
    Outcome IoError (KeySet N V × Reply) × Volume N → World N V P
  | (.done (s,r),v) => ⟨v,some s,api.replied op r log⟩
  | (_,v) => ⟨v,none,log⟩

def World.step [DecidableEq N] (api : Api N V P Op Reply) (w : World N V P) : Event Op → World N V P
  | .openSet env =>
    match w.live with
    | some _ => w
    | none => w.opened (api.openSet.run env w.volume)
  | .call op env =>
    match w.live with
    | none => w
    | some s => api.answered op (api.counted op w.log) ((api.call op s).run env w.volume)
  | .kill => {w with live := none}
  | .crash pickFile pickDir => {w with volume := w.volume.crash pickFile pickDir,live := none}

def run [DecidableEq N] (api : Api N V P Op Reply) (v0 : Volume N) (es : List (Event Op)) : World N V P :=
  runFrom (World.step api) ⟨v0,none,[]⟩ es

lemma run_append [DecidableEq N] (api : Api N V P Op Reply) (v0 : Volume N) (es l : List (Event Op)) :
    run api v0 (es++l)=runFrom (World.step api) (run api v0 es) l := List.foldl_append

variable {keep : P → V → Bool} {api : Api N V P Op Reply}
variable {op : Op} {log : List (Report V P)} {w : World N V P} {s : KeySet N V}
lemma kept_counted {k : Bytes} {x : V} (h : Kept keep (api.counted op log) k x) :
    Kept keep log k x ∧ ∀ p, api.cutoff op=some p → keep p x := by
  unfold Api.counted at h
  cases hc : api.cutoff op with
  | none =>
    rw [hc] at h
    exact ⟨h,nofun⟩
  | some p =>
    rw [hc] at h
    obtain ⟨hk,hkp⟩ : Kept keep log k x ∧ keep p x := h
    refine ⟨hk,?_⟩
    intro q hq
    cases hq
    exact hkp

lemma InsertsOnce.counted (h : InsertsOnce keep log) (op : Op) : InsertsOnce keep (api.counted op log) := by
  unfold Api.counted
  cases api.cutoff op with
  | none => exact h
  | some p => exact h.pruned p

variable [DecidableEq V] (F : Format V) (path : LogPath N) (keep)
structure Api.Answer (api : Api N V P Op Reply) (op : Op) (K : Bytes → V → Prop) (faults : Prop)
    (s : KeySet N V) (v : Volume N) (out : KeySet N V × Reply) (v' : Volume N) : Prop where
  some : ∀ e, api.accepted op out.2=some e → s.seen.get e.1=none ∧
    Inv F path (Extended K e.1 e.2) v' ∧ Live F path (Extended K e.1 e.2) out.1 v'
  none : api.accepted op out.2=none → Inv F path K v' ∧ Live F path K out.1 v'
  exact : ¬faults → Exact F path s v → Exact F path out.1 v'

structure Api.Sound [DecidableEq N] (api : Api N V P Op Reply) : Prop where
  openSet_eq : api.openSet=Durable.openSet F path
  call_safe : ∀ (op : Op) (K : Bytes → V → Prop) (s : KeySet N V) (v : Volume N) (faults : Prop),
    Inv F path K v → Live F path K s v →
    (∀ p, api.cutoff op=.some p → ∀ k x, K k x → keep p x=true) →
    Safe faults (Inv F path K) (api.Answer F path op K faults s v) (fun _ _ => False) (api.call op s) v

structure World.Sound (w : World N V P) : Prop where
  inv : Inv F path (Kept keep w.log) w.volume
  live : ∀ s, w.live=some s → Live F path (Kept keep w.log) s w.volume
  once : InsertsOnce keep w.log

def World.Exact (w : World N V P) : Prop := ∀ s, w.live=some s → Durable.Exact F path s w.volume

variable {F path keep}
lemma opened_sound (h : w.Sound keep F path) {out : Outcome IoError (KeySet N V) × Volume N}
    {E : IoError → Volume N → Prop} (hE : ∀ e v, E e v → Inv F path (Kept keep w.log) v)
    (hu : Meets (Inv F path (Kept keep w.log)) (Opened F path (Kept keep w.log) w.volume) E out) :
    (w.opened out).Sound keep F path ∧ (w.opened out).Exact F path := by
  obtain ⟨o,v⟩ := out
  cases o with
  | done s =>
    have ho : Opened F path (Kept keep w.log) w.volume s v := hu
    refine ⟨⟨ho.inv,?_,h.once⟩,?_⟩
    · intro s' hs'
      cases hs'
      exact ho.live
    · intro s' hs'
      cases hs'
      exact ho.exact
  | error e => exact ⟨⟨hE e v hu,nofun,h.once⟩,nofun⟩
  | killed => exact ⟨⟨hu,nofun,h.once⟩,nofun⟩

lemma answered_sound {f : Prop} {v : Volume N}
    {out : Outcome IoError (KeySet N V × Reply) × Volume N} (ho : InsertsOnce keep log)
    (hs : Live F path (Kept keep log) s v)
    (hu : Meets (Inv F path (Kept keep log)) (api.Answer F path op (Kept keep log) f s v)
      (fun _ _ => False) out) :
    (api.answered op log out).Sound keep F path ∧
      (¬f → Exact F path s v → (api.answered op log out).Exact F path) := by
  obtain ⟨o,v'⟩ := out
  cases o with
  | done out =>
    obtain ⟨hsm,hn,he⟩ := hu
    refine ⟨?_,?_⟩
    · cases ha : api.accepted op out.2 with
      | none =>
        obtain ⟨hv,hl⟩ := hn ha
        simp only [Api.answered,Api.replied,ha]
        refine ⟨hv,?_,ho⟩
        intro s' hs'
        cases hs'
        exact hl
      | some e =>
        obtain ⟨hfr,hv,hl⟩ := hsm e ha
        simp only [Api.answered,Api.replied,ha]
        refine ⟨hv,?_,ho.inserted e.2 ?_⟩
        · intro s' hs'
          cases hs'
          exact hl
        · intro x hk
          have hg:=hs.retains e.1 x hk
          rw [hfr] at hg
          cases hg
    · intro hf hx s' hs'
      cases hs'
      exact he hf hx
  | error e => exact hu.elim
  | killed => exact ⟨⟨hu,nofun,ho⟩,nofun⟩

lemma Inserted.answer {K : Bytes → V → Prop} {f : Prop} {key : Bytes} {value : V}
    {s' : KeySet N V} {v v' : Volume N} {r : Except IoError TimedInsert} {reply : Reply}
    (h : Inserted F path K f key value s v (s',r) v')
    (hs : r=.ok .inserted → api.accepted op reply=some (key,value))
    (hn : r≠.ok .inserted → api.accepted op reply=none) :
    api.Answer F path op K f s v (s',reply) v' := by
  obtain ⟨hv,hl,hf,hc⟩ := h
  by_cases hr : r=.ok .inserted
  · have ha:=hs hr
    rw [hr] at hv hl
    refine ⟨?_,?_,hc⟩
    · intro e he
      rw [ha] at he
      cases he
      exact ⟨hf hr,hv,hl⟩
    · intro he
      rw [ha] at he
      cases he
  · have ha:=hn hr
    simp only [grown_of_ne K key value hr] at hv hl
    refine ⟨?_,fun _ => ⟨hv,hl⟩,hc⟩
    intro e he
    rw [ha] at he
    cases he

variable [DecidableEq N]
lemma step_sound (hF : F.Lawful) (ha : api.Sound keep F path) (h : w.Sound keep F path) (e : Event Op) :
    (w.step api e).Sound keep F path ∧ (e.Quiet → w.Exact F path → (w.step api e).Exact F path) := by
  cases e with
  | openSet env =>
    simp only [World.step,ha.openSet_eq]
    cases hl : w.live with
    | some s => exact ⟨h,fun _ hx => hx⟩
    | none =>
      have hout:=(openSet_safe hF h.inv).run env fun _ => faulty_of_failed
      obtain ⟨hn,he⟩ := opened_sound h (fun _ _ hv => hv.1) hout
      exact ⟨hn,fun _ _ => he⟩
  | call op env =>
    simp only [World.step]
    cases hl : w.live with
    | none => exact ⟨h,fun _ hx => hx⟩
    | some s =>
      have hg : ∀ k x, Kept keep (api.counted op w.log) k x → Kept keep w.log k x :=
        fun k x hk => (kept_counted hk).1
      have hs:=(h.live s hl).mono hg
      have hout:=(ha.call_safe op _ s w.volume (Faulty env) (h.inv.mono fun o ho => ho.mono hg)
        hs fun p hp k x hk => (kept_counted hk).2 p hp).run env fun _ => faulty_of_failed
      obtain ⟨hn,he⟩ := answered_sound (h.once.counted op) hs hout
      refine ⟨hn,?_⟩
      intro hq hx
      refine he ?_ (hx s hl)
      rintro ⟨i,n,hi⟩
      rw [hq i] at hi
      cases hi
  | kill => exact ⟨⟨h.inv,nofun,h.once⟩,nofun⟩
  | crash pf pd =>
    exact ⟨⟨h.inv.crash pf pd,nofun,h.once⟩,
      nofun⟩

lemma run_sound (hF : F.Lawful) (ha : api.Sound keep F path) {v0 : Volume N}
    (h0 : v0.Scratch path.compactTmp path.file) (es : List (Event Op)) :
    (run api v0 es).Sound keep F path := by
  have hst : World.Sound keep F path (⟨v0,none,[]⟩ : World N V P) :=
    ⟨inv_of_scratch h0 fun _ _ hk => hk,nofun,insertsOnce_nil⟩
  exact run_invariant (I := World.Sound keep F path) (fun _ e h => (step_sound hF ha h e).1) hst es

lemma quiet_exact (hF : F.Lawful) (ha : api.Sound keep F path) (h : w.Sound keep F path)
    (hx : w.Exact F path) {qs : List (Event Op)} (hq : ∀ e∈qs, e.Quiet) :
    (runFrom (World.step api) w qs).Exact F path := by
  have hst (w : World N V P) (e : Event Op) (he : e.Quiet) (hw : w.Sound keep F path ∧ w.Exact F path) :
      (w.step api e).Sound keep F path ∧ (w.step api e).Exact F path := by
    obtain ⟨hs,hec⟩ := step_sound hF ha hw.1 e
    exact ⟨hs,hec he hw.2⟩
  exact (run_invariant_of_mem hst ⟨h,hx⟩ qs hq).2

lemma reopen_exact (hF : F.Lawful) (ha : api.Sound keep F path) (h : w.Sound keep F path)
    (hx : Exact F path s w.volume) :
    ∃ s', ((w.step api .kill).step api (.openSet fun _ => .ok)).live=some s' ∧
      ∀ k, s'.seen.get k=s.seen.get k := by
  obtain ⟨fd,-,hb,hm⟩ := hx
  obtain ⟨t,ht,hg⟩ := hm.loads
  obtain ⟨s',v,hr,ho⟩ := ((openSet_safe hF h.inv).mono (fun _ hv => hv) (fun _ _ hv => hv) (by
      rintro _ _ ⟨-,hf | hbad⟩
      · exact hf
      · exact hbad ⟨fd,s.seen,hb,hm⟩)).returns
  have hl:=ho.loaded fd hb
  rw [ht] at hl
  cases hl
  refine ⟨s',?_,hg⟩
  simp only [World.step,ha.openSet_eq,hr]
  rfl
end
section
variable {N : Type}
inductive SetOp
  | insert (key : Str)

def DurableSet.api (path : LogPath N) : Api N Unit Empty SetOp (Except IoError Bool) where
  openSet := DurableSet.open path
  call
    | .insert key => DurableSet.insert key.1
  cutoff _ := none
  accepted
    | .insert key,.ok true => some (key.1,())
    | _,_ => none

inductive TimedOp
  | insert (key : Str) (now : UInt64)
  | insertIfBelowCapacity (key : Str) (now : UInt64) (maxEntries : ℕ)
  | pruneOlderThan (cutoff : UInt64)

inductive TimedReply
  | inserted (r : Except IoError Bool)
  | bounded (r : Except IoError TimedInsert)
  | pruned (r : Except IoError ℕ)

def TimedDurableSet.call : TimedOp → TimedDurableSet N → Prog N (TimedDurableSet N × TimedReply)
  | .insert key now,s => do
    let (s',r) ← TimedDurableSet.insert key.1 now s
    return (s',.inserted r)
  | .insertIfBelowCapacity key now maxEntries,s => do
    let (s',r) ← TimedDurableSet.insertIfBelowCapacity key.1 now maxEntries s
    return (s',.bounded r)
  | .pruneOlderThan cutoff,s => do
    let (s',r) ← TimedDurableSet.pruneOlderThan cutoff s
    return (s',.pruned r)

def TimedDurableSet.api (path : LogPath N) : Api N UInt64 UInt64 TimedOp TimedReply where
  openSet := TimedDurableSet.open path
  call := TimedDurableSet.call
  cutoff
    | .pruneOlderThan cutoff => some cutoff
    | _ => none
  accepted
    | .insert key now,.inserted (.ok true) => some (key.1,now)
    | .insertIfBelowCapacity key now _,.bounded (.ok .inserted) => some (key.1,now)
    | _,_ => none

def unpruned : Empty → Unit → Bool := fun _ _ => true

/-- An entry is kept unless it is strictly older than the cutoff. -/
def notOlder (cutoff t : UInt64) : Bool := decide (cutoff≤t)

variable [DecidableEq N]
lemma DurableSet.api_sound (path : LogPath N) : (DurableSet.api path).Sound unpruned setFormat path := by
  refine ⟨rfl,?_⟩
  intro op K s v f h hs _
  cases op with
  | insert key =>
    refine Safe.andThen (insertWithCapacity_safe setFormat_lawful h hs key.2 () none) ?_
    rintro ⟨s',r⟩ v' ho
    refine answer ho ?_ ?_
    · rintro rfl
      rfl
    · intro hr
      cases r with
      | error e => rfl
      | ok r =>
        cases r with
        | inserted => exact absurd rfl hr
        | alreadyPresent | capacityReached => rfl

lemma TimedDurableSet.api_sound (path : LogPath N) :
    (TimedDurableSet.api path).Sound notOlder timedFormat path := by
  refine ⟨rfl,?_⟩
  intro op K s v f h hs hc
  cases op with
  | insert key now =>
    refine Safe.bind (Safe.andThen (insertWithCapacity_safe timedFormat_lawful h hs key.2 now none) ?_)
    rintro ⟨s',r⟩ v' ho
    cases r with
    | error e => exact answer ho nofun (fun _ => rfl)
    | ok r =>
      cases r with
      | inserted => exact answer ho (fun _ => rfl) (fun hr => absurd rfl hr)
      | alreadyPresent | capacityReached => exact answer ho nofun (fun _ => rfl)
  | insertIfBelowCapacity key now me =>
    refine Safe.andThen (insertWithCapacity_safe timedFormat_lawful h hs key.2 now (some me)) ?_
    rintro ⟨s',r⟩ v' ho
    refine answer ho ?_ ?_
    · rintro rfl
      rfl
    · intro hr
      cases r with
      | error e => rfl
      | ok r =>
        cases r with
        | inserted => exact absurd rfl hr
        | alreadyPresent | capacityReached => rfl
  | pruneOlderThan c =>
    refine Safe.andThen (retainValues_safe timedFormat_lawful h hs (notOlder c) ?_) ?_
    · intro k x hk
      exact hc c rfl k x hk
    · rintro ⟨s',r⟩ v' ⟨hn,hl,hec⟩
      exact ⟨nofun,fun _ => ⟨hn,hl⟩,hec⟩

variable {V P Op Reply : Type}
structure KeepsAccepted (api : Api N V P Op Reply) (keep : P → V → Bool) (v0 : Volume N) : Prop where
  /-- A key reported inserted and not covered by a later prune is in every later store. -/
  survives : ∀ es env s v', api.openSet.run env (run api v0 es).volume=(.done s,v') →
    ∀ newer k x older, (run api v0 es).log=newer++.inserted k x::older →
      (∀ p, .pruned p∈newer → keep p x=true) → s.seen.get k=some x
  /-- A key is reported inserted once, unless a prune covers it in between. -/
  once : ∀ es, InsertsOnce keep (run api v0 es).log
  /-- Without failures since it was opened, a set is the same after a restart. -/
  reopens : ∀ es qs s, (run api v0 es).live=none → (∀ e∈qs, e.Quiet) → (run api v0 (es++qs)).live=some s →
    ∃ s', (run api v0 (es++qs++[.kill,.openSet fun _ => .ok])).live=some s' ∧ ∀ k, s'.seen.get k=s.seen.get k

lemma keepsAccepted [DecidableEq V] {F : Format V} {path : LogPath N} {keep : P → V → Bool}
    {api : Api N V P Op Reply} (hF : F.Lawful) (ha : api.Sound keep F path) {v0 : Volume N}
    (h0 : v0.Scratch path.compactTmp path.file) : KeepsAccepted api keep v0 := by
  refine ⟨?_,fun es => (run_sound hF ha h0 es).once,?_⟩
  · intro es env s v' hr nw k x o hl hk
    have hout:=(openSet_safe hF (run_sound hF ha h0 es).inv).run env fun _ => faulty_of_failed
    rw [← ha.openSet_eq,hr] at hout
    have ho : Opened F path (Kept keep (run api v0 es).log) _ s v' := hout
    apply ho.live.retains
    rw [hl]
    exact kept_of_split hk
  · intro es qs s hn hq hs
    have hst : (run api v0 es).Exact F path := by
      intro s' hs'
      rw [hn] at hs'
      cases hs'
    have he:=quiet_exact hF ha (run_sound hF ha h0 es) hst hq
    rw [← run_append] at he
    rw [run_append _ _ (es++qs)]
    exact reopen_exact hF ha (run_sound hF ha h0 (es++qs)) (he s hs)

structure RespectsCapacity (path : LogPath N) (v0 : Volume N) : Prop where
  bounded : ∀ es s, (run (TimedDurableSet.api path) v0 es).live=some s →
    ∀ (key : Str) now maxEntries env s' r v',
      (TimedDurableSet.insertIfBelowCapacity key.1 now maxEntries s).run env
        (run (TimedDurableSet.api path) v0 es).volume=(.done (s',r),v') →
      s'.len ≤ s.len ∨ s'.len ≤ maxEntries
  present : ∀ es s, (run (TimedDurableSet.api path) v0 es).live=some s →
    ∀ key now maxEntries env (v : Volume N), s.contains key=true →
      (TimedDurableSet.insertIfBelowCapacity key now maxEntries s).run env v =
        (.done (s,.ok .alreadyPresent),v)

lemma respectsCapacity (path : LogPath N) {v0 : Volume N}
    (h0 : v0.Scratch path.compactTmp path.file) : RespectsCapacity path v0 := by
  constructor
  · intro es s _ key now me env s' r v' hr
    have ho:=(insertWithCapacity_len timedFormat key.1 now me s
      (run (api path) v0 es).volume).run env fun _ _ => trivial
    rw [insertIfBelowCapacity] at hr
    rw [hr] at ho
    exact ho
  · intro es s hs key now me env v hk
    have hl:=(run_sound timedFormat_lawful (api_sound path) h0 es).live s hs
    obtain ⟨x,hx⟩ := Option.isSome_iff_exists.mp hk
    have ha:=(hl.accepted key x hx).1
    have hc : s.seen.contains key := hk
    simp only [insertIfBelowCapacity,insertWithCapacity,ha,hc]
    rfl

/-- Accepted keys survive failures, kills and crashes, in both sets. -/
theorem durableSets_keep_accepted (path : LogPath N) (v0 : Volume N)
    (h0 : v0.Scratch path.compactTmp path.file) :
    KeepsAccepted (DurableSet.api path) unpruned v0 ∧
    KeepsAccepted (TimedDurableSet.api path) notOlder v0 ∧ RespectsCapacity path v0 :=
  ⟨keepsAccepted setFormat_lawful (DurableSet.api_sound path) h0,
    keepsAccepted timedFormat_lawful (TimedDurableSet.api_sound path) h0,respectsCapacity path h0⟩
end

def pendingPath : LogPath Bool := ⟨false,true,"pending.log",false,by decide⟩
def pendingKey : Str := ⟨ascii "nil-7",by decide⟩

/-- A reference accepted at 500, a prune at 400 whose directory sync fails, a crash
that takes the rename back. -/
def pendingRun : List (Event TimedOp) :=
  [.openSet fun _ => .ok,.call (.insert ⟨ascii "old",by decide⟩ 300) fun _ => .ok,
   .call (.insertIfBelowCapacity pendingKey 500 2) fun _ => .ok,
   .call (.pruneOlderThan 400) fun i => if i=4 then .fail 0 else .ok,
   .crash (fun _ => 0) 1]

theorem durableSets_keep_accepted_pending :
    (Volume.empty : Volume Bool).Scratch pendingPath.compactTmp pendingPath.file ∧
    (∃ s v', (TimedDurableSet.open pendingPath).run (fun _ => .ok)
      (run (TimedDurableSet.api pendingPath) Volume.empty pendingRun).volume=(.done s,v') ∧
      s.seen.get pendingKey.1=some 500) := by
  have hall:=durableSets_keep_accepted pendingPath Volume.empty (Volume.scratch_empty _ _)
  refine ⟨Volume.scratch_empty _ _,_,_,rfl,?_⟩
  exact hall.2.1.survives pendingRun (fun _ => .ok) _ _ rfl [.pruned 400] pendingKey.1 500
    [.inserted (ascii "old") 300] rfl (by simp [notOlder])
end NilVpn.Durable
