import NilVpn.Durable.Visible
import NilVpn.Portal.Cards
import NilVpn.Portal.Issue

/-!
# Refunds are final

The Portal restarts at any time: the confirmations are gone then, the revoked set is opened from its file,
and the rest of the Portal comes back in any state.
-/

namespace NilVpn.Portal.Cards.Refunds
open CardWatcher Base
open Program (Safe)
open Durable (DurableSet KeySet LogPath Retains Recorded setFormat setFormat_lawful
  insertWithCapacity_recorded insertWithCapacity_seen openSet_recorded)
open Portal.Issue (IssueRequest)

inductive Report
  | sawPending (reference : Bytes)
  | revoked (reference : Bytes)
  | restarted
  deriving DecidableEq

/-- A call of `issue_logic` and how far its question to the watcher has come. -/
structure IssueCall where
  call : Issue.Call
  asking : QueryPhase
  started : ℕ

structure World (N : Type) where
  backend : Backend
  pending : Table Bytes UInt64
  issued : Table Bytes Unit
  card : CardWatcher N
  calls : List Call
  issues : List IssueCall
  up : Bool
  log : List Report

inductive Event
  | start (request : Request)
  | step (i : ℕ) (fates : ℕ → Fate)
  | startIssue (request : IssueRequest) (now : UInt64)
  | stepIssue (i : ℕ) (io : Io) (signed : Except String Bytes)
  | pruneIssuanceResults (now : UInt64) (io : Io)
  | setPending (pending : Table Bytes UInt64)
  | restart (backend : Backend) (pending : Table Bytes UInt64) (issued : Table Bytes Unit)
      (fates : ℕ → Fate)

def reports : Call → Call → List Report
  | .confirm reference .checkingPending,.confirm _ .inserting => [.sawPending reference.val]
  | .revoke reference .removing,.revoke _ (.done (.ok ())) => [.revoked reference.val]
  | _,_ => []

section
variable {N : Type} [DecidableEq N] (codec : Codec)
  (sha256 : Bytes → Hash) (path : LogPath N)
def World.tokens (w : World N) (answer : Bool) : Issue.World :=
  ⟨w.backend,w.pending,w.issued,fun _ => answer,[]⟩

def World.issue (w : World N) (c : IssueCall) (io : Io) (signed : Except String Bytes) :
    Backend × IssueCall :=
  match c.call.phase with
  | .checkingPayment =>
    match w.card.look c.call.request.paymentId c.asking with
    | .done answer =>
      let r:=(w.tokens answer).advance codec sha256 c.call io signed
      (r.1,{c with call := r.2,asking := .done answer})
    | asking => (w.backend,{c with asking := asking})
  | _ =>
    -- no other phase looks at the answer
    let r:=(w.tokens false).advance codec sha256 c.call io signed
    (r.1,{c with call := r.2})

def World.restarted (w : World N) (backend : Backend) (pending : Table Bytes UInt64)
    (issued : Table Bytes Unit) : Option (DurableSet N) × Volume N → World N
  | (some set,v) => ⟨backend,pending,issued,.new ⟨set,v⟩,[],[],true,w.log++[.restarted]⟩
  | (none,v) => ⟨backend,pending,issued,.new ⟨.inMemory,v⟩,[],[],false,w.log++[.restarted]⟩

def World.act (w : World N) : Event → World N
  | .start request => {w with calls := w.calls++[request.call]}
  | .step i fates =>
    match w.calls[i]? with
    | none => w
    | some c =>
      let r:=w.card.advance w.pending fates c
      {w with card := r.1,calls := w.calls.set i r.2,log := w.log++reports c r.2}
  | .startIssue request now =>
    { w with issues := w.issues ++
      [⟨⟨request,now,Issue.startPhase request,[],[]⟩,.checkingRevoked,w.log.length⟩] }
  | .stepIssue i io signed =>
    match w.issues[i]? with
    | none => w
    | some c =>
      let r:=w.issue codec sha256 c io signed
      {w with backend := r.1,issues := w.issues.set i r.2}
  | .pruneIssuanceResults now io =>
    {w with backend := (w.backend.perform codec io none fun s => s.pruneIssuanceResults now).1}
  | .setPending pending => {w with pending := pending}
  | .restart backend pending issued fates =>
    w.restarted backend pending issued (reopen (DurableSet.open path) fates w.card.revoked.volume)

def Event.isRestart : Event → Bool
  | .restart _ _ _ _ => true
  | _ => false

/-- While the Portal is down, only a restart does anything. -/
def World.step (w : World N) (e : Event) : World N :=
  if w.up||e.isRestart then w.act codec sha256 path e else w

def World.run (w : World N) (es : List Event) : World N :=
  runFrom (World.step codec sha256 path) w es
end
section
variable {N : Type} [DecidableEq N] {path : LogPath N}
structure Inserted (path : LogPath N) (t : RevokedSet N) (key : Bytes)
    (out : RevokedSet N × Except IoError Bool) : Prop where
  recorded : Recorded setFormat path out.1.set out.1.volume
  grows : ∀ k, t.contains k=true → out.1.contains k=true
  ok : ∀ b, out.2=.ok b → out.1.contains key=true
  error : ∀ e, out.2=.error e → ∀ k, out.1.contains k=t.contains k

lemma insert_inserted {t : RevokedSet N} (h : Recorded setFormat path t.set t.volume) (f : ℕ → Fate)
    (key : Bytes) : Inserted path t key (t.insert f key) := by
  have hbt:=(insertWithCapacity_recorded setFormat_lawful h key () none).and
    (insertWithCapacity_seen setFormat key () none t.set t.volume)
  have hsf : Safe True (fun _ => True)
      (fun out v' => Inserted path t key (⟨out.1,v'⟩,out.2)) (fun _ _ => False)
      (DurableSet.insert key t.set) t.volume := by
    refine Safe.bind (hbt.mono (fun _ _ => trivial) ?_ (fun _ _ hv => hv.1))
    rintro ⟨s',r⟩ v' ⟨⟨hre,hok⟩,hn⟩
    dsimp only at hre hok hn
    refine ⟨hre,?_,?_,?_⟩
    · intro k hk
      rcases hn with ⟨-,hs⟩ | ⟨-,hs⟩
      · simp only [RevokedSet.contains,KeySet.contains,hs,Table.contains]
        exact Option.isSome_iff_ne_none.mpr
          (Table.get_insert_ne_none (Option.isSome_iff_ne_none.mp hk) key ())
      · simp only [RevokedSet.contains,KeySet.contains,hs]
        exact hk
    · intro b hb
      cases r with
      | error e => cases hb
      | ok an => exact Option.isSome_iff_ne_none.mpr (hok rfl an rfl)
    · intro e he k
      rcases hn with ⟨hr,-⟩ | ⟨-,hs⟩
      · rw [hr] at he
        cases he
      · simp only [RevokedSet.contains,KeySet.contains,hs]
  obtain ⟨out,v',hu,ho⟩ := run_done hsf f
  rw [RevokedSet.insert,hu]
  exact ho

lemma reopen_shows {K : Bytes → Prop} {v : Volume N} (f : ℕ → Fate)
    (h : Retains setFormat path (fun k _ => K k) (v.visible path.file)) :
    (∀ s, (reopen (DurableSet.open path) f v).1=some s →
      Recorded setFormat path s (reopen (DurableSet.open path) f v).2 ∧ ∀ k, K k → s.contains k) ∧
    ((reopen (DurableSet.open path) f v).1=none →
      Retains setFormat path (fun k _ => K k) ((reopen (DurableSet.open path) f v).2.visible path.file)) := by
  have hrun:=(openSet_recorded setFormat_lawful h).run (fun i => (f i).verdict) fun _ _ => trivial
  have he:=(DurableSet.open path).run_ends (fun i => (f i).verdict_ne_kill) v
  unfold reopen
  change Program.Meets _ _ _ ((DurableSet.open path).run (fun i => (f i).verdict) v) at hrun
  generalize (DurableSet.open path).run (fun i => (f i).verdict) v=out at hrun he ⊢
  obtain ⟨o,v'⟩ := out
  cases o with
  | done s =>
    obtain ⟨hr,hkp⟩ := hrun
    refine ⟨?_,fun hn => (by cases hn)⟩
    intro s' hs'
    cases hs'
    refine ⟨hr,?_⟩
    intro k hk
    rw [KeySet.contains,Table.contains,hkp k () hk]
    rfl
  | error e => exact ⟨fun s hs => (by cases hs),fun _ => hrun⟩
  | killed => exact absurd rfl he
end

/-- A confirm has seen the reference in the pending set since the last restart. -/
def SawPending (log : List Report) (reference : Bytes) : Prop :=
  ∃ older newer, log=older++.sawPending reference::newer ∧ .restarted∉newer

lemma SawPending.append {log : List Report} {reference : Bytes} (h : SawPending log reference)
    {m : List Report} (hm : .restarted∉m) : SawPending (log++m) reference := by
  obtain ⟨o,nw,hl,hn⟩ := h
  refine ⟨o,nw++m,?_,?_⟩
  · rw [hl,List.append_assoc,List.cons_append]
  · simp [hn,hm]

def unconfirmed : Issue.Phase → Bool
  | .signing | .committing _ => false
  | .looking | .checkingPending | .checkingIssued | .checkingPayment | .done _ => true

def CallSound (log : List Report) (revoked : Bytes → Bool) : Call → Prop
  | .confirm reference .inserting => SawPending log reference.val
  | .revoke reference .removing => revoked reference.val=true
  | _ => True

def IssueCall.Late (log : List Report) (c : IssueCall) : Prop :=
  .revoked c.call.request.paymentId∈log.take c.started

/-- A call that starts after the refund gets nowhere. -/
structure IssueCall.Sound (log : List Report) (c : IssueCall) : Prop where
  started : c.started≤log.length
  late : c.Late log → unconfirmed c.call.phase=true ∧ c.call.stored=[] ∧
    (c.asking=.checkingRevoked ∨ c.asking=.done false)

structure World.Sound {N : Type} (path : LogPath N) (w : World N) : Prop where
  retained : Retains setFormat path (fun k _ => .revoked k∈w.log) (w.card.revoked.volume.visible path.file)
  recorded : w.up=true → Recorded setFormat path w.card.revoked.set w.card.revoked.volume
  known : w.up=true → ∀ k, .revoked k∈w.log → w.card.revoked.contains k=true
  down : w.up=false → ∀ k, w.card.confirmed.contains k=false
  confirmed : ∀ k, w.card.confirmed.contains k=true → SawPending w.log k
  calls : ∀ c∈w.calls, CallSound w.log w.card.revoked.contains c
  issues : ∀ c∈w.issues, c.Sound w.log

section
variable {N : Type} {path : LogPath N} {w : World N}
lemma CallSound.mono {log log' : List Report} {b revoked' : Bytes → Bool} {c : Call}
    (h : CallSound log b c) (hl : ∀ r, SawPending log r → SawPending log' r)
    (hr : ∀ k, b k → revoked' k) : CallSound log' revoked' c := by
  cases c with
  | confirm rf ph =>
    cases ph with
    | inserting => exact hl _ h
    | checkingRevoked | checkingPending | done ac => trivial
  | revoke rf ph =>
    cases ph with
    | removing => exact hr _ h
    | inserting | done rs => trivial
  | isConfirmed pa ph => trivial

lemma IssueCall.Sound.append {log : List Report} {c : IssueCall} (h : c.Sound log)
    (m : List Report) : c.Sound (log++m) := by
  refine ⟨?_,?_⟩
  · rw [List.length_append]
    exact Nat.le_add_right_of_le h.started
  · intro hl
    apply h.late
    rw [IssueCall.Late,List.take_append_of_le_length h.started] at hl
    exact hl
end
section
variable {N : Type} [DecidableEq N] {path : LogPath N} {card : CardWatcher N} {log : List Report}
structure Moved (path : LogPath N) (log : List Report) (card : CardWatcher N) (c : Call)
    (out : CardWatcher N × Call) : Prop where
  recorded : Recorded setFormat path out.1.revoked.set out.1.revoked.volume
  grows : ∀ k, card.revoked.contains k=true → out.1.revoked.contains k=true
  quiet : .restarted∉reports c out.2
  revoked : ∀ k, .revoked k∈reports c out.2 → out.1.revoked.contains k=true
  confirmed : ∀ k, out.1.confirmed.contains k=true → card.confirmed.contains k=true ∨ SawPending log k
  call : CallSound (log++reports c out.2) out.1.revoked.contains out.2

lemma contains_insert {t : Table Bytes Unit} {k j : Bytes} (h : (t.insert j ()).contains k) :
    t.contains k ∨ k=j := by
  grind [Table.contains,Table.get_insert]

lemma contains_erase {t : Table Bytes Unit} {k j : Bytes} (h : (t.erase j).contains k) :
    t.contains k := by
  rw [Table.contains,Table.get_erase] at h
  split at h
  · cases h
  · exact h

omit [DecidableEq N] in
lemma Moved.still (h : Recorded setFormat path card.revoked.set card.revoked.volume) {c c' : Call}
    (hr : reports c c'=[]) (hc : CallSound log card.revoked.contains c') :
    Moved path log card c (card,c') := by
  refine ⟨h,fun _ => id,?_,?_,fun _ => .inl,?_⟩
  · rw [hr]
    exact List.not_mem_nil
  · intro k hk
    rw [hr] at hk
    cases hk
  · rw [hr,List.append_nil]
    exact hc

omit [DecidableEq N] in
lemma confirm_moved (h : Recorded setFormat path card.revoked.set card.revoked.volume)
    (p : Table Bytes UInt64) (r : Str) (c : ConfirmPhase)
    (hc : CallSound log card.revoked.contains (.confirm r c)) :
    Moved path log card (.confirm r c) ((card.confirm p r.val c).1,
        .confirm r (card.confirm p r.val c).2) := by
  cases c with
  | checkingRevoked =>
    simp only [confirm]
    split
    · exact .still h rfl trivial
    · exact .still h rfl trivial
  | checkingPending =>
    simp only [confirm]
    split
    · refine ⟨h,fun _ => id,by simp [reports],fun k hk => ?_,fun _ => .inl,?_⟩
      · simp [reports] at hk
      · exact ⟨log,[],rfl,List.not_mem_nil⟩
    · exact .still h rfl trivial
  | inserting =>
    refine ⟨h,fun _ => id,List.not_mem_nil,fun k hk => (by cases hk),?_,trivial⟩
    intro k hk
    rcases contains_insert hk with hk | hk
    · exact .inl hk
    · rw [hk]
      exact .inr hc
  | done ac => exact .still h rfl trivial

section
variable (h : Recorded setFormat path card.revoked.set card.revoked.volume)
include h
lemma revoke_moved (f : ℕ → Fate) (r : Str) (p : RevokePhase)
    (hc : CallSound log card.revoked.contains (.revoke r p)) :
    Moved path log card (.revoke r p) ((card.revoke f r.val p).1,
        .revoke r (card.revoke f r.val p).2) := by
  cases p with
  | inserting =>
    have hins:=insert_inserted h f r.val
    simp only [revoke]
    cases hr : (card.revoked.insert f r.val).2 with
    | error e =>
      exact ⟨hins.recorded,hins.grows,List.not_mem_nil,nofun,
        fun _ => .inl,trivial⟩
    | ok b =>
      exact ⟨hins.recorded,hins.grows,List.not_mem_nil,nofun,
        fun _ => .inl,hins.ok b hr⟩
  | removing =>
    refine ⟨h,fun _ => id,by simp [revoke,reports],?_,?_,trivial⟩
    · intro k hk
      obtain rfl : k=r.val := by simpa [revoke,reports] using hk
      exact hc
    · exact fun k hk => .inl (contains_erase hk)
  | done re => exact .still h (by cases re <;> rfl) trivial

lemma advance_moved (p : Table Bytes UInt64) (f : ℕ → Fate) (c : Call)
    (hc : CallSound log card.revoked.contains c) :
    Moved path log card c (card.advance p f c) := by
  cases c with
  | confirm re ph => exact confirm_moved h p re ph hc
  | revoke re ph => exact revoke_moved h f re ph hc
  | isConfirmed pa ph => exact .still h rfl trivial

lemma revoke_error (p : Table Bytes UInt64) (f : ℕ → Fate) (r : Str) (phase : RevokePhase) {e : IoError}
    (he : (card.advance p f (.revoke r phase)).2=.revoke r (.done (.error e)))
    (k : Bytes) :
    (card.advance p f (.revoke r phase)).1.isConfirmed k=card.isConfirmed k := by
  cases phase with
  | inserting =>
    have hins:=insert_inserted h f r.val
    cases hr : (card.revoked.insert f r.val).2 with
    | ok b => simp [advance,revoke,hr] at he
    | error e' => simp only [advance,revoke,isConfirmed,hins.error e' hr k]
  | removing => simp [advance,revoke] at he
  | done re => rfl
end
end
section
variable {N : Type} [DecidableEq N] (codec : Codec) (sha256 : Bytes → Hash)
lemma advance_unconfirmed (w : Issue.World) (c : Issue.Call) (io : Io) (s : Except String Bytes)
    (hno : w.watcher c.request.paymentId=false) (hc : unconfirmed c.phase) :
    unconfirmed (w.advance codec sha256 c io s).2.phase ∧
      (w.advance codec sha256 c io s).2.stored=c.stored := by
  cases hp : c.phase with
  | looking =>
    simp only [Issue.World.advance,hp]
    refine ⟨?_,trivial⟩
    unfold Issue.lookupPhase
    split
    all_goals rfl
  | checkingPending =>
    simp only [Issue.World.advance,hp]
    exact ⟨by split <;> rfl,trivial⟩
  | checkingIssued =>
    simp only [Issue.World.advance,hp]
    exact ⟨by split <;> rfl,trivial⟩
  | checkingPayment =>
    simp only [Issue.World.advance,hp,hno]
    exact ⟨rfl,trivial⟩
  | signing | committing bs =>
    rw [hp] at hc
    cases hc
  | done re =>
    simp only [Issue.World.advance,hp]
    exact ⟨rfl,trivial⟩

omit [DecidableEq N] in
lemma look_late {w : World N} {c : IssueCall} (hc : c.Sound w.log) (hl : c.Late w.log)
    (hk : ∀ k, .revoked k∈w.log → w.card.revoked.contains k) :
    w.card.look c.call.request.paymentId c.asking=.done false := by
  have hr:=hk _ (List.mem_of_mem_take hl)
  obtain ⟨-,-,ha⟩ := hc.late hl
  rcases ha with ha | ha
  · rw [ha,look,if_pos hr]
  · rw [ha,look]

omit [DecidableEq N] in
lemma IssueCall.Sound.advance {w : World N} {c : IssueCall} (hc : c.Sound w.log) (io : Io)
    (s : Except String Bytes) {answer : Bool} {a : QueryPhase}
    (han : c.Late w.log → answer=false ∧ (a=.checkingRevoked ∨ a=.done false)) :
    IssueCall.Sound w.log { c with
      call := ((w.tokens answer).advance codec sha256 c.call io s).2
      asking := a } := by
  have hr:=(Issue.advance_frame codec sha256 (w.tokens answer) c.call io s).1
  refine ⟨hc.started,?_⟩
  intro hl
  rw [IssueCall.Late,hr] at hl
  obtain ⟨hp,hs,-⟩ := hc.late hl
  obtain ⟨hno,ha⟩ := han hl
  obtain ⟨hp',hs'⟩ := advance_unconfirmed codec sha256 (w.tokens answer) c.call io s hno hp
  exact ⟨hp',hs'.trans hs,ha⟩

omit [DecidableEq N] in
/-- The question is asked only at the payment check; for a refunded reference its answer is no. -/
lemma issue_sound {w : World N} {c : IssueCall} (hc : c.Sound w.log)
    (hk : ∀ k, .revoked k∈w.log → w.card.revoked.contains k) (io : Io)
    (s : Except String Bytes) : (w.issue codec sha256 c io s).2.Sound w.log := by
  unfold World.issue
  split
  · split
    next an hlk => grind [look_late,hc.advance]
    next hlk =>
      refine ⟨hc.started,?_⟩
      intro hl
      exact absurd (look_late hc hl hk) (hlk false)
  · exact hc.advance codec sha256 io s fun hl => ⟨rfl,(hc.late hl).2.2⟩
end
section
variable {N : Type} [DecidableEq N] (codec : Codec) (sha256 : Bytes → Hash)
  {path : LogPath N} {w : World N}
omit [DecidableEq N] in
lemma retains_of_known {log : List Report} {t : RevokedSet N}
    (h : Recorded setFormat path t.set t.volume) (hkn : ∀ k, .revoked k∈log → t.contains k) :
    Retains setFormat path (fun k _ => .revoked k∈log) (t.volume.visible path.file) := by
  refine h.retains.mono ?_
  intro k x hk
  obtain ⟨u,hu⟩ := Option.isSome_iff_exists.mp (hkn k hk)
  exact hu

section
variable (hw : w.Sound path)
include hw
lemma step_call_sound (hu : w.up) (i : ℕ) (f : ℕ → Fate) :
    (w.act codec sha256 path (.step i f)).Sound path := by
  simp only [World.act]
  cases hi : w.calls[i]? with
  | none => exact hw
  | some c =>
    have hm:=advance_moved (hw.recorded hu) w.pending f c (hw.calls c (List.mem_of_getElem? hi))
    dsimp only
    generalize w.card.advance w.pending f c=out at hm ⊢
    have hn : ∀ k, .revoked k∈w.log++reports c out.2 → out.1.revoked.contains k := by
      intro k hk
      rcases List.mem_append.mp hk with hk | hk
      · exact hm.grows k (hw.known hu k hk)
      · exact hm.revoked k hk
    refine ⟨retains_of_known hm.recorded hn,fun _ => hm.recorded,fun _ => hn,?_,?_,
      forall_replaced ?_ hm.call,?_⟩
    · intro hdw
      rw [hu] at hdw
      cases hdw
    · intro k hk
      rcases hm.confirmed k hk with hk | hk
      · exact (hw.confirmed k hk).append hm.quiet
      · exact hk.append hm.quiet
    · intro d hd
      exact (hw.calls d hd).mono (fun _ hr => hr.append hm.quiet) hm.grows
    · intro d hd
      exact (hw.issues d hd).append _

lemma restarted_sound (b : Backend) (p : Table Bytes UInt64) (iss : Table Bytes Unit) (f : ℕ → Fate) :
    (w.act codec sha256 path (.restart b p iss f)).Sound path := by
  obtain ⟨hs,hn⟩ := reopen_shows (K := fun k => .revoked k∈w.log) f hw.retained
  have hl : ∀ k, Report.revoked k∈w.log++[.restarted] → .revoked k∈w.log := by
    intro k hk
    simpa using hk
  simp only [World.act]
  generalize reopen (DurableSet.open path) f w.card.revoked.volume=out at hs hn ⊢
  obtain ⟨set,v⟩ := out
  have he : ∀ t : RevokedSet N, ∀ k, (new t).confirmed.contains k=false := fun _ _ => rfl
  cases set with
  | some s =>
    obtain ⟨hr,hkp⟩ := hs s rfl
    have hkn : ∀ k, .revoked k∈w.log++[.restarted] → s.contains k := fun k hk => hkp k (hl k hk)
    refine ⟨retains_of_known (t := ⟨s,v⟩) hr hkn,fun _ => hr,fun _ => hkn,
      fun _ => he _,?_,nofun,nofun⟩
    intro k hk
    rw [World.restarted,he] at hk
    cases hk
  | none =>
    refine ⟨(hn rfl).mono fun k _ hk => hl k hk,nofun,nofun,
      fun _ => he _,?_,nofun,nofun⟩
    intro k hk
    rw [World.restarted,he] at hk
    cases hk

lemma act_sound (e : Event) (hu : w.up ∨ e.isRestart) : (w.act codec sha256 path e).Sound path := by
  cases e with
  | restart ba pe iss f => exact restarted_sound codec sha256 hw ..
  | start re =>
    refine {hw with calls := ?_}
    intro c hc
    rcases List.mem_append.mp hc with hc | hc
    · exact hw.calls c hc
    · rw [List.mem_singleton.mp hc]
      cases re with
      | confirm rf | revoke rf | isConfirmed pa => trivial
  | step i f => exact step_call_sound codec sha256 hw (hu.resolve_right (by simp [Event.isRestart])) i f
  | startIssue re now =>
    refine {hw with issues := ?_}
    intro c hc
    rcases List.mem_append.mp hc with hc | hc
    · exact hw.issues c hc
    · rw [List.mem_singleton.mp hc]
      refine ⟨Nat.le_refl _,fun _ => ⟨?_,rfl,.inl rfl⟩⟩
      dsimp only [Issue.startPhase]
      split
      all_goals rfl
  | stepIssue i io si =>
    have hk:=hw.known (hu.resolve_right (by simp [Event.isRestart]))
    simp only [World.act]
    cases hi : w.issues[i]? with
    | none => exact hw
    | some c =>
      have hc:=issue_sound codec sha256 (hw.issues c (List.mem_of_getElem? hi)) hk io si
      exact {hw with issues := forall_replaced hw.issues hc}
  | pruneIssuanceResults | setPending => exact {hw with}

lemma step_sound (e : Event) : (w.step codec sha256 path e).Sound path := by
  grind [World.step,act_sound]

lemma run_sound (es : List Event) : (w.run codec sha256 path es).Sound path :=
  run_invariant (I := World.Sound path) (fun _ e hw => step_sound codec sha256 hw e) hw es
end
end

/-- The Portal has not been started yet; the file of the revoked set is any file. -/
structure World.Starts {N : Type} (w : World N) : Prop where
  up : w.up=false
  confirmed : ∀ k, w.card.confirmed.contains k=false
  calls : w.calls=[]
  issues : w.issues=[]
  log : w.log=[]

lemma World.Starts.sound {N : Type} {w : World N} (h : w.Starts) (path : LogPath N) : w.Sound path where
  retained := by
    intro k x hk
    rw [h.log] at hk
    cases hk
  recorded := by
    intro hu
    rw [h.up] at hu
    cases hu
  known := by
    intro hu
    rw [h.up] at hu
    cases hu
  down := fun _ => h.confirmed
  confirmed := by
    intro k hk
    rw [h.confirmed] at hk
    cases hk
  calls := by
    intro c hc
    rw [h.calls] at hc
    cases hc
  issues := by
    intro c hc
    rw [h.issues] at hc
    cases hc

lemma World.Sound.revoked_stays {N : Type} {path : LogPath N} {w : World N} (hw : w.Sound path) {k : Bytes}
    (hk : .revoked k∈w.log) : w.card.isConfirmed k=false ∧
      (w.up → w.card.look k .checkingRevoked=.done false) := by
  cases hup : w.up with
  | false => simp_all [isConfirmed,hw.down,ite_self]
  | true =>
    have hkn:=hw.known hup k hk
    exact ⟨if_pos hkn,fun _ => if_pos hkn⟩

lemma World.Sound.confirmed_saw {N : Type} {path : LogPath N} {w : World N} (hw : w.Sound path) {k : Bytes}
    (hk : w.card.isConfirmed k) : SawPending w.log k := by
  unfold isConfirmed at hk
  split at hk
  · cases hk
  · exact hw.confirmed k hk

/-- The four parts: no later question about a refunded reference is answered yes, neither at
once nor step by step; no call of `issue_logic` that starts later stores a token for it; a
refund that failed takes no confirmation back; a confirmation comes from a confirm that
saw the reference pending, with no restart since. -/
theorem refunds_are_final {N : Type} [DecidableEq N] (codec : Codec)
    (sha256 : Bytes → Hash) (path : LogPath N) (w : World N) (hw : w.Starts) (es : List Event) :
    (∀ r, .revoked r∈(w.run codec sha256 path es).log →
      (w.run codec sha256 path es).card.isConfirmed r=false ∧
      ((w.run codec sha256 path es).up=true →
        (w.run codec sha256 path es).card.look r .checkingRevoked=.done false)) ∧
    (∀ c∈(w.run codec sha256 path es).issues,
      .revoked c.call.request.paymentId∈(w.run codec sha256 path es).log.take c.started →
        c.call.stored=[]) ∧
    (∀ i fates reference phase e,
      (w.run codec sha256 path es).calls[i]?=some (.revoke reference phase) →
      (w.run codec sha256 path (es++[.step i fates])).calls[i]? =
        some (.revoke reference (.done (.error e))) →
      ∀ k, (w.run codec sha256 path (es++[.step i fates])).card.isConfirmed k =
        (w.run codec sha256 path es).card.isConfirmed k) ∧
    (∀ r, (w.run codec sha256 path es).card.isConfirmed r=true →
      SawPending (w.run codec sha256 path es).log r) := by
  have hsound:=run_sound codec sha256 (hw.sound path) es
  refine ⟨fun r hr => hsound.revoked_stays hr,fun c hc hl => ((hsound.issues c hc).late hl).2.1,?_,
    fun r hr => hsound.confirmed_saw hr⟩
  intro i fates reference phase e hi hd k
  have hn : w.run codec sha256 path (es++[.step i fates]) =
      (w.run codec sha256 path es).step codec sha256 path (.step i fates) := List.foldl_append
  rw [hn] at hd ⊢
  generalize w.run codec sha256 path es=w' at hsound hi hd ⊢
  cases hu : w'.up with
  | false => simp [World.step,hu,Event.isRestart]
  | true =>
    have hlt : i<w'.calls.length := (List.getElem?_eq_some_iff.mp hi).1
    simp only [World.step,hu,Bool.true_or,if_true,World.act,hi] at hd ⊢
    rw [List.getElem?_set_self hlt] at hd
    exact revoke_error (hsound.recorded hu) w'.pending fates reference phase (Option.some.inj hd) k

def order : Str := ⟨ascii "order",by decide⟩

def closedPortal : World Bool :=
  ⟨.memory StoreState.empty,Table.empty,Table.empty,.new ⟨.inMemory,Volume.empty⟩,[],[],false,[]⟩

lemma closedPortal_starts : closedPortal.Starts := ⟨rfl,fun _ => rfl,rfl,rfl,rfl⟩

/-- The first refund meets a failing append, the second one is recorded; then the Portal
restarts, and both a late confirmation and a late redemption come too late. -/
def refundedOrder : List Event :=
  let restart:=Event.restart (.memory StoreState.empty) (Table.empty.insert order.val 7) Table.empty
    fun _ => .ok
  let go:=fun i => Event.step i fun _ => .ok
  let issue:=Event.stepIssue 0 quietIo (.ok (List.replicate 256 5))
  [restart,.start (.confirm order),go 0,go 0,go 0,.start (.revoke order),.step 1 fun _ => .fail 0,
    restart,.start (.confirm order),go 0,go 0,.start (.revoke order),go 1,go 1,go 0,
    restart,.start (.confirm order),go 0,.startIssue ⟨order.val,List.replicate 512 48⟩ 100,
    issue,issue,issue,issue]

def refundedPortal : World Bool :=
  closedPortal.run blankCodec
    (fun _ => Block.fill 32 0) ⟨true,false,"revoked",false,by decide⟩ refundedOrder

theorem refundedOrder_final :
    refundedPortal.log=[.restarted,.sawPending order.val,.restarted,.sawPending order.val,
      .revoked order.val,.restarted] ∧
    refundedPortal.card.isConfirmed order.val=false ∧
    refundedPortal.issues.map (fun c => c.call.phase)=[.done (.error .unpaid)] := by
  have hl : refundedPortal.log=[.restarted,.sawPending order.val,.restarted,.sawPending order.val,
      .revoked order.val,.restarted] := by decide +kernel
  refine ⟨hl,?_,by decide +kernel⟩
  have hfinal:=refunds_are_final blankCodec
    (fun _ => Block.fill 32 0) ⟨true,false,"revoked",false,by decide⟩ closedPortal closedPortal_starts
    refundedOrder
  refine (hfinal.1 order.val ?_).1
  change Report.revoked order.val∈refundedPortal.log
  rw [hl]
  decide
end NilVpn.Portal.Cards.Refunds
