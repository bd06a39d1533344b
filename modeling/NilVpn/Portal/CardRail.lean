import NilVpn.Durable.Visible
import NilVpn.Portal.Cards
import NilVpn.Portal.References

/-!
# Which references the card rail covers

The Portal as `main` wires it (nil-portal/src/main.rs:439-501), with one composite of the Monero watcher and
the card watcher.
-/

namespace NilVpn.Portal.Cards.Rail
open CardWatcher Base Option List Table
open Program (Safe)
open Durable (DurableSet TimedDurableSet KeySet LogPath Format Inv Opened Admits admits_nil
  setFormat timedFormat setFormat_lawful timedFormat_lawful)
open Portal.Subscription (TimedSet)

structure Setup (N : Type) where
  codec : Codec
  sha256 : Bytes → Hash
  verify : Hash → Bytes → Block authSigLen → Bool
  hmac : Bytes → Bytes → Hash
  events : Bytes → Option WebhookEvent
  secret : Bytes
  (pendingPath bindingsPath revokedPath : LogPath N)

structure World (N : Type) where
  portal : Subscription.World N
  monero : Bytes → Bool
  card : CardWatcher N
  hooks : List Call
  up : Bool

/-- What a crash of the machine leaves of a volume; `none` without one. -/
abbrev Loss := Option ((ℕ → ℕ) × ℕ)

def Loss.of {N : Type} (loss : Loss) (v : Volume N) : Volume N :=
  match loss with
  | none => v
  | some (pickFile,pickDir) => v.crash pickFile pickDir

/-- A start of the Portal. What it does not read from the three files is arbitrary. -/
structure Boot where
  backend : Backend
  pendingCheckoutMax : ℕ
  (issued activated : Table Bytes Unit)
  monero : Bytes → Bool
  (pendingLoss bindingsLoss revokedLoss : Loss)
  (pendingFates bindingsFates revokedFates : ℕ → Fate)

inductive Event
  | portal (e : Subscription.Event)
  | webhook (headers : Headers) (body : Bytes)
  | step (i : ℕ) (fates : ℕ → Fate)
  | setMonero (monero : Bytes → Bool)
  | restart (boot : Boot)

def World.watcher {N : Type} (w : World N) : Bytes → Bool := anyConfirms [w.monero,w.card.isConfirmed]

def World.booted {N : Type} (w : World N) (boot : Boot) (pending bindings : TimedSet N)
    (revoked : RevokedSet N) (up : Bool) : World N where
  portal := { w.portal with
    backend := boot.backend
    pending := pending
    pendingCheckoutMax := boot.pendingCheckoutMax
    bindings := bindings
    issued := boot.issued
    activated := boot.activated
    challenges := Table.empty
    calls := [] }
  monero := boot.monero
  card := .new revoked
  hooks := []
  up := up

section
variable {N : Type} [DecidableEq N] (σ : Setup N)
/-- The first file that does not open ends the start. -/
def World.boot (w : World N) (boot : Boot) : World N :=
  let pending:=boot.pendingLoss.of w.portal.pending.volume
  let bindings:=boot.bindingsLoss.of w.portal.bindings.volume
  let revoked:=boot.revokedLoss.of w.card.revoked.volume
  match reopen (TimedDurableSet.open σ.pendingPath) boot.pendingFates pending with
  | (none,pending) => w.booted boot ⟨.inMemory,pending⟩ ⟨.inMemory,bindings⟩ ⟨.inMemory,revoked⟩ false
  | (some pendingSet,pending) =>
    match reopen (DurableSet.open σ.revokedPath) boot.revokedFates revoked with
    | (none,revoked) => w.booted boot ⟨.inMemory,pending⟩ ⟨.inMemory,bindings⟩ ⟨.inMemory,revoked⟩ false
    | (some revokedSet,revoked) =>
      match reopen (TimedDurableSet.open σ.bindingsPath) boot.bindingsFates bindings with
      | (none,bindings) =>
        w.booted boot ⟨.inMemory,pending⟩ ⟨.inMemory,bindings⟩ ⟨.inMemory,revoked⟩ false
      | (some bindingsSet,bindings) =>
        w.booted boot ⟨pendingSet,pending⟩ ⟨bindingsSet,bindings⟩ ⟨revokedSet,revoked⟩ true

def World.act (w : World N) : Event → World N
  | .portal e =>
    { w with portal :=
      {w.portal with watcher := w.watcher}.step σ.codec σ.sha256 σ.verify e }
  | .webhook headers body =>
    match Cards.webhook σ.hmac σ.events σ.secret headers body with
    | .error _ => w
    | .ok request => {w with hooks := w.hooks++[request.call]}
  | .step i fates =>
    match w.hooks[i]? with
    | none => w
    | some c =>
      let r:=w.card.advance w.portal.pending.seen fates c
      {w with card := r.1,hooks := w.hooks.set i r.2}
  | .setMonero monero => {w with monero := monero}
  | .restart boot => w.boot σ boot

def Event.isRestart : Event → Bool
  | .restart _ => true
  | _ => false

/-- While the Portal is down, only a restart does anything. -/
def World.step (w : World N) (e : Event) : World N := if w.up||e.isRestart then w.act σ e else w

def World.run (w : World N) (es : List Event) : World N := runFrom (World.step σ) w es
end

/-- A run, cut where a call of the Portal returns the reference, where the webhook arrives,
and where it has been processed. -/
structure Sale where
  before : List Event
  call : ℕ
  env : Subscription.Env
  waiting : List Event
  headers : Headers
  body : Bytes
  (processing after : List Event)

def returnedBy : Subscription.Call → Option Bytes
  | .checkout (.done (.ok reference)) => some reference
  | .subscribe _ (.done (.ok reference)) => some reference
  | _ => none

def returnedByCheckout : Subscription.Call → Option Bytes
  | .checkout (.done (.ok reference)) => some reference
  | _ => none

def Event.prunes (t : UInt64) : Event → Bool
  | .portal (.prunePending cutoff _) => t<cutoff
  | .portal (.pruneBindings cutoff _) => t<cutoff
  | _ => false

section
variable {N : Type} [DecidableEq N] (σ : Setup N)
def Event.refunds (reference : Str) : Event → Bool
  | .webhook headers body =>
    match Cards.webhook σ.hmac σ.events σ.secret headers body with
    | .ok (.revoke r) => r=reference
    | _ => false
  | _ => false

def Sale.returned (s : Sale) (w : World N) : World N :=
  (w.run σ s.before).step σ (.portal (.step s.call s.env))

def Sale.paid (s : Sale) (w : World N) : World N := (s.returned σ w).run σ s.waiting

def Sale.processed (s : Sale) (w : World N) : World N :=
  ((s.paid σ w).step σ (.webhook s.headers s.body)).run σ s.processing

def Sale.final (s : Sale) (w : World N) : World N := (s.processed σ w).run σ s.after

/-- The reference is returned, then confirmed with a correct signature; nothing covers it
with a prune until that is processed, and nothing refunds it. After the processing the
Portal does not restart any more. -/
structure Sale.Confirmed (returnedBy : Subscription.Call → Option Bytes) (w : World N) (s : Sale)
    (reference : Str) : Prop where
  fresh : ((w.run σ s.before).portal.calls[s.call]?).bind returnedBy=none
  returns : ((s.returned σ w).portal.calls[s.call]?).bind returnedBy=some reference.val
  signed : Cards.webhook σ.hmac σ.events σ.secret s.headers s.body=.ok (.confirm reference)
  done : ∃ accepted, (s.processed σ w).hooks[(s.paid σ w).hooks.length]? =
    some (.confirm reference (.done accepted))
  unpruned : ∀ e∈s.waiting++s.processing, e.prunes s.env.clock=false
  unrefunded : ∀ e∈s.before++s.waiting++s.processing++s.after, e.refunds σ reference=false
  steady : ∀ e∈s.processing++s.after, e.isRestart=false

/-- The Portal has not been started yet, and the file of the revoked set does not have the
reference. -/
structure World.Starts (w : World N) (reference : Str) : Prop where
  up : w.up=false
  hooks : w.hooks=[]
  pending : w.portal.pending.volume.Scratch σ.pendingPath.compactTmp σ.pendingPath.file
  revoked : Guarded σ.revokedPath.file σ.revokedPath.compactTmp
    (Durable.Admits Durable.setFormat σ.revokedPath fun k => k≠reference.val) w.card.revoked.volume
  unrevoked : w.card.revoked.contains reference.val=false

/-- Every confirmed reference of these calls is paid for both planes. -/
def Covers (returnedBy : Subscription.Call → Option Bytes) : Prop :=
  ∀ (w : World N) (s : Sale) (reference : Str), w.Starts σ reference →
    s.Confirmed σ returnedBy w reference → (s.final σ w).watcher reference.val=true
end
section
variable {N V : Type} [DecidableEq V] {F : Format V} {path : LogPath N} {K : Bytes → V → Prop}
variable {v : Volume N}
variable {P : Option Bytes → Prop}
lemma Loss.guarded (h : Guarded path.file path.compactTmp P v) (lo : Loss) :
    Guarded path.file path.compactTmp P (lo.of v) := by
  cases lo with
  | none => exact h
  | some pc => exact h.crash pc.1 pc.2

variable [DecidableEq N]
lemma reopen_live (hF : F.Lawful) (h : Inv F path K v) (f : ℕ → Fate) :
    Inv F path K (reopen (Durable.openSet F path) f v).2 ∧
      ∀ s, (reopen (Durable.openSet F path) f v).1=some s →
        Durable.Live F path K s (reopen (Durable.openSet F path) f v).2 ∧
        Durable.Exact F path s (reopen (Durable.openSet F path) f v).2 := by
  have hr:=(Durable.openSet_safe hF h).run (fun i => (f i).verdict) fun _ _ => True.intro
  unfold reopen
  generalize (Durable.openSet F path).run (fun i => (f i).verdict) v=out at hr ⊢
  obtain ⟨o,v'⟩ := out
  cases o with
  | done s =>
    have ho : Opened F path K v s v' := hr
    refine ⟨ho.inv,?_⟩
    intro s' hs'
    cases hs'
    exact ⟨ho.live,ho.exact⟩
  | error e => exact ⟨hr.1,nofun⟩
  | killed => exact ⟨hr,nofun⟩

lemma reopen_keeps (hn : P (some [])) (h : Guarded path.file path.compactTmp P v) (f : ℕ → Fate) :
    Guarded path.file path.compactTmp P (reopen (Durable.openSet F path) f v).2 := by
  have hr:=(Durable.openSet_keeps (F := F) hn v h).run (fun i => (f i).verdict) fun _ _ => trivial
  unfold reopen
  generalize (Durable.openSet F path).run (fun i => (f i).verdict) v=out at hr ⊢
  obtain ⟨o,v'⟩ := out
  cases o with
  | done | error | killed => exact hr
end
section
variable {N : Type} {path : LogPath N} {K : Bytes → UInt64 → Prop}
structure Holding (path : LogPath N) (K : Bytes → UInt64 → Prop) (up : Bool) (t : TimedSet N) : Prop where
  inv : Inv timedFormat path K t.volume
  live : up=true → Durable.Live timedFormat path K t.set t.volume

variable [DecidableEq N] {t : TimedSet N}
lemma Holding.take (h : Holding path K true t) (f : ℕ → Fate) {key : Bytes} (hu : isUtf8 key)
    (now : UInt64) (cap : ℕ) :
    Holding path (Durable.grown K key now (t.insertIfBelowCapacity f key now cap).2) true
      (t.insertIfBelowCapacity f key now cap).1 := by
  obtain ⟨out,v',hr,ho⟩ := run_done (p := TimedDurableSet.insertIfBelowCapacity key now cap t.set)
    (Durable.insertWithCapacity_safe timedFormat_lawful h.inv (h.live rfl) hu now (some cap)) f
  rw [TimedSet.insertIfBelowCapacity,TimedSet.run,hr]
  exact ⟨ho.inv,fun _ => ho.live⟩

lemma Holding.prune (h : Holding path K true t) (f : ℕ → Fate) {c : UInt64}
    (hkp : ∀ k x, K k x → c≤x) : Holding path K true (t.pruneOlderThan f c) := by
  obtain ⟨out,v',hr,ho⟩ := run_done (p := TimedDurableSet.pruneOlderThan c t.set)
    (Durable.retainValues_safe timedFormat_lawful h.inv (h.live rfl) (fun x => decide (c≤x))
      fun k x hk => decide_eq_true (hkp k x hk)) f
  rw [TimedSet.pruneOlderThan,TimedSet.run,hr]
  exact ⟨ho.inv,fun _ => ho.live⟩
end
section
variable {N : Type} {path : LogPath N} {reference : Bytes}
structure Spared (path : LogPath N) (reference : Bytes) (up : Bool) (t : RevokedSet N) : Prop where
  inv : Inv setFormat path (fun _ _ => False) t.volume
  live : up=true → Durable.Live setFormat path (fun _ _ => False) t.set t.volume
  admits : Guarded path.file path.compactTmp (Admits setFormat path fun k => k≠reference) t.volume
  absent : t.contains reference=false

variable [DecidableEq N] {t : RevokedSet N}
lemma Spared.insert (h : Spared path reference true t) (f : ℕ → Fate) {key : Bytes}
    (hu : isUtf8 key) (hne : key≠reference) :
    Spared path reference true (t.insert f key).1 := by
  have hl:=h.live rfl
  have hp : setFormat.accepts key → ∀ fd, t.set.file=some fd →
      ∀ bs, bs <+: setFormat.record key ()++[newline] →
        Admits setFormat path (fun k => k≠reference) (some ((t.volume.file fd).current++bs)) := by
    intro hkey fd hfd bs hbs
    obtain ⟨hset,ht⟩ := hl.handle fd hfd
    exact (h.admits.visible (Durable.settled_current hset)).append setFormat_lawful ht hkey hne hbs
  have hall:=(Durable.insertWithCapacity_seen setFormat key () none t.set t.volume).and
    ((Durable.insertWithCapacity_safe setFormat_lawful h.inv hl hu () none).and
      (Durable.insertWithCapacity_keeps h.admits key () none hp))
  have hsf : Safe True (fun _ => True)
      (fun out v' => Spared path reference true ⟨out.1,v'⟩) (fun _ _ => False)
      (DurableSet.insert key t.set) t.volume := by
    refine Safe.bind (hall.mono (fun _ _ => trivial) ?_ (fun _ _ hv => hv.2.1))
    rintro ⟨s',r⟩ v' ⟨hn,hou,had⟩
    dsimp only at hn
    refine ⟨hou.inv.mono fun o ho => ho.mono fun _ _ hk => hk.elim,
      fun _ => hou.live.mono fun _ _ hk => hk.elim,had,?_⟩
    have ha:=h.absent
    simp only [RevokedSet.contains,KeySet.contains,Table.contains] at ha ⊢
    rcases hn with ⟨-,hs⟩ | ⟨-,hs⟩
    · rw [hs,get_insert_ne _ _ _ _ hne.symm]
      exact ha
    · rw [hs]
      exact ha
  obtain ⟨out,v',hr,hou⟩ := run_done hsf f
  rw [RevokedSet.insert,hr]
  exact hou
end
section
variable {N : Type} [DecidableEq N] (codec : Codec)
  (sha256 : Bytes → Hash) (verify : Hash → Bytes → Block authSigLen → Bool)
inductive PendingStep (w : Subscription.World N) : Subscription.Event → TimedSet N → Prop
  | same (e : Subscription.Event) : PendingStep w e w.pending
  | taken (i : ℕ) (env : Subscription.Env) (raw : Block 32) : PendingStep w (.step i env)
      (w.pending.insertIfBelowCapacity env.fates (toHex raw.val) env.clock w.pendingCheckoutMax).1
  | pruned (cutoff : UInt64) (fates : ℕ → Fate) :
      PendingStep w (.prunePending cutoff fates) (w.pending.pruneOlderThan fates cutoff)

variable (w : Subscription.World N)
omit [DecidableEq N] in
lemma login_pending (env : Subscription.Env) (a : AccountAuth)
    (p : Subscription.LoginPhase) :
    (w.login codec verify env a p).1.pending=w.pending := by
  cases p with
  | limiting | consuming | fetching => rfl

lemma advance_pending (i : ℕ) (env : Subscription.Env) (c : Subscription.Call) :
    PendingStep w (.step i env) (w.advance codec sha256 verify env c).1.pending := by
  cases c with
  | issue c => exact .same _
  | checkout ph =>
    cases ph with
    | limiting | counting | done rs => exact .same _
    | inserting =>
      simp only [Subscription.World.advance,Subscription.World.checkout]
      split
      · exact .same _
      next raw _ => exact .taken i env raw
  | subscribe au ph =>
    cases ph with
    | login ph =>
      simp only [Subscription.World.advance,Subscription.World.subscribe,login_pending]
      exact .same _
    | inserting re =>
      simp only [Subscription.World.advance,Subscription.World.subscribe]
      split
      · exact .same _
      · exact .same _
    | done rs => exact .same _
  | activate au reference ph =>
    cases ph with
    | login ph =>
      simp only [Subscription.World.advance,Subscription.World.activate,login_pending]
      exact .same _
    | checkingBinding re | checkingPayment re | checkingActivated re
    | extending re mn | done rs => exact .same _

lemma step_pending (e : Subscription.Event) :
    PendingStep w e (w.step codec sha256 verify e).pending := by
  cases e with
  | step i env =>
    simp only [Subscription.World.step]
    split
    · exact .same _
    next c _ => exact advance_pending codec sha256 verify w i env c
  | prunePending cu f => exact .pruned cu f
  | start request | pruneBindings cu f | pruneIssuanceResults now io | insertAccount record io
  | issueChallenge raw now | setWatcher wa => exact .same _

lemma returned_taken (i : ℕ) (env : Subscription.Env) {reference : Bytes}
    (hf : (w.calls[i]?).bind returnedByCheckout=none)
    (hre : ((w.step codec sha256 verify (.step i env)).calls[i]?).bind returnedByCheckout =
      some reference) :
    ∃ raw : Block 32, reference=toHex raw.val ∧
      (w.pending.insertIfBelowCapacity env.fates reference env.clock w.pendingCheckoutMax).2=.ok .inserted ∧
      (w.step codec sha256 verify (.step i env)).pending =
        (w.pending.insertIfBelowCapacity env.fates reference env.clock w.pendingCheckoutMax).1 := by
  simp only [Subscription.World.step] at hre ⊢
  cases hi : w.calls[i]? with
  | none => grind
  | some c =>
    have hlt : i<w.calls.length := (List.getElem?_eq_some_iff.mp hi).1
    rw [hi] at hre hf
    dsimp only at hre ⊢
    rw [List.getElem?_set_self hlt,bind_some] at hre
    rw [bind_some] at hf
    cases c with
    | issue | subscribe | activate => cases hre
    | checkout ph =>
      cases ph with
      | limiting =>
        simp only [Subscription.World.advance,Subscription.World.checkout] at hre
        split at hre
        all_goals cases hre
      | counting =>
        simp only [Subscription.World.advance,Subscription.World.checkout] at hre
        split at hre
        all_goals cases hre
      | done re =>
        -- it had returned before
        have hs : returnedByCheckout (.checkout (.done re))=some reference := hre
        rw [hf] at hs
        cases hs
      | inserting =>
        simp only [Subscription.World.advance,Subscription.World.checkout] at hre ⊢
        cases ha : env.entropy with
        | none =>
          rw [ha] at hre
          cases hre
        | some raw =>
          rw [ha] at hre
          dsimp only at hre ⊢
          cases hr : (w.pending.insertIfBelowCapacity env.fates (toHex raw.val) env.clock
              w.pendingCheckoutMax).2 with
          | error e =>
            rw [hr] at hre
            cases hre
          | ok an =>
            rw [hr] at hre
            cases an with
            | inserted =>
              have hs : toHex raw.val=reference := Option.some.inj hre
              refine ⟨raw,hs.symm,?_,?_⟩
              · rw [← hs]
                exact hr
              · rw [← hs]
            | alreadyPresent | capacityReached => cases hre
end
section
variable {N : Type} [DecidableEq N] (σ : Setup N) {K : Bytes → UInt64 → Prop} {reference : Str} {w : World N}
structure World.Kept (K : Bytes → UInt64 → Prop) (reference : Str) (w : World N) : Prop where
  pending : Holding σ.pendingPath K w.up w.portal.pending
  revoked : Spared σ.revokedPath reference.val w.up w.card.revoked
  hooks : ∀ c∈w.hooks, ∀ phase, c≠.revoke reference phase

structure Event.Allowed (K : Bytes → UInt64 → Prop) (reference : Str) (e : Event) : Prop where
  unrefunded : e.refunds σ reference=false
  unpruned : ∀ k x, K k x → e.prunes x=false

variable {σ}
lemma toHex_utf8 (bs : Bytes) : isUtf8 (toHex bs) :=
  isUtf8_ascii _ (isAscii_lowerHex _ (toHex_lowerHex bs))

lemma advance_spared {n : CardWatcher N} (h : Spared σ.revokedPath reference.val true n.revoked)
    (p : Table Bytes UInt64) (f : ℕ → Fate) {c : Call} (hc : ∀ phase, c≠.revoke reference phase) :
    Spared σ.revokedPath reference.val true (n.advance p f c).1.revoked ∧
      ∀ phase, (n.advance p f c).2≠.revoke reference phase := by
  cases c with
  | confirm r phase =>
    refine ⟨?_,nofun⟩
    cases phase with
    | checkingRevoked | checkingPending | inserting | done ac => exact h
  | isConfirmed pa phase => exact ⟨h,nofun⟩
  | revoke r phase =>
    have hne : r≠reference := by
      rintro rfl
      exact hc phase rfl
    refine ⟨?_,?_⟩
    · cases phase with
      | inserting => exact h.insert f r.2 fun heq => hne (Subtype.ext heq)
      | removing | done re => exact h
    · grind [advance,Call.revoke.injEq]

lemma reopened_spared {path : LogPath N} {r : Bytes} {v : Volume N}
    (hn : Inv setFormat path (fun _ _ => False) v)
    (ha : Guarded path.file path.compactTmp (Admits setFormat path fun k => k≠r) v) (f : ℕ → Fate) :
    Spared path r false ⟨.inMemory,(reopen (DurableSet.open path) f v).2⟩ ∧
    ∀ s, (reopen (DurableSet.open path) f v).1=some s →
      Spared path r true ⟨s,(reopen (DurableSet.open path) f v).2⟩ := by
  obtain ⟨hn',hlv⟩ := reopen_live setFormat_lawful hn f
  have ha' : Guarded path.file path.compactTmp (Admits setFormat path fun k => k≠r)
      (reopen (DurableSet.open path) f v).2 := reopen_keeps admits_nil ha f
  refine ⟨⟨hn',nofun,ha',rfl⟩,?_⟩
  intro s hs
  obtain ⟨hl,fd,-,hb,hm⟩ := hlv s hs
  refine ⟨hn',fun _ => hl,ha',?_⟩
  obtain ⟨t,ht,hg⟩ := hm.loads
  simp only [RevokedSet.contains,KeySet.contains,Table.contains,isSome_eq_false_iff,isNone_iff_eq_none]
  by_contra hth
  rw [← hg] at hth
  exact ha'.visible hb _ rfl t ht r hth rfl

lemma reopened_holding {path : LogPath N} {v : Volume N} (h : Inv timedFormat path K v) (f : ℕ → Fate) :
    Holding path K false ⟨.inMemory,(reopen (TimedDurableSet.open path) f v).2⟩ ∧
    ∀ s, (reopen (TimedDurableSet.open path) f v).1=some s →
      Holding path K true ⟨s,(reopen (TimedDurableSet.open path) f v).2⟩ := by
  obtain ⟨hn,hl⟩ := reopen_live timedFormat_lawful h f
  exact ⟨⟨hn,nofun⟩,fun s hs => ⟨hn,fun _ => (hl s hs).1⟩⟩

section
variable (h : w.Kept σ K reference)
include h
lemma portal_kept (hu : w.up) {e : Subscription.Event}
    (he : Event.Allowed σ K reference (.portal e)) : (w.act σ (.portal e)).Kept σ K reference := by
  refine ⟨?_,h.revoked,h.hooks⟩
  have hp:=h.pending
  rw [hu] at hp
  have hs:=step_pending σ.codec σ.sha256 σ.verify {w.portal with watcher := w.watcher} e
  simp only [World.act,hu]
  generalize (Subscription.World.step σ.codec σ.sha256 σ.verify
    {w.portal with watcher := w.watcher} e).pending=pending' at hs ⊢
  cases hs with
  | same => exact hp
  | taken i env raw =>
    have ht:=hp.take env.fates (toHex_utf8 raw.val) env.clock w.portal.pendingCheckoutMax
    -- the set may take more than `K`
    exact ⟨ht.inv.mono fun o ho => ho.mono fun k x hk => Durable.grown_of_kept _ _ _ hk,
      fun hu => (ht.live hu).mono fun k x hk => Durable.grown_of_kept _ _ _ hk⟩
  | pruned c f =>
    apply hp.prune
    intro k x hk
    have hkp:=he.unpruned k x hk
    simp only [Event.prunes,decide_eq_false_iff_not,UInt64.not_lt] at hkp
    exact hkp

lemma webhook_kept {ha : Headers} {body : Bytes} (he : Event.Allowed σ K reference (.webhook ha body)) :
    (w.act σ (.webhook ha body)).Kept σ K reference := by
  have hr:=he.unrefunded
  simp only [Event.refunds] at hr
  simp only [World.act]
  cases hw : Cards.webhook σ.hmac σ.events σ.secret ha body with
  | error st => exact h
  | ok re =>
    rw [hw] at hr
    refine ⟨h.pending,h.revoked,?_⟩
    intro c hc ph hq
    rcases mem_append.mp hc with hc | hc
    · exact h.hooks c hc ph hq
    · rw [hq,mem_singleton] at hc
      cases re with
      | confirm | isConfirmed => cases hc
      | revoke r =>
        cases hc
        simp at hr

lemma hook_kept (hup : w.up) (i : ℕ) (f : ℕ → Fate) :
    (w.act σ (.step i f)).Kept σ K reference := by
  simp only [World.act]
  cases hi : w.hooks[i]? with
  | none => exact h
  | some c =>
    have hr:=h.revoked
    rw [hup] at hr
    obtain ⟨hs,hc⟩ := advance_spared hr w.portal.pending.seen f (h.hooks c (mem_of_getElem? hi))
    refine ⟨h.pending,?_,forall_replaced h.hooks hc⟩
    dsimp only
    rw [hup]
    exact hs

lemma boot_kept (b : Boot) : (w.boot σ b).Kept σ K reference := by
  have hre:=Loss.guarded h.revoked.inv b.revokedLoss
  have ha:=Loss.guarded h.revoked.admits b.revokedLoss
  obtain ⟨hp,hu⟩ := reopened_holding (Loss.guarded h.pending.inv b.pendingLoss) b.pendingFates
  obtain ⟨hr,hru⟩ := reopened_spared hre ha b.revokedFates
  unfold World.boot
  dsimp only
  generalize reopen (TimedDurableSet.open σ.pendingPath) b.pendingFates
    (b.pendingLoss.of w.portal.pending.volume)=pending at hp hu ⊢
  generalize reopen (DurableSet.open σ.revokedPath) b.revokedFates
    (b.revokedLoss.of w.card.revoked.volume)=revoked at hr hru ⊢
  obtain ⟨ps,pv⟩ := pending
  obtain ⟨rs,rv⟩ := revoked
  have hn : ∀ c∈([] : List Call), ∀ phase, c≠.revoke reference phase :=
    fun c hc => absurd hc not_mem_nil
  cases ps with
  | none => exact ⟨hp,⟨hre,nofun,ha,rfl⟩,hn⟩
  | some s =>
    cases rs with
    | none => exact ⟨hp,hr,hn⟩
    | some r =>
      dsimp only
      split
      · exact ⟨hp,hr,hn⟩
      · exact ⟨hu s rfl,hru r rfl,hn⟩

lemma step_kept {e : Event} (he : e.Allowed σ K reference) : (w.step σ e).Kept σ K reference := by
  unfold World.step
  split
  next ha =>
    have hu : e.isRestart=false → w.up := by
      intro hno
      rw [hno,Bool.or_false] at ha
      exact ha
    cases e with
    | portal e => exact portal_kept h (hu rfl) he
    | webhook hd body => exact webhook_kept h he
    | step i f => exact hook_kept h (hu rfl) i f
    | setMonero m => exact ⟨h.pending,h.revoked,h.hooks⟩
    | restart bo => exact boot_kept h bo
  · exact h

lemma run_kept {es : List Event} (hes : ∀ e∈es, e.Allowed σ K reference) :
    (w.run σ es).Kept σ K reference :=
  run_invariant_of_mem (I := World.Kept σ K reference) (fun _ e he h => step_kept (e := e) h he) h es hes
end

omit [DecidableEq N] in
lemma World.Kept.mono {K' : Bytes → UInt64 → Prop} (h : w.Kept σ K reference)
    (hK : ∀ k x, K' k x → K k x) : w.Kept σ K' reference :=
  ⟨⟨h.pending.inv.mono fun _ ho => ho.mono hK,fun hup => (h.pending.live hup).mono hK⟩,h.revoked,h.hooks⟩

omit [DecidableEq N] in
lemma World.Starts.kept (h : w.Starts σ reference) : w.Kept σ (fun _ _ => False) reference := by
  have hd : w.up≠true := by
    rw [h.up]
    exact Bool.false_ne_true
  refine ⟨⟨Durable.inv_of_scratch h.pending fun _ _ hk => hk,fun hu => absurd hu hd⟩,
    ⟨Durable.inv_of_scratch h.revoked.scratch fun _ _ hk => hk,fun hu => absurd hu hd,h.revoked,
      h.unrevoked⟩,?_⟩
  rw [h.hooks]
  exact fun _ hc => absurd hc not_mem_nil
end
section
variable {N : Type} [DecidableEq N] {σ : Setup N} {K : Bytes → UInt64 → Prop} {reference : Str} {w : World N}
def World.Confirming (reference : Str) (i : ℕ) (w : World N) : Prop :=
  ∃ phase, w.hooks[i]?=some (.confirm reference phase) ∧ phase≠.done false ∧
    (phase=.done true → w.card.confirmed.contains reference.val=true)

lemma contains_insert_of {t : Table Bytes Unit} {k : Bytes} (h : t.contains k) (j : Bytes) :
    (t.insert j ()).contains k :=
  isSome_iff_ne_none.mpr (get_insert_ne_none (isSome_iff_ne_none.mp h) j ())

lemma advance_confirmed {n : CardWatcher N} (h : n.confirmed.contains reference.val)
    (p : Table Bytes UInt64) (f : ℕ → Fate) {c : Call} (hc : ∀ ph, c≠.revoke reference ph) :
    (n.advance p f c).1.confirmed.contains reference.val := by
  cases c with
  | isConfirmed pa ph => exact h
  | confirm r ph =>
    cases ph with
    | inserting => exact contains_insert_of h r.val
    | checkingRevoked | checkingPending | done ac => exact h
  | revoke r ph =>
    cases ph with
    | inserting | done re => exact h
    | removing => grind [Subtype.ext,advance,revoke,Table.contains,get_erase]

lemma step_confirmed (hk : w.Kept σ K reference) (h : w.card.confirmed.contains reference.val)
    {e : Event} (he : e.isRestart=false) :
    (w.step σ e).card.confirmed.contains reference.val := by
  unfold World.step
  split
  swap
  · exact h
  cases e with
  | portal | setMonero => exact h
  | restart boot => cases he
  | webhook ha body =>
    simp only [World.act]
    split
    · exact h
    · exact h
  | step i f =>
    simp only [World.act]
    split
    · exact h
    next c hi => exact advance_confirmed h _ f (hk.hooks c (mem_of_getElem? hi))

/-- The reference is pending and not refunded, so each of the three steps goes on. -/
lemma advance_confirming (hup : w.up) (hk : w.Kept σ K reference) {t : UInt64}
    (hK : K reference.val t) (f : ℕ → Fate) {p : ConfirmPhase} (hp : p≠.done false)
    (hd : p=.done true → w.card.confirmed.contains reference.val) :
    ∃ ph', (w.card.advance w.portal.pending.seen f (.confirm reference p)).2 =
        .confirm reference ph' ∧ ph'≠.done false ∧
      (ph'=.done true → (w.card.advance w.portal.pending.seen f
        (.confirm reference p)).1.confirmed.contains reference.val) := by
  have hpe : w.portal.pending.seen.contains reference.val := by
    have hg : w.portal.pending.seen.get reference.val=some t := (hk.pending.live hup).retains _ _ hK
    rw [Table.contains,hg]
    rfl
  cases p with
  | checkingRevoked => simp [advance,confirm,hk.revoked.absent]
  | checkingPending => simp_all [advance,confirm]
  | inserting => simp [advance,confirm,Table.contains,get_insert_self]
  | done ac => exact ⟨.done ac,rfl,hp,hd⟩

lemma step_confirming (hk : w.Kept σ K reference) {t : UInt64} (hK : K reference.val t) {i : ℕ}
    (h : w.Confirming reference i) {e : Event} (he : e.isRestart=false) :
    (w.step σ e).Confirming reference i := by
  obtain ⟨ph,hi,hp,ho⟩ := h
  have hl : i<w.hooks.length := (List.getElem?_eq_some_iff.mp hi).1
  unfold World.step
  split
  swap
  · exact ⟨ph,hi,hp,ho⟩
  next ha =>
    rw [he,Bool.or_false] at ha
    cases e with
    | portal | setMonero => exact ⟨ph,hi,hp,ho⟩
    | restart boot => cases he
    | webhook hr body =>
      simp only [World.act]
      split
      · exact ⟨ph,hi,hp,ho⟩
      · refine ⟨ph,?_,hp,ho⟩
        dsimp only
        rw [List.getElem?_append_left hl]
        exact hi
    | step j f =>
      simp only [World.act]
      cases hj : w.hooks[j]? with
      | none => exact ⟨ph,hi,hp,ho⟩
      | some c =>
        by_cases hij : j=i
        · rw [hij,hi] at hj
          cases hj
          obtain ⟨ph',hn,hp',ho'⟩ := advance_confirming ha hk hK f hp ho
          refine ⟨ph',?_,hp',ho'⟩
          dsimp only
          rw [hij,List.getElem?_set_self hl,hn]
        · refine ⟨ph,?_,hp,?_⟩
          · dsimp only
            rw [List.getElem?_set_ne hij]
            exact hi
          · intro hd
            exact advance_confirmed (ho hd) _ f (hk.hooks c (mem_of_getElem? hj))

lemma run_down (hd : w.up=false) {es : List Event} (hes : ∀ e∈es, e.isRestart=false) : w.run σ es=w := by
  refine run_invariant_of_mem (I := fun w' => w'=w) ?_ rfl es hes
  rintro _ e he rfl
  rw [World.step,hd,he]
  rfl

def Sale.entry (s : Sale) (reference : Str) (k : Bytes) (x : UInt64) : Prop :=
  k=reference.val ∧ x=s.env.clock

lemma returned_kept {s : Sale} (hsr : w.Starts σ reference)
    (hs : s.Confirmed σ returnedByCheckout w reference) :
    (s.returned σ w).Kept σ (s.entry reference) reference := by
  have hn : ∀ (e : Event), e.refunds σ reference=false →
      e.Allowed σ (fun _ _ => False) reference := fun e he => ⟨he,fun _ _ hk => hk.elim⟩
  have hb : (w.run σ s.before).Kept σ (fun _ _ => False) reference := by
    refine run_kept hsr.kept fun e he => hn e (hs.unrefunded e ?_)
    simp [he]
  have hst : (s.returned σ w).Kept σ (fun _ _ => False) reference := step_kept hb (hn _ rfl)
  have hf:=hs.fresh
  have hr:=hs.returns
  refine ⟨?_,hst.revoked,hst.hooks⟩
  unfold Sale.returned World.step at hr ⊢
  cases hu : (w.run σ s.before).up with
  | false =>
    -- a Portal that is down returns nothing
    simp only [hu,Event.isRestart,Bool.or_self,Bool.false_eq_true,if_false] at hr
    rw [hf] at hr
    cases hr
  | true =>
    simp only [hu,Bool.true_or,if_true,World.act] at hr ⊢
    have hp:=hb.pending
    rw [hu] at hp
    obtain ⟨raw,hre,hrp,hse⟩ := returned_taken σ.codec σ.sha256 σ.verify
      {(w.run σ s.before).portal with watcher := (w.run σ s.before).watcher} s.call s.env hf hr
    have ht:=hp.take s.env.fates reference.2 s.env.clock (w.run σ s.before).portal.pendingCheckoutMax
    have hg : ∀ k x, s.entry reference k x → Durable.grown (fun _ _ => False) reference.val s.env.clock
        ((w.run σ s.before).portal.pending.insertIfBelowCapacity s.env.fates reference.val s.env.clock
          (w.run σ s.before).portal.pendingCheckoutMax).2 k x := by
      intro k x hk
      dsimp only at hrp
      rw [hrp]
      exact Or.inr hk
    dsimp only at hse
    rw [hse]
    exact ⟨ht.inv.mono fun o ho => ho.mono hg,fun hu => (ht.live hu).mono hg⟩

lemma processed_confirmed {s : Sale} (hst : w.Starts σ reference)
    (hs : s.Confirmed σ returnedByCheckout w reference) :
    (s.processed σ w).Kept σ (s.entry reference) reference ∧
      (s.processed σ w).card.confirmed.contains reference.val := by
  have ha : ∀ e∈s.waiting++s.processing, e.Allowed σ (s.entry reference) reference := by
    intro e he
    refine ⟨hs.unrefunded e ?_,?_⟩
    · grind
    · rintro k x ⟨-,rfl⟩
      exact hs.unpruned e he
  have hpd : (s.paid σ w).Kept σ (s.entry reference) reference :=
    run_kept (returned_kept hst hs) fun e he => ha e (mem_append_left _ he)
  have hc : Event.refunds σ reference (.webhook s.headers s.body)=false := by
    simp only [Event.refunds,hs.signed]
  obtain ⟨ac,hd⟩ := hs.done
  cases hu : (s.paid σ w).up with
  | false =>
    -- a Portal that is down takes no webhook
    have hm : s.processed σ w=s.paid σ w := by
      have hn : (s.paid σ w).step σ (.webhook s.headers s.body)=s.paid σ w := by
        rw [World.step,hu]
        rfl
      rw [Sale.processed,hn]
      exact run_down hu fun e he => hs.steady e (mem_append_left _ he)
    rw [hm,List.getElem?_eq_none (Nat.le_refl _)] at hd
    cases hd
  | true =>
    have hh : ((s.paid σ w).step σ (.webhook s.headers s.body)).hooks =
        (s.paid σ w).hooks++[.confirm reference .checkingRevoked] := by
      simp [World.step,hu,World.act,hs.signed,Request.call]
    have hr : ((s.paid σ w).step σ (.webhook s.headers s.body)).Confirming reference
        (s.paid σ w).hooks.length := by
      refine ⟨.checkingRevoked,?_,by simp,by simp⟩
      rw [hh]
      exact List.getElem?_concat_length
    have hk : ((s.paid σ w).step σ (.webhook s.headers s.body)).Kept σ (s.entry reference) reference :=
      step_kept hpd ⟨hc,fun _ _ _ => rfl⟩
    have hsp (w' : World N) (e : Event) (he : e.Allowed σ (s.entry reference) reference ∧ e.isRestart=false)
        (hw' : w'.Kept σ (s.entry reference) reference ∧ w'.Confirming reference (s.paid σ w).hooks.length) :
        (w'.step σ e).Kept σ (s.entry reference) reference ∧
          (w'.step σ e).Confirming reference (s.paid σ w).hooks.length :=
      ⟨step_kept hw'.1 he.1,step_confirming hw'.1 ⟨rfl,rfl⟩ hw'.2 he.2⟩
    obtain ⟨hk',ph,hhk,hp,hcr⟩ := run_invariant_of_mem hsp ⟨hk,hr⟩ s.processing
      fun e he => ⟨ha e (mem_append_right _ he),hs.steady e (mem_append_left _ he)⟩
    refine ⟨hk',hcr ?_⟩
    have hm : some (Call.confirm reference ph)=some (.confirm reference (.done ac)) := hhk.symm.trans hd
    cases hm
    cases ac with
    | false => exact absurd rfl hp
    | true => rfl
end

theorem checkout_references_covered {N : Type} [DecidableEq N] (σ : Setup N) :
    Covers σ returnedByCheckout := by
  intro w s reference ht hs
  obtain ⟨hp,hc⟩ := processed_confirmed ht hs
  -- from here on prunes are no matter
  have hst (w' : World N) (e : Event) (he : e.refunds σ reference=false ∧ e.isRestart=false)
      (hw' : w'.Kept σ (fun _ _ => False) reference ∧ w'.card.confirmed.contains reference.val=true) :
      (w'.step σ e).Kept σ (fun _ _ => False) reference ∧
        (w'.step σ e).card.confirmed.contains reference.val=true :=
    ⟨step_kept hw'.1 ⟨he.1,fun _ _ hk => hk.elim⟩,step_confirmed hw'.1 hw'.2 he.2⟩
  obtain ⟨hp',hc'⟩ := run_invariant_of_mem hst ⟨hp.mono fun _ _ hk => hk.elim,hc⟩ s.after
    fun e he => ⟨hs.unrefunded e (by simp [he]),hs.steady e (mem_append_right _ he)⟩
  have ha : (s.final σ w).card.isConfirmed reference.val=true := by
    rw [isConfirmed,if_neg]
    · exact hc'
    · rw [Bool.not_eq_true]
      exact hp'.revoked.absent
  simp [World.watcher,anyConfirms,any_cons,any_nil,ha]

def minted : Str := ⟨toHex (List.replicate 32 7),toHex_utf8 _⟩

def cardPortal : Setup Bool where
  codec := blankCodec
  sha256 := fun _ => Block.fill 32 1
  verify := fun _ _ _ => true
  hmac := fun _ _ => Block.fill 32 0
  events := fun _ => some ⟨"subscription_payment_success",minted⟩
  secret := []
  pendingPath := ⟨true,false,"pending",false,Bool.false_ne_true⟩
  bindingsPath := ⟨true,false,"bindings",false,Bool.false_ne_true⟩
  revokedPath := ⟨true,false,"revoked",false,Bool.false_ne_true⟩

def unstarted : World Bool :=
  ⟨{Subscription.newPortal with pending := ⟨.inMemory,Volume.empty⟩,bindings := ⟨.inMemory,Volume.empty⟩},
    fun _ => false,.new ⟨.inMemory,Volume.empty⟩,[],false⟩

lemma unstarted_starts : unstarted.Starts cardPortal minted where
  up := rfl
  hooks := rfl
  pending := Volume.scratch_empty _ _
  revoked := by
    refine ⟨?_,Volume.scratch_empty _ _⟩
    intro d hd
    obtain rfl : d=fun _ => none := mem_singleton.mp hd
    intro c hc
    cases hc
  unrevoked := rfl

def firstBoot : Boot :=
  ⟨Subscription.newPortal.backend,10,Table.empty,Table.empty,fun _ => false,none,none,none,
    fun _ => .ok,fun _ => .ok,fun _ => .ok⟩

def portalStep : Event := .portal (.step 0 (Subscription.drawing 7))
def hookStep : Event := .step 0 fun _ => .ok

def subscriptionSale : Sale where
  before := [.restart firstBoot,.portal (.issueChallenge (Block.fill 32 3) 90),
    .portal (.start (.subscribe (Subscription.loginWith 3))),portalStep,portalStep,portalStep]
  call := 0
  env := Subscription.drawing 7
  waiting := []
  headers := ⟨some (toHex (List.replicate 32 0)),none⟩
  body := []
  processing := [hookStep,hookStep]
  after := []

def checkoutSale : Sale where
  before := [.restart firstBoot,.portal (.start .checkout),portalStep,portalStep]
  call := 0
  env := Subscription.drawing 7
  waiting := [.restart firstBoot,.portal (.prunePending 100 fun _ => .ok)]
  headers := ⟨none,some (toHex (List.replicate 32 0))⟩
  body := []
  processing := [hookStep,hookStep,hookStep]
  after := [.portal (.prunePending 200 fun _ => .ok)]

lemma subscriptionSale_confirmed : subscriptionSale.Confirmed cardPortal returnedBy unstarted minted where
  fresh := by decide +kernel
  returns := by decide +kernel
  signed := by decide +kernel
  done := ⟨false,by decide +kernel⟩
  unpruned := by decide
  unrefunded := by decide +kernel
  steady := by decide

lemma checkoutSale_confirmed : checkoutSale.Confirmed cardPortal returnedByCheckout unstarted minted where
  fresh := by decide +kernel
  returns := by decide +kernel
  signed := by decide +kernel
  done := ⟨true,by decide +kernel⟩
  unpruned := by decide
  unrefunded := by decide +kernel
  steady := by decide

theorem subscription_reference_uncovered : ¬Covers cardPortal returnedBy := by
  intro h
  have hpaid:=h unstarted subscriptionSale minted unstarted_starts subscriptionSale_confirmed
  have hu : (subscriptionSale.final cardPortal unstarted).watcher minted.val=false := by decide +kernel
  rw [hpaid] at hu
  cases hu

theorem checkout_references_covered_restarted :
    (checkoutSale.final cardPortal unstarted).watcher minted.val=true :=
  checkout_references_covered cardPortal unstarted checkoutSale minted unstarted_starts checkoutSale_confirmed
end NilVpn.Portal.Cards.Rail
