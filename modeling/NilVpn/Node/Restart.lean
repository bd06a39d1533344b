import NilVpn.Node.GrantReplay

/-!
# Grants across restarts of a node

Each process begins with an empty replay cache and refuses grants issued before it
started (server.rs:80-84).
-/

namespace NilVpn.Node.Restart
open Base List
open Nwg2 (Scheme GrantVerifier GrantNodeIdentity VerifiedGrant parse verifyForNode verifyForNode_eq_ok)

structure Accepted where
  lifetime : ℕ
  token : Bytes
  grant : VerifiedGrant
  now : UInt64

structure World where
  clock : UInt64
  lifetime : ℕ
  cache : Option GrantReplayCache
  accepted : List Accepted

/-- `start` ends the running process, if any, and begins the next one. -/
inductive Event
  | tick (time : UInt64)
  | start (capacity : ℕ)
  | present (token : Bytes) (verifier : GrantVerifier) (node : GrantNodeIdentity)

section
variable (scheme : Scheme)
/-- `verify_for_node` and `consume` at one reading of the clock (server.rs:862-889). -/
def World.present (w : World) (token : Bytes) (verifier : GrantVerifier) (node : GrantNodeIdentity) :
    World :=
  match w.cache,verifyForNode scheme token verifier node w.clock with
  | some cache,.ok grant =>
    { w with
      cache := some (cache.consume grant w.clock).1
      accepted := match (cache.consume grant w.clock).2 with
        | .ok () => ⟨w.lifetime,token,grant,w.clock⟩::w.accepted
        | .error _ => w.accepted }
  | _,_ => w

def World.step (w : World) : Event → World
  | .tick time => {w with clock := if w.clock≤time then time else w.clock}
  | .start capacity =>
    {w with lifetime := w.lifetime+1,cache := GrantReplayCache.new w.clock capacity}
  | .present token verifier node => w.present scheme token verifier node

def World.initial (clock : UInt64) : World := ⟨clock,0,none,[]⟩

def run (clock : UInt64) (es : List Event) : World :=
  runFrom (World.step scheme) (World.initial clock) es
end

def World.SingleUse (w : World) : Prop :=
  ∀ a∈w.accepted, ∀ b∈w.accepted, a.lifetime<b.lifetime → replayKey a.grant≠replayKey b.grant

/-- A process starts in a later second than every acceptance. -/
def World.startsLater (w : World) : Event → Prop
  | .start _ => ∀ a∈w.accepted, a.now<w.clock
  | _ => True

/-- A process starts after the issue time of every accepted grant that has not expired. -/
def World.startsClear (w : World) : Event → Prop
  | .start _ => ∀ a∈w.accepted, a.grant.issuedAt<w.clock ∨ a.grant.expiresAt≤w.clock
  | _ => True

instance (w : World) : ∀ e, Decidable (w.startsLater e)
  | .start _ => inferInstanceAs (Decidable (∀ a∈w.accepted, a.now<w.clock))
  | .tick _ | .present .. => .isTrue trivial

instance (w : World) : ∀ e, Decidable (w.startsClear e)
  | .start _ => inferInstanceAs (Decidable (∀ a∈w.accepted,
      a.grant.issuedAt<w.clock ∨ a.grant.expiresAt≤w.clock))
  | .tick _ | .present .. => .isTrue trivial

def Event.token : Event → Option Bytes
  | .present token _ _ => some token
  | _ => none

/-- Tokens with one key id and nonce are one grant. -/
def NoncesFresh (tokens : List Bytes) : Prop :=
  ∀ t∈tokens, ∀ t'∈tokens, ∀ p p', parse t=.ok p → parse t'=.ok p' →
    p.keyId=p'.keyId → p.nonce=p'.nonce → p.issuedAt=p'.issuedAt ∧ p.expiresAt=p'.expiresAt

structure Accepted.Genuine (tokens : List Bytes) (a : Accepted) : Prop where
  presented : a.token∈tokens
  parsed : ∃ p, parse a.token=.ok p ∧ a.grant=p.intoVerified

lemma Accepted.Genuine.same {tokens : List Bytes} (hf : NoncesFresh tokens) {a b : Accepted}
    (ha : a.Genuine tokens) (hb : b.Genuine tokens) (hk : replayKey a.grant=replayKey b.grant) :
    a.grant.issuedAt=b.grant.issuedAt ∧ a.grant.expiresAt=b.grant.expiresAt := by
  obtain ⟨p,hp,hg⟩ := ha.parsed
  obtain ⟨p',hp',hg'⟩ := hb.parsed
  rw [hg,hg'] at hk ⊢
  have hid : p.keyId=p'.keyId := congrArg ReplayKey.keyId hk
  have hn : p.nonce=p'.nonce := congrArg ReplayKey.nonce hk
  exact hf _ ha.presented _ hb.presented p p' hp hp' hid hn

structure World.Sound (tokens : List Bytes) (w : World) : Prop where
  single : w.SingleUse
  genuine : ∀ a∈w.accepted, a.Genuine tokens
  past : ∀ a∈w.accepted, a.lifetime≤w.lifetime
  cache : ∀ cache, w.cache=some cache → cache.Sound ∧ cache.processStartedAt≤w.clock ∧
    ∀ a∈w.accepted, a.lifetime<w.lifetime →
      a.grant.issuedAt<cache.processStartedAt ∨ a.grant.expiresAt ≤ cache.processStartedAt

lemma initial_sound (tokens : List Bytes) (c : UInt64) : (World.initial c).Sound tokens := by
  refine ⟨?_,?_,?_,?_⟩
  · intro a ha
    cases ha
  · intro a ha
    cases ha
  · intro a ha
    cases ha
  · intro ca hc
    cases hc

section
variable {scheme : Scheme} {tokens : List Bytes} {w : World}
section
variable (hw : w.Sound tokens)
include hw
lemma tick_sound (t : UInt64) :
    World.Sound tokens {w with clock := if w.clock≤t then t else w.clock} where
  single := hw.single
  genuine := hw.genuine
  past := hw.past
  cache := by
    intro c hc
    obtain ⟨hs,ht,ho⟩ := hw.cache c hc
    refine ⟨hs,?_,ho⟩
    show c.processStartedAt ≤ if w.clock≤t then t else w.clock
    split
    next hle => exact UInt64.le_trans ht hle
    · exact ht

lemma start_sound (c : ℕ) (hc : w.startsClear (.start c)) :
    World.Sound tokens {w with lifetime := w.lifetime+1,cache := GrantReplayCache.new w.clock c} where
  single := hw.single
  genuine := hw.genuine
  past := by
    intro a ha
    exact Nat.le_succ_of_le (hw.past a ha)
  cache := by
    intro ca hcc
    obtain ⟨hs,-,hst,-,-⟩ := GrantReplayCache.new_sound hcc
    rw [hst]
    exact ⟨hs,UInt64.le_refl _,fun a ha _ => hc a ha⟩

lemma World.Sound.setCache {c c' : GrantReplayCache} (hc : w.cache=some c) (ha : c'.Sound)
    (hs : c'.processStartedAt=c.processStartedAt) :
    World.Sound tokens {w with cache := some c'} where
  single := hw.single
  genuine := hw.genuine
  past := hw.past
  cache := by
    intro c'' hc''
    rw [← Option.some.inj hc'',hs]
    exact ⟨ha,(hw.cache c hc).2⟩

lemma World.Sound.accept {a : Accepted} (hn : a.lifetime=w.lifetime)
    (hg : a.Genuine tokens) (hf : ∀ b∈w.accepted, b.lifetime<w.lifetime →
      replayKey b.grant≠replayKey a.grant) :
    World.Sound tokens {w with accepted := a::w.accepted} where
  single := by
    intro b hb c hc hl
    rcases mem_cons.mp hc with hca | ho
    · grind [absurd]
    · have hle:=hw.past c ho
      rcases mem_cons.mp hb with hba | hb
      · rw [hba] at hl
        omega
      · exact hw.single b hb c ho hl
  genuine := forall_mem_cons.mpr ⟨hg,hw.genuine⟩
  past := forall_mem_cons.mpr ⟨Nat.le_of_eq hn,hw.past⟩
  cache := by grind [hw.cache,absurd]
end

/-- A grant accepted now was not accepted by an earlier process. -/
lemma present_sound (hf : NoncesFresh tokens) (hw : w.Sound tokens) {t : Bytes}
    (ht : t∈tokens) (v : GrantVerifier) (n : GrantNodeIdentity) :
    (w.present scheme t v n).Sound tokens := by
  unfold World.present
  split
  next c g hc hv =>
    obtain ⟨hs,hst,ho⟩ := hw.cache c hc
    obtain ⟨p,hau,-,hg⟩ := verifyForNode_eq_ok.mp hv
    have hsp:=c.consume_consumed g w.clock hs.coupled
    obtain ⟨haf,-,hsm⟩ := hsp.sound hs
    have hn:=hw.setCache hc haf hsm
    cases hr : (c.consume g w.clock).2 with
    | error e => exact hn
    | ok u =>
      rw [hr] at hsp
      obtain ⟨-,hu,his,-⟩ := hsp.ok
      have hne : Accepted.Genuine tokens ⟨w.lifetime,t,g,w.clock⟩ := ⟨ht,p,hau.parsed,hg⟩
      refine hn.accept rfl hne ?_
      -- an acceptance by an earlier process predates this one or has expired
      intro a ha hlt hk
      obtain ⟨hi,he⟩ := (hw.genuine a ha).same hf hne hk
      rcases ho a ha hlt with h | h
      · rw [hi] at h
        exact absurd his (UInt64.not_le.mpr h)
      · grind
  · exact hw

lemma step_sound (hf : NoncesFresh tokens) (hw : w.Sound tokens) (e : Event)
    (ht : ∀ t, e.token=some t → t∈tokens) (hc : w.startsClear e) :
    (w.step scheme e).Sound tokens := by
  cases e with
  | tick ti => exact tick_sound hw ti
  | start c => exact start_sound hw c hc
  | present t v no => exact present_sound hf hw (ht t rfl) v no
end

/-- In every run whose processes start clear of the grants accepted before, and in which nonces
are not reused, no grant is accepted by two processes. -/
theorem single_use_across_restarts (scheme : Scheme) (clock : UInt64) (es : List Event)
    (hfresh : NoncesFresh (es.filterMap Event.token))
    (hclear : Along (World.step scheme) World.startsClear (World.initial clock) es) :
    (run scheme clock es).SingleUse := by
  refine (Along.invariant ?_ (initial_sound (es.filterMap Event.token) clock) es
    (hclear.mem (List.Subset.refl es))).single
  intro w e hw ho
  refine step_sound hfresh hw e ?_ ho.1
  intro t ht
  exact mem_filterMap.mpr ⟨e,ho.2,ht⟩

instance (w : World) : Decidable w.SingleUse :=
  inferInstanceAs (Decidable (∀ a∈w.accepted, ∀ b∈w.accepted, a.lifetime<b.lifetime →
    replayKey a.grant≠replayKey b.grant))

def tokenIssuedAt (issuedAt : UInt64) : Bytes :=
  match Nwg2.mint Nwg2.plainScheme Nwg2.sampleKey Nwg2.sampleAudience (Block.fill 32 9) ⟨60,0⟩
    issuedAt with
  | .ok grant => grant.token
  | .error _ => []

def presentToken (issuedAt : UInt64) : Event :=
  .present (tokenIssuedAt issuedAt) Nwg2.sampleVerifier Nwg2.sampleAudience.node

/-- A grant issued at 1000 is used at once, and again after a restart at 1001. -/
def punctualGrant : List Event := [.start 16,presentToken 1000,.tick 1001,.start 16,presentToken 1000]

theorem punctual_grant_used_once : (run Nwg2.plainScheme 1000 punctualGrant).accepted.length=1 ∧
    (run Nwg2.plainScheme 1000 punctualGrant).SingleUse := by
  refine ⟨by decide +kernel,?_⟩
  refine single_use_across_restarts Nwg2.plainScheme 1000 punctualGrant ?_ (by decide +kernel)
  have ha : ∀ t∈punctualGrant.filterMap Event.token, t=tokenIssuedAt 1000 := by
    simp [punctualGrant,presentToken,Event.token]
  intro t ht t' ht' p p' hp hp' _ _
  rw [ha t ht] at hp
  rw [ha t' ht',hp] at hp'
  rw [Except.ok.inj hp']
  exact ⟨rfl,rfl⟩

/-- A grant issued at 1030 by its Coordinator's clock is used at 1000; the node restarts at 1001. -/
def earlyGrant : List Event := [.start 16,presentToken 1030,.tick 1001,.start 16,presentToken 1030]

theorem early_grant_used_twice :
    Along (World.step Nwg2.plainScheme) World.startsLater (World.initial 1000) earlyGrant ∧
      ¬(run Nwg2.plainScheme 1000 earlyGrant).SingleUse := by
  decide +kernel
end NilVpn.Node.Restart
