import NilVpn.Durable.LogSpec
import NilVpn.Portal.Subscription

/-!
# A payment reference buys one thing

SHA-256 is assumed to have no collision among the texts a run hashes.
-/

namespace NilVpn.Portal.Subscription
open Report Issue StoreState Base Option List Table
open Program (Safe)
open Durable (TimedDurableSet TimedInsert timedFormat insertWithCapacity_seen retainValues_seen)
open Portal.Issue (Results issuanceKey paymentDomain)

/-- The key is taken in exactly when the reply is `yes`. -/
inductive Takes {R : Type} (seen : Table Bytes UInt64) (key : Bytes) (now : UInt64) (yes : R) :
    Table Bytes UInt64 → Except IoError R → Prop
  | inserted : Takes seen key now yes (seen.insert key now) (.ok yes)
  | refused (reply : Except IoError R) (h : reply≠.ok yes) : Takes seen key now yes seen reply

namespace TimedSet
variable {N R : Type} [DecidableEq N] (t : TimedSet N) (f : ℕ → Fate)
lemma run_meets {Q : Table Bytes UInt64 → Except IoError R → Prop}
    (p : TimedDurableSet N → Prog N (TimedDurableSet N × Except IoError R))
    (h : Safe True (fun _ => True) (fun out _ => Q out.1.seen out.2) (fun _ _ => True) (p t.set) t.volume)
    (he : ∀ e, Q t.seen (.error e)) : Q (t.run f p).1.seen (t.run f p).2 := by
  have ho:=h.run (fun i => (f i).verdict) fun _ _ => trivial
  unfold TimedSet.run
  generalize (p t.set).run (fun i => (f i).verdict) t.volume=ran at ho ⊢
  obtain ⟨o,v⟩ := ran
  cases o with
  | done out => exact ho
  | error e => exact he e
  | killed => exact he ioFailure

lemma insertIfBelowCapacity_takes (key : Bytes) (now : UInt64) (cap : ℕ) :
    Takes t.seen key now .inserted (t.insertIfBelowCapacity f key now cap).1.seen
      (t.insertIfBelowCapacity f key now cap).2 := by
  apply t.run_meets f
  · refine (insertWithCapacity_seen timedFormat key now (some cap) t.set t.volume).mono
      (fun _ h => h) ?_ (fun _ _ h => h)
    rintro ⟨s',rp⟩ v' (⟨hr,hs⟩ | ⟨hr,hs⟩)
    · dsimp only at hr hs ⊢
      rw [hr,hs]
      exact .inserted
    · dsimp only at hr hs ⊢
      rw [hs]
      exact .refused rp hr
  · intro e
    exact .refused _ (by simp)

lemma insert_takes (key : Bytes) (now : UInt64) :
    Takes t.seen key now true (t.insert f key now).1.seen (t.insert f key now).2 := by
  apply t.run_meets f
  · apply (insertWithCapacity_seen timedFormat key now none t.set t.volume).andThen
    rintro ⟨s',rl⟩ v' (⟨hr,hs⟩ | ⟨hr,hs⟩)
    · dsimp only at hr hs
      rw [hr]
      show Takes t.seen key now true s'.seen (.ok true)
      rw [hs]
      exact .inserted
    · dsimp only at hr hs
      have hre : ∀ reply : Except IoError Bool, reply≠.ok true →
          Takes t.seen key now true s'.seen reply := by
        intro reply h
        rw [hs]
        exact .refused reply h
      rcases rl with e | answer
      · exact hre _ (by simp)
      · cases answer with
        | inserted => exact absurd rfl hr
        | alreadyPresent | capacityReached => exact hre _ (by simp)
  · intro e
    exact .refused _ (by simp)

lemma pruneOlderThan_seen (c : UInt64) {k : Bytes}
    (h : (t.pruneOlderThan f c).seen.get k≠none) : t.seen.get k≠none := by
  have hs:=t.run_meets f (R := ℕ) (Q := fun se _ => ∀ k x, se.get k=some x → t.seen.get k=some x)
    (TimedDurableSet.pruneOlderThan c) (retainValues_seen timedFormat _ t.set t.volume)
    (fun _ _ _ hx => hx)
  obtain ⟨x,hx⟩ := ne_none_iff_exists'.mp h
  rw [hs k x hx]
  exact some_ne_none x
end TimedSet
section
variable {R : Type} (codec : Codec)
lemma perform_keeps {α : Type} (f : StoreState → α) (p : StoreState → Plan R)
    (h : ∀ s, f (p s).state=f s) (b : Backend) (io : Io) (r : Option StoreError) :
    f (b.perform codec io r p).1.state=f b.state := by
  rcases (Backend.perform_performed codec io r p b).state_cases with hs | hs
  · rw [hs]
  · rw [hs]
    exact h b.state

/-- A key is claimed at most once, and reported so at most once. -/
inductive Extension (claims : Table Hash UInt64) (key : Hash) :
    Table Hash UInt64 → Except StoreError (Option SubscriptionActivation) → Prop
  | kept (reply : Except StoreError (Option SubscriptionActivation))
      (h : ∀ untilSecs, reply≠.ok (some (.newlyActivated untilSecs))) : Extension claims key claims reply
  | claimed (untilSecs : UInt64) (h : claims.get key=none) :
      Extension claims key (claims.insert key untilSecs) (.ok (some (.newlyActivated untilSecs)))
  | uncertain (untilSecs : UInt64) (e : StoreError) (h : claims.get key=none) :
      Extension claims key (claims.insert key untilSecs) (.error e)

lemma activateSubscription_spec (b : Backend) (io : Io) (account key : Hash) (now bySecs : UInt64) :
    (b.perform codec io none fun s =>
      s.activateSubscription account key now bySecs).1.state.issuanceResults=b.state.issuanceResults ∧
    Extension b.state.activationResults key (b.perform codec io none fun s =>
        s.activateSubscription account key now bySecs).1.state.activationResults
      (b.perform codec io none fun s => s.activateSubscription account key now bySecs).2 := by
  have h:=Backend.perform_performed codec io none
    (fun s => s.activateSubscription account key now bySecs) b
  generalize b.perform codec io none _=out at h ⊢
  obtain ⟨b',rp⟩ := out
  generalize b'.state=s' at h ⊢
  cases h with
  | failed e => exact ⟨rfl,.kept _ (by simp)⟩
  | answered st rp hr hp =>
    unfold activateSubscription at hp
    split at hp
    · cases hp
      exact ⟨rfl,.kept _ (by simp)⟩
    split at hp
    · cases hp
      exact ⟨rfl,.kept _ (by simp)⟩
    · cases hp
  | written st rp hr hp =>
    unfold activateSubscription at hp
    split at hp
    · cases hp
    split at hp
    · cases hp
    next hf =>
      cases hp
      exact ⟨rfl,.claimed _ hf⟩
  | uncertain st rp e hr hp =>
    unfold activateSubscription at hp
    split at hp
    · cases hp
    split at hp
    · cases hp
    next hf =>
      cases hp
      exact ⟨rfl,.uncertain _ e hf⟩
end

def ready : Issue.Phase → Bool
  | .checkingIssued | .checkingPayment | .signing | .committing _ => true
  | .looking | .checkingPending | .done _ => false

def failed : Issue.Phase → Bool
  | .done (.error _) => true
  | _ => false

inductive IssueEffect (pending : Table Bytes UInt64) (results : Results) (paymentId : Bytes) (key : Hash)
    (phase : Issue.Phase) : Results → Issue.Phase → Prop
  | moved (phase' : Issue.Phase)
      (hready : ready phase'=true → ready phase=true ∨ pending.get paymentId≠none)
      (hok : ∀ blindSig, phase'=.done (.ok blindSig) → phase=.done (.ok blindSig) ∨ results.get key≠none)
      (hfailed : failed phase=true → failed phase'=true) :
      IssueEffect pending results paymentId key phase results phase'
  | stored (result : IssuanceResult) (phase' : Issue.Phase) (hready : ready phase=true)
      (hdone : ready phase'=false) :
      IssueEffect pending results paymentId key phase (results.insert key result) phase'

section
variable (codec : Codec) (sha256 : Bytes → Hash)
variable (w : Issue.World)
variable (c : Issue.Call)
lemma lookup_effect (io : Io) (hp : c.phase=.looking) :
    IssueEffect w.pending (Issue.Backend.results w.backend) c.request.paymentId (c.key sha256) c.phase
      (Issue.Backend.results (lookup codec sha256 w.backend c io).1)
      (lookupPhase (lookup codec sha256 w.backend c io).2) := by
  obtain ⟨hs,hr⟩ := lookup_spec codec sha256 w.backend c io
  rw [hs,hp]
  apply IssueEffect.moved
  · intro h
    unfold lookupPhase at h
    split at h
    all_goals cases h
  · intro bs h
    apply Or.inr
    unfold lookupPhase at h
    split at h
    · cases h
    next sig hg => grind
    · cases h
    · cases h
  · intro h
    cases h

lemma commit_effect (bs : Bytes) (io : Io) (hp : c.phase=.committing bs) :
    IssueEffect w.pending (Issue.Backend.results w.backend) c.request.paymentId (c.key sha256) c.phase
      (Issue.Backend.results (commit codec sha256 w.backend c bs io).1)
      (commitPhase bs (commit codec sha256 w.backend c bs io).2) := by
  have hs:=commit_spec codec sha256 w.backend c bs io
  rw [hp]
  generalize Issue.Backend.results (commit codec sha256 w.backend c bs io).1=t' at hs ⊢
  generalize (commit codec sha256 w.backend c bs io).2=rp at hs ⊢
  cases hs with
  | failed e =>
    apply IssueEffect.moved
    · intro h
      cases h
    · intro sig h
      cases h
    · intro h
      cases h
  | answered ex hg =>
    apply IssueEffect.moved
    · intro _
      exact .inl rfl
    · intro sig _
      rw [hg]
      exact .inr (some_ne_none ex)
    · intro h
      cases h
  | stored | uncertain => exact .stored _ _ rfl rfl

lemma advance_effect (io : Io) (s : Except String Bytes) :
    IssueEffect w.pending (Issue.Backend.results w.backend) c.request.paymentId (c.key sha256) c.phase
      (Issue.Backend.results (w.advance codec sha256 c io s).1)
      (w.advance codec sha256 c io s).2.phase := by
  cases hp : c.phase with
  | looking => grind [Issue.World.advance,lookup_effect]
  | committing bs => grind [Issue.World.advance,commit_effect]
  | checkingPending =>
    simp only [Issue.World.advance,hp]
    cases hk : w.pending.contains c.request.paymentId with
    | false => exact .moved _ (by simp [ready]) (by simp) (by simp [failed])
    | true =>
      refine .moved _ (fun _ => .inr ?_) (by simp) (by simp [failed])
      exact isSome_iff_ne_none.mp hk
  | checkingIssued =>
    simp only [Issue.World.advance,hp]
    cases w.issued.contains c.request.paymentId with
    | false | true => exact .moved _ (fun _ => .inl rfl) (by simp) (by simp [failed])
  | checkingPayment =>
    simp only [Issue.World.advance,hp]
    cases w.watcher c.request.paymentId with
    | false | true => exact .moved _ (fun _ => .inl rfl) (by simp) (by simp [failed])
  | signing =>
    simp only [Issue.World.advance,hp]
    refine .moved _ (fun _ => .inl rfl) ?_ (by simp [failed])
    intro sig h
    unfold signedPhase at h
    split at h
    · cases h
    · split at h
      · cases h
      · cases h
  | done rl =>
    simp only [Issue.World.advance,hp]
    exact .moved _ (fun h => .inl h) (fun _ h => .inl h) id

lemma advance_claims (io : Io) (b : Except String Bytes) :
    (w.advance codec sha256 c io b).1.state.activationResults =
      w.backend.state.activationResults := by
  cases hp : c.phase with
  | looking =>
    simp only [Issue.World.advance,hp]
    exact perform_keeps codec activationResults _ (fun _ => rfl) w.backend io none
  | committing bs =>
    simp only [Issue.World.advance,hp]
    apply perform_keeps codec activationResults
    intro s
    unfold commitIssuance
    split
    · rfl
    · rfl
  | checkingPending | checkingIssued | checkingPayment | signing | done rl =>
    simp only [Issue.World.advance,hp]
end

def Report.reference : Report → Option Bytes
  | .minted reference _ _ => some reference
  | _ => none

def Report.isMinted : Report → Bool
  | .minted _ _ _ => true
  | _ => false

section
variable (sha256 : Bytes → Hash)
/-- A subscription returned a reference whose key is that of `reference` and `account`. -/
def Bought (hashed : List Bytes) (log : List Report) (reference : Bytes) (account : Hash) : Prop :=
  bindingText reference account∈hashed ∧ ∃ r a, .minted r (some a) true∈log ∧
    bindingText r a∈hashed ∧ bindingKey sha256 reference account=bindingKey sha256 r a

def Report.claim : Report → Option Hash
  | .extended account reference _ => some (bindingKey sha256 reference account)
  | _ => none

structure Facts (pending bindings : Table Bytes UInt64) (results : Results) (claims : Table Hash UInt64)
    (hashed : List Bytes) (log : List Report) : Prop where
  pending : ∀ p, pending.get p≠none → .minted p none true∈log
  bindings : ∀ k, bindings.get k≠none → ∃ r a, .minted r (some a) true∈log ∧
    bindingText r a∈hashed ∧ k=encodedKey sha256 r a
  ledger : ∀ k, results.get k≠none → ∃ p, .minted p none true∈log ∧
    paymentDomain++p∈hashed ∧ k=issuanceKey sha256 p
  issued : ∀ p blindSig, .issued p blindSig∈log →
    paymentDomain++p∈hashed ∧ results.get (issuanceKey sha256 p)≠none
  extended : ∀ a r untilSecs, .extended a r untilSecs∈log →
    Bought sha256 hashed log r a ∧ claims.get (bindingKey sha256 r a)≠none
  once : (log.filterMap (Report.claim sha256)).Nodup

variable {sha256} {held named : Table Bytes UInt64} {rs : Results}
  {claims : Table Hash UInt64} {hashed : List Bytes} {log : List Report}
lemma Bought.mono {hashed' : List Bytes} {log' : List Report} {r : Bytes} {a : Hash}
    (h : Bought sha256 hashed log r a) (hh : hashed ⊆ hashed') (hl : log ⊆ log') :
    Bought sha256 hashed' log' r a := by
  obtain ⟨ht,r',a',hm,ht',hk⟩ := h
  exact ⟨hh ht,r',a',hl hm,hh ht',hk⟩

namespace Facts
section
variable (h : Facts sha256 held named rs claims hashed log)
include h
lemma hash (t : List Bytes) : Facts sha256 held named rs claims (hashed++t) log where
  pending := h.pending
  bindings := by
    intro k hk
    obtain ⟨r,a,hm,ht,hy⟩ := h.bindings k hk
    exact ⟨r,a,hm,mem_append_left _ ht,hy⟩
  ledger := by grind [h.ledger]
  issued := by grind [h.issued]
  extended := by
    intro a r u hr
    obtain ⟨hb,hc⟩ := h.extended a r u hr
    exact ⟨hb.mono (subset_append_left ..) (List.Subset.refl _),hc⟩
  once := h.once

lemma report (x : Report) (his : ∀ p bs, x=.issued p bs →
      paymentDomain++p∈hashed ∧ rs.get (issuanceKey sha256 p)≠none)
    (he : ∀ a r u, x=.extended a r u →
      Bought sha256 hashed log r a ∧ claims.get (bindingKey sha256 r a)≠none ∧
        bindingKey sha256 r a∉log.filterMap (claim sha256)) :
    Facts sha256 held named rs claims hashed (log++[x]) where
  pending := fun p hp => List.mem_append_left _ (h.pending p hp)
  bindings := by
    intro k hk
    obtain ⟨r,a,hm,ht,hy⟩ := h.bindings k hk
    exact ⟨r,a,mem_append_left _ hm,ht,hy⟩
  ledger := by grind [h.ledger]
  issued := by grind [h.issued]
  extended := by
    intro a r u hr
    rcases mem_append.mp hr with hr | hr
    · obtain ⟨hb,hc⟩ := h.extended a r u hr
      exact ⟨hb.mono (List.Subset.refl _) (subset_append_left ..),hc⟩
    · obtain ⟨hb,hc,-⟩ := he a r u (mem_singleton.mp hr).symm
      exact ⟨hb.mono (List.Subset.refl _) (subset_append_left ..),hc⟩
  once := by
    rw [filterMap_append]
    cases x with
    | minted r a rt =>
      simp only [filterMap_cons,claim,filterMap_nil,append_nil]
      exact h.once
    | issued p bs =>
      simp only [filterMap_cons,claim,filterMap_nil,append_nil]
      exact h.once
    | extended a r u =>
      obtain ⟨-,-,hn⟩ := he a r u rfl
      simp only [filterMap_cons,claim,filterMap_nil]
      rw [← concat_eq_append]
      exact h.once.concat hn

lemma mint (r : Bytes) (account : Option Hash) (reserves : Bool) :
    Facts sha256 held named rs claims hashed (log++[.minted r account reserves]) :=
  h.report _ nofun nofun

lemma claim (key : Hash) (untilSecs : UInt64) :
    Facts sha256 held named rs (claims.insert key untilSecs) hashed log :=
  { h with
    extended := by
      intro a r u hr
      obtain ⟨hb,hc⟩ := h.extended a r u hr
      exact ⟨hb,get_insert_ne_none hc key untilSecs⟩ }

lemma unclaimed {key : Hash} (hf : claims.get key=none) : key∉log.filterMap (Report.claim sha256) := by
  intro hm
  obtain ⟨x,hx,hc⟩ := mem_filterMap.mp hm
  cases x with
  | minted | issued => cases hc
  | extended a r u =>
    cases hc
    exact (h.extended a r u hx).2 hf

lemma checkout {r : Bytes} {now : UInt64} {u' : Table Bytes UInt64} {t : Except IoError TimedInsert}
    (ht : Takes held r now .inserted u' t) :
    Facts sha256 u' named rs claims hashed (log++[.minted r none (t.toOption=some .inserted)]) := by
  cases ht with
  | refused t hr => exact h.mint ..
  | inserted =>
    refine {h.mint .. with pending := ?_}
    intro p hp
    by_cases hs : p=r
    · rw [hs]
      exact mem_append_right _ (mem_singleton.mpr rfl)
    · rw [get_insert_ne _ _ _ _ hs] at hp
      exact mem_append_left _ (h.pending p hp)

lemma subscribe {r : Bytes}
    {account : Hash} {now : UInt64} {b' : Table Bytes UInt64} {b : Except IoError Bool}
    (ht : Takes named (encodedKey sha256 r account) now true b' b) :
    Facts sha256 held b' rs claims (hashed++[bindingText r account])
      (log++[.minted r (some account) (b.toOption=some true)]) := by
  have hg:=(h.hash [bindingText r account]).mint r (some account) (b.toOption=some true)
  cases ht with
  | refused b hr => exact hg
  | inserted =>
    refine {hg with bindings := ?_}
    intro k hk
    by_cases hs : k=encodedKey sha256 r account
    · exact ⟨r,account,mem_append_right _ (mem_singleton.mpr rfl),
        mem_append_right _ (mem_singleton.mpr rfl),hs⟩
    · rw [get_insert_ne _ _ _ _ hs] at hk
      exact hg.bindings k hk

lemma extend {ref : Bytes} {account : Hash} (hb : Bought sha256 hashed log ref account)
    {c' : Table Hash UInt64} {s : Except StoreError (Option SubscriptionActivation)}
    (he : Extension claims (bindingKey sha256 ref account) c' s) :
    Facts sha256 held named rs c' hashed (log++extensions account ref s) := by
  cases he with
  | kept s hr => simp [append_nil,extensions,h]
  | uncertain un e hf =>
    simp only [extensions,append_nil]
    exact h.claim _ _
  | claimed un hf =>
    apply (h.claim (bindingKey sha256 ref account) un).report
    · intro p bs hx
      cases hx
    · intro a r u hx
      cases hx
      refine ⟨hb,?_,h.unclaimed hf⟩
      rw [get_insert_self]
      exact some_ne_none un

lemma store {p : Bytes} (hm : .minted p none true∈log) (ht : paymentDomain++p∈hashed)
    (r : IssuanceResult) :
    Facts sha256 held named (rs.insert (issuanceKey sha256 p) r) claims hashed log :=
  { h with
    ledger := by
      intro k hk
      by_cases hs : k=issuanceKey sha256 p
      · exact ⟨p,hm,ht,hs⟩
      · rw [get_insert_ne _ _ _ _ hs] at hk
        exact h.ledger k hk
    issued := by
      intro q bs hq
      obtain ⟨hqt,hg⟩ := h.issued q bs hq
      exact ⟨hqt,get_insert_ne_none hg _ _⟩ }
end
end Facts

def ActivatePhase.bound : ActivatePhase → Option AccountRecord
  | .checkingPayment record | .checkingActivated record | .extending record _ => some record
  | .login _ | .checkingBinding _ | .done _ => none

def Call.Sound (sha256 : Bytes → Hash) (hashed : List Bytes) (log : List Report) : Call → Prop
  | .issue c => (failed c.phase=false → paymentDomain++c.request.paymentId∈hashed) ∧
      (ready c.phase=true → .minted c.request.paymentId none true∈log)
  | .activate _ reference phase => ∀ record, phase.bound=some record →
      Bought sha256 hashed log reference record.accountNumber
  | .checkout _ | .subscribe _ _ => True

lemma Call.Sound.mono {c : Call} (h : c.Sound sha256 hashed log) {hashed' : List Bytes}
    {log' : List Report} (hh : hashed ⊆ hashed') (hl : log ⊆ log') :
    c.Sound sha256 hashed' log' := by
  cases c with
  | issue c => exact ⟨fun hf => hh (h.1 hf),fun hr => hl (h.2 hr)⟩
  | activate au rf ph => exact fun rc hb => (h rc hb).mono hh hl
  | checkout | subscribe => trivial

lemma failed_of_ready {p : Issue.Phase} (h : ready p) : failed p=false := by
  cases p with
  | done rl => cases h
  | looking | checkingPending | checkingIssued | checkingPayment | signing | committing sig => rfl

lemma tokens_cases (p : Bytes) (phase phase' : Issue.Phase) :
    tokens p phase phase'=[] ∨ ∃ bs, tokens p phase phase'=[.issued p bs] ∧
      phase'=.done (.ok bs) ∧ ∀ result, phase≠.done result := by
  unfold tokens
  split
  · exact .inl rfl
  next bs ho => exact .inr ⟨bs,rfl,rfl,ho⟩
  · exact .inl rfl

variable {rs' : Results}
lemma IssueEffect.claimed {p : Bytes} {key : Hash} {phase phase' : Issue.Phase}
    (h : IssueEffect held rs p key phase rs' phase') {bs : Bytes} (hok : phase'=.done (.ok bs))
    (ho : ∀ rl, phase≠.done rl) : rs'.get key≠none := by
  cases h with
  | moved phase' hr hd hf => grind
  | stored rl phase' hr hd =>
    rw [get_insert_self]
    exact some_ne_none rl

lemma IssueEffect.sound {c c' : Issue.Call} (hre : c'.request=c.request)
    (h : Facts sha256 held named rs claims hashed log) (hc : (Call.issue c).Sound sha256 hashed log)
    (he : IssueEffect held rs c.request.paymentId (c.key sha256) c.phase rs' c'.phase) :
    (Call.issue c').Sound sha256 hashed log := by
  show (failed c'.phase=false → paymentDomain++c'.request.paymentId∈hashed) ∧
    (ready c'.phase → .minted c'.request.paymentId none true∈log)
  rw [hre]
  cases he with
  | moved ph' hrd hd hf => grind [hc.2,h.pending,hc.1]
  | stored rl ph' hrd hd =>
    refine ⟨fun _ => hc.1 (failed_of_ready hrd),?_⟩
    intro hr
    rw [hd] at hr
    cases hr

lemma Facts.issue {c : Issue.Call} {phase' : Issue.Phase}
    (h : Facts sha256 held named rs claims hashed log) (hc : (Call.issue c).Sound sha256 hashed log)
    (he : IssueEffect held rs c.request.paymentId (c.key sha256) c.phase rs' phase') :
    Facts sha256 held named rs' claims hashed (log++tokens c.request.paymentId c.phase phase') := by
  have hs : Facts sha256 held named rs' claims hashed log := by
    cases he with
    | moved phase' hr hd hf => exact h
    | stored rl phase' hr hd => exact h.store (hc.2 hr) (hc.1 (failed_of_ready hr)) rl
  rcases tokens_cases c.request.paymentId c.phase phase' with hn | ⟨blindSig,hone,hok,ho⟩
  · rw [hn,append_nil]
    exact hs
  · have hl : failed c.phase=false := by
      cases hp : c.phase with
      | done rl => exact absurd hp (ho rl)
      | looking | checkingPending | checkingIssued | checkingPayment | signing | committing sig => rfl
    rw [hone]
    apply hs.report
    · intro p sig hx
      cases hx
      exact ⟨hc.1 hl,he.claimed hok ho⟩
    · intro a r u hx
      cases hx
end
section
variable {N : Type} (sha256 : Bytes → Hash)
def World.Facts (w : World N) : Prop :=
  Subscription.Facts sha256 w.pending.seen w.bindings.seen (Issue.Backend.results w.backend)
    w.backend.state.activationResults w.hashed w.log

def World.Sound (w : World N) : Prop := w.Facts sha256 ∧ ∀ c∈w.calls, c.Sound sha256 w.hashed w.log

/-- The facts hold in `w'`, and nothing recorded is forgotten. -/
structure Carries (w w' : World N) : Prop where
  facts : w'.Facts sha256
  hashed : w.hashed ⊆ w'.hashed
  log : w.log ⊆ w'.log

variable {sha256} {w : World N}
lemma Carries.refl (h : w.Facts sha256) : Carries sha256 w w :=
  ⟨h,List.Subset.refl _,List.Subset.refl _⟩

variable (codec : Codec)
  (verify : Hash → Bytes → Block authSigLen → Bool) (env : Env)
lemma perform_facts {R : Type} (h : w.Facts sha256) (p : StoreState → Plan R)
    (hr : ∀ s, (p s).state.issuanceResults=s.issuanceResults)
    (hc : ∀ s, (p s).state.activationResults=s.activationResults) (io : Io) :
    World.Facts sha256 {w with backend := (w.backend.perform codec io none p).1} := by
  simp_all [World.Facts,Issue.Backend.results,perform_keeps]

lemma encodedKey_inj {r r' : Bytes} {a a' : Hash}
    (h : encodedKey sha256 r a=encodedKey sha256 r' a') : bindingKey sha256 r a=bindingKey sha256 r' a' := by
  grind [encodedKey,fromHex_toHex,Subtype.ext]

lemma login_activate_bound (lo : Login) : lo.activate.bound=none := by
  cases lo with
  | waiting | refused | passed => rfl

lemma start_sound (r : Request) (hashed : List Bytes) (log : List Report) :
    r.call.Sound sha256 (hashed++r.texts) log := by
  cases r with
  | checkout | subscribe => trivial
  | activate au rf =>
    intro rc hb
    cases hb
  | issue r now =>
    show (failed (startPhase r)=false → paymentDomain++r.paymentId∈hashed++issueTexts r) ∧
      (ready (startPhase r) → .minted r.paymentId none true∈log)
    unfold startPhase issueTexts
    cases decodeBlindMsg r with
    | none => exact ⟨nofun,nofun⟩
    | some m => exact ⟨fun _ => mem_append_right _ (mem_cons_self ..),nofun⟩

section
variable (h : w.Facts sha256)
include h
lemma login_carries (a : AccountAuth) (p : LoginPhase) :
    Carries sha256 w (w.login codec verify env a p).1 := by
  cases p with
  | limiting => exact .refl h
  | consuming an si => exact ⟨h,List.Subset.refl _,List.Subset.refl _⟩
  | fetching an si =>
    have hf:=perform_facts codec h (fun s => s.get an) (fun _ => rfl)
      (fun _ => rfl) env.io
    exact ⟨hf,List.Subset.refl _,List.Subset.refl _⟩

lemma activate_carries (a : AccountAuth) (r : Bytes) (p : ActivatePhase)
    (hc : (Call.activate a r p).Sound sha256 w.hashed w.log) :
    Carries sha256 w (w.activate codec sha256 verify env a r p).1 := by
  cases p with
  | login p => exact login_carries codec verify env h a p
  | checkingBinding rc => exact ⟨Facts.hash h _,subset_append_left ..,List.Subset.refl _⟩
  | checkingPayment rc | checkingActivated rc | done rl => exact .refl h
  | extending rc mn =>
    obtain ⟨hr,he⟩ := activateSubscription_spec codec w.backend env.io
      rc.accountNumber (bindingKey sha256 r rc.accountNumber) mn thirtyDaysSecs
    refine ⟨?_,List.Subset.refl _,subset_append_left ..⟩
    simp only [World.activate,World.Facts,Issue.Backend.results,hr]
    exact Facts.extend h (hc rc rfl) he

/-- An activation goes on past the bindings only with a key it found there. -/
lemma activate_sound (auth : AccountAuth) (ref : Bytes) (p : ActivatePhase)
    (hc : (Call.activate auth ref p).Sound sha256 w.hashed w.log) :
    (Call.activate auth ref (w.activate codec sha256 verify env auth ref p).2).Sound sha256
      (w.activate codec sha256 verify env auth ref p).1.hashed
      (w.activate codec sha256 verify env auth ref p).1.log := by
  intro rc hb
  cases p with
  | login p =>
    simp only [World.activate,login_activate_bound] at hb
    cases hb
  | done | extending => cases hb
  | checkingBinding rc' =>
    simp only [World.activate] at hb
    split at hb
    next hf =>
      cases hb
      obtain ⟨r,a,hm,ht,hk⟩ := h.bindings _ (isSome_iff_ne_none.mp hf)
      refine ⟨mem_append_right _ (mem_singleton.mpr rfl),r,a,hm,mem_append_left _ ht,encodedKey_inj hk⟩
    · cases hb
  | checkingPayment rc' =>
    simp only [World.activate] at hb
    split at hb
    · exact hc rc hb
    · cases hb
  | checkingActivated rc' =>
    simp only [World.activate] at hb
    split at hb
    · cases hb
    split at hb
    · cases hb
    · exact hc rc hb

lemma issue_carries {c : Issue.Call} (hc : (Call.issue c).Sound sha256 w.hashed w.log) :
    Carries sha256 w (w.issue codec sha256 env c).1 ∧
      (Call.issue (w.issue codec sha256 env c).2).Sound sha256
        (w.issue codec sha256 env c).1.hashed (w.issue codec sha256 env c).1.log := by
  have he:=advance_effect codec sha256 w.tokenState c env.io env.signed
  have hcl:=advance_claims codec sha256 w.tokenState c env.io env.signed
  have hr:=(advance_frame codec sha256 w.tokenState c env.io env.signed).1
  refine ⟨⟨?_,List.Subset.refl _,subset_append_left ..⟩,?_⟩
  · simp only [World.issue,World.Facts,hcl]
    exact Facts.issue h hc he
  · exact (he.sound hr h hc).mono (List.Subset.refl _) (subset_append_left ..)

lemma prune_facts (now : UInt64) (io : Io) :
    World.Facts sha256 { w with
      backend := (w.backend.perform codec io none fun s => s.pruneIssuanceResults now).1 } := by
  have hc:=perform_keeps codec activationResults
    (fun s => s.pruneIssuanceResults now) (by
      intro s
      simp only [pruneIssuanceResults]
      split
      · rfl
      · rfl) w.backend io none
  simp only [World.Facts,hc]
  rcases prune_spec codec w.backend now io with hsm | hs
  · rw [hsm]
    exact h
  · rw [hs]
    have hks : ∀ k, ((Issue.Backend.results w.backend).mapVal (IssuanceResult.scrub now)).get k≠none ↔
        (Issue.Backend.results w.backend).get k≠none := by
      intro k
      rw [get_mapVal,Ne,map_eq_none_iff]
    refine {h with ledger := ?_,issued := ?_}
    · intro k hk
      exact h.ledger k ((hks k).mp hk)
    · grind [h.issued]

lemma insertAccount_facts (r : AccountRecord) (io : Io) :
    World.Facts sha256 { w with
      backend := (w.backend.perform codec io none fun s => s.insert r).1 } := by
  apply perform_facts codec h
  · intro s
    unfold StoreState.insert
    split
    · rfl
    · rfl
  · intro s
    unfold StoreState.insert
    split
    · rfl
    · rfl
end

variable [DecidableEq N]
lemma checkout_carries (h : w.Facts sha256) (p : CheckoutPhase) :
    Carries sha256 w (w.checkout env p).1 := by
  cases p with
  | limiting | counting | done rl => exact .refl h
  | inserting =>
    simp only [World.checkout]
    split
    · exact .refl h
    next raw hr =>
      refine ⟨?_,List.Subset.refl _,subset_append_left ..⟩
      exact Facts.checkout h (w.pending.insertIfBelowCapacity_takes env.fates _ _ _)

lemma subscribe_carries (h : w.Facts sha256) (a : AccountAuth) (p : SubscribePhase) :
    Carries sha256 w (w.subscribe codec sha256 verify env a p).1 := by
  cases p with
  | login p => exact login_carries codec verify env h a p
  | done rl => exact .refl h
  | inserting rc =>
    simp only [World.subscribe]
    split
    · exact .refl h
    next raw hr =>
      refine ⟨?_,subset_append_left ..,subset_append_left ..⟩
      exact Facts.subscribe h (w.bindings.insert_takes env.fates _ _)

lemma advance_carries (h : w.Facts sha256) {c : Call} (hc : c.Sound sha256 w.hashed w.log) :
    Carries sha256 w (w.advance codec sha256 verify env c).1 ∧
      (w.advance codec sha256 verify env c).2.Sound sha256
        (w.advance codec sha256 verify env c).1.hashed
        (w.advance codec sha256 verify env c).1.log := by
  cases c with
  | issue c => exact issue_carries codec env h hc
  | checkout ph => exact ⟨checkout_carries env h ph,trivial⟩
  | subscribe au ph => exact ⟨subscribe_carries codec verify env h au ph,trivial⟩
  | activate au rf ph =>
    exact ⟨activate_carries codec verify env h au rf ph hc,
      activate_sound codec verify env h au rf ph hc⟩

lemma step_sound (hw : w.Sound sha256) (e : Event) : (w.step codec sha256 verify e).Sound sha256 := by
  obtain ⟨h,hl⟩ := hw
  cases e with
  | start rq =>
    refine ⟨Facts.hash h _,?_⟩
    intro c hc
    rcases mem_append.mp hc with hc | hc
    · exact (hl c hc).mono (subset_append_left ..) (List.Subset.refl _)
    · rw [mem_singleton.mp hc]
      exact start_sound rq w.hashed w.log
  | step i env =>
    simp only [World.step]
    cases hi : w.calls[i]? with
    | none => exact ⟨h,hl⟩
    | some c =>
      obtain ⟨ha,hc'⟩ := advance_carries codec verify env h (hl c (mem_of_getElem? hi))
      refine ⟨ha.facts,forall_replaced ?_ hc'⟩
      intro d hd
      exact (hl d hd).mono ha.hashed ha.log
  | prunePending cu fa =>
    refine ⟨{h with pending := ?_},hl⟩
    intro p hp
    exact h.pending p (w.pending.pruneOlderThan_seen fa cu hp)
  | pruneBindings cu fa =>
    refine ⟨{h with bindings := ?_},hl⟩
    intro k hk
    exact h.bindings k (w.bindings.pruneOlderThan_seen fa cu hk)
  | pruneIssuanceResults now io => exact ⟨prune_facts codec h now io,hl⟩
  | insertAccount rc io => exact ⟨insertAccount_facts codec h rc io,hl⟩
  | issueChallenge | setWatcher => exact ⟨h,hl⟩

lemma run_sound (hw : w.Sound sha256) (es : List Event) :
    (w.run codec sha256 verify es).Sound sha256 :=
  run_invariant (I := World.Sound sha256) (fun _ e hw => step_sound codec verify hw e) hw es
end

def Report.extension : Report → Option Bytes
  | .extended _ reference _ => some reference
  | _ => none

/-- No call is under way and both sets are empty. `log` has what was minted before;
the ledger only knows references that earlier checkouts returned. -/
structure World.Starts {N : Type} (sha256 : Bytes → Hash) (w : World N) : Prop where
  calls : w.calls=[]
  pending : ∀ p, w.pending.seen.get p=none
  bindings : ∀ k, w.bindings.seen.get k=none
  history : ∀ x∈w.log, x.isMinted=true
  ledger : ∀ k, (Issue.Backend.results w.backend).get k≠none → ∃ p, .minted p none true∈w.log ∧
    paymentDomain++p∈w.hashed ∧ k=issuanceKey sha256 p

lemma World.Starts.sound {N : Type} {sha256 : Bytes → Hash} {w : World N} (h : w.Starts sha256) :
    w.Sound sha256 := by
  have hm : ∀ x∈w.log, x.claim sha256=none := by
    intro x hx
    have hkn:=h.history x hx
    cases x with
    | minted r a rt => rfl
    | issued | extended => cases hkn
  refine ⟨⟨?_,?_,h.ledger,?_,?_,?_⟩,?_⟩
  · intro p hp
    exact absurd (h.pending p) hp
  · intro k hk
    exact absurd (h.bindings k) hk
  · intro p bs hp
    cases h.history _ hp
  · intro a r u hr
    cases h.history _ hr
  · rw [filterMap_eq_nil_iff.mpr hm]
    exact nodup_nil
  · intro c hc
    rw [h.calls] at hc
    cases hc

lemma bindingText_inj {r r' : Bytes} {a a' : Hash} (h : bindingText r a=bindingText r' a') :
    r=r' ∧ a=a' := by
  obtain ⟨ht,ha⟩ := append_inj' h (by rw [a.length_val,a'.length_val])
  exact ⟨append_cancel_left ht,Subtype.ext ha⟩

section
variable {sha256 : Bytes → Hash} {pending bindings : Table Bytes UInt64} {results : Results}
  {c : Table Hash UInt64} {hashed : List Bytes} {log : List Report}
lemma minted_once (h : (log.filterMap reference).Nodup) {r : Bytes} {a a' : Option Hash}
    {reserves reserves' : Bool} (hr : .minted r a reserves∈log) (hr' : .minted r a' reserves'∈log) :
    a=a' := by
  have hs:=eq_of_nodup_filterMap h hr hr' rfl rfl
  cases hs
  rfl

namespace Facts
section
variable (h : Facts sha256 pending bindings results c hashed log)
include h
lemma issued_minted (hs : Set.InjOn sha256 {m | m∈hashed}) {p bs : Bytes} (hp : .issued p bs∈log) :
    .minted p none true∈log := by
  obtain ⟨ht,hg⟩ := h.issued p bs hp
  obtain ⟨q,hm,hq,hk⟩ := h.ledger _ hg
  have hpq : p=q := append_cancel_left (hs ht hq hk)
  rw [hpq]
  exact hm

lemma extended_minted (hs : Set.InjOn sha256 {m | m∈hashed}) {a : Hash} {r : Bytes} {u : UInt64}
    (hr : .extended a r u∈log) : .minted r (some a) true∈log := by
  obtain ⟨⟨ht,r',a',hm,ht',hk⟩,-⟩ := h.extended a r u hr
  obtain ⟨hre,ha⟩ := bindingText_inj (hs ht ht' hk)
  rw [hre,ha]
  exact hm

lemma extension_once (hh : Set.InjOn sha256 {m | m∈hashed}) (hd : (log.filterMap reference).Nodup) :
    (log.filterMap extension).Nodup := by
  apply nodup_filterMap_of_key h.once
  intro x hx y hy r hr hyr
  cases x with
  | minted | issued => cases hr
  | extended a r u =>
    cases y with
    | minted | issued => cases hyr
    | extended a' r' u' =>
      cases hr
      cases hyr
      -- one reference was minted for one account, so both reports claim one key
      have hs:=minted_once hd (h.extended_minted hh hx) (h.extended_minted hh hy)
      cases hs
      exact ⟨_,rfl,rfl⟩
end
end Facts
end

theorem reference_buys_one_thing {N : Type} [DecidableEq N] (codec : Codec) (sha256 : Bytes → Hash)
    (verify : Hash → Bytes → Block authSigLen → Bool)
    (w : World N) (hstart : w.Starts sha256) (es : List Event)
    (hdistinct : ((w.run codec sha256 verify es).log.filterMap Report.reference).Nodup)
    (hsha : Set.InjOn sha256 {m | m∈(w.run codec sha256 verify es).hashed}) :
    (∀ p blindSig a untilSecs, .issued p blindSig∈(w.run codec sha256 verify es).log →
      .extended a p untilSecs∉(w.run codec sha256 verify es).log) ∧
    (∀ a r untilSecs, .extended a r untilSecs∈(w.run codec sha256 verify es).log →
      .minted r (some a) true∈(w.run codec sha256 verify es).log ∧
      ∀ buyer returned, .minted r buyer returned∈(w.run codec sha256 verify es).log → buyer=some a) ∧
    ((w.run codec sha256 verify es).log.filterMap Report.extension).Nodup := by
  obtain ⟨h,-⟩ := run_sound codec verify hstart.sound es
  refine ⟨?_,?_,h.extension_once hsha hdistinct⟩
  · intro p blindSig a untilSecs hs hx
    have hsame:=minted_once hdistinct (h.issued_minted hsha hs) (h.extended_minted hsha hx)
    cases hsame
  · grind [h.extended_minted,minted_once]

def buyer : AccountRecord := ⟨Block.fill 32 1,.none,Block.fill 32 9⟩

def newPortal : World Unit where
  backend := .memory {StoreState.empty with accounts := Table.empty.insert buyer.accountNumber buyer}
  pending := ⟨.inMemory,Volume.empty⟩
  pendingCheckoutMax := 10
  bindings := ⟨.inMemory,Volume.empty⟩
  issued := Table.empty
  activated := Table.empty
  challenges := Table.empty
  watcher := fun _ => true
  calls := []
  hashed := []
  log := []

lemma newPortal_starts (sha256 : Bytes → Hash) : newPortal.Starts sha256 where
  calls := rfl
  pending := fun _ => rfl
  bindings := fun _ => rfl
  history := fun _ hx => (by cases hx)
  ledger := fun _ hk => absurd rfl hk

def drawing (seed : UInt8) : Env :=
  ⟨true,100,some (Block.fill 32 seed),quietIo,fun _ => .ok,
    .ok (List.replicate 256 5)⟩

def loginWith (challenge : UInt8) : AccountAuth :=
  ⟨toHex buyer.accountNumber.val,toHex (List.replicate 32 challenge),List.replicate 128 48⟩

def bothPlanes : List Event :=
  let go:=fun i => Event.step i (drawing 7)
  [.issueChallenge (Block.fill 32 3) 90,.issueChallenge (Block.fill 32 4) 90,
    .start (.subscribe (loginWith 3)),.start .checkout,go 0,go 1,go 0,go 1,go 0,go 0,
    .step 1 (drawing 8),
    .start (.activate (loginWith 4) (toHex (List.replicate 32 7))),
    .start (.issue ⟨toHex (List.replicate 32 8),List.replicate 512 48⟩ 100),
    go 2,go 3,go 2,go 3,go 2,go 3,go 2,go 3,go 2,go 3,go 2,.prunePending 200 fun _ => .ok,
    go 3,go 2]

def lengthHash (text : Bytes) : Hash := Block.fill 32 (UInt8.ofNat text.length)

def usedPortal : World Unit :=
  newPortal.run blankCodec lengthHash
    (fun _ _ _ => true) bothPlanes

lemma usedPortal_injective : ∀ x∈usedPortal.hashed, ∀ y∈usedPortal.hashed,
    lengthHash x=lengthHash y → x=y := by decide +kernel

theorem both_planes_sell_apart :
    usedPortal.log=[.minted (toHex (List.replicate 32 7)) (some buyer.accountNumber) true,
      .minted (toHex (List.replicate 32 8)) none true,
      .issued (toHex (List.replicate 32 8)) (List.replicate 256 5),
      .extended buyer.accountNumber (toHex (List.replicate 32 7)) 2592100] ∧
    (usedPortal.log.filterMap Report.extension).Nodup := by
  refine ⟨by decide +kernel,?_⟩
  refine (reference_buys_one_thing _ lengthHash _ newPortal (newPortal_starts _) bothPlanes ?_ ?_).2.2
  · decide +kernel
  · intro x hx y hy hxy
    exact usedPortal_injective x hx y hy hxy
end NilVpn.Portal.Subscription
