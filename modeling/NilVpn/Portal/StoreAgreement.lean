import NilVpn.Portal.Records

/-!
# Stores that answer alike

A mint result that has expired answers nobody, and an operation may drop it from memory
without persisting that.
-/

namespace NilVpn.Portal
open Plan StoreState Base Option List Table

namespace StoreState
variable (s : StoreState)
def liveMint (now : UInt64) (requestKey : Hash) : Option MintResult :=
  (s.mintResults.get requestKey).filter fun result => now < result.expiresAt

variable {s} {requestKey : Hash} {now : UInt64}
lemma liveMint_eq_some {r : MintResult} : s.liveMint now requestKey=some r ↔
      s.mintResults.get requestKey=some r ∧ now < r.expiresAt := by
  rw [liveMint,filter_eq_some_iff,decide_eq_true_eq]

lemma mintExpired_of_live {r : MintResult} (hr : s.mintResults.get requestKey=some r)
    (hl : now < r.expiresAt) : s.mintExpired requestKey now=false := by
  rw [mintExpired,hr,any_some]
  exact decide_eq_false (UInt64.not_le.mpr hl)

lemma mintExpired_of_absent (hr : s.mintResults.get requestKey=none) :
    s.mintExpired requestKey now=false := by
  rw [mintExpired,hr,any_none]

lemma living_eq_self (h : s.mintExpired requestKey now=false) : s.living requestKey now=s := by
  rw [living,h]
  rfl

lemma living_get_ne {k : Hash} (hk : k≠requestKey) :
    (s.living requestKey now).mintResults.get k=s.mintResults.get k := by
  unfold living
  split
  · exact (get_erase ..).trans (if_neg hk)
  · rfl

lemma living_get : (s.living requestKey now).mintResults.get requestKey=s.liveMint now requestKey := by
  unfold living
  split
  next he =>
    rw [mintExpired,Option.any_eq_true] at he
    obtain ⟨re,hr,hle⟩ := he
    rw [dropMint,get_erase,if_pos rfl,liveMint,hr,filter_some,
      decide_eq_false (UInt64.not_lt.mpr (of_decide_eq_true hle))]
    rfl
  next hk =>
    cases hr : s.mintResults.get requestKey with
    | none => rw [liveMint,hr,filter_none]
    | some re =>
      rw [mintExpired,hr,any_some,decide_eq_true_eq] at hk
      exact (liveMint_eq_some.mpr ⟨hr,UInt64.not_le.mp hk⟩).symm

lemma living_liveMint (k : Hash) : (s.living requestKey now).liveMint now k=s.liveMint now k := by
  by_cases hk : k=requestKey
  · grind [liveMint,living_get,Option.filter_filter,Bool.and_self]
  · rw [liveMint,living_get_ne hk,liveMint]
end StoreState

structure StoreState.AgreesAt (now : UInt64) (s s' : StoreState) : Prop where
  accounts : ∀ k, s'.accounts.get k=s.accounts.get k
  activations : ∀ k, s'.activationResults.get k=s.activationResults.get k
  issuance : ∀ k, s'.issuanceResults.get k=s.issuanceResults.get k
  mint : ∀ k, s'.liveMint now k=s.liveMint now k
  quotas : ∀ k, s'.mintQuotas.get k=s.mintQuotas.get k

namespace StoreState.AgreesAt
variable {s s' s'' : StoreState} {now latest : UInt64}
lemma refl (s : StoreState) : s.AgreesAt now s :=
  ⟨fun _ => rfl,fun _ => rfl,fun _ => rfl,fun _ => rfl,fun _ => rfl⟩

lemma symm (h : s.AgreesAt now s') : s'.AgreesAt now s :=
  ⟨fun k => (h.accounts k).symm,fun k => (h.activations k).symm,fun k => (h.issuance k).symm,
    fun k => (h.mint k).symm,fun k => (h.quotas k).symm⟩

lemma trans (h : s.AgreesAt now s') (h' : s'.AgreesAt now s'') : s.AgreesAt now s'' :=
  ⟨fun k => (h'.accounts k).trans (h.accounts k),fun k => (h'.activations k).trans (h.activations k),
    fun k => (h'.issuance k).trans (h.issuance k),fun k => (h'.mint k).trans (h.mint k),
    fun k => (h'.quotas k).trans (h.quotas k)⟩

lemma of_agrees (h : s.Agrees s') : s.AgreesAt now s' :=
  ⟨h.accounts,h.activations,h.issuance,fun k => by rw [liveMint,liveMint,h.mint],h.quotas⟩

lemma mono (h : s.AgreesAt now s') (hle : now≤latest) : s.AgreesAt latest s' := by
  refine ⟨h.accounts,h.activations,h.issuance,?_,h.quotas⟩
  have hv : ∀ (t : StoreState) k,
      t.liveMint latest k=(t.liveMint now k).filter fun r => latest < r.expiresAt := by
    intro t k
    rw [liveMint,liveMint,Option.filter_filter]
    congr 1
    funext r
    by_cases hr : latest < r.expiresAt
    · simp only [hr,UInt64.lt_of_le_of_lt hle hr,decide_true,Bool.and_self]
    · simp only [hr,decide_false,Bool.and_false]
  intro k
  rw [hv,hv,h.mint]

lemma living (s : StoreState) (requestKey : Hash) (now : UInt64) :
    s.AgreesAt now (s.living requestKey now) := by
  obtain ⟨h1,h2,h3,h4⟩ := @living_same s requestKey now
  exact ⟨fun _ => by rw [h1],fun _ => by rw [h2],fun _ => by rw [h3],living_liveMint,fun _ => by rw [h4]⟩
end StoreState.AgreesAt

def Plan.reply {R : Type} : Plan R → Except StoreError R
  | answer _ reply => reply
  | write _ reply => .ok reply

lemma InMemoryStore.perform_none {R : Type} (p : StoreState → Plan R) (s : StoreState) :
    InMemoryStore.perform none p s=((p s).state,(p s).reply) := by
  unfold InMemoryStore.perform
  cases p s with
  | answer | write => rfl

namespace Op
def clock : Op → Option UInt64
  | insert _ | get _ => none
  | activateSubscription _ _ now _ | lookupIssuance _ _ now | commitIssuance _ _ now
  | pruneIssuanceResults now | lookupMint _ _ now | commitMint _ _ _ now | pruneMintResults now => some now

/-- The count of a pruner is not compared. -/
def uncounted : (op : Op) → op.Reply → op.Reply
  | pruneIssuanceResults _,_ | pruneMintResults _,_ => (0 : ℕ)
  | insert _,r | get _,r | activateSubscription ..,r | lookupIssuance ..,r | commitIssuance ..,r
  | lookupMint ..,r | commitMint ..,r => r
end Op

structure Answer where
  op : Op
  reply : Except StoreError op.Reply

def Answer.uncounted (a : Answer) : Answer := ⟨a.op,a.reply.map a.op.uncounted⟩

def memoryRun (s : StoreState) : List Op → List Answer
  | [] => []
  | op::ops =>
    let out:=InMemoryStore.perform op.refused op.plan s
    ⟨op,out.2⟩::memoryRun out.1 ops

def Forward (now : UInt64) (clocks : List UInt64) : Prop := (now::clocks).Pairwise (·≤·)

lemma Forward.start {clocks : List UInt64} (h : clocks.Pairwise (·≤·)) : Forward 0 clocks :=
  pairwise_cons.mpr ⟨fun _ _ => UInt64.le_iff_toNat_le.mpr (Nat.zero_le _),h⟩

lemma Forward.next {α : Type} {c : α → Option UInt64} {now : UInt64} {e : α} {es : List α}
    (h : Forward now ((e::es).filterMap c)) :
    now≤(c e).getD now ∧ Forward ((c e).getD now) (es.filterMap c) := by
  rw [filterMap_cons] at h
  cases hc : c e with
  | none =>
    rw [hc] at h
    exact ⟨UInt64.le_refl now,h⟩
  | some t =>
    rw [hc] at h
    obtain ⟨hh,ht⟩ := pairwise_cons.mp h
    exact ⟨hh t mem_cons_self,ht⟩

namespace StoreState
variable (s : StoreState) (now : UInt64)
lemma pruneIssuanceResults_plan : (s.pruneIssuanceResults now).state =
        {s with issuanceResults := s.issuanceResults.mapVal (IssuanceResult.scrub now)} ∧
      (s.pruneIssuanceResults now).reply.map (fun _ => 0)=.ok 0 := by
  simp only [pruneIssuanceResults]
  split
  · exact ⟨rfl,rfl⟩
  · exact ⟨rfl,rfl⟩

lemma pruneMintResults_plan :
    (s.pruneMintResults now).state={ s with
        mintResults := s.mintResults.retain fun _ result => now < result.expiresAt
        mintQuotas := s.mintQuotas.retain fun _ row => now < row.windowEnd } ∧
      (s.pruneMintResults now).reply.map (fun _ => 0)=.ok 0 := by
  simp only [pruneMintResults]
  split
  · exact ⟨rfl,rfl⟩
  · exact ⟨rfl,rfl⟩

lemma lookupMint_plan (requestKey hash : Hash) :
    (s.lookupMint requestKey hash now).state=s.living requestKey now ∧
      (s.lookupMint requestKey hash now).reply =
        .ok ((s.living requestKey now).mintLookup requestKey hash) := by
  unfold lookupMint living
  split
  · exact ⟨rfl,rfl⟩
  · exact ⟨rfl,rfl⟩
end StoreState

structure Plan.Alike {R : Type} (now : UInt64) (f : R → R) (a b : Plan R) : Prop where
  state : a.state.AgreesAt now b.state
  reply : b.reply.map f=a.reply.map f

namespace StoreState.AgreesAt
variable {s s' : StoreState} {now : UInt64}
section
variable (h : s.AgreesAt now s')
include h
lemma insert (r : AccountRecord) : Plan.Alike now id (s.insert r) (s'.insert r) := by
  unfold StoreState.insert Table.contains
  rw [h.accounts]
  split
  · exact ⟨h,rfl⟩
  · refine ⟨⟨?_,h.activations,h.issuance,h.mint,h.quotas⟩,rfl⟩
    intro k
    simp only [state,get_insert,h.accounts]

lemma activateSubscription (account key : Hash) (t bySecs : UInt64) :
    Plan.Alike now id (s.activateSubscription account key t bySecs)
      (s'.activateSubscription account key t bySecs) := by
  unfold StoreState.activateSubscription
  rw [h.accounts]
  cases s.accounts.get account with
  | none => exact ⟨h,rfl⟩
  | some re =>
    dsimp only
    rw [h.activations]
    cases s.activationResults.get key with
    | some u => exact ⟨h,rfl⟩
    | none =>
      refine ⟨⟨?_,?_,h.issuance,h.mint,h.quotas⟩,rfl⟩
      · intro k
        simp only [state,get_insert,h.accounts]
      · intro k
        simp only [state,get_insert,h.activations]

lemma lookupIssuance (key hash : Hash) (t : UInt64) : Plan.Alike now id (s.lookupIssuance key hash t)
      (s'.lookupIssuance key hash t) := by
  refine ⟨h,?_⟩
  simp only [StoreState.lookupIssuance,reply,h.issuance]

lemma commitIssuance (key : Hash) (r : IssuanceResult) (t : UInt64) :
    Plan.Alike now id (s.commitIssuance key r t) (s'.commitIssuance key r t) := by
  unfold StoreState.commitIssuance
  rw [h.issuance]
  cases s.issuanceResults.get key with
  | some ex => exact ⟨h,rfl⟩
  | none =>
    refine ⟨⟨h.accounts,h.activations,?_,h.mint,h.quotas⟩,rfl⟩
    intro k
    simp only [state,get_insert,h.issuance]

lemma pruneIssuanceResults (t : UInt64) :
    Plan.Alike now (fun _ => 0) (s.pruneIssuanceResults t) (s'.pruneIssuanceResults t) := by
  obtain ⟨hs,hr⟩ := s.pruneIssuanceResults_plan t
  obtain ⟨hs',hr'⟩ := s'.pruneIssuanceResults_plan t
  refine ⟨?_,hr'.trans hr.symm⟩
  rw [hs,hs']
  refine ⟨h.accounts,h.activations,?_,h.mint,h.quotas⟩
  intro k
  simp only [get_mapVal,h.issuance]

lemma pruneMintResults :
    Plan.Alike now (fun _ => 0) (s.pruneMintResults now) (s'.pruneMintResults now) := by
  obtain ⟨hs,hr⟩ := s.pruneMintResults_plan now
  obtain ⟨hs',hr'⟩ := s'.pruneMintResults_plan now
  refine ⟨?_,hr'.trans hr.symm⟩
  rw [hs,hs']
  refine ⟨h.accounts,h.activations,h.issuance,?_,?_⟩
  · intro k
    have hk:=h.mint k
    unfold liveMint at hk ⊢
    rw [get_retain,get_retain,hk]
  · intro k
    simp only [get_retain,h.quotas]

lemma lookupMint (requestKey hash : Hash) : Plan.Alike now id (s.lookupMint requestKey hash now)
      (s'.lookupMint requestKey hash now) := by
  obtain ⟨hs,hr⟩ := s.lookupMint_plan now requestKey hash
  obtain ⟨hs',hr'⟩ := s'.lookupMint_plan now requestKey hash
  refine ⟨?_,?_⟩
  · rw [hs,hs']
    exact ((living s requestKey now).symm.trans h).trans (living s' requestKey now)
  · rw [hr,hr',mintLookup,mintLookup,living_get,living_get,h.mint]

lemma chargeMint (requestKey : Hash) (r : MintResult) (q : MintQuota) (t : UInt64) :
    Plan.Alike now id (s.chargeMint requestKey r q t) (s'.chargeMint requestKey r q t) := by
  unfold StoreState.chargeMint
  rw [h.quotas]
  split
  · exact ⟨h,rfl⟩
  split
  · exact ⟨h,rfl⟩
  dsimp only
  split
  · exact ⟨h,rfl⟩
  split
  · exact ⟨h,rfl⟩
  split
  · exact ⟨h,rfl⟩
  refine ⟨⟨h.accounts,h.activations,h.issuance,?_,?_⟩,rfl⟩
  · intro k
    have hk:=h.mint k
    unfold StoreState.liveMint at hk ⊢
    simp only [state,get_insert]
    split
    · rfl
    · exact hk
  · intro k
    simp only [state,get_insert,h.quotas]

lemma commitMint (requestKey : Hash) (r : MintResult) (q : MintQuota) :
    Plan.Alike now id (s.commitMint requestKey r q now) (s'.commitMint requestKey r q now) := by
  have hl : (s.living requestKey now).AgreesAt now (s'.living requestKey now) :=
    ((living s requestKey now).symm.trans h).trans (living s' requestKey now)
  have hg : (s'.living requestKey now).mintResults.get requestKey =
      (s.living requestKey now).mintResults.get requestKey := by
    rw [living_get,living_get,h.mint]
  simp only [StoreState.commitMint]
  rw [← StoreState.living,← StoreState.living,hg]
  cases (s.living requestKey now).mintResults.get requestKey with
  | some ex => exact ⟨hl,rfl⟩
  | none => exact hl.chargeMint requestKey r q now
end

/-- Maps that agree at the clock value of an operation agree after it, and it answers alike. -/
lemma plan (op : Op) (h : s.AgreesAt (op.clock.getD now) s') :
    Plan.Alike (op.clock.getD now) op.uncounted (op.plan s) (op.plan s') := by
  cases op with
  | insert rc => exact h.insert rc
  | get an =>
    refine ⟨h,?_⟩
    simp only [Op.plan,get,reply,h.accounts]
  | activateSubscription an ak now bs => exact h.activateSubscription an ak now bs
  | lookupIssuance ik rh now => exact h.lookupIssuance ik rh now
  | commitIssuance ik re now => exact h.commitIssuance ik re now
  | pruneIssuanceResults now => exact h.pruneIssuanceResults now
  | lookupMint requestKey rh now => exact h.lookupMint requestKey rh
  | commitMint requestKey re q now => exact h.commitMint requestKey re q
  | pruneMintResults now => exact h.pruneMintResults

lemma answer (op : Op) {state : StoreState} {reply : Except StoreError op.Reply}
    (h : op.plan s=.answer state reply) : s.AgreesAt (op.clock.getD now) state := by
  cases op with
  | insert rc => grind [Op.plan,StoreState.insert,refl]
  | get an =>
    cases h
    exact refl s
  | activateSubscription an ak now bs => grind [Op.plan,StoreState.activateSubscription,refl]
  | lookupIssuance ik rh now =>
    cases h
    exact refl s
  | commitIssuance ik re now => grind [Op.plan,StoreState.commitIssuance,refl]
  | pruneIssuanceResults now =>
    simp only [Op.plan,StoreState.pruneIssuanceResults] at h
    split at h
    next hz =>
      cases h
      refine ⟨fun _ => rfl,fun _ => rfl,?_,fun _ => rfl,fun _ => rfl⟩
      intro k
      rw [get_mapVal]
      cases ho : s.issuanceResults.get k with
      | none => rfl
      | some r =>
        have hl:=countP_eq_zero.mp hz (k,r) ((get_eq_some _ _ _).mp ho)
        rw [map_some,StoreState.scrub_eq_self (Bool.eq_false_iff.mpr hl)]
    · cases h
  | lookupMint requestKey rh now => grind [Op.plan,StoreState.lookupMint,refl]
  | commitMint requestKey re q now =>
    have hs : state=s.living requestKey now := by
      simp only [Op.plan,StoreState.commitMint] at h
      split at h
      · cases h
        rfl
      · exact StoreState.chargeMint_answer h
    rw [hs]
    exact living s requestKey now
  | pruneMintResults now =>
    simp only [Op.plan,StoreState.pruneMintResults] at h
    split at h
    next hz =>
      obtain ⟨hr,hq⟩ := Nat.add_eq_zero_iff.mp hz
      cases h
      rw [retain_eq_self hr,retain_eq_self hq]
      exact refl s
    · cases h
end StoreState.AgreesAt
end NilVpn.Portal
