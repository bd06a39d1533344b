import NilVpn.Base.Tickets
import NilVpn.Portal.Backend
import NilVpn.Portal.Records

/-!
# Paid periods (account/model.rs:16-33, store/memory.rs:63-87, store/file.rs:631-669)

Runs mix all nine operations of either store; the file store meets no I/O error here.
-/

namespace NilVpn.Portal.Activation
open StoreState Base Option List Table

def periodEnd (now bySecs current : ℕ) : ℕ := min (max now current+bySecs) (2^64 - 1)

lemma until_toNat (e : Entitlement) (now bySecs : UInt64) :
    (saturatingAdd ((e.activeUntil now).getD now) bySecs).toNat =
      periodEnd now.toNat bySecs.toNat e.expiry := by
  rw [saturatingAdd_toNat,Entitlement.base_toNat]
  rfl

/-- The mint and issuance operations leave accounts and claims alone. -/
def SameAccounts (s s' : StoreState) : Prop :=
  s'.accounts=s.accounts ∧ s'.activationResults=s.activationResults

lemma chargeMint_sameAccounts (s : StoreState) (key : Hash) (r : MintResult)
    (q : MintQuota) (now : UInt64) :
    SameAccounts s (s.chargeMint key r q now).state := by
  unfold chargeMint
  split
  · exact ⟨rfl,rfl⟩
  split
  · exact ⟨rfl,rfl⟩
  dsimp only
  split
  · exact ⟨rfl,rfl⟩
  split
  · exact ⟨rfl,rfl⟩
  split
  · exact ⟨rfl,rfl⟩
  · exact ⟨rfl,rfl⟩

lemma commitMint_sameAccounts (s : StoreState) (key : Hash) (r : MintResult)
    (q : MintQuota) (now : UInt64) :
    SameAccounts s (s.commitMint key r q now).state := by
  have hd : SameAccounts s (s.living key now) := ⟨living_same.1,living_same.2.1⟩
  simp only [commitMint]
  split
  · exact hd
  · obtain ⟨ha,hc⟩ := chargeMint_sameAccounts (s.living key now) key r q now
    exact ⟨ha.trans hd.1,hc.trans hd.2⟩

/-- Nothing; a new account; or a first call for a key, on an existing account. -/
inductive Effect (s : StoreState) (op : Op) (s' : StoreState) : Prop
  | kept
      (hnone : ∀ account key now bySecs, op=.activateSubscription account key now bySecs →
        s.accounts.get account=none ∨ s.activationResults.get key≠none)
      (hsame : SameAccounts s s')
  | inserted (record : AccountRecord) (hop : op=.insert record)
      (habsent : s.accounts.get record.accountNumber=none)
      (haccounts : s'.accounts=s.accounts.insert record.accountNumber record)
      (hclaims : s'.activationResults=s.activationResults)
  | extended (account key : Hash) (now bySecs untilSecs : UInt64) (record : AccountRecord)
      (hop : op=.activateSubscription account key now bySecs)
      (hrecord : s.accounts.get account=some record) (hfree : s.activationResults.get key=none)
      (huntil : untilSecs.toNat=periodEnd now.toNat bySecs.toNat record.entitlement.expiry)
      (haccounts : s'.accounts=s.accounts.insert account {record with entitlement := .active untilSecs})
      (hclaims : s'.activationResults=s.activationResults.insert key untilSecs)

def perform (s : StoreState) (op : Op) : StoreState × Except StoreError op.Reply :=
  InMemoryStore.perform op.refused op.plan s

section
variable {s : StoreState} {account key : Hash} {now bySecs : UInt64} {r : AccountRecord}
lemma perform_missing (h : s.accounts.get account=none) :
    perform s (.activateSubscription account key now bySecs)=(s,.ok none) := by
  simp only [perform,InMemoryStore.perform,Op.refused,Op.plan,activateSubscription,h]
  rfl

lemma perform_replay (h : s.accounts.get account=some r) {untilSecs : UInt64}
    (hc : s.activationResults.get key=some untilSecs) :
    perform s (.activateSubscription account key now bySecs)=(s,.ok (some (.replay untilSecs))) := by
  simp only [perform,InMemoryStore.perform,Op.refused,Op.plan,activateSubscription,h,hc]
  rfl

lemma perform_first (h : s.accounts.get account=some r) (hf : s.activationResults.get key=none) :
    ∃ untilSecs : UInt64, untilSecs.toNat=periodEnd now.toNat bySecs.toNat r.entitlement.expiry ∧
      perform s (.activateSubscription account key now bySecs)=({ s with
        accounts := s.accounts.insert account {r with entitlement := .active untilSecs}
        activationResults := s.activationResults.insert key untilSecs },
        .ok (some (.newlyActivated untilSecs))) := by
  refine ⟨_,until_toNat r.entitlement now bySecs,?_⟩
  simp only [perform,InMemoryStore.perform,Op.refused,Op.plan,activateSubscription,h,hf]

lemma perform_state_cases (s : StoreState) (op : Op) :
    (perform s op).1=s ∨ (perform s op).1=(op.plan s).state :=
  (InMemoryStore.perform_performed op.refused op.plan s).state_cases

/-- For the operations other than `insert` and `activate_subscription`. -/
lemma Effect.ofPlan {op : Op} (hop : ∀ account key now bySecs,
    op≠.activateSubscription account key now bySecs) (h : SameAccounts s (op.plan s).state) :
    Effect s op (perform s op).1 := by
  apply Effect.kept
  · grind
  · rcases perform_state_cases s op with hs | hs
    · rw [hs]
      exact ⟨rfl,rfl⟩
    · rw [hs]
      exact h

lemma perform_insert_effect (r : AccountRecord) : Effect s (.insert r) (perform s (.insert r)).1 := by
  simp only [perform,InMemoryStore.perform,Op.refused,Op.plan,StoreState.insert]
  by_cases h : s.accounts.contains r.accountNumber
  · simp only [if_pos h]
    apply Effect.kept
    · intro account key now bySecs heq
      cases heq
    · exact ⟨rfl,rfl⟩
  · have ha : s.accounts.get r.accountNumber=none := by
      simpa only [Table.contains,Bool.not_eq_true,isSome_eq_false_iff,isNone_iff_eq_none] using h
    simp only [if_neg h]
    exact .inserted r rfl ha rfl rfl

lemma perform_activate_effect (account key : Hash) (now bySecs : UInt64) :
    Effect s (.activateSubscription account key now bySecs)
      (perform s (.activateSubscription account key now bySecs)).1 := by
  cases hr : s.accounts.get account with
  | none =>
    rw [perform_missing hr]
    apply Effect.kept
    · grind
    · exact ⟨rfl,rfl⟩
  | some r =>
    cases hc : s.activationResults.get key with
    | some untilSecs =>
      rw [perform_replay hr hc]
      apply Effect.kept
      · grind
      · exact ⟨rfl,rfl⟩
    | none =>
      obtain ⟨untilSecs,hu,hp⟩ := perform_first hr hc
      rw [hp]
      exact .extended account key now bySecs untilSecs r rfl hr hc hu rfl rfl

lemma perform_effect (s : StoreState) (op : Op) : Effect s op (perform s op).1 := by
  cases op with
  | insert r => exact perform_insert_effect r
  | activateSubscription account key now bySecs => exact perform_activate_effect account key now bySecs
  | get | lookupIssuance => exact .ofPlan (by simp) ⟨rfl,rfl⟩
  | commitIssuance ik re now =>
    apply Effect.ofPlan (by simp)
    simp only [Op.plan,commitIssuance]
    split
    · exact ⟨rfl,rfl⟩
    · exact ⟨rfl,rfl⟩
  | pruneIssuanceResults now =>
    apply Effect.ofPlan (by simp)
    simp only [Op.plan,pruneIssuanceResults]
    split
    · exact ⟨rfl,rfl⟩
    · exact ⟨rfl,rfl⟩
  | lookupMint rk rh now =>
    apply Effect.ofPlan (by simp)
    simp only [Op.plan,lookupMint]
    split
    · exact ⟨rfl,rfl⟩
    · exact ⟨rfl,rfl⟩
  | commitMint rk re q now => exact .ofPlan (by simp) (commitMint_sameAccounts s rk re q now)
  | pruneMintResults now =>
    apply Effect.ofPlan (by simp)
    simp only [Op.plan,pruneMintResults]
    split
    · exact ⟨rfl,rfl⟩
    · exact ⟨rfl,rfl⟩
end
namespace Effect
variable {s s' : StoreState} {op : Op}
lemma claim_kept (h : Effect s op s') {key : Hash} {untilSecs : UInt64}
    (hl : s.activationResults.get key=some untilSecs) :
    s'.activationResults.get key=some untilSecs := by
  cases h with
  | kept hn hs =>
    rw [hs.2]
    exact hl
  | inserted re hop hab ha hc =>
    rw [hc]
    exact hl
  | extended an key' now bc untilSecs' re hop hr hf hu ha hc => grind [get_insert_ne]

lemma claim_free (h : Effect s op s') {key : Hash} (hf : s.activationResults.get key=none)
    (ho : ∀ an now bc, op=.activateSubscription an key now bc →
      s.accounts.get an=none) : s'.activationResults.get key=none := by
  cases h with
  | kept hn hs =>
    rw [hs.2]
    exact hf
  | inserted re ho' hab ha hc =>
    rw [hc]
    exact hf
  | extended an key' now bc untilSecs re ho' hr hf' hu ha hc => grind [get_insert_ne]

lemma other_accounts (h : Effect s op s') {account : Hash}
    (hin : ∀ re, op=.insert re → re.accountNumber≠account)
    (hac : ∀ account' key now bc, op=.activateSubscription account' key now bc → account'≠account) :
    s'.accounts.get account=s.accounts.get account := by
  cases h with
  | kept hn hs => rw [hs.1]
  | inserted re ho hab ha hc => rw [ha,get_insert_ne _ _ _ _ (hin re ho).symm]
  | extended account' key now bc untilSecs re ho hr hf hu ha hc =>
    rw [ha,get_insert_ne _ _ _ _ (hac account' key now bc ho).symm]
end Effect

structure Request where
  op : Op
  io : Io

abbrev Request.activate (account key : Hash) (now bySecs : UInt64) (io : Io) : Request :=
  ⟨.activateSubscription account key now bySecs,io⟩

structure Payment where
  (account key : Hash)
  (now bySecs : UInt64)

def firstCall (s : StoreState) (claimed : List Hash) : Op → Option Payment
  | .activateSubscription account key now bySecs =>
    if s.accounts.contains account&&!claimed.contains key then some ⟨account,key,now,bySecs⟩
    else none
  | _ => none

def changes (account : Hash) : Op → Bool
  | .insert record => record.accountNumber=account
  | .activateSubscription account' _ _ _ => account'=account
  | _ => false

section
variable (codec : Codec)
def serve (b : Backend) (r : Request) : Backend × Except StoreError r.op.Reply :=
  b.perform codec r.io r.op.refused r.op.plan

def next (b : Backend) (r : Request) : Backend := (serve codec b r).1

def Undisturbed (b : Backend) (rs : List Request) : Prop :=
  Along (next codec) (fun b r => b.Undisturbed codec r.io r.op.plan) b rs

def mapsAt (b : Backend) (rs : List Request) (i : ℕ) : StoreState :=
  (stateAt (next codec) b rs i).state

def answerAt (b : Backend) (rs : List Request) (i : ℕ) (r : Request) : Except StoreError r.op.Reply :=
  (serve codec (stateAt (next codec) b rs i) r).2

/-- The first calls of a run for each key, in their order; `claimed` were claimed before. -/
def firstCalls : Backend → List Hash → List Request → List Payment
  | _,_,[] => []
  | b,claimed,r::rs =>
    (firstCall b.state claimed r.op).toList ++
      firstCalls (next codec b r) ((firstCall b.state claimed r.op).toList.map Payment.key++claimed) rs

def paidBy (account : Hash) (b : Backend) (rs : List Request) : List Payment :=
  (firstCalls codec b (b.state.activationResults.entries.map Prod.fst) rs).filter
    fun p => p.account=account

structure PaidOnce (b : Backend) (rs : List Request) : Prop where
  first : ∀ i account key now bySecs io record, rs[i]?=some (.activate account key now bySecs io) →
    (mapsAt codec b rs i).accounts.get account=some record →
    b.state.activationResults.get key=none →
    (∀ j account' now' bySecs' io', j < i → rs[j]?=some (.activate account' key now' bySecs' io') →
      (mapsAt codec b rs j).accounts.get account'=none) →
    ∃ untilSecs : UInt64, untilSecs.toNat=periodEnd now.toNat bySecs.toNat record.entitlement.expiry ∧
      answerAt codec b rs i (.activate account key now bySecs io) =
        .ok (some (.newlyActivated untilSecs)) ∧
      (mapsAt codec b rs (i+1)).accounts.get account =
        some {record with entitlement := .active untilSecs}
  later : ∀ i j account account' key now now' bySecs bySecs' io io' untilSecs, i<j →
    rs[i]?=some (.activate account key now bySecs io) →
    answerAt codec b rs i (.activate account key now bySecs io) =
      .ok (some (.newlyActivated untilSecs)) →
    rs[j]?=some (.activate account' key now' bySecs' io') →
    (mapsAt codec b rs j).accounts.get account'≠none →
    answerAt codec b rs j (.activate account' key now' bySecs' io')=.ok (some (.replay untilSecs)) ∧
    (mapsAt codec b rs (j+1)).accounts=(mapsAt codec b rs j).accounts
  missing : ∀ i account key now bySecs io, rs[i]?=some (.activate account key now bySecs io) →
    (mapsAt codec b rs i).accounts.get account=none →
    answerAt codec b rs i (.activate account key now bySecs io)=.ok none ∧
    mapsAt codec b rs (i+1)=mapsAt codec b rs i
  others : ∀ i r account, rs[i]?=some r → changes account r.op=false →
    (mapsAt codec b rs (i+1)).accounts.get account=(mapsAt codec b rs i).accounts.get account
  once : ∀ account, ((paidBy codec account b rs).map Payment.key).Nodup
  stacked : ∀ account record, b.state.accounts.get account=some record →
    ∃ record', (runFrom (next codec) b rs).state.accounts.get account=some record' ∧
      record'.entitlement.expiry=(paidBy codec account b rs).foldl
        (fun current p => periodEnd p.now.toNat p.bySecs.toNat current) record.entitlement.expiry
end
section
variable {codec : Codec} {b : Backend} {rs : List Request}
variable {r : Request} {i : ℕ} {key : Hash} {untilSecs : UInt64} {s : StoreState}
  {claimed : List Hash} {op : Op}
section
variable (h : b.Undisturbed codec r.io r.op.plan)
include h
lemma serve_memory : ((serve codec b r).1.state,(serve codec b r).2)=perform b.state r.op :=
  Backend.perform_undisturbed r.op.refused h

lemma next_state : (next codec b r).state=(perform b.state r.op).1 :=
  congrArg Prod.fst (serve_memory h)

lemma next_effect : Effect b.state r.op (next codec b r).state := by
  rw [next_state h]
  exact perform_effect b.state r.op
end
section
variable (h : Undisturbed codec b rs)
include h
lemma mapsAt_succ (hr : rs[i]?=some r) :
    mapsAt codec b rs (i+1)=(perform (mapsAt codec b rs i) r.op).1 := by
  rw [mapsAt,stateAt_succ hr]
  exact next_state (h.here hr)

lemma answerAt_eq (hr : rs[i]?=some r) :
    answerAt codec b rs i r=(perform (mapsAt codec b rs i) r.op).2 :=
  congrArg Prod.snd (serve_memory (h.here hr))

lemma claim_stays {j : ℕ} (hij : i≤j)
    (hi : (mapsAt codec b rs i).activationResults.get key=some untilSecs) :
    (mapsAt codec b rs j).activationResults.get key=some untilSecs := by
  apply kept_between (I := fun b : Backend => b.state.activationResults.get key=some untilSecs) hij hi
  intro k r _ _ hr hk
  exact (next_effect (h.here hr)).claim_kept hk

lemma unclaimed_until (hfr : b.state.activationResults.get key=none)
    (hn : ∀ j an now bc io, j < i → rs[j]?=some (.activate an key now bc io) →
      (mapsAt codec b rs j).accounts.get an=none) :
    (mapsAt codec b rs i).activationResults.get key=none := by
  apply kept_between (I := fun b : Backend => b.state.activationResults.get key=none) (Nat.zero_le i) hfr
  intro k r _ hk hr hf
  apply (next_effect (h.here hr)).claim_free hf
  intro an now bc hop
  obtain ⟨op,io⟩ := r
  cases hop
  exact hn k an now bc io hk hr

lemma claimed_of_newlyActivated {account : Hash}
    {now bySecs : UInt64} {io : Io} (hi : rs[i]?=some (.activate account key now bySecs io))
    (ha : answerAt codec b rs i (.activate account key now bySecs io)=.ok (some (.newlyActivated untilSecs))) :
    (mapsAt codec b rs (i+1)).activationResults.get key=some untilSecs := by
  rw [answerAt_eq h hi] at ha
  rw [mapsAt_succ h hi]
  cases hr : (mapsAt codec b rs i).accounts.get account with
  | none =>
    rw [perform_missing hr] at ha
    cases ha
  | some re =>
    cases hc : (mapsAt codec b rs i).activationResults.get key with
    | some untilSecs' =>
      rw [perform_replay hr hc] at ha
      cases ha
    | none =>
      obtain ⟨untilSecs',-,hp⟩ := perform_first hr hc
      rw [hp] at ha ⊢
      cases ha
      exact get_insert_self ..
end

lemma firstCall_key {p : Payment} (h : firstCall s claimed op=some p) : p.key∉claimed := by
  unfold firstCall at h
  split at h
  · grind
  · cases h

lemma firstCalls_keys (b : Backend) (claimed : List Hash) (rs : List Request) :
    ((firstCalls codec b claimed rs).map Payment.key).Nodup ∧
      ∀ p∈firstCalls codec b claimed rs, p.key∉claimed := by
  induction rs generalizing b claimed with
  | nil => exact ⟨nodup_nil,nofun⟩
  | cons r rs ih =>
    simp only [firstCalls]
    cases hf : firstCall b.state claimed r.op with
    | none => exact ih (next codec b r) claimed
    | some p =>
      obtain ⟨hn,hw⟩ := ih (next codec b r) (p.key::claimed)
      refine ⟨?_,?_⟩
      · grind
      · grind [firstCall_key]

def Lists (claimed : List Hash) (s : StoreState) : Prop :=
  ∀ k, k∈claimed ↔ s.activationResults.get k≠none

lemma lists_keys (s : StoreState) : Lists (s.activationResults.entries.map Prod.fst) s := by
  intro k
  rw [Ne,get_eq_none,not_not]

structure Idle (claimed : List Hash) (s : StoreState) (op : Op) (s' : StoreState) : Prop where
  notFirst : firstCall s claimed op=none
  accounts : ∀ account record, s.accounts.get account=some record → s'.accounts.get account=some record
  claims : s'.activationResults=s.activationResults

structure Paid (claimed : List Hash) (s : StoreState) (op : Op) (s' : StoreState) (p : Payment)
    (record : AccountRecord) (untilSecs : UInt64) : Prop where
  first : firstCall s claimed op=some p
  existing : s.accounts.get p.account=some record
  period : untilSecs.toNat=periodEnd p.now.toNat p.bySecs.toNat record.entitlement.expiry
  accounts : s'.accounts=s.accounts.insert p.account {record with entitlement := .active untilSecs}
  claims : s'.activationResults=s.activationResults.insert p.key untilSecs

lemma Effect.idle_or_paid {s' : StoreState} (h : Effect s op s') (hl : Lists claimed s) :
    Idle claimed s op s' ∨ ∃ p re untilSecs, Paid claimed s op s' p re untilSecs := by
  cases h with
  | kept hn hs =>
    refine .inl ⟨?_,?_,hs.2⟩
    · unfold firstCall
      split
      next an key now bc =>
        apply if_neg
        rw [Bool.and_eq_true,Bool.not_eq_true',contains_eq_mem,decide_eq_false_iff_not]
        rintro ⟨ht,hw⟩
        rcases hn an key now bc rfl with hm | ho
        · rw [Table.contains,hm] at ht
          cases ht
        · exact hw ((hl key).mpr ho)
      · rfl
    · intro an re hr
      rw [hs.1]
      exact hr
  | inserted re hp hab ha hc =>
    refine .inl ⟨?_,?_,hc⟩
    · rw [hp]
      rfl
    · grind [get_insert_ne]
  | extended an key now bc untilSecs re hp hr hf hu ha hc =>
    refine .inr ⟨⟨an,key,now,bc⟩,re,untilSecs,?_,hr,hu,ha,hc⟩
    have hw : key∉claimed := by
      rw [hl key,hf]
      exact fun hne => hne rfl
    rw [hp]
    apply if_pos
    rw [Bool.and_eq_true,Bool.not_eq_true',contains_eq_mem,decide_eq_false_iff_not,Table.contains,hr]
    exact ⟨rfl,hw⟩

lemma Paid.lists {s' : StoreState} {p : Payment} {r : AccountRecord}
    (h : Paid claimed s op s' p r untilSecs) (hc : Lists claimed s) :
    Lists (p.key::claimed) s' := by
  intro k
  rw [h.claims,get_insert,mem_cons,hc k]
  by_cases hk : k=p.key
  · simp [hk]
  · simp [hk]

lemma firstCalls_stack (h : Undisturbed codec b rs) (hc : Lists claimed b.state)
    {account : Hash} {record : AccountRecord} (hre : b.state.accounts.get account=some record) :
    ∃ record', (runFrom (next codec) b rs).state.accounts.get account=some record' ∧
      record'.entitlement.expiry =
        ((firstCalls codec b claimed rs).filter fun p => p.account=account).foldl
          (fun current p => periodEnd p.now.toNat p.bySecs.toNat current)
          record.entitlement.expiry := by
  -- the induction is on the run, for every starting record and every list of claims
  induction rs generalizing b claimed record with
  | nil => exact ⟨record,hre,rfl⟩
  | cons r rs ih =>
    obtain ⟨hr,hrs⟩ := h
    simp only [firstCalls]
    rcases (next_effect hr).idle_or_paid hc with hid | ⟨p,paid,untilSecs,hpd⟩
    · rw [hid.notFirst]
      apply ih hrs _ (hid.accounts account record hre)
      intro k
      rw [hid.claims]
      exact hc k
    · rw [hpd.first]
      by_cases hp : p.account=account
      · have hs : paid=record := by
          have hg:=hpd.existing
          rw [hp,hre] at hg
          exact (Option.some.inj hg).symm
        have hn : (next codec b r).state.accounts.get account =
            some {record with entitlement := .active untilSecs} := by
          rw [hpd.accounts,hp,hs]
          exact get_insert_self ..
        obtain ⟨record',hd,he⟩ := ih hrs (hpd.lists hc) hn
        refine ⟨record',hd,?_⟩
        rw [he]
        simp only [toList_some,singleton_append,filter_cons,hp,decide_true,
          if_true,foldl_cons,Entitlement.expiry,hpd.period,hs]
        rfl
      · have hn : (next codec b r).state.accounts.get account=some record := by
          rw [hpd.accounts,get_insert_ne _ _ _ _ (Ne.symm hp)]
          exact hre
        obtain ⟨record',hd,he⟩ := ih hrs (hpd.lists hc) hn
        refine ⟨record',hd,?_⟩
        rw [he]
        simp only [toList_some,singleton_append,filter_cons,hp,decide_false]
        rfl

theorem paid_period_stacks_once (codec : Codec) (b : Backend)
    (rs : List Request) (h : Undisturbed codec b rs) : PaidOnce codec b rs where
  first := by
    intro i an key now bc io re hi hc hfree hnone
    have hunclaimed:=unclaimed_until h hfree hnone
    obtain ⟨untilSecs,huntil,hp⟩ := perform_first hc hunclaimed
    refine ⟨untilSecs,huntil,?_,?_⟩
    · rw [answerAt_eq h hi,hp]
    · rw [mapsAt_succ h hi,hp]
      exact get_insert_self ..
  later := by
    intro i j an an' key now now' bc bc' io io' untilSecs hij hi ha hj hthere
    have hclaim:=claim_stays h (Nat.succ_le_of_lt hij) (claimed_of_newlyActivated h hi ha)
    obtain ⟨re,hc⟩ := ne_none_iff_exists'.mp hthere
    refine ⟨?_,?_⟩
    · rw [answerAt_eq h hj,perform_replay hc hclaim]
    · rw [mapsAt_succ h hj,perform_replay hc hclaim]
  missing := by simp_all [answerAt_eq,perform_missing,mapsAt_succ]
  others := by
    intro i r an hr hh
    rw [mapsAt_succ h hr]
    apply (perform_effect _ r.op).other_accounts
    · intro re hop
      rw [hop] at hh
      exact of_decide_eq_false hh
    · intro an' key now bc hop
      rw [hop] at hh
      exact of_decide_eq_false hh
  once := by
    intro an
    have hsub:=(filter_sublist (p := fun p : Payment => decide (p.account=an))
      (l := firstCalls codec b (b.state.activationResults.entries.map Prod.fst) rs))
    exact (hsub.map Payment.key).nodup (firstCalls_keys b _ rs).1
  stacked := fun an re hc => firstCalls_stack h (lists_keys b.state) hc
end


def newSubscriber : Backend :=
  .file ⟨{ StoreState.empty with
    accounts := Table.empty.insert (Block.fill 32 1) ⟨Block.fill 32 1,.none,Block.fill 32 9⟩ },false⟩
    Volume.empty

/-- The second payment comes before the first period is over, after a replay of the first. -/
def twoPayments : List Request :=
  [.activate (Block.fill 32 1) (Block.fill 32 5) 100 30 quietIo,
    .activate (Block.fill 32 1) (Block.fill 32 5) 110 30 quietIo,
    .activate (Block.fill 32 2) (Block.fill 32 6) 110 30 quietIo,
    .activate (Block.fill 32 1) (Block.fill 32 6) 120 30 quietIo]

theorem two_payments_stack :
    let codec : Codec := ⟨⟨fun _ => some [],fun _ => none⟩,⟨fun _ _ _ => none,fun _ _ _ => none⟩⟩
    (paidBy codec (Block.fill 32 1) newSubscriber twoPayments).map Payment.now=[100,120] ∧
    ((runFrom (next codec) newSubscriber twoPayments).state.accounts.get (Block.fill 32 1)).map
      AccountRecord.entitlement=some (.active 160) ∧
    PaidOnce codec newSubscriber twoPayments := by
  refine ⟨by decide +kernel,by decide +kernel,paid_period_stacks_once _ _ _ ?_⟩
  refine ⟨⟨fun _ => rfl,?_⟩,⟨fun _ => rfl,?_⟩,⟨fun _ => rfl,?_⟩,⟨fun _ => rfl,?_⟩,trivial⟩
  · decide +kernel
  · decide +kernel
  · decide +kernel
  · decide +kernel
end NilVpn.Portal.Activation
