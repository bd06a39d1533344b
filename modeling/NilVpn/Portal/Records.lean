import NilVpn.Portal.Snapshot

/-!
# The nine operations and the records they speak of
-/

namespace NilVpn.Portal
open IssuanceResult Base Option List Table

inductive Record
  | account (key : Hash) (record : AccountRecord)
  | activation (key : Hash) (untilSecs : UInt64)
  | issuance (key : Hash) (result : IssuanceResult)
  | mint (key : Hash) (result : MintResult)
  deriving DecidableEq

def Record.isIn (s : StoreState) : Record → Bool
  | account key record => s.accounts.get key=some record
  | activation key untilSecs => s.activationResults.get key=some untilSecs
  | issuance key result => s.issuanceResults.get key=some result
  | mint key result => s.mintResults.get key=some result

def StoreState.records (s : StoreState) : List Record :=
  s.accounts.entries.map (fun e => .account e.1 e.2) ++
  s.activationResults.entries.map (fun e => .activation e.1 e.2) ++
  s.issuanceResults.entries.map (fun e => .issuance e.1 e.2) ++
  s.mintResults.entries.map (fun e => .mint e.1 e.2)

lemma StoreState.isIn_of_mem_records {s : StoreState} {r : Record} (h : r∈s.records) : r.isIn s := by
  simp only [StoreState.records,mem_append,List.mem_map] at h
  rcases h with ((h | h) | h) | h
  all_goals
    obtain ⟨e,he,rfl⟩ := h
    exact decide_eq_true ((get_eq_some _ _ _).mpr he)

lemma StoreState.Agrees.isIn {s s' : StoreState} (h : s.Agrees s') (r : Record) : r.isIn s'=r.isIn s := by
  simp [Record.isIn,h.accounts,h.activations,h.issuance,h.mint]

inductive Op
  | insert (record : AccountRecord)
  | get (accountNumber : Hash)
  | activateSubscription (accountNumber activationKey : Hash) (now bySecs : UInt64)
  | lookupIssuance (issuanceKey requestHash : Hash) (now : UInt64)
  | commitIssuance (issuanceKey : Hash) (result : IssuanceResult) (now : UInt64)
  | pruneIssuanceResults (now : UInt64)
  | lookupMint (requestKey requestHash : Hash) (now : UInt64)
  | commitMint (requestKey : Hash) (result : MintResult) (quota : MintQuota) (now : UInt64)
  | pruneMintResults (now : UInt64)

namespace Op
def Reply : Op → Type
  | insert _ => Unit
  | get _ => Option AccountRecord
  | activateSubscription .. => Option SubscriptionActivation
  | lookupIssuance .. => IssuanceLookup
  | commitIssuance .. => IssuanceCommit
  | lookupMint .. => MintLookup
  | commitMint .. => MintCommit
  | pruneIssuanceResults _ | pruneMintResults _ => ℕ

def refused : Op → Option StoreError
  | commitIssuance _ result now => refuseIssuance result now
  | commitMint _ result _ now => refuseMint result now
  | _ => none

def plan : (op : Op) → StoreState → Plan op.Reply
  | insert record,s => s.insert record
  | get accountNumber,s => s.get accountNumber
  | activateSubscription accountNumber activationKey now bySecs,s =>
    s.activateSubscription accountNumber activationKey now bySecs
  | lookupIssuance issuanceKey requestHash now,s => s.lookupIssuance issuanceKey requestHash now
  | commitIssuance issuanceKey result now,s => s.commitIssuance issuanceKey result now
  | pruneIssuanceResults now,s => s.pruneIssuanceResults now
  | lookupMint requestKey requestHash now,s => s.lookupMint requestKey requestHash now
  | commitMint requestKey result quota now,s => s.commitMint requestKey result quota now
  | pruneMintResults now,s => s.pruneMintResults now

def wellSized : Op → Bool
  | commitIssuance _ result _ => result.blindSig.length*2=blindTokenHexLen
  | _ => true
end Op
namespace StoreState.Storable
variable {s : StoreState}
section
variable (hs : s.Storable)
include hs
lemma insert (r : AccountRecord) : (s.insert r).state.Storable := by
  unfold StoreState.insert
  split
  · exact hs
  · exact ⟨forall_insert hs.accounts rfl,hs.issuance,hs.quotas⟩

lemma activateSubscription (account key : Hash) (now bySecs : UInt64) :
    (s.activateSubscription account key now bySecs).state.Storable := by
  unfold StoreState.activateSubscription
  split
  · exact hs
  next re hr =>
    split
    · exact hs
    · have hn:=hs.accounts _ re hr
      exact ⟨forall_insert hs.accounts hn,hs.issuance,hs.quotas⟩

variable (key : Hash)
lemma commitIssuance {r : IssuanceResult} (hsz : r.blindSig.length*2=blindTokenHexLen) (now : UInt64) :
    (s.commitIssuance key r now).state.Storable := by
  unfold StoreState.commitIssuance
  split
  · exact hs
  · exact ⟨hs.accounts,forall_insert hs.issuance (Or.inr hsz),hs.quotas⟩

lemma pruneIssuanceResults (now : UInt64) : (s.pruneIssuanceResults now).state.Storable := by
  have hst : (s.pruneIssuanceResults now).state =
      {s with issuanceResults := s.issuanceResults.mapVal (scrub now)} := by
    simp only [StoreState.pruneIssuanceResults]
    split
    · rfl
    · rfl
  rw [hst]
  refine ⟨hs.accounts,?_,hs.quotas⟩
  intro k r h
  rw [get_mapVal] at h
  obtain ⟨r0,hr0,hsc⟩ := map_eq_some_iff.mp h
  rw [← hsc]
  unfold scrub
  split
  · exact Or.inl rfl
  · exact hs.issuance k r0 hr0

lemma dropMint : (s.dropMint key).Storable := ⟨hs.accounts,hs.issuance,hs.quotas⟩

lemma lookupMint (key hash : Hash) (now : UInt64) : (s.lookupMint key hash now).state.Storable := by
  unfold StoreState.lookupMint
  split
  · exact hs.dropMint key
  · exact hs

lemma chargeMint (r : MintResult) (q : MintQuota) (now : UInt64) :
    (s.chargeMint key r q now).state.Storable := by
  unfold StoreState.chargeMint
  split
  · exact hs
  next hw =>
    simp only [MintQuota.isWellFormed,Bool.not_eq_true',Bool.not_eq_false,Bool.and_eq_true,
      decide_eq_true_eq] at hw
    obtain ⟨⟨⟨hst,he⟩,-⟩,-⟩ := hw
    split
    · exact hs
    dsimp only
    split
    · exact hs
    split
    · exact hs
    split
    · exact hs
    have hwi:=UInt64.lt_of_le_of_lt hst he
    exact ⟨hs.accounts,hs.issuance,forall_insert hs.quotas hwi⟩

lemma commitMint (r : MintResult) (q : MintQuota) (now : UInt64) :
    (s.commitMint key r q now).state.Storable := by
  have hst : (s.living key now).Storable := by
    unfold living
    split
    · exact hs.dropMint key
    · exact hs
  simp only [StoreState.commitMint]
  split
  · exact hst
  · exact hst.chargeMint key r q now

lemma pruneMintResults (now : UInt64) : (s.pruneMintResults now).state.Storable := by
  have hst : (s.pruneMintResults now).state={ s with
      mintResults := s.mintResults.retain fun _ re => now < re.expiresAt
      mintQuotas := s.mintQuotas.retain fun _ row => now < row.windowEnd } := by
    simp only [StoreState.pruneMintResults]
    split
    · rfl
    · rfl
  rw [hst]
  refine ⟨hs.accounts,hs.issuance,?_⟩
  intro k row h
  rw [get_retain] at h
  exact hs.quotas k row (filter_eq_some_iff.mp h).1
end
end StoreState.Storable

lemma Op.plan_storable {s : StoreState} (op : Op) (hsz : op.wellSized) (hs : s.Storable) :
    (op.plan s).state.Storable := by
  cases op with
  | insert rc => exact hs.insert rc
  | get an => exact hs
  | activateSubscription an ak now bs => exact hs.activateSubscription an ak now bs
  | lookupIssuance ik rh now => exact hs
  | commitIssuance ik re now => exact hs.commitIssuance ik (of_decide_eq_true hsz) now
  | pruneIssuanceResults now => exact hs.pruneIssuanceResults now
  | lookupMint rk rh now => exact hs.lookupMint rk rh now
  | commitMint rk re q now => exact hs.commitMint rk re q now
  | pruneMintResults now => exact hs.pruneMintResults now

def StoreState.Within (s' s : StoreState) : Prop := ∀ r : Record, r.isIn s'=true → r.isIn s=true

lemma StoreState.Within.refl (s : StoreState) : s.Within s := fun _ h => h

namespace StoreState
variable {s : StoreState}
lemma within_mint {t : Table Hash MintResult} {q : Table (Hash × UInt64) QuotaRow}
    (h : ∀ k v, t.get k=some v → s.mintResults.get k=some v) :
    StoreState.Within {s with mintResults := t,mintQuotas := q} s := by
  intro r hr
  cases r with
  | account | activation | issuance => exact hr
  | mint key re => exact decide_eq_true (h key re (of_decide_eq_true hr))

lemma dropMint_within (key : Hash) : (s.dropMint key).Within s := by
  refine within_mint ?_
  intro k v hv
  rw [get_erase] at hv
  split at hv
  · cases hv
  · exact hv

variable {now : UInt64}
lemma scrub_eq_self {r : IssuanceResult} (h : (r.replayUntil≤now&&!r.blindSig.isEmpty)=false) :
    r.scrub now=r := by
  rw [scrub,h]
  rfl

lemma pruneIssuanceResults_within (h : s.issuanceResults.entries.countP
      (fun e => e.2.replayUntil≤now&&!e.2.blindSig.isEmpty)=0) :
    StoreState.Within {s with issuanceResults := s.issuanceResults.mapVal (scrub now)} s := by
  intro r hr
  cases r with
  | account | activation | mint => exact hr
  | issuance key re =>
    have hg:=of_decide_eq_true hr
    rw [get_mapVal] at hg
    obtain ⟨r0,hr0,hs⟩ := map_eq_some_iff.mp hg
    have hl:=countP_eq_zero.mp h (key,r0) ((get_eq_some _ _ _).mp hr0)
    rw [scrub_eq_self (Bool.eq_false_iff.mpr hl)] at hs
    rw [← hs]
    exact decide_eq_true hr0

variable {m : Except StoreError MintCommit}
lemma chargeMint_answer {st : StoreState} {key : Hash} {r : MintResult} {q : MintQuota}
    (h : s.chargeMint key r q now=.answer st m) : st=s := by
  unfold StoreState.chargeMint at h
  split at h
  · cases h
    rfl
  split at h
  · cases h
    rfl
  dsimp only at h
  split at h
  · cases h
    rfl
  split at h
  · cases h
    rfl
  split at h
  · cases h
    rfl
  · cases h

lemma commitMint_within {st : StoreState} {key : Hash} {r : MintResult} {q : MintQuota}
    (h : s.commitMint key r q now=.answer st m) : st.Within s := by
  have hd : (s.living key now).Within s := by
    unfold living
    split
    · exact dropMint_within key
    · exact .refl s
  simp only [StoreState.commitMint] at h
  split at h
  · cases h
    exact hd
  · rw [chargeMint_answer h]
    exact hd
end StoreState

lemma Op.answer_within {s st : StoreState} (op : Op) {r : Except StoreError op.Reply}
    (h : op.plan s=.answer st r) : st.Within s := by
  cases op with
  | insert rc =>
    simp only [Op.plan,StoreState.insert] at h
    split at h
    · cases h
      exact .refl s
    · cases h
  | get an =>
    cases h
    exact .refl s
  | activateSubscription an ak now bs =>
    simp only [Op.plan,StoreState.activateSubscription] at h
    split at h
    · cases h
      exact .refl s
    · split at h
      · cases h
        exact .refl s
      · cases h
  | lookupIssuance ik rh now =>
    cases h
    exact .refl s
  | commitIssuance ik re now =>
    simp only [Op.plan,StoreState.commitIssuance] at h
    split at h
    · cases h
      exact .refl s
    · cases h
  | pruneIssuanceResults now =>
    grind [Op.plan,StoreState.pruneIssuanceResults,StoreState.pruneIssuanceResults_within]
  | lookupMint rk rh now =>
    simp only [Op.plan,StoreState.lookupMint] at h
    split at h
    · cases h
    · cases h
      exact .refl s
  | commitMint rk re q now => exact StoreState.commitMint_within h
  | pruneMintResults now =>
    simp only [Op.plan,StoreState.pruneMintResults] at h
    split at h
    · grind [get_retain,StoreState.within_mint,filter_eq_some_iff.mp]
    · cases h
end NilVpn.Portal
