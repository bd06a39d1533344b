import NilVpn.SecureStore.TokenStore

/-!
# Passes are reserved and spent exactly once

`Effect` says what an operation that returns has done to the vault.
-/

namespace NilVpn.SecureStore
open StoreCall PendingRedemption Except VaultV1 Base Option List
open Portal (Hash)

namespace Op
def reservationIds : Op → List Bytes
  | reserveOne draws => draws.map fun bytes => toHex bytes.val
  | _ => []

def mintIds : Op → List Bytes
  | beginMint proposed => [proposed.requestId]
  | _ => []

lemma mem_mintIds {op : Op} {id : Bytes} (h : id∈op.mintIds) : ∃ b, op=.beginMint b ∧ b.requestId=id := by
  cases op with
  | beginMint b => exact ⟨b,rfl,(mem_singleton.mp h).symm⟩
  | _ => cases h

def messages : Op → List Bytes
  | add tokens => tokens.map StoredToken.msg
  | commitMint _ tokens => tokens.map StoredToken.msg
  | commitPaidIssue _ token => [token.msg]
  | _ => []

def wipes : Op → Bool
  | clear => true
  | clearAllCredentials => true
  | replaceAccount _ => true
  | _ => false

def ends (r : TokenReservation) : Op → Bool
  | commitRedemption reservationId => reservationId=r.reservationId
  | pruneExpired now => !r.token.isRedeemableAt now
  | op => op.wipes

lemma ends_of_wipes {r : TokenReservation} {op : Op} (h : op.wipes) : op.ends r := by
  cases op with
  | commitRedemption | pruneExpired => cases h
  | _ => exact h
end Op

def TokenReservation.pending (r : TokenReservation) : PendingRedemption := ⟨r.reservationId,r.token⟩

@[simp] lemma TokenReservation.reservation_pending (r : TokenReservation) : r.pending.reservation=r := rfl

def VaultV1.held (v : VaultV1) : List Bytes :=
  v.messages++v.pendingRedemption.toList.map fun p => p.token.msg

variable {v : VaultV1}
lemma VaultV1.mem_held {m : Bytes} :
    m∈v.held ↔ m∈v.messages ∨ ∃ p, v.pendingRedemption=some p ∧ p.token.msg=m := by
  simp [VaultV1.held]

lemma VaultV1.held_of_append {w : VaultV1} (t : List StoredToken) {m : Bytes}
    (ht : w.tokens=v.tokens++t) (hp : w.pendingRedemption=v.pendingRedemption)
    (hv : m∉v.held) (hw : m∈w.held) : m∈t.map StoredToken.msg ∧ m∈w.messages := by
  rw [mem_held,not_or] at hv
  rw [mem_held,hp] at hw
  have hq : m∈w.messages := hw.resolve_right hv.2
  have hs : m∈v.messages ∨ m∈t.map StoredToken.msg := by
    simpa only [messages,ht,map_append,mem_append] using hq
  exact ⟨hs.resolve_left hv.1,hq⟩

lemma VaultV1.held_subset {w : VaultV1} (ht : w.tokens ⊆ v.tokens)
    (hpe : ∀ p, w.pendingRedemption=some p → v.pendingRedemption=some p) :
    w.held ⊆ v.held := by
  intro m hm
  rw [mem_held] at hm ⊢
  rcases hm with hm | ⟨p,hp,hm⟩
  · exact .inl (map_subset _ ht hm)
  · exact .inr ⟨p,hpe p hp,hm⟩

section
variable (sha256 : Bytes → Hash)
/-- One constructor for each way a callback can return; where it returns an earlier
result, the vault stays. -/
inductive Effect (v : VaultV1) : Op → VaultV1 → Answer → Prop
  | added (tokens : List StoredToken) :
    Effect v (.add tokens) {v with tokens := v.tokens++tokens} .unit
  | reserved (draws : Entropy) (id : Bytes) (token : StoredToken) (rest : List StoredToken)
      (hnone : v.pendingRedemption=none) (htokens : v.tokens=token::rest)
      (hid : id∈(Op.reserveOne draws).reservationIds) :
    Effect v (.reserveOne draws) {v with tokens := rest,pendingRedemption := some ⟨id,token⟩}
      (.reservation (some ⟨id,token⟩))
  | reservedBefore (draws : Entropy) :
    Effect v (.reserveOne draws) v (.reservation (v.pendingRedemption.map PendingRedemption.reservation))
  | committed (id : Bytes) (t : StoredToken) (hp : v.pendingRedemption=some ⟨id,t⟩) :
    Effect v (.commitRedemption id) {v with pendingRedemption := none,lastRedemptionId := some id} .unit
  | committedBefore (id : Bytes) (hnone : v.pendingRedemption=none) :
    Effect v (.commitRedemption id) v .unit
  | pruned (now : UInt64) (n : ℕ) :
    Effect v (.pruneExpired now)
      { v with
        pendingMint := v.pendingMint.filter (·.isRecoverableAt now)
        pendingPaidIssue := v.pendingPaidIssue.filter (·.isRecoverableAt now)
        tokens := v.tokens.filter (·.isRedeemableAt now)
        pendingRedemption := v.pendingRedemption.filter (·.token.isRedeemableAt now) } (.count n)
  | wiped (op : Op) (auth : Option AccountAuthMaterial) (hop : op.wipes=true) :
    Effect v op {v.clearSensitive with auth := auth} .unit
  | mintBegun (b : PendingMintBatch) (hnone : v.pendingMint=none) :
    Effect v (.beginMint b) {v with pendingMint := some b} (.mint b)
  | mintBegunBefore (b pending : PendingMintBatch) :
    Effect v (.beginMint b) v (.mint pending)
  | mintCommitted (tokens : List StoredToken) (b : PendingMintBatch)
      (hb : v.pendingMint=some b) :
    Effect v (.commitMint b.requestId tokens)
      {v with tokens := v.tokens++tokens,pendingMint := none} (.count tokens.length)
  | paidIssueBegun (p : PendingPaidIssue) :
    Effect v (.beginPaidIssue p) {v with pendingPaidIssue := some p} (.paidIssue (.pending p))
  | paidIssueBegunBefore (p : PendingPaidIssue) (begun : PaidIssueBegin) :
    Effect v (.beginPaidIssue p) v (.paidIssue begun)
  | paidIssueCommitted (id : Bytes) (token : StoredToken) :
    Effect v (.commitPaidIssue id token)
      { v with
        tokens := v.tokens++[token]
        pendingPaidIssue := none
        lastPaidIssueHash := some (paidIssueReceipt sha256 id) } (.count (v.tokens.length+1))
  | paidIssueCommittedBefore (id : Bytes) (token : StoredToken) :
    Effect v (.commitPaidIssue id token) v (.count v.tokens.length)

variable {sha256}
variable {id : Bytes} {v w : VaultV1}
lemma newReservationId_eq_ok {last : Option Bytes} {d : Entropy}
    (h : newReservationId last d=.ok id) : id∈(Op.reserveOne d).reservationIds := by
  simp only [Op.reservationIds]
  induction d with
  | nil => cases h
  | cons bt rest ih => grind [newReservationId]

lemma reserveOne_effect {d : Entropy} {r : Option TokenReservation} (h : reserveOne d v=.ok (w,r)) :
    Effect sha256 v (.reserveOne d) w (.reservation r) := by
  unfold reserveOne at h
  split at h
  next t re hn ht =>
    obtain ⟨id,hid,h⟩ := except_bind_ok h
    obtain ⟨rfl,rfl⟩ := Prod.mk.inj (ok.inj h)
    exact .reserved d id t re hn ht (newReservationId_eq_ok hid)
  · obtain ⟨rfl,rfl⟩ := Prod.mk.inj (ok.inj h)
    exact .reservedBefore d

lemma commitRedemption_effect {u : Unit} (h : commitRedemption id v=.ok (w,u)) :
    Effect sha256 v (.commitRedemption id) w .unit := by
  unfold commitRedemption at h
  split at h
  next hn =>
    split at h
    · obtain ⟨rfl,-⟩ := Prod.mk.inj (ok.inj h)
      exact .committedBefore id hn
    · cases h
  next p hp =>
    split at h
    next hid =>
      obtain ⟨rfl,-⟩ := Prod.mk.inj (ok.inj h)
      have hid:=(constantTimeIdEq_iff _ _).mp hid
      exact .committed id p.token (by rw [hp,← hid])
    · cases h

lemma beginMint_effect {b r : PendingMintBatch} (h : beginMint b v=.ok (w,r)) :
    Effect sha256 v (.beginMint b) w (.mint r) := by
  unfold beginMint at h
  split at h
  next hn =>
    obtain ⟨rfl,rfl⟩ := Prod.mk.inj (ok.inj h)
    exact .mintBegun b hn
  next pe _ =>
    obtain ⟨rfl,rfl⟩ := Prod.mk.inj (ok.inj h)
    exact .mintBegunBefore b pe

lemma commitMint_effect {t : List StoredToken} {n : ℕ} (h : commitMint id t v=.ok (w,n)) :
    Effect sha256 v (.commitMint id t) w (.count n) := by
  unfold commitMint at h
  split at h
  · cases h
  next b hb =>
    split at h
    next hid =>
      obtain ⟨rfl,rfl⟩ := Prod.mk.inj (ok.inj h)
      rw [← (constantTimeIdEq_iff _ _).mp hid]
      exact .mintCommitted t b hb
    · cases h

lemma beginPaidIssue_effect {p : PendingPaidIssue} {r : PaidIssueBegin}
    (h : beginPaidIssue sha256 p v=.ok (w,r)) :
    Effect sha256 v (.beginPaidIssue p) w (.paidIssue r) := by
  unfold beginPaidIssue at h
  split at h
  · obtain ⟨rfl,rfl⟩ := Prod.mk.inj (ok.inj h)
    exact .paidIssueBegunBefore p _
  · split at h
    · obtain ⟨rfl,rfl⟩ := Prod.mk.inj (ok.inj h)
      exact .paidIssueBegun p
    · obtain ⟨rfl,rfl⟩ := Prod.mk.inj (ok.inj h)
      exact .paidIssueBegunBefore p _

lemma commitPaidIssue_effect {t : StoredToken} {n : ℕ} (h : commitPaidIssue sha256 id t v=.ok (w,n)) :
    Effect sha256 v (.commitPaidIssue id t) w (.count n) := by
  unfold commitPaidIssue at h
  split at h
  · split at h
    · obtain ⟨rfl,rfl⟩ := Prod.mk.inj (ok.inj h)
      exact .paidIssueCommittedBefore id t
    · cases h
  · split at h
    · obtain ⟨rfl,rfl⟩ := Prod.mk.inj (ok.inj h)
      exact .paidIssueCommitted id t
    · cases h

lemma answers_eq_ok {R : Type} {m : Mutation R} {answer : R → Answer} {a : Answer}
    (h : m.answers answer v=.ok (w,a)) :
    ∃ r, m v=.ok (w,r) ∧ answer r=a := by
  unfold Mutation.answers at h
  cases hm : m v with
  | error e =>
    rw [hm] at h
    cases h
  | ok out =>
    rw [hm] at h
    obtain ⟨rfl,rfl⟩ := Prod.mk.inj (ok.inj h)
    exact ⟨out.2,rfl,rfl⟩

lemma effect_of_answers {R : Type} {op : Op} {m : Mutation R} {answer : R → Answer} {a : Answer}
    (h : m.answers answer v=.ok (w,a)) (he : ∀ r, m v=.ok (w,r) → Effect sha256 v op w (answer r)) :
    Effect sha256 v op w a := by
  obtain ⟨r,hm,rfl⟩ := answers_eq_ok h
  exact he r hm

lemma effect_of_total {R : Type} {op : Op} {m : Mutation R} {answer : R → Answer} {a : Answer}
    {u : VaultV1} {r : R}
    (h : m.answers answer v=.ok (w,a)) (hm : m v=.ok (u,r)) (he : Effect sha256 v op u (answer r)) :
    Effect sha256 v op w a := by
  refine effect_of_answers h fun r' hr => ?_
  obtain ⟨rfl,rfl⟩ := Prod.mk.inj (ok.inj (hm.symm.trans hr))
  exact he

lemma effect_of_mutation {op : Op} {a : Answer} (h : op.mutation sha256 v=.ok (w,a)) :
    Effect sha256 v op w a := by
  cases op <;> simp only [Op.mutation] at h
  case add t => exact effect_of_total h rfl (.added t)
  case reserveOne dr => exact effect_of_answers h fun _ => reserveOne_effect
  case commitRedemption id => exact effect_of_answers h fun _ => commitRedemption_effect
  case pruneExpired now => exact effect_of_total h rfl (.pruned now _)
  case clear => exact effect_of_total h rfl (.wiped .clear v.auth rfl)
  case clearAllCredentials => exact effect_of_total h rfl (.wiped .clearAllCredentials none rfl)
  case replaceAccount m => exact effect_of_total h rfl (.wiped (.replaceAccount m) (some m) rfl)
  case beginMint b => exact effect_of_answers h fun _ => beginMint_effect
  case commitMint id t => exact effect_of_answers h fun _ => commitMint_effect
  case beginPaidIssue p => exact effect_of_answers h fun _ => beginPaidIssue_effect
  case commitPaidIssue id tk => exact effect_of_answers h fun _ => commitPaidIssue_effect

namespace Effect
variable {op : Op} {v w : VaultV1} {a : Answer}
variable {p : PendingRedemption}
lemma reserved_pending {d : Entropy} {p : TokenReservation}
    (h : Effect sha256 v (.reserveOne d) w (.reservation (some p))) :
    w.pendingRedemption=some p.pending := by
  generalize ha : Answer.reservation (some p)=a at h
  cases h with
  | reserved d id t rest hn ht hid =>
    rw [Option.some.inj (Answer.reservation.inj ha)]
    rfl
  | reservedBefore d =>
    obtain ⟨q,hq,hqp⟩ := map_eq_some_iff.mp (Answer.reservation.inj ha).symm
    rw [hq,← hqp]
    rfl
  | wiped op auth hop => cases ha

lemma reserve_again {d : Entropy} (h : Effect sha256 v (.reserveOne d) w a)
    (hp : v.pendingRedemption=some p) :
    a=.reservation (some p.reservation) := by
  cases h with
  | reserved d id t rest hn ht hid =>
    rw [hn] at hp
    cases hp
  | reservedBefore d =>
    rw [hp]
    rfl
  | wiped op auth hop => cases hop

lemma commit_cases {id : Bytes} (h : Effect sha256 v (.commitRedemption id) w a) :
    w=v ∧ v.pendingRedemption=none ∨ ∃ t, v.pendingRedemption=some ⟨id,t⟩ ∧
      w={v with pendingRedemption := none,lastRedemptionId := some id} := by
  cases h with
  | committed id t hp => exact .inr ⟨t,hp,rfl⟩
  | committedBefore id hn => exact .inl ⟨rfl,hn⟩
  | wiped op auth hop => cases hop

lemma mint_committed {id : Bytes} {t : List StoredToken} (h : Effect sha256 v (.commitMint id t) w a) :
    (∃ b, v.pendingMint=some b ∧ b.requestId=id) ∧ w.pendingMint=none := by
  cases h with
  | mintCommitted t b hb => exact ⟨⟨b,hb,rfl⟩,rfl⟩
  | wiped op auth hop => cases hop

section
variable (h : Effect sha256 v op w a)
include h
lemma pending_some (hp : v.pendingRedemption=some p) :
    w.pendingRedemption=if op.ends p.reservation then none else some p := by
  cases h with
  | reserved dr id tk rest hn ht hid =>
    rw [hn] at hp
    cases hp
  | committed id t hp' =>
    have hs : id=p.reservation.reservationId := by
      rw [hp'] at hp
      rw [← Option.some.inj hp]
      rfl
    simp [Op.ends,hs]
  | committedBefore id hn =>
    rw [hn] at hp
    cases hp
  | pruned now n => grind [Op.ends,reservation]
  | wiped op auth hop =>
    rw [Op.ends_of_wipes hop]
    rfl
  | _ => exact hp

lemma pending_new (hv : v.pendingRedemption≠some p) (hw : w.pendingRedemption=some p) :
    (∃ dr, op=.reserveOne dr) ∧ a=.reservation (some p.reservation) ∧
      p.reservationId∈op.reservationIds := by
  cases h with
  | reserved dr id tk rest hn ht hid =>
    rw [← Option.some.inj hw]
    exact ⟨⟨dr,rfl⟩,rfl,hid⟩
  | pruned now n => exact absurd (filter_eq_some_iff.mp hw).1 hv
  | committed | wiped => cases hw
  | _ => exact absurd hw hv

lemma mint_wiped (ho : op.wipes) : w.pendingMint=none := by
  cases h with
  | wiped op auth ho => rfl
  | _ => cases ho

lemma mint_moves : w.pendingMint=v.pendingMint ∨ w.pendingMint=none ∨
      ∃ b, w.pendingMint=some b ∧ b.requestId∈op.mintIds := by
  cases h with
  | pruned now n =>
    cases hb : v.pendingMint with
    | none => simp
    | some b => grind
  | wiped op auth hop => exact .inr (.inl rfl)
  | mintBegun b hn => exact .inr (.inr ⟨b,rfl,mem_singleton_self _⟩)
  | mintCommitted t b hb => exact .inr (.inl rfl)
  | _ => exact .inl rfl

lemma gained {m : Bytes} (hv : m∉v.held) (hw : m∈w.held) : m∈op.messages ∧ m∈w.messages := by
  cases h with
  | added tk => exact held_of_append tk rfl rfl hv hw
  | mintCommitted tk b hb => exact held_of_append tk rfl rfl hv hw
  | paidIssueCommitted id tn => exact held_of_append [tn] rfl rfl hv hw
  | reserved dr id tn rest hn ht hid => grind [mem_held,messages,mem_cons_of_mem]
  | committed id t hp =>
    refine absurd (held_subset ?_ ?_ hw) hv
    · exact List.Subset.refl v.tokens
    · intro p hp
      cases hp
  | pruned now n =>
    refine absurd (held_subset (filter_subset_self _) ?_ hw) hv
    intro p hp
    exact (filter_eq_some_iff.mp hp).1
  | wiped op auth hop =>
    refine absurd (held_subset (nil_subset _) ?_ hw) hv
    intro p hp
    cases hp
  | _ => exact absurd hw hv
end
end Effect

variable {v w : Vault} {calls : List StoreCall} {c : StoreCall} {a : Answer}
lemma perform_effect (h : c.perform sha256 v=.ok (w,a)) : Effect sha256 v.val c.op w.val a := by
  obtain ⟨_,-,out,ho,h⟩ := except_bind_ok₂ h
  cases hf : c.fault with
  | some e =>
    rw [hf] at h
    cases h
  | none =>
    rw [hf] at h
    rw [ok.inj h] at ho
    exact effect_of_mutation (transact_eq_ok (mapError_eq_ok ho))

lemma step_of_ok (h : c.perform sha256 v=.ok (w,a)) : c.step sha256 v=w := by
  unfold step
  rw [h]

variable (sha256) in
lemma step_cases (v : Vault) (c : StoreCall) : c.step sha256 v=v ∨
      ∃ a, c.perform sha256 v=.ok (c.step sha256 v,a) ∧ Effect sha256 v.val c.op (c.step sha256 v).val a := by
  unfold step
  cases h : c.perform sha256 v with
  | error e => exact .inl rfl
  | ok out => exact .inr ⟨out.2,rfl,perform_effect h⟩

lemma reservation_ticketed : Ticketed (step sha256) (fun v => v.val.pendingRedemption)
      reservationId (fun c => c.op.reservationIds) := by
  intro v c
  rcases step_cases sha256 v c with hs | ⟨a,-,he⟩
  · rw [hs]
    exact .inl rfl
  · by_cases hm : (c.step sha256 v).val.pendingRedemption=v.val.pendingRedemption
    · exact .inl hm
    · cases hw : (c.step sha256 v).val.pendingRedemption with
      | none => exact .inr (.inl hw)
      | some p =>
        rw [hw] at hm
        exact .inr (.inr ⟨p,hw,(he.pending_new (Ne.symm hm) hw).2.2⟩)

lemma mint_ticketed : Ticketed (step sha256) (fun v => v.val.pendingMint)
      PendingMintBatch.requestId (fun c => c.op.mintIds) := by
  intro v c
  rcases step_cases sha256 v c with hs | ⟨a,-,he⟩
  · rw [hs]
    exact .inl rfl
  · exact he.mint_moves

variable {k : ℕ}
lemma vaultAt_succ (hc : calls[k]?=some c) :
    vaultAt sha256 v calls (k+1)=c.step sha256 (vaultAt sha256 v calls k) := stateAt_succ hc

lemma Answered.effect {op : Op} (h : Answered sha256 v calls k op a) :
    Effect sha256 (vaultAt sha256 v calls k).val op (vaultAt sha256 v calls (k+1)).val a := by
  obtain ⟨c,w,hc,rfl,hp⟩ := h
  rw [vaultAt_succ hc,step_of_ok hp]
  exact perform_effect hp

variable (sha256) (v : Vault) (calls : List StoreCall)
def EndedAt (k : ℕ) (p : TokenReservation) : Prop :=
  ∃ op a, Answered sha256 v calls k op a ∧ op.ends p=true

def AddedAt (k : ℕ) (m : Bytes) : Prop :=
  ∃ op a, Answered sha256 v calls k op a ∧ m∈op.messages ∧
    m∉(vaultAt sha256 v calls k).val.messages ∧ m∈(vaultAt sha256 v calls (k+1)).val.messages

def CalledAt (k : ℕ) (op : Op) : Prop := ∃ c, calls[k]?=some c ∧ c.op=op

/-- Exactly-once use of passes, over all the calls on one vault. -/
structure ExactlyOnce : Prop where
  stable : ∀ i j draws draws' p a, i<j →
    Answered sha256 v calls i (.reserveOne draws) (.reservation (some p)) →
    (∀ k, i<k → k<j → ¬EndedAt sha256 v calls k p) →
    Answered sha256 v calls j (.reserveOne draws') a → a=.reservation (some p)
  /-- What a commit removes is what was returned with its id; a reservation that the first
  vault already had was returned before these calls. -/
  commits : ∀ k r, CalledAt calls k (.commitRedemption r) →
    vaultAt sha256 v calls (k+1)≠vaultAt sha256 v calls k →
    ∃ t, (vaultAt sha256 v calls k).val.pendingRedemption=some ⟨r,t⟩ ∧ (vaultAt sha256 v calls (k+1)).val =
        { (vaultAt sha256 v calls k).val with
          pendingRedemption := none,lastRedemptionId := some r } ∧
      (∀ i draws t', Answered sha256 v calls i (.reserveOne draws) (.reservation (some ⟨r,t'⟩)) → t'=t) ∧
      ((∃ i draws, i<k ∧ Answered sha256 v calls i (.reserveOne draws) (.reservation (some ⟨r,t⟩))) ∨
        v.val.pendingRedemption=some ⟨r,t⟩)
  /-- A commit of the reservation's id that returns has taken the pass out. -/
  removes : ∀ k r t a, Answered sha256 v calls k (.commitRedemption r) a →
    (vaultAt sha256 v calls k).val.pendingRedemption=some ⟨r,t⟩ →
    (vaultAt sha256 v calls (k+1)).val={ (vaultAt sha256 v calls k).val with
      pendingRedemption := none,lastRedemptionId := some r }
  otherIds : ∀ k r, CalledAt calls k (.commitRedemption r) →
    (∀ t, (vaultAt sha256 v calls k).val.pendingRedemption≠some ⟨r,t⟩) →
    vaultAt sha256 v calls (k+1)=vaultAt sha256 v calls k
  earlierIds : ∀ i j k draws p, i<j → j<k →
    Answered sha256 v calls i (.reserveOne draws) (.reservation (some p)) →
    EndedAt sha256 v calls j p → CalledAt calls k (.commitRedemption p.reservationId) →
    vaultAt sha256 v calls (k+1)=vaultAt sha256 v calls k
  apart : ∀ k p, (vaultAt sha256 v calls k).val.pendingRedemption=some p →
    p.token.msg∉(vaultAt sha256 v calls k).val.messages
  spent : ∀ k j r t a draws p, Answered sha256 v calls k (.commitRedemption r) a →
    (vaultAt sha256 v calls k).val.pendingRedemption=some ⟨r,t⟩ → k<j →
    Answered sha256 v calls j (.reserveOne draws) (.reservation (some p)) → p.token.msg=t.msg →
    ∃ i, k < i ∧ i<j ∧ AddedAt sha256 v calls i t.msg
  mintOnce : ∀ i j id tokens tokens' a a', Answered sha256 v calls i (.commitMint id tokens) a →
    Answered sha256 v calls j (.commitMint id tokens') a' → i=j
  /-- A batch whose tokens are added was begun after every clear and account change before. -/
  mintWiped : ∀ i k op a id tokens a', i<k → Answered sha256 v calls i op a → op.wipes=true →
    Answered sha256 v calls k (.commitMint id tokens) a' →
    ∃ j b, i<j ∧ j<k ∧ CalledAt calls j (.beginMint b) ∧ b.requestId=id

def reservationKeys : List Bytes :=
  ticketKeys (fun v : Vault => v.val.pendingRedemption) PendingRedemption.reservationId
    (fun c : StoreCall => c.op.reservationIds) v calls

def mintKeys : List Bytes :=
  ticketKeys (fun v : Vault => v.val.pendingMint) PendingMintBatch.requestId
    (fun c : StoreCall => c.op.mintIds) v calls

variable {sha256 v calls}
lemma kept_until_ended {i j : ℕ} {p : TokenReservation} (hij : i≤j)
    (hi : (vaultAt sha256 v calls i).val.pendingRedemption=some p.pending)
    (hkp : ∀ k, i≤k → k<j → ¬EndedAt sha256 v calls k p) :
    (vaultAt sha256 v calls j).val.pendingRedemption=some p.pending := by
  refine kept_between (I := fun v : Vault => v.val.pendingRedemption=some p.pending) hij hi ?_
  intro k c hik hkj hc hk
  rcases step_cases sha256 (vaultAt sha256 v calls k) c with hs | ⟨a,hp,heff⟩
  · exact hs ▸ hk
  · have he : c.op.ends p≠true := fun he => hkp k hik hkj ⟨c.op,a,⟨c,_,hc,rfl,hp⟩,he⟩
    have hn:=heff.pending_some hk
    rw [TokenReservation.reservation_pending,if_neg he] at hn
    exact hn

lemma commit_changes {r : Bytes} (hcl : CalledAt calls k (.commitRedemption r))
    (hh : vaultAt sha256 v calls (k+1)≠vaultAt sha256 v calls k) :
    ∃ t, (vaultAt sha256 v calls k).val.pendingRedemption=some ⟨r,t⟩ ∧ (vaultAt sha256 v calls (k+1)).val =
        { (vaultAt sha256 v calls k).val with
          pendingRedemption := none,lastRedemptionId := some r } := by
  obtain ⟨c,hc,hop⟩ := hcl
  rw [vaultAt_succ hc] at hh ⊢
  rcases step_cases sha256 (vaultAt sha256 v calls k) c with hs | ⟨a,-,he⟩
  · exact absurd hs hh
  · rw [hop] at he
    rcases he.commit_cases with ⟨hs,-⟩ | ht
    · exact absurd (Subtype.ext hs) hh
    · exact ht

lemma commit_removes {r : Bytes} {t : StoredToken} (h : Answered sha256 v calls k (.commitRedemption r) a)
    (hk : (vaultAt sha256 v calls k).val.pendingRedemption=some ⟨r,t⟩) :
    (vaultAt sha256 v calls (k+1)).val={ (vaultAt sha256 v calls k).val with
      pendingRedemption := none,lastRedemptionId := some r } := by
  rcases h.effect.commit_cases with ⟨-,hn⟩ | ⟨-,-,hw⟩
  · cases hk.symm.trans hn
  · exact hw

lemma reserved_before {r : Bytes} {t : StoredToken}
    (hk : (vaultAt sha256 v calls k).val.pendingRedemption=some ⟨r,t⟩)
    (hv : v.val.pendingRedemption≠some ⟨r,t⟩) :
    ∃ i dr, i<k ∧ Answered sha256 v calls i (.reserveOne dr) (.reservation (some ⟨r,t⟩)) := by
  obtain ⟨i,c,-,hik,hc,hi,hi'⟩ := turned_between
    (I := fun v : Vault => v.val.pendingRedemption=some ⟨r,t⟩) (Nat.zero_le k) hv hk
  rcases step_cases sha256 (vaultAt sha256 v calls i) c with hs | ⟨a,hp,he⟩
  · have hi' : (c.step sha256 (vaultAt sha256 v calls i)).val.pendingRedemption=some ⟨r,t⟩ := hi'
    rw [hs] at hi'
    exact absurd hi' hi
  · obtain ⟨⟨dr,hop⟩,ha,-⟩ := he.pending_new hi hi'
    rw [ha] at hp
    exact ⟨i,dr,hik,c,_,hc,hop,hp⟩

lemma added_between {j : ℕ} {m : Bytes} (hkj : k≤j)
    (hk : m∉(vaultAt sha256 v calls k).val.held) (hj : m∈(vaultAt sha256 v calls j).val.held) :
    ∃ i, k ≤ i ∧ i<j ∧ AddedAt sha256 v calls i m := by
  obtain ⟨i,c,hki,hij,hc,hi,hi'⟩ := turned_between (I := fun v : Vault => m∈v.val.held) hkj hk hj
  refine ⟨i,hki,hij,?_⟩
  rcases step_cases sha256 (vaultAt sha256 v calls i) c with hs | ⟨a,hp,he⟩
  · have hi' : m∈(c.step sha256 (vaultAt sha256 v calls i)).val.held := hi'
    rw [hs] at hi'
    exact absurd hi' hi
  · obtain ⟨hg,hq⟩ := he.gained hi hi'
    refine ⟨c.op,a,⟨c,_,hc,rfl,hp⟩,hg,?_,?_⟩
    · exact fun hm => hi (mem_held.mpr (.inl hm))
    · rw [vaultAt_succ hc]
      exact hq

section
variable (hres : (reservationKeys v calls).Nodup) (hmint : (mintKeys v calls).Nodup)
include hres
lemma ended_gone {i j k : ℕ} {d : Entropy} {p : TokenReservation} (hij : i<j) (hjk : j<k)
    (hi : Answered sha256 v calls i (.reserveOne d) (.reservation (some p)))
    (hj : EndedAt sha256 v calls j p) (t : StoredToken) :
    (vaultAt sha256 v calls k).val.pendingRedemption≠some ⟨p.reservationId,t⟩ := by
  intro hk
  have hr:=hi.effect.reserved_pending
  obtain ⟨op,a,han,he⟩ := hj
  by_cases hs : (vaultAt sha256 v calls j).val.pendingRedemption=some p.pending
  · -- this call took it out
    have ha:=han.effect.pending_some hs
    rw [TokenReservation.reservation_pending,if_pos he] at ha
    have hne : (vaultAt sha256 v calls (j+1)).val.pendingRedemption≠some p.pending := by simp [ha]
    exact reservation_ticketed.gone hres (by omega) hjk hr hne _ hk rfl
  · exact reservation_ticketed.gone hres hij (Nat.le_of_lt hjk) hr hs _ hk rfl

omit hres in
include hmint in
lemma mint_spent {i j : ℕ} {id : Bytes} {t t' : List StoredToken} {a a' : Answer}
    (hi : Answered sha256 v calls i (.commitMint id t) a)
    (hj : Answered sha256 v calls j (.commitMint id t') a') : ¬i<j := by
  intro hij
  obtain ⟨⟨b,hb,hd⟩,hn⟩ := hi.effect.mint_committed
  obtain ⟨⟨b',hb',hd'⟩,-⟩ := hj.effect.mint_committed
  have hne : (vaultAt sha256 v calls (i+1)).val.pendingMint≠some b := by simp [hn]
  exact mint_ticketed.gone hmint (Nat.le_succ i) hij hb hne b' hb' (hd'.trans hd.symm)

include hmint in
/-- For any calls on one vault, any of which may fail, if no reservation id and no mint
request id is drawn twice. -/
theorem passes_used_exactly_once : ExactlyOnce sha256 v calls where
  stable := by
    intro i j dr dr' p a hij hi hkeep hj
    have hpending:=kept_until_ended (Nat.succ_le_of_lt hij) hi.effect.reserved_pending
      fun k hik => hkeep k hik
    exact hj.effect.reserve_again hpending
  commits := by
    intro k r ha hh
    obtain ⟨t,hpending,hx⟩ := commit_changes ha hh
    refine ⟨t,hpending,hx,?_,?_⟩
    · intro i dr t' hi
      have hsame:=reservation_ticketed.unique hres hi.effect.reserved_pending hpending rfl
      exact congrArg token hsame
    · by_cases hv : v.val.pendingRedemption=some ⟨r,t⟩
      · exact .inr hv
      · exact .inl (reserved_before hpending hv)
  removes := fun k r t a h hk => commit_removes h hk
  otherIds := by
    intro k r ha hother
    by_contra hh
    obtain ⟨t,hpending,-⟩ := commit_changes ha hh
    exact hother t hpending
  earlierIds := by
    intro i j k dr p hij hjk hi hj ha
    by_contra hh
    obtain ⟨t,hpending,-⟩ := commit_changes ha hh
    exact ended_gone hres hij hjk hi hj t hpending
  apart := by
    intro k p hp
    exact (vaultAt sha256 v calls k).pending_notMem hp
  spent := by
    intro k j r t a dr p ha hpending hkj hj hmsg
    have hx:=commit_removes ha hpending
    have hgone : t.msg∉(vaultAt sha256 v calls (k+1)).val.held := by
      have hqueue:=(vaultAt sha256 v calls k).pending_notMem hpending
      rw [hx,mem_held]
      rintro (hu | ⟨q,hq,-⟩)
      · exact hqueue hu
      · cases hq
    have hheld : t.msg∈(vaultAt sha256 v calls (j+1)).val.held :=
      mem_held.mpr (.inr ⟨p.pending,hj.effect.reserved_pending,hmsg⟩)
    have hback : t.msg∈(vaultAt sha256 v calls j).val.held := by
      by_contra hnot
      cases (hj.effect.gained hnot hheld).1
    exact added_between (Nat.succ_le_of_lt hkj) hgone hback
  mintOnce := by
    intro i j id tk tk' a a' hi hj
    have hij:=mint_spent hmint hi hj
    have hji:=mint_spent hmint hj hi
    omega
  mintWiped := by
    intro i k op a id tk a' hik hi hop hk
    have hnone:=hi.effect.mint_wiped hop
    obtain ⟨⟨b,hb,hid⟩,-⟩ := hk.effect.mint_committed
    have hne : (vaultAt sha256 v calls (i+1)).val.pendingMint≠some b := by simp [hnone]
    obtain ⟨j,c,hij,hjk,hc,hgen⟩ := mint_ticketed.brought (Nat.succ_le_of_lt hik) hne hb
    obtain ⟨b',hop',hid'⟩ := Op.mem_mintIds hgen
    exact ⟨j,b',hij,hjk,⟨c,hc,hop'⟩,hid'.trans hid⟩
end

/-! A vault with two passes; the first commit's write fails, its second try and the late
third one follow. -/

def samplePass (b : UInt8) : StoredToken := ⟨toHex (List.replicate 32 b),toHex (List.replicate 256 b)⟩
def sampleVault : Vault := ⟨{VaultV1.empty with tokens := [samplePass 1,samplePass 2]},by decide +kernel⟩

def sampleCommit (fault : Option VaultError) : StoreCall :=
  ⟨.commitRedemption (toHex (List.replicate 32 7)),fault⟩

def sampleCalls : List StoreCall :=
  [⟨.reserveOne [Block.fill 32 7],none⟩,
    sampleCommit (some (.io "write vault temporary file" ioFailure)),sampleCommit none,
    ⟨.reserveOne [Block.fill 32 8],none⟩,sampleCommit none]

theorem two_passes_used_once :
    (reservationKeys sampleVault sampleCalls).Nodup ∧ (mintKeys sampleVault sampleCalls).Nodup ∧
      ExactlyOnce (fun _ => Block.fill 32 0) sampleVault sampleCalls := by
  have hres : (reservationKeys sampleVault sampleCalls).Nodup := by decide +kernel
  have hmint : (mintKeys sampleVault sampleCalls).Nodup := by decide +kernel
  exact ⟨hres,hmint,passes_used_exactly_once hres hmint⟩
end
end NilVpn.SecureStore
