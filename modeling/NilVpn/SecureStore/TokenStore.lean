import NilVpn.Base.Tickets
import NilVpn.SecureStore.Vault

/-!
# The pass store (client/src-tauri/src/tokenstore.rs)
-/

namespace NilVpn.SecureStore
open Base List
open Portal (Hash)

inductive TokenError
  | storage (text : String)
  | noPendingReservation
  | reservationMismatch
  | noPendingMint
  | mintRequestMismatch
  | noPendingPaidIssue
  | paidIssueMismatch
  deriving DecidableEq,Repr

def mapVaultError : VaultError → TokenError
  | .noPendingReservation => .noPendingReservation
  | .reservationMismatch => .reservationMismatch
  | .noPendingMint => .noPendingMint
  | .mintRequestMismatch => .mintRequestMismatch
  | .noPendingPaidIssue => .noPendingPaidIssue
  | .paidIssueMismatch => .paidIssueMismatch
  | other => .storage other.display

def validReservationId (value : Bytes) : Bool := value.length=reservationIdHexLen&&value.all isLowerHex

def constantTimeIdEq (left right : Bytes) : Bool :=
  left.length=right.length &&
    (left.zip right).foldl (fun difference b => difference ||| (b.1 ^^^ b.2)) 0=(0 : UInt8)

def paidIssueDomain : Bytes := ascii "nil/client/paid-issue-receipt/v1"++[0]

/-- What `getrandom` delivers to one call, draw by draw; no more of it is an error. -/
abbrev Entropy := List (Block 32)

/-- `new_reservation_id`, drawn again while it is the id of the last receipt. -/
def newReservationId (last : Option Bytes) : Entropy → Except VaultError Bytes
  | [] => .error (.sealer "reservation-id entropy unavailable")
  | bytes::rest =>
    if last.any (constantTimeIdEq · (toHex bytes.val)) then newReservationId last rest
    else .ok (toHex bytes.val)

lemma or_xor_eq_zero (d a b : UInt8) : d ||| (a ^^^ b)=0 ↔ d=0 ∧ a=b := by
  rw [UInt8.or_eq_zero_iff,UInt8.xor_eq_zero_iff]

lemma fold_difference (left right : Bytes) (d : UInt8) (h : left.length=right.length) :
    (left.zip right).foldl (fun difference b => difference ||| (b.1 ^^^ b.2)) d=0 ↔ d=0 ∧ left=right := by
  induction left generalizing right d with
  | nil => simp [eq_nil_of_length_eq_zero h.symm]
  | cons a left ih =>
    cases right with
    | nil => cases h
    | cons b right =>
      rw [zip_cons_cons,foldl_cons,ih right _ (Nat.succ.inj h),or_xor_eq_zero,List.cons.injEq,and_assoc]

@[simp] lemma constantTimeIdEq_iff (left right : Bytes) : constantTimeIdEq left right=true ↔ left=right := by
  simp only [constantTimeIdEq,Bool.and_eq_true,decide_eq_true_eq]
  constructor
  · intro ⟨hl,hf⟩
    exact ((fold_difference left right 0 hl).mp hf).2
  · intro h
    have hl : left.length=right.length := congrArg List.length h
    exact ⟨hl,(fold_difference left right 0 hl).mpr ⟨rfl,h⟩⟩

structure TokenReservation where
  reservationId : Bytes
  token : StoredToken
  deriving DecidableEq,Repr

inductive PaidIssueBegin
  | pending (issue : PendingPaidIssue)
  | completed (tokenCount : ℕ)
  deriving DecidableEq,Repr

def PendingRedemption.reservation (p : PendingRedemption) : TokenReservation :=
  ⟨p.reservationId,p.token⟩

def replaceAccount (material : AccountAuthMaterial) : Mutation Unit := fun v =>
  .ok ({v.clearSensitive with auth := some material},())

def clearAllCredentials : Mutation Unit := fun v => .ok (v.clearSensitive,())

/-- What pruning an optional entry adds to the count of removed credentials. -/
def dropped {α : Type} (keep : α → Bool) (size : α → ℕ) : Option α → ℕ
  | some a => if keep a then 0 else size a
  | none => 0

def pruneExpired (now : UInt64) : Mutation ℕ := fun v =>
  let removed :=
    dropped (PendingMintBatch.isRecoverableAt · now) (·.requests.length) v.pendingMint +
    dropped (PendingPaidIssue.isRecoverableAt · now) (fun _ => 1) v.pendingPaidIssue +
    (v.tokens.filter (!StoredToken.isRedeemableAt · now)).length +
    dropped (fun p : PendingRedemption => p.token.isRedeemableAt now) (fun _ => 1) v.pendingRedemption
  .ok ({ v with
    pendingMint := v.pendingMint.filter (·.isRecoverableAt now)
    pendingPaidIssue := v.pendingPaidIssue.filter (·.isRecoverableAt now)
    tokens := v.tokens.filter (·.isRedeemableAt now)
    pendingRedemption := v.pendingRedemption.filter (·.token.isRedeemableAt now) },removed)

def add (tokens : List StoredToken) : Mutation Unit := fun v =>
  .ok ({v with tokens := v.tokens++tokens},())

def beginMint (proposed : PendingMintBatch) : Mutation PendingMintBatch := fun v =>
  match v.pendingMint with
  | none => .ok ({v with pendingMint := some proposed},proposed)
  | some pending => .ok (v,pending)

def commitMint (requestId : Bytes) (tokens : List StoredToken) : Mutation ℕ := fun v =>
  match v.pendingMint with
  | none => .error .noPendingMint
  | some pending =>
    if constantTimeIdEq pending.requestId requestId then
      .ok ({v with tokens := v.tokens++tokens,pendingMint := none},tokens.length)
    else .error .mintRequestMismatch

def reserveOne (draws : Entropy) : Mutation (Option TokenReservation) := fun v =>
  match v.pendingRedemption,v.tokens with
  | none,token::rest => do
    let id ← newReservationId v.lastRedemptionId draws
    .ok ({v with tokens := rest,pendingRedemption := some ⟨id,token⟩},some ⟨id,token⟩)
  | pending,_ => .ok (v,pending.map PendingRedemption.reservation)

def commitRedemption (reservationId : Bytes) : Mutation Unit := fun v =>
  match v.pendingRedemption with
  | none =>
    if v.lastRedemptionId.any (constantTimeIdEq · reservationId) then .ok (v,())
    else .error .noPendingReservation
  | some pending =>
    if constantTimeIdEq pending.reservationId reservationId then
      .ok ({v with pendingRedemption := none,lastRedemptionId := some reservationId},())
    else .error .reservationMismatch

def clear : Mutation Unit := fun v =>
  .ok ({ v with
    tokens := [],pendingMint := none,pendingPaidIssue := none,lastPaidIssueHash := none,
    pendingRedemption := none,lastRedemptionId := none },())

section
variable (sha256 : Bytes → Hash)
def paidIssueReceipt (paymentId : Bytes) : Bytes := toHex (sha256 (paidIssueDomain++paymentId)).val

def beginPaidIssue (proposed : PendingPaidIssue) : Mutation PaidIssueBegin := fun v =>
  if v.lastPaidIssueHash.any (constantTimeIdEq · (paidIssueReceipt sha256 proposed.paymentId)) then
    .ok (v,.completed v.tokens.length)
  else match v.pendingPaidIssue with
    | none => .ok ({v with pendingPaidIssue := some proposed},.pending proposed)
    | some pending => .ok (v,.pending pending)

def commitPaidIssue (paymentId : Bytes) (token : StoredToken) : Mutation ℕ := fun v =>
  match v.pendingPaidIssue with
  | none =>
    if v.lastPaidIssueHash.any (constantTimeIdEq · (paidIssueReceipt sha256 paymentId)) then
      .ok (v,v.tokens.length)
    else .error .noPendingPaidIssue
  | some pending =>
    if constantTimeIdEq pending.paymentId paymentId then
      .ok ({ v with
        tokens := v.tokens++[token]
        pendingPaidIssue := none
        lastPaidIssueHash := some (paidIssueReceipt sha256 paymentId) },v.tokens.length+1)
    else .error .paidIssueMismatch
end

inductive Op
  | add (tokens : List StoredToken)
  | reserveOne (draws : Entropy)
  | commitRedemption (reservationId : Bytes)
  | pruneExpired (now : UInt64)
  | clear
  | clearAllCredentials
  | replaceAccount (material : AccountAuthMaterial)
  | beginMint (proposed : PendingMintBatch)
  | commitMint (requestId : Bytes) (tokens : List StoredToken)
  | beginPaidIssue (proposed : PendingPaidIssue)
  | commitPaidIssue (paymentId : Bytes) (token : StoredToken)
  deriving DecidableEq

inductive Answer
  | unit
  | count (n : ℕ)
  | reservation (r : Option TokenReservation)
  | mint (pending : PendingMintBatch)
  | paidIssue (begun : PaidIssueBegin)
  deriving DecidableEq

/-- An operation and, if its write fails before the rename, the error of that write. -/
structure StoreCall where
  op : Op
  fault : Option VaultError
  deriving DecidableEq

def Mutation.answers {R : Type} (mutation : Mutation R) (answer : R → Answer) : Mutation Answer :=
  fun v => (mutation v).map fun out => (out.1,answer out.2)

variable (sha256 : Bytes → Hash)
def Op.mutation : Op → Mutation Answer
  | add tokens => (SecureStore.add tokens).answers fun _ => .unit
  | reserveOne draws => (SecureStore.reserveOne draws).answers .reservation
  | commitRedemption reservationId => (SecureStore.commitRedemption reservationId).answers fun _ => .unit
  | pruneExpired now => (SecureStore.pruneExpired now).answers .count
  | clear => SecureStore.clear.answers fun _ => .unit
  | clearAllCredentials => SecureStore.clearAllCredentials.answers fun _ => .unit
  | replaceAccount material => (SecureStore.replaceAccount material).answers fun _ => .unit
  | beginMint proposed => (SecureStore.beginMint proposed).answers .mint
  | commitMint requestId tokens => (SecureStore.commitMint requestId tokens).answers .count
  | beginPaidIssue proposed => (SecureStore.beginPaidIssue sha256 proposed).answers .paidIssue
  | commitPaidIssue paymentId token => (SecureStore.commitPaidIssue sha256 paymentId token).answers .count

/-- The check of the argument before the vault is opened. -/
def Op.refused : Op → Bool
  | commitRedemption reservationId => !validReservationId reservationId
  | _ => false

def StoreCall.perform (v : Vault) (c : StoreCall) : Except TokenError (Vault × Answer) := do
  ensure (!c.op.refused) .reservationMismatch
  let out ← (transact (c.op.mutation sha256) v).mapError mapVaultError
  match c.fault with
  | none => .ok out
  | some e => .error (mapVaultError e)

def StoreCall.step (v : Vault) (c : StoreCall) : Vault :=
  match c.perform sha256 v with
  | .ok out => out.1
  | .error _ => v

def vaultAt (v : Vault) (calls : List StoreCall) (k : ℕ) : Vault :=
  stateAt (StoreCall.step sha256) v calls k

def Answered (v : Vault) (calls : List StoreCall) (k : ℕ) (op : Op) (answer : Answer) : Prop :=
  ∃ c w, calls[k]?=some c ∧ c.op=op ∧ c.perform sha256 (vaultAt sha256 v calls k)=.ok (w,answer)
end NilVpn.SecureStore
