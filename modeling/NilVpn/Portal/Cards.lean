import NilVpn.Durable.Log
import NilVpn.Portal.Backend

/-!
# Card payments (nil-portal/src/cards.rs)

The methods take one lock after the other, so each is a few steps here, and calls interleave between them.
HMAC-SHA256 and the JSON reader are parameters.
-/

namespace NilVpn.Portal.Cards
open Base
open Program (Outcome)
open Durable (DurableSet KeySet)

structure RevokedSet (N : Type) where
  set : DurableSet N
  volume : Volume N

namespace RevokedSet
variable {N : Type}
def contains (t : RevokedSet N) (key : Bytes) : Bool := t.set.contains key

/-- An insertion neither throws nor is killed here. -/
def ran (t : RevokedSet N) : Outcome IoError (DurableSet N × Except IoError Bool) × Volume N →
    RevokedSet N × Except IoError Bool
  | (.done out,v) => (⟨out.1,v⟩,out.2)
  | (.error e,v) => (⟨t.set,v⟩,.error e)
  | (.killed,v) => (⟨t.set,v⟩,.error ioFailure)

def insert [DecidableEq N] (t : RevokedSet N) (fates : ℕ → Fate) (key : Bytes) :
    RevokedSet N × Except IoError Bool :=
  t.ran ((DurableSet.insert key t.set).run (fun i => (fates i).verdict) t.volume)
end RevokedSet

/-- What a start of the Portal has of a set: nothing if the file does not open. -/
def opened {N V : Type} : Outcome IoError (KeySet N V) × Volume N → Option (KeySet N V) × Volume N
  | (.done s,v) => (some s,v)
  | (.error _,v) => (none,v)
  | (.killed,v) => (none,v)

def reopen {N V : Type} [DecidableEq N] (open_ : Prog N (KeySet N V)) (fates : ℕ → Fate) (v : Volume N) :
    Option (KeySet N V) × Volume N :=
  opened (open_.run (fun i => (fates i).verdict) v)

structure CardWatcher (N : Type) where
  confirmed : Table Bytes Unit
  revoked : RevokedSet N

inductive ConfirmPhase
  | checkingRevoked
  | checkingPending
  | inserting
  | done (accepted : Bool)
  deriving DecidableEq

inductive RevokePhase
  | inserting
  | removing
  | done (result : Except IoError Unit)
  deriving DecidableEq

inductive QueryPhase
  | checkingRevoked
  | checkingConfirmed
  | done (confirmed : Bool)
  deriving DecidableEq

inductive Call
  | confirm (reference : Str) (phase : ConfirmPhase)
  | revoke (reference : Str) (phase : RevokePhase)
  | isConfirmed (paymentId : Str) (phase : QueryPhase)
  deriving DecidableEq

inductive Request
  | confirm (reference : Str)
  | revoke (reference : Str)
  | isConfirmed (paymentId : Str)
  deriving DecidableEq

def Request.call : Request → Call
  | .confirm reference => .confirm reference .checkingRevoked
  | .revoke reference => .revoke reference .inserting
  | .isConfirmed paymentId => .isConfirmed paymentId .checkingRevoked

namespace CardWatcher
variable {N : Type}
def new (revoked : RevokedSet N) : CardWatcher N := ⟨Table.empty,revoked⟩

def confirm (card : CardWatcher N) (pending : Table Bytes UInt64) (reference : Bytes) :
    ConfirmPhase → CardWatcher N × ConfirmPhase
  | .checkingRevoked => (card,if card.revoked.contains reference then .done false else .checkingPending)
  | .checkingPending => (card,if pending.contains reference then .inserting else .done false)
  | .inserting => ({card with confirmed := card.confirmed.insert reference ()},.done true)
  | .done accepted => (card,.done accepted)

/-- `is_confirmed` goes through the revoked set to the confirmed one. -/
def look (card : CardWatcher N) (paymentId : Bytes) : QueryPhase → QueryPhase
  | .checkingRevoked => if card.revoked.contains paymentId then .done false else .checkingConfirmed
  | .checkingConfirmed => .done (card.confirmed.contains paymentId)
  | .done confirmed => .done confirmed

def isConfirmed (card : CardWatcher N) (paymentId : Bytes) : Bool :=
  if card.revoked.contains paymentId then false else card.confirmed.contains paymentId

variable [DecidableEq N]
/-- The refund is persisted first. -/
def revoke (card : CardWatcher N) (fates : ℕ → Fate) (reference : Bytes) :
    RevokePhase → CardWatcher N × RevokePhase
  | .inserting =>
    let r:=card.revoked.insert fates reference
    ({card with revoked := r.1},
      match r.2 with
      | .error e => .done (.error e)
      | .ok _ => .removing)
  | .removing => ({card with confirmed := card.confirmed.erase reference},.done (.ok ()))
  | .done result => (card,.done result)

def advance (card : CardWatcher N) (pending : Table Bytes UInt64) (fates : ℕ → Fate) :
    Call → CardWatcher N × Call
  | .confirm reference phase =>
    let r:=card.confirm pending reference.val phase
    (r.1,.confirm reference r.2)
  | .revoke reference phase =>
    let r:=card.revoke fates reference.val phase
    (r.1,.revoke reference r.2)
  | .isConfirmed paymentId phase => (card,.isConfirmed paymentId (card.look paymentId.val phase))
end CardWatcher

/-- Any rail of `CompositeWatcher` is enough. -/
def anyConfirms (rails : List (Bytes → Bool)) (paymentId : Bytes) : Bool :=
  rails.any fun rail => rail paymentId

/-- The event's transaction id is not read. -/
structure WebhookEvent where
  eventType : String
  paymentReference : Str

structure Headers where
  (xSignature paddleSignature : Option Bytes)

inductive StatusCode
  | ok
  | badRequest
  | forbidden
  | payloadTooLarge
  | internalServerError
  deriving DecidableEq

def headerText (value : Bytes) : Option Bytes :=
  if value.all fun b => (32≤b&&b<127)||b == 9 then some value else none

def Headers.signature (headers : Headers) : Option Bytes :=
  (headers.xSignature.or headers.paddleSignature).bind headerText

def webhookBodyLimit : ℕ := 16*1024

def isConfirmEvent (eventType : String) : Bool :=
  ["confirmed","payment_succeeded","order_completed","subscription_payment_success"].contains eventType

def isRevokeEvent (eventType : String) : Bool :=
  ["refund","refunded","chargeback","subscription_cancelled"].contains eventType

section
variable (hmac : Bytes → Bytes → Hash) (json : Bytes → Option WebhookEvent)
def verifyHmac (secret body sigHex : Bytes) : Bool :=
  match fromHex (trim sigHex) with
  | none => false
  | some provided => provided.length=(hmac secret body).val.length&&(hmac secret body).val=provided

/-- The method a request ends up calling, or the answer it gets without one. -/
def webhook (secret : Bytes) (headers : Headers) (body : Bytes) : Except StatusCode Request :=
  if webhookBodyLimit<body.length then .error .payloadTooLarge
  else match headers.signature with
    | none => .error .badRequest
    | some sig =>
      if verifyHmac hmac secret body sig=false then .error .forbidden
      else match json body with
        | none => .error .badRequest
        | some event =>
          if isConfirmEvent event.eventType then .ok (.confirm event.paymentReference)
          else if isRevokeEvent event.eventType then .ok (.revoke event.paymentReference)
          else .error .ok
end
end NilVpn.Portal.Cards
