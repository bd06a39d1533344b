import NilVpn.Durable.Log
import NilVpn.Portal.Auth
import NilVpn.Portal.Issue

/-!
# Checkout and subscription (nil-portal/src/billing.rs, subscription.rs)

A checkout records its reference in the pending set, which `issue_logic` consults; a subscription records
a hash of reference and account in the bindings, which `activate` consults. Requests interleave wherever
they touch something shared. `log` and `hashed` record the run.
-/

namespace NilVpn.Portal.Subscription
open Base
open Program (Outcome)
open Durable (TimedDurableSet TimedInsert)
open Portal.Issue (IssueRequest paymentDomain blindRequestDomain)

structure TimedSet (N : Type) where
  set : TimedDurableSet N
  volume : Volume N

namespace TimedSet
variable {N R : Type} [DecidableEq N]
def seen (t : TimedSet N) : Table Bytes UInt64 := t.set.seen

def ran (t : TimedSet N) : Outcome IoError (TimedDurableSet N × Except IoError R) × Volume N →
    TimedSet N × Except IoError R
  | (.done out,v) => (⟨out.1,v⟩,out.2)
  | (.error e,v) => (⟨t.set,v⟩,.error e)
  | (.killed,v) => (⟨t.set,v⟩,.error ioFailure)

def run (t : TimedSet N) (fates : ℕ → Fate)
    (p : TimedDurableSet N → Prog N (TimedDurableSet N × Except IoError R)) :
    TimedSet N × Except IoError R :=
  t.ran ((p t.set).run (fun i => (fates i).verdict) t.volume)

def insert (t : TimedSet N) (fates : ℕ → Fate) (key : Bytes) (now : UInt64) :
    TimedSet N × Except IoError Bool := t.run fates (TimedDurableSet.insert key now)

def insertIfBelowCapacity (t : TimedSet N) (fates : ℕ → Fate) (key : Bytes) (now : UInt64)
    (maxEntries : ℕ) : TimedSet N × Except IoError TimedInsert :=
  t.run fates (TimedDurableSet.insertIfBelowCapacity key now maxEntries)

def pruneOlderThan (t : TimedSet N) (fates : ℕ → Fate) (cutoff : UInt64) : TimedSet N :=
  (t.run fates (TimedDurableSet.pruneOlderThan cutoff)).1
end TimedSet

inductive StatusCode
  | tooManyRequests
  | internalServerError
  | serviceUnavailable
  deriving DecidableEq

inductive CheckoutPhase
  | limiting
  | counting
  | inserting
  | done (result : Except StatusCode Bytes)
  deriving DecidableEq

inductive LoginPhase
  | limiting
  | consuming (accountNumber : Hash) (signature : Block authSigLen)
  | fetching (accountNumber : Hash) (signature : Block authSigLen)
  deriving DecidableEq

inductive Login
  | waiting (phase : LoginPhase)
  | refused (e : ApiError)
  | passed (record : AccountRecord)

inductive SubscribePhase
  | login (phase : LoginPhase)
  | inserting (record : AccountRecord)
  | done (result : Except ApiError Bytes)
  deriving DecidableEq

inductive EntitlementDto
  | none
  | active
  | expired
  deriving DecidableEq

def EntitlementDto.from : Entitlement → EntitlementDto
  | .none => .none
  | .active _ => .active
  | .expired => .expired

structure AccountStatusResponse where
  entitlement : EntitlementDto
  untilSecs : Option UInt64
  deriving DecidableEq

def AccountStatusResponse.of (e : Entitlement) (now : UInt64) : AccountStatusResponse :=
  ⟨.from (e.resolved now),(e.resolved now).activeUntil now⟩

inductive ActivatePhase
  | login (phase : LoginPhase)
  | checkingBinding (record : AccountRecord)
  | checkingPayment (record : AccountRecord)
  | checkingActivated (record : AccountRecord)
  | extending (record : AccountRecord) (mintNow : UInt64)
  | done (result : Except ApiError AccountStatusResponse)
  deriving DecidableEq

inductive Call
  | issue (call : Issue.Call)
  | checkout (phase : CheckoutPhase)
  | subscribe (auth : AccountAuth) (phase : SubscribePhase)
  | activate (auth : AccountAuth) (paymentReference : Bytes) (phase : ActivatePhase)

inductive Request
  | issue (request : IssueRequest) (now : UInt64)
  | checkout
  | subscribe (auth : AccountAuth)
  | activate (auth : AccountAuth) (paymentReference : Bytes)

/-- A checkout mints for nobody, a subscription for its account; `returned` if the
caller got the reference. -/
inductive Report
  | minted (reference : Bytes) (account : Option Hash) (returned : Bool)
  | issued (paymentId blindSig : Bytes)
  | extended (account : Hash) (reference : Bytes) (untilSecs : UInt64)
  deriving DecidableEq

/-- `issued` and `activated` are fences from before the store's ledgers, only read. -/
structure World (N : Type) where
  backend : Backend
  pending : TimedSet N
  pendingCheckoutMax : ℕ
  bindings : TimedSet N
  (issued activated : Table Bytes Unit)
  challenges : ChallengeStore
  watcher : Bytes → Bool
  calls : List Call
  hashed : List Bytes
  log : List Report

structure Env where
  allowed : Bool
  clock : UInt64
  entropy : Option (Block 32)
  io : Io
  fates : ℕ → Fate
  signed : Except String Bytes

inductive Event
  | start (request : Request)
  | step (i : ℕ) (env : Env)
  | prunePending (cutoff : UInt64) (fates : ℕ → Fate)
  | pruneBindings (cutoff : UInt64) (fates : ℕ → Fate)
  | pruneIssuanceResults (now : UInt64) (io : Io)
  | insertAccount (record : AccountRecord) (io : Io)
  | issueChallenge (raw : Block 32) (now : UInt64)
  | setWatcher (watcher : Bytes → Bool)

def bindingDomain : Bytes := ascii "nil.subscription.v1.binding"

def bindingText (reference : Bytes) (account : Hash) : Bytes := bindingDomain++reference++account.val
def thirtyDaysSecs : UInt64 := 30*24*60*60

def issueTexts (request : IssueRequest) : List Bytes :=
  match Issue.decodeBlindMsg request with
  | none => []
  | some message => [paymentDomain++request.paymentId,blindRequestDomain++message]

def checkoutAnswer (reference : Bytes) : Except IoError TimedInsert → Except StatusCode Bytes
  | .ok .inserted => .ok reference
  | .ok .alreadyPresent => .error .internalServerError
  | .ok .capacityReached => .error .serviceUnavailable
  | .error _ => .error .serviceUnavailable

def subscribeAnswer (reference : Bytes) : Except IoError Bool → Except ApiError Bytes
  | .ok true => .ok reference
  | .ok false => .error .internal
  | .error _ => .error .internal

def activateAnswer (mintNow : UInt64) : Except StoreError (Option SubscriptionActivation) →
    Except ApiError AccountStatusResponse
  | .ok (some (.newlyActivated untilSecs)) => .ok (.of (.active untilSecs) mintNow)
  | .ok (some (.replay untilSecs)) => .ok (.of (.active untilSecs) mintNow)
  | .ok none => .error .internal
  | .error _ => .error .internal

def extensions (account : Hash) (reference : Bytes) :
    Except StoreError (Option SubscriptionActivation) → List Report
  | .ok (some (.newlyActivated untilSecs)) => [.extended account reference untilSecs]
  | _ => []

def tokens (paymentId : Bytes) : Issue.Phase → Issue.Phase → List Report
  | .done _,_ => []
  | _,.done (.ok blindSig) => [.issued paymentId blindSig]
  | _,_ => []

def Login.subscribe : Login → SubscribePhase
  | .waiting phase => .login phase
  | .refused e => .done (.error e)
  | .passed record => .inserting record

def Login.activate : Login → ActivatePhase
  | .waiting phase => .login phase
  | .refused e => .done (.error e)
  | .passed record => .checkingBinding record

section
variable {N : Type} [DecidableEq N] (codec : Codec)
  (sha256 : Bytes → Hash) (verify : Hash → Bytes → Block authSigLen → Bool)
def bindingKey (reference : Bytes) (account : Hash) : Hash := sha256 (bindingText reference account)

def encodedKey (reference : Bytes) (account : Hash) : Bytes :=
  toHex (bindingKey sha256 reference account).val

def World.tokenState (w : World N) : Issue.World := ⟨w.backend,w.pending.seen,w.issued,w.watcher,[]⟩

def World.checkout (w : World N) (env : Env) : CheckoutPhase → World N × CheckoutPhase
  | .limiting => (w,if env.allowed then .counting else .done (.error .tooManyRequests))
  | .counting =>
    (w,if w.pendingCheckoutMax≤w.pending.seen.len then .done (.error .serviceUnavailable)
      else .inserting)
  | .inserting =>
    match env.entropy with
    | none => (w,.done (.error .internalServerError))
    | some raw =>
      let r:=w.pending.insertIfBelowCapacity env.fates (toHex raw.val) env.clock w.pendingCheckoutMax
      ({ w with
        pending := r.1
        log := w.log++[.minted (toHex raw.val) none (r.2.toOption=some .inserted)] },
        .done (checkoutAnswer (toHex raw.val) r.2))
  | .done result => (w,.done result)

def World.login (w : World N) (env : Env) (auth : AccountAuth) : LoginPhase → World N × Login
  | .limiting =>
    (w,if env.allowed then
      match auth.parse with
      | .error e => .refused (mapAuthErr e)
      | .ok (accountNumber,signature) => .waiting (.consuming accountNumber signature)
      else .refused .tooManyRequests)
  | .consuming accountNumber signature =>
    let r:=w.challenges.consume auth.challenge env.clock
    ({w with challenges := r.1},
      if r.2 then .waiting (.fetching accountNumber signature)
      else .refused (mapAuthErr .unauthorized))
  | .fetching accountNumber signature =>
    let r:=w.backend.perform codec env.io none fun s => s.get accountNumber
    ({w with backend := r.1},
      match auth.resolve verify signature r.2 with
      | .error e => .refused (mapAuthErr e)
      | .ok record => .passed record)

def World.subscribe (w : World N) (env : Env) (auth : AccountAuth) : SubscribePhase → World N × SubscribePhase
  | .login phase =>
    let r:=w.login codec verify env auth phase
    (r.1,r.2.subscribe)
  | .inserting record =>
    match env.entropy with
    | none => (w,.done (.error .internal))
    | some raw =>
      let account:=record.accountNumber
      let r:=w.bindings.insert env.fates (encodedKey sha256 (toHex raw.val) account) env.clock
      ({ w with
        bindings := r.1
        hashed := w.hashed++[bindingText (toHex raw.val) account]
        log := w.log++[.minted (toHex raw.val) (some account) (r.2.toOption=some true)] },
        .done (subscribeAnswer (toHex raw.val) r.2))
  | .done result => (w,.done result)

def World.activate (w : World N) (env : Env) (auth : AccountAuth) (reference : Bytes) :
    ActivatePhase → World N × ActivatePhase
  | .login phase =>
    let r:=w.login codec verify env auth phase
    (r.1,r.2.activate)
  | .checkingBinding record =>
    ({w with hashed := w.hashed++[bindingText reference record.accountNumber]},
      if w.bindings.seen.contains (encodedKey sha256 reference record.accountNumber) then
        .checkingPayment record
      else .done (.error .unauthorized))
  | .checkingPayment record =>
    (w,if w.watcher reference then .checkingActivated record else .done (.error .paymentRequired))
  | .checkingActivated record =>
    (w,if env.clock=0 then .done (.error .internal)
      else if w.activated.contains (encodedKey sha256 reference record.accountNumber) then
        .done (.ok (.of record.entitlement env.clock))
      else .extending record env.clock)
  | .extending record mintNow =>
    let account:=record.accountNumber
    let r:=w.backend.perform codec env.io none fun s =>
      s.activateSubscription account (bindingKey sha256 reference account) mintNow thirtyDaysSecs
    ({w with backend := r.1,log := w.log++extensions account reference r.2},
      .done (activateAnswer mintNow r.2))
  | .done result => (w,.done result)

def World.issue (w : World N) (env : Env) (c : Issue.Call) : World N × Issue.Call :=
  let r:=w.tokenState.advance codec sha256 c env.io env.signed
  ({w with backend := r.1,log := w.log++tokens c.request.paymentId c.phase r.2.phase},r.2)

def World.advance (w : World N) (env : Env) : Call → World N × Call
  | .issue c =>
    let r:=w.issue codec sha256 env c
    (r.1,.issue r.2)
  | .checkout phase =>
    let r:=w.checkout env phase
    (r.1,.checkout r.2)
  | .subscribe auth phase =>
    let r:=w.subscribe codec sha256 verify env auth phase
    (r.1,.subscribe auth r.2)
  | .activate auth reference phase =>
    let r:=w.activate codec sha256 verify env auth reference phase
    (r.1,.activate auth reference r.2)

def Request.call : Request → Call
  | .issue request now => .issue ⟨request,now,Issue.startPhase request,[],[]⟩
  | .checkout => .checkout .limiting
  | .subscribe auth => .subscribe auth (.login .limiting)
  | .activate auth reference => .activate auth reference (.login .limiting)

def Request.texts : Request → List Bytes
  | .issue request _ => issueTexts request
  | _ => []

def World.step (w : World N) : Event → World N
  | .start request =>
    {w with calls := w.calls++[request.call],hashed := w.hashed++request.texts}
  | .step i env =>
    match w.calls[i]? with
    | none => w
    | some c =>
      let r:=w.advance codec sha256 verify env c
      {r.1 with calls := w.calls.set i r.2}
  | .prunePending cutoff fates => {w with pending := w.pending.pruneOlderThan fates cutoff}
  | .pruneBindings cutoff fates => {w with bindings := w.bindings.pruneOlderThan fates cutoff}
  | .pruneIssuanceResults now io =>
    {w with backend := (w.backend.perform codec io none fun s => s.pruneIssuanceResults now).1}
  | .insertAccount record io =>
    {w with backend := (w.backend.perform codec io none fun s => s.insert record).1}
  | .issueChallenge raw now => {w with challenges := w.challenges.issue raw now}
  | .setWatcher watcher => {w with watcher := watcher}

def World.run (w : World N) (es : List Event) : World N :=
  runFrom (World.step codec sha256 verify) w es
end
end NilVpn.Portal.Subscription
