import NilVpn.Base.Result
import NilVpn.Base.Runs
import NilVpn.Datapath.Rollback

/-!
# The connection engine of the desktop client (client/src-tauri/src/engine.rs:28-277)

A release build, so there is no loopback. `coordinator` is `NW_COORDINATOR_URL` unless it is blank.
-/

namespace NilVpn.Client
open Base List Datapath

inductive ConnState
  | disconnected
  | connecting
  | connected
  | disconnecting
  deriving DecidableEq

inductive EngineError
  | notDisconnected (state : ConnState)
  | notConnected (state : ConnState)
  | transport (reason : String)
  | noTokens
  | noProductionPath

inductive Active (N : Type)
  | disconnected
  | tunnel (t : Tunnel N)

structure StoredToken where
  (msg token : String)

structure Setup where
  coordinator : Option String
  requireSafeControlUrl : String → Except String Unit
  measurements : Except String (List Bytes)
  transparencyKey : Except String (Option Bytes)
  launch : String → StoredToken → List Bytes → Option Bytes → Except String TunnelConfig

structure App (T N : Type) where
  world : World T N
  state : ConnState
  active : Active N

inductive Event (N : Type)
  | connect (setup : Setup) (token : Option StoredToken) (os : Os) (net : N)
  | disconnect

variable {T N : Type}
def App.new (t : T) : App T N := ⟨⟨t,[],[]⟩,.disconnected,.disconnected⟩

def Active.nets : Active N → List N
  | disconnected => []
  | tunnel t => [t.net]

def App.created (app : App T N) : List N := app.world.dropped++app.active.nets

def orTransport {α : Type} : Except String α → Except EngineError α
  | .ok a => .ok a
  | .error e => .error (.transport e)

def prepare (setup : Setup) (coord : String) (token : Option StoredToken) :
    Except EngineError TunnelConfig := do
  orTransport (setup.requireSafeControlUrl coord)
  let tok ← okOr token .noTokens
  let measurements ← orTransport setup.measurements
  let transparencyKey ← orTransport setup.transparencyKey
  orTransport (setup.launch coord tok measurements transparencyKey)

section
variable (transport : Transport T) (control : NetControl N)
def bringUpConfigured (setup : Setup) (coord : String) (token : Option StoredToken) (os : Os) (net : N)
    (w : World T N) : World T N × Except EngineError (Tunnel N) :=
  match prepare setup coord token with
  | .error e => (w,.error e)
  | .ok cfg =>
    match up transport control os net w cfg with
    | (w,.ok tunnel) => (w,.ok tunnel)
    | (w,.error e) => (w,.error (.transport e))

def connect (setup : Setup) (token : Option StoredToken) (os : Os) (net : N) (app : App T N) :
    App T N × Except EngineError ConnState :=
  if app.state≠.disconnected then (app,.error (.notDisconnected app.state))
  else
    match setup.coordinator with
    | some coord =>
      match bringUpConfigured transport control setup coord token os net app.world with
      | (w,.ok tunnel) =>
        ({ world := {w with dropped := w.dropped++app.active.nets}
           state := .connected
           active := .tunnel tunnel },.ok .connected)
      | (w,.error e) => ({app with world := w,state := .disconnected},.error e)
    | none => ({app with state := .disconnected},.error .noProductionPath)

def disconnect (app : App T N) : App T N × Except EngineError ConnState :=
  if app.state≠.connected ∧ app.state≠.disconnecting then (app,.error (.notConnected app.state))
  else
    match app.active with
    | .tunnel tunnel =>
      match down transport control app.world tunnel with
      | (w,tunnel,.error e) => (⟨w,.disconnecting,.tunnel tunnel⟩,.error (.transport e))
      | (w,tunnel,.ok ()) =>
        (⟨{w with dropped := w.dropped++[tunnel.net]},.disconnected,.disconnected⟩,.ok .disconnected)
    | .disconnected => ({app with state := .disconnected},.ok .disconnected)

def App.step (app : App T N) : Event N → App T N
  | .connect setup token os net => (connect transport control setup token os net app).1
  | .disconnect => (disconnect transport control app).1
end

/-- `clean n`: the instance `n` has no host mutation left. -/
structure Contract (control : NetControl N) (clean : N → Prop) : Prop where
  teardown : ∀ n, (control.teardown n).2=.ok () ↔ clean (control.teardown n).1

/-- `connect` calls `arm` with `params`. -/
def Arming (transport : Transport T) (app : App T N) (setup : Setup) (token : Option StoredToken) (os : Os)
    (params : ArmParams) : Prop :=
  app.state=.disconnected ∧ ∃ coord cfg, setup.coordinator=some coord ∧
    prepare setup coord token=.ok cfg ∧ Arms transport os app.world cfg params

/-- If the `arm` of a connect fails, the `teardown` that `Tunnel::up` then makes succeeds. -/
def RollsBack (transport : Transport T) (control : NetControl N) (app : App T N) : Event N → Prop
  | .connect setup token os net => ∀ params e, Arming transport app setup token os params →
      (control.arm net params).2=.error e → (control.teardown (control.arm net params).1).2=.ok ()
  | .disconnect => True

/-- What the engine starts has `J` once it is armed. -/
def Starts (transport : Transport T) (control : NetControl N) (J : N → Prop) (app : App T N) :
    Event N → Prop
  | .connect setup token os net =>
    ∀ params, Arming transport app setup token os params → J (control.arm net params).1
  | .disconnect => True

/-- An instance with `J` keeps it until a `teardown` succeeds, and is then clean. -/
structure Undoes (control : NetControl N) (J clean : N → Prop) : Prop where
  keeps : ∀ n, J n → J (control.teardown n).1
  cleans : ∀ n, J n → (control.teardown n).2=.ok () → clean (control.teardown n).1

variable {transport : Transport T} {control : NetControl N} {J clean : N → Prop} {app : App T N}
structure Restored (J clean : N → Prop) (app : App T N) : Prop where
  dropped : ∀ n∈app.world.dropped, clean n
  held : ∀ n∈app.active.nets, J n
  idle : app.state=.disconnected → app.active=.disconnected
  settled : app.state≠.connecting

lemma restored_new (J clean : N → Prop) (t : T) : Restored J clean (App.new t) where
  dropped := fun _ h => by cases h
  held := fun _ h => by cases h
  idle := fun _ => rfl
  settled := fun h => by cases h

lemma forall_mem_concat {l : List N} {n : N} (h : ∀ m∈l, clean m) (hn : clean n) : ∀ m∈l++[n], clean m := by
  grind

section
variable (hu : Undoes control J clean)
include hu
lemma up_restored {os : Os} {net : N} {w : World T N} {cfg : TunnelConfig}
    (hj : ∀ params, Arms transport os w cfg params → J (control.arm net params).1)
    (hr : ∀ params e, Arms transport os w cfg params → (control.arm net params).2=.error e →
      (control.teardown (control.arm net params).1).2=.ok ()) (h : ∀ n∈w.dropped, clean n) :
    (∀ n∈(up transport control os net w cfg).1.dropped, clean n) ∧
      ∀ tunnel, (up transport control os net w cfg).2=.ok tunnel → J tunnel.net := by
  have he:=up_ends transport control os net w cfg
  generalize up transport control os net w cfg=result at he
  cases he with
  | unconnected t e => exact ⟨h,fun _ ht => by cases ht⟩
  | stranded t s e hc ht => exact ⟨h,fun _ ht => by cases ht⟩
  | rolledBack t s params e text hp ha =>
    exact ⟨forall_mem_concat h (hu.cleans _ (hj params hp) (hr params e hp ha)),fun _ ht => by cases ht⟩
  | established t s params hp ha =>
    refine ⟨h,fun _ ht => ?_⟩
    cases ht
    exact hj params hp

lemma connect_restored {setup : Setup} {token : Option StoredToken} {os : Os} {net : N}
    (hj : Starts transport control J app (.connect setup token os net))
    (hr : RollsBack transport control app (.connect setup token os net)) (h : Restored J clean app) :
    Restored J clean (connect transport control setup token os net app).1 := by
  unfold connect
  split
  · exact h
  next hid =>
    have hid : app.state=.disconnected := not_not.mp hid
    have hn : app.active.nets=[] := by
      rw [h.idle hid]
      rfl
    split
    next coord hc =>
      unfold bringUpConfigured
      cases hp : prepare setup coord token with
      | error e => exact ⟨h.dropped,h.held,fun _ => h.idle hid,fun hs => by cases hs⟩
      | ok cfg =>
        have ha {params : ArmParams} (hpar : Arms transport os app.world cfg params) :
            Arming transport app setup token os params := ⟨hid,coord,cfg,hc,hp,hpar⟩
        have hj : ∀ params, Arms transport os app.world cfg params → J (control.arm net params).1 :=
          fun params hpar => hj params (ha hpar)
        obtain ⟨hd,ht⟩ := up_restored hu hj (fun params e hpar => hr params e (ha hpar)) h.dropped
        simp only
        generalize up transport control os net app.world cfg=out at hd ht
        obtain ⟨w,result⟩ := out
        cases result with
        | ok tunnel =>
          refine ⟨?_,fun n hm => ?_,fun hs => (by cases hs),fun hs => by cases hs⟩
          · simpa [hn] using hd
          · rw [mem_singleton.mp hm]
            exact ht tunnel rfl
        | error e => exact ⟨hd,h.held,fun _ => h.idle hid,fun hs => by cases hs⟩
    · exact ⟨h.dropped,h.held,fun _ => h.idle hid,fun hs => by cases hs⟩

lemma disconnect_restored (h : Restored J clean app) :
    Restored J clean (disconnect transport control app).1 := by
  unfold disconnect
  split
  · exact h
  · split
    next t ha =>
      have hj : J t.net := h.held _ (by rw [ha]; exact mem_singleton_self _)
      obtain ⟨after,more,hdw,hd,-⟩ := down_spec transport control app.world t
      rw [hdw]
      cases hr : (control.teardown t.net).2 with
      | error e =>
        refine ⟨fun n hn => h.dropped n (hd ▸ hn),fun n hn => ?_,fun hs => (by cases hs),fun hs => by cases hs⟩
        rw [mem_singleton.mp hn]
        exact hu.keeps _ hj
      | ok u =>
        refine ⟨forall_mem_concat (fun n hn => h.dropped n (hd ▸ hn)) (hu.cleans _ hj hr),
          fun _ hn => (by cases hn),fun _ => rfl,fun hs => by cases hs⟩
    next ha => exact ⟨h.dropped,h.held,fun _ => ha,fun hs => by cases hs⟩

lemma step_restored (app : App T N) (e : Event N) (h : Restored J clean app)
    (he : Starts transport control J app e ∧ RollsBack transport control app e) :
    Restored J clean (app.step transport control e) := by
  cases e with
  | connect setup token os net => exact connect_restored hu he.1 he.2 h
  | disconnect => exact disconnect_restored hu h
end

/-- `disconnect` calls the `teardown` of `n`, and keeps the instance if that fails. -/
structure Retries (transport : Transport T) (control : NetControl N) (app : App T N) (n : N) : Prop where
  calls : ∃ more, (disconnect transport control app).1.world.calls =
    app.world.calls++.tornDown (control.teardown n).2.isOk::more
  restored : (control.teardown n).2=.ok () → (disconnect transport control app).1.state=.disconnected
  kept : ∀ e, (control.teardown n).2=.error e →
    ∃ tunnel, (disconnect transport control app).1.active=.tunnel tunnel ∧ tunnel.net=(control.teardown n).1

structure DisconnectedMeansRestored (transport : Transport T) (control : NetControl N)
    (clean : N → Prop) (app : App T N) : Prop where
  restored : app.state=.disconnected → ∀ n∈app.created, clean n
  owned : ∀ n∈app.created, ¬clean n →
    ∃ tunnel, app.active=.tunnel tunnel ∧ tunnel.net=n ∧ Retries transport control app n

lemma retries (transport : Transport T) (control : NetControl N) {t : Tunnel N}
    (ha : app.active=.tunnel t)
    (hs : app.state=.connected ∨ app.state=.disconnecting) :
    Retries transport control app t.net := by
  have hg : ¬(app.state≠.connected ∧ app.state≠.disconnecting) := by
    rcases hs with hs | hs <;> simp [hs]
  obtain ⟨af,m,hw,-,hc⟩ := down_spec transport control app.world t
  cases hr : (control.teardown t.net).2 with
  | error e =>
    have hd : disconnect transport control app =
        (⟨af,.disconnecting,.tunnel ⟨none,(control.teardown t.net).1⟩⟩,.error (.transport e)) := by
      simp only [disconnect,if_neg hg,ha,hw,hr]
    constructor
    · rw [hd]
      exact ⟨m,hc⟩
    · intro hok
      cases hr.symm.trans hok
    · intro _ _
      rw [hd]
      exact ⟨_,rfl,rfl⟩
  | ok u =>
    have hd : disconnect transport control app =
        (⟨{af with dropped := af.dropped++[(control.teardown t.net).1]},
          .disconnected,.disconnected⟩,.ok .disconnected) := by
      simp only [disconnect,if_neg hg,ha,hw,hr]
    constructor
    · rw [hd]
      exact ⟨m,hc⟩
    · intro _
      rw [hd]
    · intro e he
      cases hr.symm.trans he

lemma Restored.means (h : Restored J clean app) (transport : Transport T) (control : NetControl N) :
    DisconnectedMeansRestored transport control clean app := by
  constructor
  · grind [App.created,h.idle,Active.nets,h.dropped]
  · intro n hn hu
    have ho : n∈app.active.nets := by
      rcases mem_append.mp hn with hn | hn
      · exact absurd (h.dropped n hn) hu
      · exact hn
    cases ha : app.active with
    | disconnected =>
      rw [ha] at ho
      cases ho
    | tunnel t =>
      rw [ha] at ho
      have ht : n=t.net := mem_singleton.mp ho
      have hst : app.state=.connected ∨ app.state=.disconnecting := by
        cases hs : app.state with
        | disconnected =>
          rw [h.idle hs] at ha
          cases ha
        | connecting => exact absurd hs h.settled
        | connected => exact Or.inl rfl
        | disconnecting => exact Or.inr rfl
      exact ⟨t,rfl,ht.symm,ht ▸ retries transport control ha hst⟩

/-- If every failed `arm` is rolled back at once, no history of calls loses a rollback journal. -/
theorem disconnected_means_restored (transport : Transport T) (control : NetControl N)
    (clean : N → Prop) (hcontract : Contract control clean) (t : T) (es : List (Event N))
    (hrolls : Along (App.step transport control) (RollsBack transport control) (App.new t) es) :
    DisconnectedMeansRestored transport control clean
      (runFrom (App.step transport control) (App.new t) es) := by
  have hu : Undoes control (fun _ => True) clean :=
    ⟨fun _ _ => trivial,fun n _ hok => (hcontract.teardown n).mp hok⟩
  refine (Along.invariant (fun app e h hr => step_restored hu app e h ⟨?_,hr⟩)
    (restored_new _ clean t) es hrolls).means transport control
  cases e with
  | connect setup token os net => exact fun _ _ => trivial
  | disconnect => trivial

def countingControl : NetControl ℕ where
  arm := fun n _ => (n+2,.ok ())
  teardown := fun n => (n - 1,if n≤1 then .ok () else .error "1 mutation left")

def sampleSetup : Setup where
  coordinator := some "https://coordinator.example"
  requireSafeControlUrl := fun _ => .ok ()
  measurements := .ok []
  transparencyKey := .ok none
  launch := fun _ _ _ _ => .ok sampleConfig

theorem disconnected_means_restored_retried : Contract countingControl (·=0) ∧
      (runFrom (App.step sampleTransport countingControl) (App.new ())
        [.connect sampleSetup (some ⟨"m","t"⟩) sampleOs 0,.disconnect]).created=[1] ∧
      DisconnectedMeansRestored sampleTransport countingControl (·=0)
        (runFrom (App.step sampleTransport countingControl) (App.new ())
          [.connect sampleSetup (some ⟨"m","t"⟩) sampleOs 0,.disconnect]) := by
  have hc : Contract countingControl (·=0) := by
    constructor
    intro n
    simp only [countingControl]
    split <;> simp <;> omega
  refine ⟨hc,rfl,disconnected_means_restored _ _ _ hc _ _ ⟨fun _ _ _ ha => ?_,trivial,trivial⟩⟩
  cases ha

def stuckControl : NetControl ℕ where
  arm := fun n _ => (n+2,.error "iptables failed")
  teardown := countingControl.teardown

/-- `Tunnel::up` drops the instance with its journal, and the engine is disconnected. -/
theorem failed_rollback_is_lost : Contract stuckControl (·=0) ∧
      ¬DisconnectedMeansRestored sampleTransport stuckControl (·=0)
        (runFrom (App.step sampleTransport stuckControl) (App.new ())
          [.connect sampleSetup (some ⟨"m","t"⟩) sampleOs 0]) := by
  constructor
  · constructor
    intro n
    simp only [stuckControl,countingControl]
    split <;> simp <;> omega
  · intro h
    have hclean:=h.restored rfl 1 (by decide)
    cases hclean

/-! ### The engine on a Linux host

Every connect makes a new `LinuxNet`, which runs its commands on the host that the last one left. -/

abbrev LinuxState := Linux.Env × Linux.Moment

def linuxControl : NetControl LinuxState where
  arm := fun n params => ((n.1,(Linux.arm n.1 params n.2).state),(Linux.arm n.1 params n.2).result)
  teardown := fun n => ((n.1,(Linux.teardown n.1 n.2).state),(Linux.teardown n.1 n.2).result)

def App.host (h : Linux.Host) (app : App T LinuxState) : Linux.Host :=
  (app.created.getLast?.map (·.2.host)).getD h

variable {h : Linux.Host}
def sampleConnect (env : Linux.Env) (h : Linux.Host) : Event LinuxState :=
  .connect sampleSetup (some ⟨"m","t"⟩) sampleOs (env,Linux.fresh h)

def afterFailedArm : App Unit LinuxState :=
  (App.new ()).step sampleTransport linuxControl (sampleConnect (Linux.failsAt 9) Linux.sampleHost)

/-- The first `arm` fails and is rolled back; the first `teardown` of the second instance fails. -/
def sampleCalls : List (Event LinuxState) :=
  [sampleConnect (Linux.failsAt 9) Linux.sampleHost,
    sampleConnect (Linux.failsAt 24) (afterFailedArm.host Linux.sampleHost),.disconnect,.disconnect]

end NilVpn.Client
