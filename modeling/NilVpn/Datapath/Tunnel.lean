import NilVpn.Base.Net
import NilVpn.Core.Session

/-!
# Bringing a tunnel up and down (nil-datapath/src/lib.rs:79-113, 163-310, 424-447)

`calls` records what is called on the transport and the OS layer, `dropped` the OS-layer instances that
nobody owns any more. `Os` is what the name resolver, the entropy source and the TUN driver return.
-/

namespace NilVpn.Datapath
open Base
open NilVpn.Core (Error Grant NodeEndpoint Session)

structure TunnelConfig where
  node : NodeEndpoint
  tunName : String
  (clientIp peerIp : Ipv4)
  prefixLen : UInt8
  mtu : UInt16
  dns : List IpAddr
  killSwitch : Bool
  alsoExcept : List String

structure ArmParams where
  nodeIp : IpAddr
  tunName : String
  dns : List IpAddr
  killSwitch : Bool
  alsoExcept : List IpAddr

structure Transport (T : Type) where
  connect : T → NodeEndpoint → Grant → T × Except Error Session
  close : T → Session → T × Except Error Unit
  assignedIp : T → Session → Option Ipv4
  tunnelMtu : T → Session → Option ℕ

structure NetControl (N : Type) where
  arm : N → ArmParams → N × Except String Unit
  teardown : N → N × Except String Unit

structure Os where
  resolveIp : NodeEndpoint → Except String IpAddr
  resolveHost : String → Except String IpAddr
  entropy : Except String (Block 32)
  openTun : TunnelConfig → Except String Unit
  tunName : TunnelConfig → Except String String

inductive Call
  | connected (s : Session)
  | closed (s : Session)
  | armed (ok : Bool)
  | tornDown (ok : Bool)
  deriving DecidableEq

structure World (T N : Type) where
  transport : T
  dropped : List N
  calls : List Call

structure Tunnel (N : Type) where
  session : Option Session
  net : N

variable {T N : Type} (transport : Transport T) (control : NetControl N)
def World.close (w : World T N) (s : Session) : World T N :=
  {w with transport := (transport.close w.transport s).1,calls := w.calls++[.closed s]}

def applyAssignedIp (configured : Ipv4) (assigned : Option Ipv4) : Option Ipv4 :=
  match assigned with
  | some ip => if ip≠configured then some ip else none
  | none => none

def clampMtu (configured : UInt16) (negotiated : Option ℕ) : Option UInt16 :=
  match negotiated with
  | some m =>
    let m:=UInt16.ofNat (min m 65535)
    if m<configured then some m else none
  | none => none

def TunnelConfig.negotiated (cfg : TunnelConfig) (assigned : Option Ipv4) (mtu : Option ℕ) :
    TunnelConfig :=
  { cfg with
    clientIp := (applyAssignedIp cfg.clientIp assigned).getD cfg.clientIp
    mtu := (clampMtu cfg.mtu mtu).getD cfg.mtu }

def Transport.negotiate (t : T) (s : Session) (cfg : TunnelConfig) : TunnelConfig :=
  cfg.negotiated (transport.assignedIp t s) (transport.tunnelMtu t s)

def rollbackError (e : String) : Except String Unit → String
  | .ok () => e
  | .error rollback =>
    s!"network setup rollback also failed; host networking may remain fail-closed or partially configured: {rollback}"

def armTunnel (w : World T N) (net : N) (session : Session) (params : ArmParams) :
    World T N × Except String (Tunnel N) :=
  match control.arm net params with
  | (net,.ok ()) => ({w with calls := w.calls++[.armed true]},.ok ⟨some session,net⟩)
  | (net,.error e) =>
    match control.teardown net with
    | (net,rollback) =>
      let w : World T N := { w with
        calls := w.calls++[.armed false,.tornDown rollback.isOk]
        dropped := w.dropped++[net] }
      (w.close transport session,.error (rollbackError e rollback))

def up (os : Os) (net : N) (w : World T N) (cfg : TunnelConfig) : World T N × Except String (Tunnel N) :=
  match os.resolveIp cfg.node with
  | .error e => (w,.error e)
  | .ok nodeIp =>
    let alsoExcept:=cfg.alsoExcept.filterMap fun host => (os.resolveHost host).toOption
    match os.entropy with
    | .error e => (w,.error s!"nonce entropy: {e}")
    | .ok nonce =>
      match transport.connect w.transport cfg.node (cfg.node.grant.getD ⟨[],nonce⟩) with
      | (t,.error e) => ({w with transport := t},.error s!"transport connect: {e.text}")
      | (t,.ok session) =>
        let w:={w with transport := t,calls := w.calls++[.connected session]}
        let cfg:=transport.negotiate t session cfg
        match os.openTun cfg with
        | .error e => (w,.error s!"open tun: {e}")
        | .ok () =>
          match os.tunName cfg with
          | .error e => (w,.error s!"tun name: {e}")
          | .ok tunName =>
            armTunnel transport control w net session ⟨nodeIp,tunName,cfg.dns,cfg.killSwitch,alsoExcept⟩

def down (w : World T N) (tunnel : Tunnel N) : World T N × Tunnel N × Except String Unit :=
  match control.teardown tunnel.net with
  | (net,rollback) =>
    let w:={w with calls := w.calls++[.tornDown rollback.isOk]}
    let w:=match tunnel.session with
      | some s => w.close transport s
      | none => w
    (w,⟨none,net⟩,rollback)

lemma down_spec (w : World T N) (t : Tunnel N) : ∃ after more, down transport control w t =
        (after,⟨none,(control.teardown t.net).1⟩,(control.teardown t.net).2) ∧
      after.dropped=w.dropped ∧
      after.calls=w.calls++.tornDown (control.teardown t.net).2.isOk::more := by
  let undone : World T N :=
    {w with calls := w.calls++[.tornDown (control.teardown t.net).2.isOk]}
  cases hs : t.session with
  | none => exact ⟨undone,[],by simp only [down,hs]; rfl,rfl,rfl⟩
  | some s => simp_all [down,World.close]

/-- `up` gets as far as the session `s`. -/
def Connects (os : Os) (w : World T N) (cfg : TunnelConfig) (nodeIp : IpAddr) (t : T) (s : Session) :
    Prop :=
  os.resolveIp cfg.node=.ok nodeIp ∧ ∃ nonce, os.entropy=.ok nonce ∧
    transport.connect w.transport cfg.node (cfg.node.grant.getD ⟨[],nonce⟩)=(t,.ok s)

/-- `up` calls `arm` with `params`. -/
def Arms (os : Os) (w : World T N) (cfg : TunnelConfig) (params : ArmParams) : Prop :=
  ∃ t s, Connects transport os w cfg params.nodeIp t s ∧
    os.openTun (transport.negotiate t s cfg)=.ok () ∧
    os.tunName (transport.negotiate t s cfg)=.ok params.tunName ∧
    params.dns=cfg.dns ∧ params.killSwitch=cfg.killSwitch ∧
    params.alsoExcept=cfg.alsoExcept.filterMap fun host => (os.resolveHost host).toOption

/-- `up` from `w` with the new instance `net`; the session and the instance are those of the call. -/
inductive Ends (os : Os) (net : N) (w : World T N) (cfg : TunnelConfig) :
    World T N × Except String (Tunnel N) → Prop
  | unconnected (t : T) (e : String) : Ends os net w cfg ({w with transport := t},.error e)
  | stranded (t : T) (s : Session) (e : String)
    (hconnect : ∃ nodeIp, Connects transport os w cfg nodeIp t s)
    (htun : (∃ text, os.openTun (transport.negotiate t s cfg)=.error text) ∨
      ∃ text, os.tunName (transport.negotiate t s cfg)=.error text) :
    Ends os net w cfg ({w with transport := t,calls := w.calls++[.connected s]},.error e)
  | rolledBack (t : T) (s : Session) (params : ArmParams) (e text : String)
    (hparams : Arms transport os w cfg params) (harm : (control.arm net params).2=.error e) :
    Ends os net w cfg
      ({ transport := t
         dropped := w.dropped++[(control.teardown (control.arm net params).1).1]
         calls := w.calls++[.connected s,.armed false,
          .tornDown (control.teardown (control.arm net params).1).2.isOk,.closed s] },.error text)
  | established (t : T) (s : Session) (params : ArmParams)
    (hparams : Arms transport os w cfg params) (harm : (control.arm net params).2=.ok ()) :
    Ends os net w cfg ({w with transport := t,calls := w.calls++[.connected s,.armed true]},
        .ok ⟨some s,(control.arm net params).1⟩)

lemma up_ends (os : Os) (net : N) (w : World T N) (cfg : TunnelConfig) :
    Ends transport control os net w cfg (up transport control os net w cfg) := by
  unfold up
  cases hi : os.resolveIp cfg.node with
  | error e => exact .unconnected w.transport e
  | ok nodeIp =>
    cases he : os.entropy with
    | error e => exact .unconnected w.transport _
    | ok nonce =>
      simp only
      rcases hc : transport.connect w.transport cfg.node (cfg.node.grant.getD ⟨[],nonce⟩) with
        ⟨t,session⟩
      cases session with
      | error e => exact .unconnected t _
      | ok s =>
        simp only
        have hs : Connects transport os w cfg nodeIp t s := ⟨hi,nonce,he,hc⟩
        cases ho : os.openTun (transport.negotiate t s cfg) with
        | error text => exact .stranded t s _ ⟨nodeIp,hs⟩ (Or.inl ⟨text,ho⟩)
        | ok u =>
          simp only
          cases hn : os.tunName (transport.negotiate t s cfg) with
          | error text => exact .stranded t s _ ⟨nodeIp,hs⟩ (Or.inr ⟨text,hn⟩)
          | ok name =>
            simp only [armTunnel]
            generalize hg : ArmParams.mk nodeIp name _ _ _=params
            have hp : Arms transport os w cfg params := by
              rw [← hg]
              exact ⟨t,s,hs,ho,hn,rfl,rfl,rfl⟩
            rcases ha : control.arm net params with ⟨armed,result⟩
            cases result with
            | ok u =>
              have hd : Ends transport control os net w cfg _ := .established t s params hp (by rw [ha])
              simpa [ha] using hd
            | error e =>
              have hd : Ends transport control os net w cfg _ :=
                .rolledBack (transport.close t s).1 s params e
                  (rollbackError e (control.teardown armed).2) hp (by rw [ha])
              simpa [ha,World.close] using hd

structure FailureAtomic (calls : List Call) (result : Except String (Tunnel N)) : Prop where
  closed : ∀ e, result=.error e → ∀ s, Call.connected s∈calls → calls.count (.closed s)=1
  tornDown : ∀ e, result=.error e → ∀ before ok after, calls=before++.armed ok::after →
    ∃ undone, Call.tornDown undone∈after
  established : ∀ tunnel, result=.ok tunnel → ∃ s, tunnel.session=some s ∧ calls=[.connected s,.armed true]

def UpAtomic (transport : Transport T) (control : NetControl N) (os : Os) (net : N) (w : World T N)
    (cfg : TunnelConfig) : Prop :=
  ∃ calls, (up transport control os net w cfg).1.calls=w.calls++calls ∧
    FailureAtomic calls (up transport control os net w cfg).2

/-- If `connect` returns a session, the TUN device opens and tells its name. -/
def TunOpens (transport : Transport T) (os : Os) (w : World T N) (cfg : TunnelConfig) : Prop :=
  ∀ nodeIp t s, Connects transport os w cfg nodeIp t s →
    os.openTun (transport.negotiate t s cfg)=.ok () ∧
      ∃ name, os.tunName (transport.negotiate t s cfg)=.ok name

lemma failureAtomic_rolledBack (s : Session) (u : Bool) (e : String) :
    FailureAtomic [.connected s,.armed false,.tornDown u,.closed s]
      (.error e : Except String (Tunnel N)) where
  closed := by
    intro _ _ s' hs'
    have heq : s'=s := by simpa using hs'
    rw [heq]
    simp
  tornDown := by
    intro _ _ be ok af hc
    match be,hc with
    | [],hc => simp at hc
    | [_],hc => grind
    | [_,_],hc => simp at hc
    | [_,_,_],hc => simp at hc
    | _::_::_::_::be,hc => simp at hc
  established := fun _ h => by cases h

section
variable {transport control} {os : Os} {net : N} {w : World T N} {cfg : TunnelConfig}
lemma upAtomic_of_tunOpens (htun : TunOpens transport os w cfg) :
    UpAtomic transport control os net w cfg := by
  have hends:=up_ends transport control os net w cfg
  unfold UpAtomic
  generalize up transport control os net w cfg=re at hends
  cases hends with
  | unconnected t e =>
    refine ⟨[],by simp,?_,?_,?_⟩
    · intro _ _ s hs
      cases hs
    · intro _ _ be ok af ha
      simp at ha
    · intro tu h
      cases h
  | stranded t s e hc hf =>
    obtain ⟨nodeIp,hc⟩ := hc
    obtain ⟨hopen,name,hname⟩ := htun nodeIp t s hc
    rcases hf with ⟨te,hf⟩ | ⟨te,hf⟩
    · rw [hopen] at hf
      cases hf
    · rw [hname] at hf
      cases hf
  | rolledBack t s params e text hparams harm => exact ⟨_,rfl,failureAtomic_rolledBack s _ text⟩
  | established t s params hparams harm =>
    refine ⟨_,rfl,nofun,nofun,?_⟩
    intro tu h
    cases h
    exact ⟨s,rfl,rfl⟩

lemma UpAtomic.not_stranded (h : UpAtomic transport control os net w cfg) {t : T} {s : Session}
    {e : String} : up transport control os net w cfg ≠
      ({w with transport := t,calls := w.calls++[.connected s]},.error e) := by
  intro hu
  obtain ⟨calls,hc,ha⟩ := h
  rw [hu] at hc ha
  rw [← List.append_cancel_left hc] at ha
  have hn:=ha.closed e rfl s (List.mem_singleton.mpr rfl)
  cases hn

lemma UpAtomic.tunOpens (h : UpAtomic transport control os net w cfg) :
    TunOpens transport os w cfg := by
  intro nodeIp t s hc
  obtain ⟨hi,nonce,hn,hc⟩ := hc
  cases ho : os.openTun (transport.negotiate t s cfg) with
  | error e => exact (h.not_stranded (by simp only [up,hi,hn,hc,ho]; rfl)).elim
  | ok u =>
    cases hm : os.tunName (transport.negotiate t s cfg) with
    | error e => exact (h.not_stranded (by simp only [up,hi,hn,hc,ho,hm]; rfl)).elim
    | ok name => exact ⟨rfl,name,rfl⟩
end

/-- Every failure of `up` closes what it connected and undoes what it armed, except when the TUN
device does not come up. -/
theorem up_failure_atomic (transport : Transport T) (control : NetControl N) (os : Os) (net : N)
    (w : World T N) (cfg : TunnelConfig) :
    UpAtomic transport control os net w cfg ↔ TunOpens transport os w cfg :=
  ⟨UpAtomic.tunOpens,upAtomic_of_tunOpens⟩

def sampleTransport : Transport Unit where
  connect := fun _ _ _ => ((),.ok ⟨7⟩)
  close := fun _ _ => ((),.ok ())
  assignedIp := fun _ _ => none
  tunnelMtu := fun _ _ => none

def sampleConfig : TunnelConfig where
  node := ⟨"203.0.113.5",443,none,none⟩
  tunName := "nil0"
  clientIp := ⟨10,74,0,2⟩
  peerIp := ⟨10,74,0,1⟩
  prefixLen := 16
  mtu := 1300
  dns := []
  killSwitch := true
  alsoExcept := []

def sampleOs : Os where
  resolveIp := fun _ => .ok (.v4 ⟨203,0,113,5⟩)
  resolveHost := fun _ => .error "no such host"
  entropy := .ok (Block.fill 32 1)
  openTun := fun _ => .ok ()
  tunName := fun _ => .ok "nil0"

def refusingControl : NetControl Unit := ⟨fun _ _ => ((),.error "refused"),fun _ => ((),.ok ())⟩

theorem up_failure_atomic_refused :
    TunOpens sampleTransport sampleOs (⟨(),[],[]⟩ : World Unit Unit) sampleConfig ∧
      (up sampleTransport refusingControl sampleOs () ⟨(),[],[]⟩ sampleConfig).1.calls =
        [.connected ⟨7⟩,.armed false,.tornDown true,.closed ⟨7⟩] ∧
      UpAtomic sampleTransport refusingControl sampleOs () ⟨(),[],[]⟩ sampleConfig := by
  have ht : TunOpens sampleTransport sampleOs (⟨(),[],[]⟩ : World Unit Unit) sampleConfig :=
    fun _ _ _ _ => ⟨rfl,_,rfl⟩
  exact ⟨ht,rfl,(up_failure_atomic _ _ _ _ _ _).mpr ht⟩

/-- `open_tun(&cfg)…?` returns without closing the session. -/
theorem failed_tun_strands_session : ¬UpAtomic sampleTransport refusingControl
      { sampleOs with openTun := fun _ => .error "operation not permitted" } () ⟨(),[],[]⟩
      sampleConfig := by
  exact fun h => h.not_stranded rfl
end NilVpn.Datapath
