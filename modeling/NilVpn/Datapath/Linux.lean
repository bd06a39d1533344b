import NilVpn.Base.MetricTable
import NilVpn.Base.Netfilter
import NilVpn.Base.Script
import NilVpn.Datapath.Tunnel
import Mathlib.Logic.Function.Basic

/-!
# Routing, kill-switch and DNS on Linux (nil-datapath/src/linux.rs)

The host is what the commands can see. A route is kept as the tokens after its destination. `Env` answers
what the model does not fix: route lookup, failing commands, texts of addresses and errors.
-/

namespace NilVpn.Datapath.Linux
open Base

structure Host where
  defaults : MetricTable (List String)
  routes : IpAddr → Option (List String)
  resolv : Option Bytes
  filters : Family → FilterTable

inductive Cmd
  | ethtool (tun : String)
  | showDefaults
  | addDefault (metric : ℕ) (spec : List String)
  | delDefault
  | replaceDefault (dev : String)
  | showExact (ip : IpAddr)
  | routeGet (ip : IpAddr)
  | replaceRoute (ip : IpAddr) (spec : List String)
  | delRoute (ip : IpAddr)
  | filter (family : Family) (op : FilterOp)
  | checkOutput (family : Family) (r : Rule)
  | listChain (family : Family) (c : String)
  | readResolv
  | writeResolv (content : Bytes)
  deriving DecidableEq

abbrev Cmd.Out : Cmd → Type
  | showDefaults => List (ℕ × List String)
  | showExact _ => List (List String)
  | routeGet _ => List String
  | readResolv => Bytes
  | _ => Unit

def Host.setFilter (h : Host) (family : Family) (f : FilterTable) : Host :=
  {h with filters := Function.update h.filters family f}

def orRefuse (h : Host) : Option Host → Exit Unit × Host
  | some h' => (.success (),h')
  | none => (.failure,h)

def presence (found : Bool) : Exit Unit := if found then .success () else .absent

def exec (lookup : Host → IpAddr → Option (List String)) : (c : Cmd) → Host → Exit c.Out × Host
  | .ethtool _,h => (.success (),h)
  | .showDefaults,h => (.success h.defaults.entries,h)
  | .addDefault k spec,h => orRefuse h ((h.defaults.add k spec).map fun t => {h with defaults := t})
  | .delDefault,h => orRefuse h (h.defaults.dropLowest.map fun t => {h with defaults := t})
  | .replaceDefault dev,h => (.success (),{ h with defaults := h.defaults.set 0 ["dev",dev] })
  | .showExact ip,h => (.success (h.routes ip).toList,h)
  | .routeGet ip,h => match lookup h ip with
    | some toks => (.success toks,h)
    | none => (.failure,h)
  | .replaceRoute ip spec,h => (.success (),{h with routes := Function.update h.routes ip (some spec)})
  | .delRoute ip,h => orRefuse h
      (if (h.routes ip).isSome then some {h with routes := Function.update h.routes ip none} else none)
  | .filter family op,h => orRefuse h
      (if op.fits family then ((h.filters family).apply op).map (h.setFilter family) else none)
  | .checkOutput family r,h => (presence (decide (r∈(h.filters family).output)),h)
  | .listChain family c,h => (presence ((h.filters family).chain c).isSome,h)
  | .readResolv,h => match h.resolv with
    | some content => (.success content,h)
    | none => (.failure,h)
  | .writeResolv content,h => (.success (),{h with resolv := some content})

/-- `previous` is the route for `ip` alone before it was replaced. -/
structure PinnedRoute where
  ip : IpAddr
  previous : Option (List String)

structure LinuxNet where
  armed : Bool
  origDefaults : List (ℕ × List String)
  defaultChanged : Bool
  resolvBackup : Option Bytes
  (dnsTouched firewallTouched : Bool)
  pinnedRoutes : List PinnedRoute

def LinuxNet.default : LinuxNet := ⟨false,[],false,none,false,false,[]⟩
abbrev Moment := NilVpn.Base.Moment Cmd Host LinuxNet
abbrev Shell (α : Type) := Script Moment String α

structure Env where
  lookup : Host → IpAddr → Option (List String)
  fate : ℕ → Fate
  complaint : Cmd → String
  display : IpAddr → String

def Env.system (env : Env) : System Cmd Cmd.Out Host String := ⟨exec env.lookup,env.fate,env.complaint⟩
def net : Shell LinuxNet := Script.view (·.self)
def setNet (f : LinuxNet → LinuxNet) : Shell Unit := Script.update fun m => {m with self := f m.self}

variable (env : Env)
def sh (c : Cmd) : Shell c.Out := env.system.run c
def commandPresent (c : Cmd) : Shell Bool := env.system.present c
abbrev CleanupErrors := List String

def CleanupErrors.attempt (errors : CleanupErrors) (step : String) : Except String Unit → Bool × CleanupErrors
  | .ok () => (true,errors)
  | .error e => (false,errors++[s!"{step}: {e}"])

def CleanupErrors.finish (errors : CleanupErrors) : Shell Unit :=
  if errors.isEmpty then pure ()
  else Script.throw ("network rollback incomplete: " ++ String.intercalate "; " errors)

def attemptStep (errors : CleanupErrors) (step : String) (x : Shell Unit) : Shell (Bool × CleanupErrors) := do
  let result ← Script.attempt x
  pure (CleanupErrors.attempt errors step result)

def captureDefaultRoutes : Shell (List (ℕ × List String)) := do
  let routes ← sh env .showDefaults
  if 64 < routes.length then
    Script.throw "more than 64 IPv4 default routes; refusing an unbounded snapshot"
  -- every entry of the table is a default route, so no line is unexpected
  else pure routes

def replayDefaults (original : List (ℕ × List String)) : Shell Unit :=
  Script.each (fun route => sh env (.addDefault route.1 route.2)) original

def restoreTurns (original : List (ℕ × List String)) : ℕ → Shell Unit
  | 0 => Script.throw "IPv4 default-route cleanup exceeded its 65-route safety bound"
  | turns+1 => do
    let routes ← captureDefaultRoutes env
    if routes.isEmpty then replayDefaults env original
    else do
      sh env .delDefault
      restoreTurns original turns

def restoreDefaultRoutes (original : List (ℕ × List String)) : Shell Unit :=
  restoreTurns env original 65

def routeCidr (ip : IpAddr) : String := s!"{env.display ip}/{if ip.family = .v4 then 32 else 128}"

def prepareNodeRoute (ip : IpAddr) : Shell PinnedRoute := do
  let lines ← sh env (.showExact ip)
  match lines with
  | [] => pure ⟨ip,none⟩
  | [previous] => pure ⟨ip,some previous⟩
  | _ =>
    Script.throw s!"multiple exact routes exist for {routeCidr env ip}; refusing a lossy replacement"

def removeRouteIfPresent (route : PinnedRoute) : Shell Unit := do
  let lines ← sh env (.showExact route.ip)
  if lines.isEmpty then pure () else sh env (.delRoute route.ip)

def field (key : String) : List String → Option String
  | [] => none
  | tok::toks => if tok=key then toks.head? else field key toks

def applyNodeRoute (ip : IpAddr) : Shell Unit := do
  let toks ← sh env (.routeGet ip)
  match field "dev" toks,field "via" toks with
  | none,_ => Script.throw s!"no device for node route {env.display ip}"
  | some dev,some gw => sh env (.replaceRoute ip ["via",gw,"dev",dev])
  | some dev,none => sh env (.replaceRoute ip ["dev",dev])

def nilChain : Family → String
  | .v4 => "NILVPN_OUTPUT"
  | .v6 => "NILVPN_OUTPUT6"

def jump (family : Family) : Rule := .always (.jump (nilChain family))

def append (family : Family) (r : Rule) : Shell Unit :=
  sh env (.filter family (.append (nilChain family) r))

def openChain (family : Family) : Shell Unit := do
  let _ ← Script.attempt (sh env (.filter family (.newChain (nilChain family))))
  sh env (.filter family (.flush (nilChain family)))
  match ← Script.attempt (sh env (.checkOutput family (jump family))) with
  | .ok _ => pure ()
  | .error _ => sh env (.filter family (.insertOutput (jump family)))

def exceptions (nodeIp : IpAddr) (alsoExcept : List IpAddr) (tun : String) : List Rule :=
  [.outOf "lo" .accept,.outOf tun .accept,.service .udp nodeIp 443 .accept,
    .service .tcp nodeIp 443 .accept]++alsoExcept.map (.toward · .accept)

def v6Accept (r : Rule) : Shell Unit := do
  let _ ← Script.attempt (append env .v6 r)

def v6DropError (e : String) : String :=
  s!"failed to install IPv6 default-DROP kill-switch ({e}); refusing to run with a potential IPv6 leak. Ensure ip6tables is available (or disable IPv6 on the host)."

def armKillSwitch (nodeIp : IpAddr) (alsoExcept : List IpAddr) (tun : String) : Shell Unit := do
  openChain env .v4
  Script.each (append env .v4) (exceptions nodeIp alsoExcept tun)
  append env .v4 (.always .drop)
  openChain env .v6
  v6Accept env (.outOf "lo" .accept)
  v6Accept env (.outOf tun .accept)
  Script.mapError v6DropError (append env .v6 (.always .drop))

def removeJump (family : Family) (errors : CleanupErrors) : Shell CleanupErrors := do
  match ← Script.attempt (commandPresent env (.checkOutput family (jump family))) with
  | .ok true => do
    let (_,errors) ← attemptStep errors "remove firewall jump"
      (sh env (.filter family (.deleteOutput (jump family))))
    pure errors
  | .ok false => pure errors
  | .error e => pure (CleanupErrors.attempt errors "inspect firewall jump" (.error e)).2

def removeChain (family : Family) (errors : CleanupErrors) : Shell CleanupErrors := do
  match ← Script.attempt (commandPresent env (.listChain family (nilChain family))) with
  | .ok true => do
    let (flushed,errors) ← attemptStep errors "flush firewall chain"
      (sh env (.filter family (.flush (nilChain family))))
    if flushed then do
      let (_,errors) ← attemptStep errors "delete firewall chain"
        (sh env (.filter family (.deleteChain (nilChain family))))
      pure errors
    else pure errors
  | .ok false => pure errors
  | .error e => pure (CleanupErrors.attempt errors "inspect firewall chain" (.error e)).2

def disarmFamily (family : Family) (errors : CleanupErrors) : Shell CleanupErrors := do
  let errors ← removeJump env family errors
  removeChain env family errors

def disarmKillSwitch : Shell Unit := do
  let errors ← disarmFamily env .v4 []
  let errors ← disarmFamily env .v6 errors
  CleanupErrors.finish errors

/-- Marked as armed before the first command, so that a failed `arm` can be rolled back. -/
def begin : Shell Unit := do
  let self ← net
  if self.armed then Script.throw "Linux datapath is already armed or still requires rollback"
  else setNet fun self => {self with armed := true}

def saveDefaults : Shell Unit := do
  let routes ← captureDefaultRoutes env
  setNet fun self => {self with origDefaults := routes}

def pinNode (ip : IpAddr) : Shell Unit := do
  let route ← prepareNodeRoute env ip
  setNet fun self => {self with pinnedRoutes := self.pinnedRoutes++[route]}
  applyNodeRoute env ip

def pinFallback (ip : IpAddr) : Shell Unit := do
  let _ ← Script.attempt (pinNode env ip)

def armFirewall (p : ArmParams) : Shell Unit :=
  if p.killSwitch then do
    setNet fun self => {self with firewallTouched := true}
    armKillSwitch env p.nodeIp p.alsoExcept p.tunName
  else pure ()

def flipDefault (tun : String) : Shell Unit := do
  setNet fun self => {self with defaultChanged := true}
  sh env (.replaceDefault tun)

def setDns (dns : List IpAddr) : Shell Unit :=
  let body:=dns.flatMap fun ip => (s!"nameserver {env.display ip}\n").toUTF8.toList
  Script.mapError (fun e => s!"write tunnel DNS to /etc/resolv.conf: {e}") (sh env (.writeResolv body))

def redirectDns (dns : List IpAddr) : Shell Unit :=
  if dns.isEmpty then pure ()
  else do
    let content ← Script.mapError (fun e => s!"read /etc/resolv.conf before changing DNS: {e}")
      (sh env .readResolv)
    setNet fun self => {self with resolvBackup := some content}
    setNet fun self => {self with dnsTouched := true}
    setDns env dns

/-- The steps 0 to 2: the routes to the nodes are pinned to the original path. -/
def pinRoutes (p : ArmParams) : Shell Unit := do
  let _ ← Script.attempt (sh env (.ethtool p.tunName))
  saveDefaults env
  pinNode env p.nodeIp
  Script.each (pinFallback env) p.alsoExcept

def arm (p : ArmParams) : Shell Unit := do
  begin
  pinRoutes env p
  armFirewall env p
  flipDefault env p.tunName
  redirectDns env p.dns

def writeBackup (backup : Option Bytes) : Shell Unit :=
  match backup with
  | some content => sh env (.writeResolv content)
  | none => Script.throw "backup is missing"

def restoreDns (errors : CleanupErrors) : Shell CleanupErrors := do
  let self ← net
  if self.dnsTouched then do
    let (restored,errors) ← attemptStep errors "restore /etc/resolv.conf"
      (writeBackup env self.resolvBackup)
    if restored then do
      setNet fun self => {self with dnsTouched := false}
      pure errors
    else pure errors
  else pure errors

def restoreDefaults (errors : CleanupErrors) : Shell CleanupErrors := do
  let self ← net
  if self.defaultChanged then do
    let (restored,errors) ← attemptStep errors "restore default route"
      (restoreDefaultRoutes env self.origDefaults)
    if restored then do
      setNet fun self => {self with defaultChanged := false}
      pure errors
    else pure errors
  else pure errors

def restorePin (route : PinnedRoute) : Shell Unit :=
  match route.previous with
  | some previous => sh env (.replaceRoute route.ip previous)
  | none => removeRouteIfPresent env route

/-- The routes `todo` in this order. While the loop runs, the source's vector is drained; here
`pinnedRoutes` is what is not yet restored, which at the end is the source's value. -/
def restorePins : (todo failed : List PinnedRoute) → CleanupErrors → Shell CleanupErrors
  | [],_,errors => pure errors
  | route::todo,failed,errors => do
    let (restored,errors) ← attemptStep errors "restore pinned node route" (restorePin env route)
    let failed:=if restored then failed else failed++[route]
    setNet fun self => {self with pinnedRoutes := todo.reverse++failed.reverse}
    restorePins todo failed errors

def restoreRoutes (errors : CleanupErrors) : Shell CleanupErrors := do
  let self ← net
  restorePins env self.pinnedRoutes.reverse [] errors

def releaseFirewall (errors : CleanupErrors) : Shell CleanupErrors := do
  let self ← net
  if errors.isEmpty&&self.firewallTouched then do
    let (released,errors) ← attemptStep errors "remove NIL firewall chains" (disarmKillSwitch env)
    if released then do
      setNet fun self => {self with firewallTouched := false}
      pure errors
    else pure errors
  else pure errors

def LinuxNet.pending (self : LinuxNet) : Bool :=
  self.dnsTouched||self.defaultChanged||!self.pinnedRoutes.isEmpty||self.firewallTouched

def rollback : Shell Unit := do
  let errors ← restoreDns env []
  let errors ← restoreDefaults env errors
  let errors ← restoreRoutes env errors
  let errors ← releaseFirewall env errors
  setNet fun self => {self with armed := self.pending}
  CleanupErrors.finish errors

def teardown : Shell Unit := do
  let self ← net
  if self.armed then rollback env else pure ()

def fresh (h : Host) : Moment := ⟨h,.default,[]⟩

/-- `arm`, and one `teardown` for each environment of `later`, whatever they return. -/
def lifetime (p : ArmParams) (later : List Env) : Shell Unit := do
  let _ ← Script.attempt (arm env p)
  Script.each (fun env => do let _ ← Script.attempt (teardown env)) later
end NilVpn.Datapath.Linux
