import NilVpn.Base.Netfilter
import NilVpn.Node.Authorize

/-!
# What a node forwards (nil-node/src/exit.rs:30-72, 101-170)

The rules are the arguments of `iptables`. Each command succeeds, or else `setup` returns an error.
-/

namespace NilVpn.Node.Forward
open Base

/-- What the datapath reads of `NodeConfig`. -/
structure Config where
  role : NodeRole
  (tunName tunnelCidr egress : String)

def nodeQuicPort : String := "443"
def roleHasOpenEgress (role : NodeRole) : Bool := role=.exit

def natRules (cfg : Config) : List (List String) :=
  let tun:=cfg.tunName
  if roleHasOpenEgress cfg.role then
    [["-t","nat","-A","POSTROUTING","-s",cfg.tunnelCidr,"-o",cfg.egress,"-j","MASQUERADE"],
      ["-A","FORWARD","-i",tun,"-j","ACCEPT"],
      ["-A","FORWARD","-o",tun,"-j","ACCEPT"]]
  else
    [["-t","nat","-A","POSTROUTING","-s",cfg.tunnelCidr,"-o",cfg.egress,"-p","udp","--dport",
        nodeQuicPort,"-j","MASQUERADE"],
      ["-A","FORWARD","-o",tun,"-j","ACCEPT"],
      ["-A","FORWARD","-i",tun,"-p","udp","--dport",nodeQuicPort,"-j","ACCEPT"],
      ["-A","FORWARD","-i",tun,"-j","DROP"]]

/-- A rule of `FORWARD`; a part that is `none` matches every packet. -/
structure Rule where
  (input output proto dport : Option String)
  target : String

def Rule.read (rule : Rule) : List String → Option Rule
  | [] => some rule
  | "-i"::dev::rest => read {rule with input := some dev} rest
  | "-o"::dev::rest => read {rule with output := some dev} rest
  | "-p"::proto::rest => read {rule with proto := some proto} rest
  | "--dport"::port::rest => read {rule with dport := some port} rest
  | "-j"::target::rest => read {rule with target := target} rest
  | _ => none

/-- `-A FORWARD` without `-t` is for the chain of the filter table. -/
def forwardRule : List String → Option Rule
  | "-A"::"FORWARD"::rest => Rule.read ⟨none,none,none,none,""⟩ rest
  | _ => none

def setup (cfg : Config) : List Rule := (natRules cfg).filterMap forwardRule

structure Packet where
  (input output : String)
  proto : Proto
  dport : Option UInt16

def protoHits (name : String) (proto : Proto) : Bool :=
  (name="udp"&&proto=.udp)||(name="tcp"&&proto=.tcp)

def portHits (port : String) (dport : Option UInt16) : Bool :=
  dport.any fun number => parseUnsigned (2^16) (ascii port)=some number.toNat

def Rule.hits (r : Rule) (k : Packet) : Bool :=
  r.input.all (deviceHits · k.input)&&r.output.all (deviceHits · k.output) &&
    r.proto.all (protoHits · k.proto)&&r.dport.all (portHits · k.dport)

/-- The first rule that matches decides; the policy of the chain is to accept. -/
def verdict (rules : List Rule) (k : Packet) : String :=
  ((rules.find? (·.hits k)).map (·.target)).getD "ACCEPT"

def Packet.Quic (k : Packet) : Prop := k.proto=.udp ∧ k.dport=some 443

lemma setup_intermediate {cfg : Config} (h : cfg.role≠.exit) :
    setup cfg=[⟨none,some cfg.tunName,none,none,"ACCEPT"⟩,
      ⟨some cfg.tunName,none,some "udp",some nodeQuicPort,"ACCEPT"⟩,
      ⟨some cfg.tunName,none,none,none,"DROP"⟩] := by
  have hr : roleHasOpenEgress cfg.role=false := decide_eq_false h
  rw [setup,natRules,hr]
  rfl

lemma quic_hits (k : Packet) : protoHits "udp" k.proto&&portHits nodeQuicPort k.dport ↔ k.Quic := by
  have hp : parseUnsigned 65536 (ascii nodeQuicPort)=some 443 := by decide
  have hn (d : UInt16) : 443=d.toNat ↔ d=443 := by
    rw [← UInt16.toNat_inj,eq_comm]
    rfl
  cases hd : k.dport with
  | none => simp [portHits,Packet.Quic,hd]
  | some d => simp [protoHits,portHits,hp,Packet.Quic,hn,hd]

lemma verdict_intermediate {cfg : Config} {k : Packet} (h : cfg.role≠.exit) (hi : k.input=cfg.tunName) :
    verdict (setup cfg) k=if deviceHits cfg.tunName k.output then "ACCEPT"
      else if protoHits "udp" k.proto&&portHits nodeQuicPort k.dport then "ACCEPT" else "DROP" := by
  have hd:=deviceHits_self cfg.tunName
  rw [setup_intermediate h]
  cases ho : deviceHits cfg.tunName k.output with
  | true => simp [verdict,Rule.hits,ho]
  | false =>
    cases hq : protoHits "udp" k.proto&&portHits nodeQuicPort k.dport with
    | true =>
      rw [Bool.and_eq_true] at hq
      simp [verdict,Rule.hits,hi,ho,hd,hq]
    | false =>
      rcases Bool.and_eq_false_iff.mp hq with hq | hq
      · simp [verdict,Rule.hits,hi,ho,hd,hq]
      · simp [verdict,Rule.hits,hi,ho,hd,hq]

theorem intermediate_forwards_iff (cfg : Config) (k : Packet) (hrole : cfg.role≠.exit)
    (hin : k.input=cfg.tunName) :
    ((verdict (setup cfg) k="ACCEPT" → k.Quic) ∧ (¬k.Quic → verdict (setup cfg) k="DROP")) ↔
      (k.Quic ∨ deviceHits cfg.tunName k.output=false) := by
  rw [verdict_intermediate hrole hin,← quic_hits]
  cases deviceHits cfg.tunName k.output with
  | true => simp
  | false =>
    cases protoHits "udp" k.proto&&portHits nodeQuicPort k.dport with
    | true | false => simp

def middleNode : Config := ⟨.middle,"nil0","10.74.0.0/24","eth0"⟩

theorem middle_drops_web : verdict (setup middleNode) ⟨"nil0","eth0",.tcp,some 80⟩="DROP" :=
  ((intermediate_forwards_iff middleNode ⟨"nil0","eth0",.tcp,some 80⟩ nofun rfl).mpr
    (.inr (by decide))).2 nofun

/-- From one client of the node to another, back out of the same device. -/
theorem middle_forwards_between_clients :
    verdict (setup middleNode) ⟨"nil0","nil0",.tcp,some 80⟩="ACCEPT" := by decide
end NilVpn.Node.Forward
