import NilVpn.Base.Net

/-!
# Packet filters as first-match rule lists

One family's table: `OUTPUT` and the chains made by users. An operation is `none` where `iptables` refuses
it. `ChainState` is what the owner of one chain makes of a table that did not have it.
-/

namespace NilVpn.Base
open List

inductive Family
  | v4 | v6
  deriving DecidableEq

def IpAddr.family : IpAddr → Family
  | .v4 _ => .v4
  | .v6 _ => .v6

inductive Proto
  | tcp | udp
  | other (number : UInt8)
  deriving DecidableEq

inductive Target
  | accept | drop
  | jump (chain : String)
  deriving DecidableEq

/-- A field that is `none` matches every packet. -/
structure Rule where
  out : Option String
  proto : Option Proto
  dst : Option IpAddr
  dport : Option UInt16
  target : Target
  deriving DecidableEq

structure Packet where
  out : String
  proto : Proto
  dst : IpAddr
  dport : Option UInt16
  deriving DecidableEq

/-- A name that ends in `+` stands for every device whose name begins so. -/
def deviceHits (pattern device : String) : Bool :=
  if pattern.toList.getLast?=some '+' then pattern.toList.dropLast.isPrefixOf device.toList
  else pattern=device

lemma deviceHits_self (device : String) : deviceHits device device := by
  rw [deviceHits]
  split
  · exact List.isPrefixOf_iff_prefix.mpr (List.dropLast_prefix _)
  · exact decide_eq_true rfl

/-- The name stands for one device. -/
def Plain (device : String) : Prop := device.toList.getLast?≠some '+'

instance (device : String) : Decidable (Plain device) := instDecidableNot

lemma Plain.hits_iff {pattern : String} (h : Plain pattern) (device : String) :
    deviceHits pattern device=true ↔ device=pattern := by
  rw [deviceHits,if_neg h,decide_eq_true_iff,eq_comm]

namespace Rule
def always (t : Target) : Rule := ⟨none,none,none,none,t⟩
def outOf (device : String) (t : Target) : Rule := ⟨some device,none,none,none,t⟩
def toward (ip : IpAddr) (t : Target) : Rule := ⟨none,none,some ip,none,t⟩

def service (proto : Proto) (ip : IpAddr) (port : UInt16) (t : Target) : Rule :=
  ⟨none,some proto,some ip,some port,t⟩

def hits (r : Rule) (k : Packet) : Bool :=
  r.out.all (deviceHits · k.out)&&r.proto.all (k.proto == ·)&&r.dst.all (k.dst == ·) &&
    r.dport.all (k.dport == some ·)

/-- An address of the other family cannot be given as the destination. -/
def fits (r : Rule) (family : Family) : Bool := r.dst.all (·.family == family)

@[simp] lemma hits_outOf (device : String) (t : Target) (k : Packet) :
    (outOf device t).hits k=true ↔ deviceHits device k.out=true := by
  simp [outOf,hits]

@[simp] lemma hits_toward (ip : IpAddr) (t : Target) (k : Packet) :
    (toward ip t).hits k=true ↔ k.dst=ip := by
  simp [toward,hits]

@[simp] lemma hits_service (p : Proto) (ip : IpAddr) (port : UInt16) (t : Target)
    (k : Packet) : (service p ip port t).hits k=true ↔ k.proto=p ∧ k.dst=ip ∧ k.dport=some port := by
  simp [service,hits,and_assoc]
end Rule

def firstMatch (rules : List Rule) (k : Packet) : Option Target :=
  (rules.find? (·.hits k)).map (·.target)

lemma firstMatch_then_drop {rules : List Rule} (h : ∀ r∈rules, r.target=.accept)
    (k : Packet) : firstMatch (rules++[.always .drop]) k=some .accept ↔ ∃ r∈rules, r.hits k := by
  induction rules with
  | nil => simp [firstMatch,Rule.always]
  | cons r rules ih => grind [firstMatch]

structure FilterTable where
  output : List Rule
  chains : List (String × List Rule)
  deriving DecidableEq

inductive FilterOp
  | newChain (c : String)
  | flush (c : String)
  | insertOutput (r : Rule)
  | append (c : String) (r : Rule)
  | deleteOutput (r : Rule)
  | deleteChain (c : String)
  deriving DecidableEq

def FilterOp.fits (family : Family) : FilterOp → Bool
  | insertOutput r | append _ r | deleteOutput r => r.fits family
  | _ => true

namespace FilterTable
def chain (f : FilterTable) (c : String) : Option (List Rule) := (f.chains.find? (·.1 == c)).map (·.2)

def refersTo (f : FilterTable) (c : String) : Bool :=
  f.output.any (·.target == .jump c)||f.chains.any fun e => e.2.any (·.target == .jump c)

def edit (f : FilterTable) (c : String) (g : List Rule → List Rule) : Option FilterTable :=
  if (f.chain c).isSome then
    some {f with chains := f.chains.map fun e => if e.1=c then (c,g e.2) else e}
  else none

def reachable (f : FilterTable) : Target → Bool
  | .jump c => (f.chain c).isSome
  | _ => true

def apply (f : FilterTable) : FilterOp → Option FilterTable
  | .newChain c =>
    if (f.chain c).isSome then none else some {f with chains := f.chains++[(c,[])]}
  | .flush c => f.edit c fun _ => []
  | .insertOutput r =>
    if f.reachable r.target then some {f with output := r::f.output} else none
  | .append c r => if f.reachable r.target then f.edit c (·++[r]) else none
  | .deleteOutput r => if r∈f.output then some {f with output := f.output.erase r} else none
  | .deleteChain c =>
    if f.chain c=some [] ∧ f.refersTo c=false then
      some {f with chains := f.chains.filter (·.1≠c)}
    else none

structure Lacks (f : FilterTable) (c : String) : Prop where
  chain : ∀ e∈f.chains, e.1≠c
  refersTo : f.refersTo c=false

instance (f : FilterTable) (c : String) : Decidable (f.Lacks c) :=
  decidable_of_iff ((∀ e∈f.chains, e.1≠c) ∧ f.refersTo c=false) ⟨fun h => ⟨h.1,h.2⟩,fun h => ⟨h.1,h.2⟩⟩
end FilterTable

inductive ChainState
  | absent
  | unlinked (rules : List Rule)
  | linked (rules : List Rule)
  deriving DecidableEq

namespace ChainState
def within (f : FilterTable) (c : String) : ChainState → FilterTable
  | absent => f
  | unlinked rules => {f with chains := f.chains++[(c,rules)]}
  | linked rules => ⟨.always (.jump c)::f.output,f.chains++[(c,rules)]⟩

def rules : ChainState → Option (List Rule)
  | absent => none
  | unlinked rules | linked rules => some rules

def edit (g : List Rule → List Rule) : ChainState → Option ChainState
  | absent => none
  | unlinked rules => some (unlinked (g rules))
  | linked rules => some (linked (g rules))

def create : ChainState → Option ChainState
  | absent => some (unlinked [])
  | _ => none

def unlink : ChainState → Option ChainState
  | linked rules => some (unlinked rules)
  | _ => none

def remove : ChainState → Option ChainState
  | unlinked [] => some absent
  | _ => none

def isLinked : ChainState → Bool
  | linked _ => true
  | _ => false

lemma rules_eq_none {s : ChainState} (h : s.rules=none) : s=absent := by
  cases s with
  | absent => rfl
  | _ => cases h

lemma edit_eq_none {s : ChainState} {g : List Rule → List Rule} (h : s.edit g=none) : s=absent := by
  cases s with
  | absent => rfl
  | _ => cases h

variable {f : FilterTable} {c : String}
section
variable (h : f.Lacks c)
include h
variable (s : ChainState)
lemma chain_within : (s.within f c).chain c=s.rules := by
  have hn : f.chains.find? (·.1 == c)=none := by
    rw [List.find?_eq_none]
    intro e he
    simpa using h.chain e he
  cases s with
  | absent | unlinked | linked => simp [within,FilterTable.chain,rules,hn]

lemma edit_within (g : List Rule → List Rule) : (s.within f c).edit c g=(s.edit g).map (within f c) := by
  have ho : (f.chains.map fun e => if e.1=c then (c,g e.2) else e)=f.chains := by
    rw [map_congr_left (g := id),map_id]
    intro e he
    rw [if_neg (h.chain e he)]
    rfl
  unfold FilterTable.edit
  rw [chain_within h]
  cases s with
  | absent => simp [rules,edit]
  | unlinked | linked => simp [rules,edit,within,ho]

lemma flush_within : (s.within f c).apply (.flush c)=(s.edit fun _ => []).map (within f c) :=
  edit_within h s fun _ => []

lemma append_within (r : Rule) (hr : ∀ c, r.target≠.jump c) :
    (s.within f c).apply (.append c r)=(s.edit (·++[r])).map (within f c) := by
  simp_all [FilterTable.apply,edit_within,FilterTable.reachable]

lemma create_within : (s.within f c).apply (.newChain c)=s.create.map (within f c) := by
  rw [FilterTable.apply,chain_within h]
  cases s with
  | absent | unlinked | linked => rfl

lemma link_within (rs : List Rule) :
    ((unlinked rs).within f c).apply (.insertOutput (.always (.jump c)))=some ((linked rs).within f c) := by
  have hr : ((unlinked rs).within f c).reachable (.jump c) := by
    simp only [FilterTable.reachable,chain_within h]
    rfl
  rw [FilterTable.apply,Rule.always,if_pos hr]
  rfl

lemma jump_mem_within : .always (.jump c)∈(s.within f c).output ↔ s.isLinked := by
  have hn : Rule.always (.jump c)∉f.output := by
    grind [FilterTable.refersTo,any_eq_true,Rule.always,h.refersTo]
  cases s with
  | absent | unlinked => simpa [within,isLinked] using hn
  | linked rs => simp [within,isLinked]

lemma unlink_within :
    (s.within f c).apply (.deleteOutput (.always (.jump c)))=s.unlink.map (within f c) := by
  rw [FilterTable.apply]
  by_cases hm : .always (.jump c)∈(s.within f c).output
  · rw [if_pos hm]
    rw [jump_mem_within h] at hm
    cases s with
    | linked rs => simp [within,unlink]
    | _ => cases hm
  · rw [if_neg hm]
    rw [jump_mem_within h] at hm
    cases s with
    | linked rs => exact absurd rfl hm
    | _ => rfl

lemma remove_within : (s.within f c).apply (.deleteChain c)=s.remove.map (within f c) := by
  have ho : f.chains.filter (fun e => !decide (e.1=c))=f.chains := by
    rw [filter_eq_self]
    intro e he
    simpa using h.chain e he
  have hr:=h.refersTo
  simp only [FilterTable.refersTo,Bool.or_eq_false_iff] at hr
  rw [FilterTable.apply,chain_within h]
  cases s with
  | absent => rfl
  | unlinked rs =>
    cases rs with
    | nil => simp [rules,remove,within,FilterTable.refersTo,hr.1,hr.2,ho]
    | cons r rs => rfl
  | linked rs => simp [rules,remove,within,FilterTable.refersTo,Rule.always]
end
end ChainState
end NilVpn.Base
