import NilVpn.Base.Search
import NilVpn.Coordinator.Registry

/-!
# Path selection (nil-coordinator/src/pathsel.rs:582-661)
-/

namespace NilVpn.Coordinator
open Base List
open Proto (Hop)

section
variable {α : Type}
def swap (items : List α) (i j : ℕ) : List α :=
  match items[i]?,items[j]? with
  | some x,some y => (items.set i y).set j x
  | _,_ => items

def leWord (buf : ℕ → UInt8) (offset : ℕ) : ℕ :=
  (List.range 8).foldr (fun k acc => (buf (offset+k)).toNat+256*acc) 0

def shuffleFrom (buf : ℕ → UInt8) : ℕ → List α → List α
  | 0,items => items
  | i+1,items => shuffleFrom buf i (swap items (i+1) (leWord buf ((i+1)*8) % (i+2)))

/-- `entropy` is what `getrandom` put into the buffer, if it succeeded. -/
def shuffle (entropy : Option (ℕ → UInt8)) (items : List α) : List α :=
  if items.length<2 then items
  else match entropy with
    | none => items
    | some buf => shuffleFrom buf (items.length - 1) items

lemma swap_perm (items : List α) (i j : ℕ) : (swap items i j).Perm items := by
  unfold swap
  split
  next x y hx hy =>
    obtain ⟨hi,rfl⟩ := List.getElem?_eq_some_iff.mp hx
    obtain ⟨hj,rfl⟩ := List.getElem?_eq_some_iff.mp hy
    exact set_set_perm hi hj
  · exact List.Perm.refl items

lemma shuffleFrom_perm (buf : ℕ → UInt8) (i : ℕ) (items : List α) :
    (shuffleFrom buf i items).Perm items := by
  induction i generalizing items with
  | zero => exact List.Perm.refl items
  | succ i ih => exact (ih _).trans (swap_perm items _ _)

lemma shuffle_perm (e : Option (ℕ → UInt8)) (items : List α) : (shuffle e items).Perm items := by
  unfold shuffle
  split
  · exact List.Perm.refl items
  · grind [List.Perm.refl,shuffleFrom_perm]
end

structure SelectedHop where
  hop : Hop
  nodeId : Bytes
  intendedRole : Role
  deriving DecidableEq

namespace NodeRegistry
def admits (hops : ℕ) (chosen : List RegistryNode) (node : RegistryNode) : Bool :=
  node.fills (Role.forPosition chosen.length hops) &&
  !(chosen.any (fun c => c.operator=node.operator||c.jurisdiction=node.jurisdiction) ||
    chosen.any (fun c => c.id=node.id||(c.host=node.host&&c.port=node.port)))

def extendPath (candidates : List RegistryNode) (hops : ℕ) (chosen : List RegistryNode) :
    Bool × List RegistryNode :=
  Search.extend (admits hops) candidates hops (hops - chosen.length) chosen

def selectedHop (hops index : ℕ) (node : RegistryNode) : SelectedHop :=
  ⟨node.toHop,node.id,Role.forPosition index hops⟩

def selectPath (registry : NodeRegistry) (entropy : Option (ℕ → UInt8)) (hops : ℕ) :
    Option (List SelectedHop) :=
  match extendPath (shuffle entropy registry.liveNodes) hops [] with
  | (true,chosen) => some (chosen.mapIdx (selectedHop hops))
  | (false,_) => none

structure Diverse (registry : NodeRegistry) (hops : ℕ) (nodes : List RegistryNode) : Prop where
  length : nodes.length=hops
  live : ∀ node∈nodes, node∈registry.nodes ∧ node.host∉registry.dead
  roles : ∀ (i : ℕ) (node : RegistryNode), nodes[i]?=some node → node.role=Role.forPosition i hops
  operators : (nodes.map RegistryNode.operator).Nodup
  jurisdictions : (nodes.map RegistryNode.jurisdiction).Nodup
  ids : (nodes.map RegistryNode.id).Nodup
  endpoints : (nodes.map fun node => (node.host,node.port)).Nodup

def Apart (x y : RegistryNode) : Prop :=
  x.operator≠y.operator ∧ x.jurisdiction≠y.jurisdiction ∧ x.id≠y.id ∧ (x.host,x.port)≠(y.host,y.port)

def Fits (hops i : ℕ) (node : RegistryNode) : Prop := node.role=Role.forPosition i hops

lemma admits_iff (ho : ℕ) (r : List RegistryNode) (node : RegistryNode) :
    admits ho r node=true ↔ Fits ho r.length node ∧ ∀ c∈r, Apart c node := by
  simp only [admits,RegistryNode.fills,Fits,Bool.and_eq_true,decide_eq_true_eq,Bool.not_eq_true',
    Bool.or_eq_false_iff,any_eq_false,Bool.or_eq_true,not_or,Apart,ne_eq,Prod.mk.injEq]
  constructor
  · grind
  · grind

/-- The lists the search enumerates from an empty stack are the diverse paths. -/
lemma extension_iff_diverse (r : NodeRegistry) {candidates : List RegistryNode}
    (hp : candidates.Perm r.liveNodes) (hops : ℕ) (nodes : List RegistryNode) :
    Search.Extension (admits hops) candidates hops [] nodes ↔ r.Diverse hops nodes := by
  have hs:=Search.steps_iff_pairwise (admits_iff hops) [] nodes
  have hl (node : RegistryNode) : node∈r.liveNodes ↔ node∈r.nodes ∧ node.host∉r.dead := by
    simp [liveNodes]
  have hpr : nodes.Pairwise Apart ↔
      (nodes.map RegistryNode.operator).Nodup ∧ (nodes.map RegistryNode.jurisdiction).Nodup ∧
      (nodes.map RegistryNode.id).Nodup ∧ (nodes.map fun node => (node.host,node.port)).Nodup := by
    simp only [List.Nodup,pairwise_map,← pairwise_and_iff]
    rfl
  constructor
  · intro h
    obtain ⟨hrl,-,ha⟩ := hs.mp h.steps
    obtain ⟨hop,hj,hid,he⟩ := hpr.mp ha
    refine ⟨h.length,fun node hn => (hl node).mp (hp.subset (h.drawn hn)),?_,hop,hj,hid,he⟩
    intro i node hi
    have hr:=hrl i node hi
    rwa [length_nil,Nat.zero_add] at hr
  · intro h
    refine ⟨h.length,fun node hn => hp.symm.subset ((hl node).mpr (h.live node hn)),hs.mpr ?_⟩
    refine ⟨?_,nofun,hpr.mpr ⟨h.operators,h.jurisdictions,h.ids,h.endpoints⟩⟩
    intro i node hi
    rw [length_nil,Nat.zero_add]
    exact h.roles i node hi

lemma extendPath_solves (r : NodeRegistry) (e : Option (ℕ → UInt8)) (ho : ℕ) :
    Search.Solves (admits ho) (shuffle e r.liveNodes) ho []
      (extendPath (shuffle e r.liveNodes) ho []) :=
  Search.extend_solves ho [] (Nat.zero_add ho)

lemma selectPath_some {r : NodeRegistry} {e : Option (ℕ → UInt8)} {ho : ℕ}
    {p : List SelectedHop} (h : r.selectPath e ho=some p) :
    ∃ nodes, r.Diverse ho nodes ∧ p=nodes.mapIdx (selectedHop ho) := by
  have hs:=extendPath_solves r e ho
  unfold selectPath at h
  split at h
  next c he =>
    rw [he] at hs
    obtain ⟨nodes,hc,hx⟩ := hs.found rfl
    have hc : c=nodes := hc
    refine ⟨nodes,(extension_iff_diverse r (shuffle_perm e _) ho nodes).mp hx,?_⟩
    rw [← hc]
    exact (Option.some.inj h).symm
  · cases h

lemma selectPath_none {r : NodeRegistry} {e : Option (ℕ → UInt8)} {ho : ℕ}
    (h : r.selectPath e ho=none) (nodes : List RegistryNode) :
    ¬r.Diverse ho nodes := by
  have hs:=extendPath_solves r e ho
  unfold selectPath at h
  split at h
  · cases h
  next back he =>
    rw [he] at hs
    intro hd
    apply (hs.failed rfl).2 nodes
    exact (extension_iff_diverse r (shuffle_perm e _) ho nodes).mpr hd

/-- Selection is sound and complete, and its success does not depend on the shuffle. -/
theorem selectPath_sound_complete (registry : NodeRegistry) (entropy : Option (ℕ → UInt8)) (hops : ℕ) :
    (∀ path, registry.selectPath entropy hops=some path → path.length=hops ∧
      ∃ nodes, registry.Diverse hops nodes ∧ ∀ (i : ℕ) (s : SelectedHop), path[i]?=some s →
        ∃ node, nodes[i]?=some node ∧ s.hop=node.toHop ∧ s.nodeId=node.id ∧
          s.intendedRole=Role.forPosition i hops) ∧
    (registry.selectPath entropy hops=none → ∀ nodes, ¬registry.Diverse hops nodes) ∧
    ∀ entropy', (registry.selectPath entropy' hops).isSome=(registry.selectPath entropy hops).isSome := by
  have hd : ∀ e, (registry.selectPath e hops).isSome=true ↔ ∃ nodes, registry.Diverse hops nodes := by
    intro e
    cases he : registry.selectPath e hops with
    | none =>
      have hnone:=selectPath_none he
      simp [hnone]
    | some path =>
      obtain ⟨nodes,hn,-⟩ := selectPath_some he
      simp only [Option.isSome_some,true_iff]
      exact ⟨nodes,hn⟩
  refine ⟨?_,selectPath_none,?_⟩
  · intro path h
    obtain ⟨nodes,hn,rfl⟩ := selectPath_some h
    refine ⟨by rw [length_mapIdx,hn.length],nodes,hn,?_⟩
    intro i s hs
    rw [List.getElem?_mapIdx] at hs
    obtain ⟨node,ho,rfl⟩ := Option.map_eq_some_iff.mp hs
    exact ⟨node,ho,rfl,rfl,rfl⟩
  · intro entropy'
    rw [Bool.eq_iff_iff,hd,hd]

theorem devDefault_paths : (devDefault.selectPath none 3).isSome=true ∧
    (∀ entropy, (devDefault.selectPath entropy 3).isSome=true) ∧
    ∀ nodes, ¬devDefault.Diverse 4 nodes := by
  have ht : (devDefault.selectPath none 3).isSome=true := by decide +kernel
  have hf : devDefault.selectPath none 4=none := by decide +kernel
  refine ⟨ht,?_,(selectPath_sound_complete devDefault none 4).2.1 hf⟩
  intro entropy
  rw [(selectPath_sound_complete devDefault none 3).2.2 entropy]
  exact ht
end NodeRegistry
end NilVpn.Coordinator
