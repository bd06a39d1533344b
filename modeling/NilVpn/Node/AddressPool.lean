import Mathlib.Data.Finset.Basic
import NilVpn.Base.Net
import NilVpn.Base.Runs
import NilVpn.Base.Table

/-!
# The inner address pool (nil-node/src/pool.rs)

Each connection key holds at most one address of the range. The machine integers
are those of the source; `span` is how many candidates one `assign` tries.
-/

namespace NilVpn.Node
open Base Option Table

structure AddressPool where
  (first last cursor : UInt32)
  inUse : Finset UInt32
  byConn : Table Bytes UInt32

namespace AddressPool
def new (base : Ipv4) (prefixLen : UInt8) (gateway : Ipv4) : Option AddressPool :=
  if 31≤prefixLen then none
  else
    let hostBits:=32 - prefixLen.toUInt32
    let mask : UInt32 := 0xffffffff <<< hostBits
    let network:=base.toUInt32 &&& mask
    let broadcast:=network ||| ~~~mask
    let first:=network+1
    let last:=broadcast - 1
    let gw:=gateway.toUInt32
    if last<first then none
    else if gw &&& mask≠network then none
    else some
      { first
        last
        cursor := first
        inUse := if first≤gw ∧ gw≤last then {gw} else ∅
        byConn := .empty }

def defaultV4 : AddressPool :=
  { first := 0x0a4a0001
    last := 0x0a4afffe
    cursor := 0x0a4a0001
    inUse := {0x0a4a0001}
    byConn := .empty }

lemma new_default : new ⟨10,74,0,0⟩ 16 ⟨10,74,0,1⟩=some defaultV4 := by rfl

def span (p : AddressPool) : UInt32 := p.last - p.first+1
def advance (p : AddressPool) : UInt32 := if p.last≤p.cursor then p.first else p.cursor+1

def probe (connKey : Bytes) : ℕ → AddressPool → AddressPool × Option Ipv4
  | 0,p => (p,none)
  | left+1,p =>
    let candidate:=p.cursor
    let p:={p with cursor := p.advance}
    if candidate∈p.inUse then probe connKey left p
    else ({ p with
      inUse := insert candidate p.inUse
      byConn := p.byConn.insert connKey candidate },some (.ofUInt32 candidate))

def assign (p : AddressPool) (connKey : Bytes) : AddressPool × Option Ipv4 :=
  match p.byConn.get connKey with
  | some existing => (p,some (.ofUInt32 existing))
  | none => probe connKey p.span.toNat p

def release (p : AddressPool) (connKey : Bytes) : AddressPool :=
  match p.byConn.get connKey with
  | some addr => {p with byConn := p.byConn.erase connKey,inUse := p.inUse.erase addr}
  | none => p

variable {p : AddressPool} {connKey : Bytes}
inductive Assigned (p : AddressPool) (connKey : Bytes) : AddressPool × Option Ipv4 → Prop
  | held (a : UInt32) (h : p.byConn.get connKey=some a) :
    Assigned p connKey (p,some (.ofUInt32 a))
  | fresh (cursor a : UInt32) (hkey : p.byConn.get connKey=none) (ha : a∉p.inUse) :
    Assigned p connKey ({ p with
      cursor := cursor
      inUse := insert a p.inUse
      byConn := p.byConn.insert connKey a },some (.ofUInt32 a))
  | exhausted (cursor : UInt32) (hkey : p.byConn.get connKey=none) :
    Assigned p connKey ({p with cursor := cursor},none)

lemma probe_assigned (left : ℕ) (c : UInt32) (hk : p.byConn.get connKey=none) :
    Assigned p connKey (probe connKey left {p with cursor := c}) := by
  induction left generalizing c with
  | zero => exact .exhausted c hk
  | succ left ih =>
    simp only [probe]
    split
    · exact ih _
    next hf => exact .fresh _ c hk hf

lemma assign_assigned (p : AddressPool) (connKey : Bytes) : Assigned p connKey (p.assign connKey) := by
  unfold assign
  split
  next a ha => exact .held a ha
  next hk => exact probe_assigned _ p.cursor hk

lemma release_byConn (p : AddressPool) (connKey k : Bytes) :
    (p.release connKey).byConn.get k=if k=connKey then none else p.byConn.get k := by
  unfold release
  split
  · exact get_erase ..
  next hy =>
    split
    next hk => rw [hk,hy]
    · rfl

structure Sound (p : AddressPool) : Prop where
  once : ∀ k j a, p.byConn.get k=some a → p.byConn.get j=some a → k=j
  inUse : ∀ k a, p.byConn.get k=some a → a∈p.inUse

lemma sound_default : defaultV4.Sound where
  once := fun _ _ _ h => by cases h
  inUse := fun _ _ h => by cases h

lemma Sound.fresh (h : p.Sound) {a : UInt32} (ha : a∉p.inUse) (c : UInt32) :
    Sound { p with
      cursor := c
      inUse := insert a p.inUse
      byConn := p.byConn.insert connKey a } where
  once := by
    intro k j b hk hj
    simp only [get_insert] at hk hj
    split at hk <;> split at hj
    next hk' hj' => rw [hk',hj']
    next => exact absurd (Option.some.inj hk ▸ h.inUse j b hj) ha
    next => exact absurd (Option.some.inj hj ▸ h.inUse k b hk) ha
    next => exact h.once k j b hk hj
  inUse := by
    apply forall_insert
    · intro k b hk
      exact Finset.mem_insert_of_mem (h.inUse k b hk)
    · exact Finset.mem_insert_self ..

lemma assign_sound (connKey : Bytes) (h : p.Sound) : (p.assign connKey).1.Sound := by
  have has:=assign_assigned p connKey
  generalize p.assign connKey=r at has
  cases has with
  | held a ha => exact h
  | fresh c a hk ha => exact h.fresh ha c
  | exhausted c hk => exact ⟨h.once,h.inUse⟩

lemma release_sound (h : p.Sound) : (p.release connKey).Sound := by
  unfold release
  split
  next addr ha =>
    have hg : ∀ k a, (p.byConn.erase connKey).get k=some a → k≠connKey ∧ p.byConn.get k=some a := by
      intro k a hk
      rw [get_erase] at hk
      split at hk
      · cases hk
      next hn => exact ⟨hn,hk⟩
    constructor
    · intro k j a hk hj
      exact h.once k j a (hg k a hk).2 (hg j a hj).2
    · intro k a hk
      obtain ⟨hn,hk⟩ := hg k a hk
      apply Finset.mem_erase_of_ne_of_mem _ (h.inUse k a hk)
      intro heq
      exact hn (h.once k connKey a hk (heq ▸ ha))
  · exact h

inductive Call
  | assign (connKey : Bytes)
  | release (connKey : Bytes)

def call (p : AddressPool) : Call → AddressPool
  | .assign connKey => (p.assign connKey).1
  | .release connKey => p.release connKey

def netmask (prefixLen : UInt8) : UInt32 := 0xffffffff <<< (32 - prefixLen.toUInt32)
def network (base : Ipv4) (prefixLen : UInt8) : UInt32 := base.toUInt32 &&& netmask prefixLen

def broadcast (base : Ipv4) (prefixLen : UInt8) : UInt32 :=
  network base prefixLen ||| ~~~netmask prefixLen

def Inside (p : AddressPool) (a : UInt32) : Prop := p.first≤a ∧ a≤p.last

/-- How many candidates a scan from `c` tries before `a`. -/
def steps (p : AddressPool) (c a : UInt32) : ℕ :=
  if c≤a then a.toNat - c.toNat else a.toNat+(p.last.toNat - p.first.toNat+1) - c.toNat

inductive Scanned (p : AddressPool) (connKey : Bytes) (left : ℕ) (c : UInt32) :
    AddressPool × Option Ipv4 → Prop
  | fresh (cursor a : UInt32) (hcursor : p.Inside cursor) (ha : p.Inside a) (hfree : a∉p.inUse) :
    Scanned p connKey left c ({ p with
      cursor := cursor
      inUse := insert a p.inUse
      byConn := p.byConn.insert connKey a },some (.ofUInt32 a))
  | exhausted (cursor : UInt32) (hcursor : p.Inside cursor)
    (hused : ∀ a, p.Inside a → p.steps c a<left → a∈p.inUse) :
    Scanned p connKey left c ({p with cursor := cursor},none)

lemma advance_inside {c : UInt32} (hc : p.Inside c) : p.Inside (advance {p with cursor := c}) ∧
      ∀ a, p.Inside a → a≠c → p.steps (advance {p with cursor := c}) a+1=p.steps c a := by
  have hl:=p.last.toNat_lt
  simp only [Inside,steps,advance,UInt32.le_iff_toNat_le,← UInt32.toNat_inj,ne_eq] at *
  split
  · refine ⟨by omega,fun a ha hne => ?_⟩
    split <;> split <;> omega
  · grind [UInt32.toNat_add,UInt32.reduceToNat,Nat.mod_eq_of_lt]

lemma probe_scanned (left : ℕ) {c : UInt32} (hc : p.Inside c) :
    Scanned p connKey left c (probe connKey left {p with cursor := c}) := by
  induction left generalizing c with
  | zero => exact .exhausted c hc fun a _ h => absurd h (Nat.not_lt_zero _)
  | succ left ih =>
    obtain ⟨hn,hst⟩ := advance_inside hc
    simp only [probe]
    split
    next hu =>
      have hs:=ih hn
      generalize probe connKey left _=r at hs ⊢
      cases hs with
      | fresh cu a hcu ha hf => exact .fresh cu a hcu ha hf
      | exhausted cu hcu hl =>
        refine .exhausted cu hcu fun a ha hlt => ?_
        by_cases hq : a=c
        · exact hq ▸ hu
        · have := hst a ha hq
          exact hl a ha (by omega)
    next hf => exact .fresh _ c hn hc hf

/-- What every history keeps: the range with its cursor, and `inUse` for exactly the held
addresses and a gateway of the range. -/
structure Reserved (net bcast gateway : UInt32) (p : AddressPool) : Prop where
  first : p.first.toNat=net.toNat+1
  last : p.last.toNat+1=bcast.toNat
  cursor : p.Inside p.cursor
  sound : p.Sound
  inUse : ∀ a, a∈p.inUse ↔ (∃ k, p.byConn.get k=some a) ∨ (a=gateway ∧ p.Inside gateway)
  held : ∀ k a, p.byConn.get k=some a → p.Inside a ∧ a≠gateway

section
variable {net bcast g : UInt32}
section
variable (h : Reserved net bcast g p)
include h
lemma Reserved.inside_iff (a : UInt32) : p.Inside a ↔ net<a ∧ a<bcast := by
  grind [Inside,UInt32.le_iff_toNat_le,UInt32.lt_iff_toNat_lt,h.first,h.last]

lemma Reserved.assign_scanned (hk : p.byConn.get connKey=none) :
    Scanned p connKey (p.last.toNat - p.first.toNat+1) p.cursor (p.assign connKey) := by
  have hs : Scanned p connKey _ _ _ := probe_scanned p.span.toNat h.cursor
  have hsp : p.span.toNat=p.last.toNat - p.first.toNat+1 := by
    have h₁:=h.first
    have h₂:=p.last.toNat_lt
    obtain ⟨h₃,h₄⟩ := h.cursor
    have hle:=UInt32.le_iff_toNat_le.mp (UInt32.le_trans h₃ h₄)
    rw [span,UInt32.toNat_add,UInt32.toNat_sub_of_le _ _ (UInt32.le_trans h₃ h₄)]
    exact Nat.mod_eq_of_lt (by simp only [UInt32.reduceToNat]; omega)
  rw [← hsp]
  simpa only [assign,hk] using hs

lemma Reserved.assign (connKey : Bytes) : Reserved net bcast g (p.assign connKey).1 := by
  cases hy : p.byConn.get connKey with
  | some a => simpa only [AddressPool.assign,hy] using h
  | none =>
    have hs:=assign_sound connKey h.sound
    have hsc:=h.assign_scanned hy
    generalize p.assign connKey=r at hsc hs ⊢
    cases hsc with
    | exhausted c hc => exact ⟨h.first,h.last,hc,hs,h.inUse,h.held⟩
    | fresh c a hc ha hf =>
      refine ⟨h.first,h.last,hc,hs,fun b => ?_,?_⟩
      · rw [Finset.mem_insert,h.inUse]
        constructor
        · rintro (rfl | ⟨k,hk⟩ | hgw)
          · exact .inl ⟨connKey,get_insert_self ..⟩
          · exact .inl ⟨k,by grind [get_insert]⟩
          · exact .inr hgw
        · rintro (⟨k,hk⟩ | hgw)
          · grind [get_insert]
          · exact .inr (.inr hgw)
      · refine forall_insert h.held ⟨ha,fun hgw => hf ?_⟩
        exact (h.inUse a).mpr (.inr ⟨hgw,hgw ▸ ha⟩)
end

lemma release_inUse (p : AddressPool) (connKey : Bytes) (a : UInt32) :
    a∈(p.release connKey).inUse ↔ a∈p.inUse ∧ p.byConn.get connKey≠some a := by
  unfold AddressPool.release
  split <;> grind

section
variable (h : Reserved net bcast g p)
include h
lemma Reserved.release (connKey : Bytes) : Reserved net bcast g (p.release connKey) := by
  have hg:=release_byConn p connKey
  have hf : (p.release connKey).first=p.first ∧ (p.release connKey).last=p.last ∧
      (p.release connKey).cursor=p.cursor := by
    unfold AddressPool.release
    split <;> exact ⟨rfl,rfl,rfl⟩
  have hin : ∀ a, (p.release connKey).Inside a ↔ p.Inside a := by simp only [Inside,hf,implies_true]
  refine ⟨by rw [hf.1,h.first],by rw [hf.2.1,h.last],?_,release_sound h.sound,?_,?_⟩
  · rw [hin,hf.2.2]
    exact h.cursor
  · grind [release_inUse,h.inUse,h.sound.once,h.held]
  · grind [h.held]

lemma Reserved.call (c : Call) : Reserved net bcast g (p.call c) := by
  cases c with
  | assign connKey => exact h.assign connKey
  | release connKey => exact h.release connKey

lemma Reserved.assign_none_iff (hk : p.byConn.get connKey=none) :
    (p.assign connKey).2=none ↔ ∀ a, p.Inside a → a≠g → ∃ k, p.byConn.get k=some a := by
  have hs:=h.assign_scanned hk
  generalize p.assign connKey=r at hs ⊢
  cases hs with
  | fresh c a hc ha hf => grind [h.inUse]
  | exhausted c hc hu => grind [h.inUse,Inside,steps,UInt32.le_iff_toNat_le,h.cursor]
end
end

lemma netmask_bounds {len : UInt8} (hp : 1≤len) (hm : len≤30) :
    (netmask len).toNat<2^32 - 1 ∧ 0<(~~~netmask len).toNat := by
  have ha : ∀ n<31, 1≤n → (netmask (UInt8.ofNat n)).toNat<2^32 - 1 ∧
      0<(~~~netmask (UInt8.ofNat n)).toNat := by decide +kernel
  rw [← UInt8.ofNat_toNat (x := len)]
  exact ha _ (Nat.lt_succ_of_le (UInt8.le_iff_toNat_le.mp hm)) (UInt8.le_iff_toNat_le.mp hp)

lemma reserved_new {base g : Ipv4} {len : UInt8} (hp : 1≤len) (ha : len≤30) (h : new base len g=some p) :
    Reserved (network base len) (broadcast base len) g.toUInt32 p := by
  obtain ⟨hm,hh⟩ := netmask_bounds hp ha
  -- The mask is not all ones and its complement not zero, so neither bound wraps.
  have hn : (network base len).toNat<2^32 - 1 := by
    refine Nat.lt_of_le_of_lt ?_ hm
    rw [network,UInt32.toNat_and]
    exact Nat.and_le_right
  have hb : 0<(broadcast base len).toNat := by
    refine Nat.lt_of_lt_of_le hh ?_
    rw [broadcast,UInt32.toNat_or]
    exact Nat.right_le_or
  have hf : (network base len+1).toNat=(network base len).toNat+1 := by
    rw [UInt32.toNat_add]
    exact Nat.mod_eq_of_lt (by simp only [UInt32.reduceToNat]; omega)
  have hl : (broadcast base len - 1).toNat+1=(broadcast base len).toNat := by
    grind [UInt32.toNat_sub_of_le,UInt32.le_iff_toNat_le.mpr,Nat.sub_add_cancel]
  unfold new at h
  split at h
  · cases h
  dsimp only at h
  split at h
  · cases h
  next hle =>
  split at h
  · cases h
  cases h
  refine ⟨hf,hl,⟨UInt32.le_refl _,UInt32.not_lt.mp hle⟩,?_,?_,?_⟩
  · exact ⟨(fun _ _ _ h => nomatch h),(fun _ _ h => nomatch h)⟩
  · intro a
    simp only [Inside]
    split <;> grind [get_empty]
  · intro k a hk
    cases hk

/-- The pool over every history: distinct keys hold distinct assignable addresses, `assign` and
`release` do what they say, and a key is refused only when every assignable address is held. -/
theorem pool_invariant (base gateway : Ipv4) (prefixLen : UInt8) (hpos : 1≤prefixLen)
    (hmax : prefixLen≤30) (pool : AddressPool) (hnew : new base prefixLen gateway=some pool)
    (calls : List Call) :
    let p:=runFrom call pool calls
    let Assignable a := network base prefixLen<a ∧ a<broadcast base prefixLen
    let gw:=gateway.toUInt32
    (∀ k j a, p.byConn.get k=some a → p.byConn.get j=some a → k=j) ∧
    (∀ k a, p.byConn.get k=some a → Assignable a ∧ a≠gw) ∧
    (∀ a, a∈p.inUse ↔ (∃ k, p.byConn.get k=some a) ∨ (a=gw ∧ Assignable gw)) ∧
    (∀ k, (p.assign k).2=((p.assign k).1.byConn.get k).map .ofUInt32) ∧
    (∀ k a, p.byConn.get k=some a → p.assign k=(p,some (.ofUInt32 a))) ∧
    (∀ k, p.byConn.get k=none → ((p.assign k).2=none ↔
      ∀ a, Assignable a → a≠gw → ∃ j, p.byConn.get j=some a)) ∧
    (∀ k j, (p.release k).byConn.get j=if j=k then none else p.byConn.get j) ∧
    (∀ k a, a∈(p.release k).inUse ↔ a∈p.inUse ∧ p.byConn.get k≠some a) := by
  intro p Assignable gw
  have h : Reserved (network base prefixLen) (broadcast base prefixLen) gw p :=
    run_invariant (fun _ c h => h.call c) (reserved_new hpos hmax hnew) calls
  have hinside:=h.inside_iff
  refine ⟨h.sound.once,?_,?_,?_,?_,?_,release_byConn p,release_inUse p⟩
  · intro k a hk
    exact ⟨(hinside a).mp (h.held k a hk).1,(h.held k a hk).2⟩
  · intro a
    rw [h.inUse,hinside]
  · intro k
    have hassigned:=assign_assigned p k
    generalize p.assign k=r at hassigned
    cases hassigned with
    | held a ha => simp only [ha,map_some]
    | fresh cu a hy ha => simp only [get_insert_self,map_some]
    | exhausted cu hy => simp only [hy,map_none]
  · intro k a hk
    simp only [assign,hk]
  · intro k hk
    rw [h.assign_none_iff hk]
    simp only [hinside,Assignable]

theorem pool_invariant_default :
    let p:=runFrom call defaultV4 [.assign [1],.assign [2],.release [1]]
    new ⟨10,74,0,0⟩ 16 ⟨10,74,0,1⟩=some defaultV4 ∧
      ∀ k j a, p.byConn.get k=some a → p.byConn.get j=some a → k=j :=
  ⟨new_default,(pool_invariant _ _ 16 (by decide) (by decide) _ new_default _).1⟩
end AddressPool
end NilVpn.Node
