import NilVpn.Base.MinHeap
import NilVpn.Base.Runs
import NilVpn.Nwg2.Canonical

/-!
# Single-use grants (nil-node/src/grant_replay.rs)

`entries` answers whether a grant was used; `expirations` finds the entries that
are due. A call of `consume` first drops what has expired.
-/

namespace NilVpn.Node
open Base List Table
open Nwg2 (VerifiedGrant keyIdLen nonceLen)

inductive ReplayError
  | replayed
  | predatesProcess
  | capacity
  | expired
  deriving DecidableEq,Repr

structure ReplayKey where
  keyId : Block keyIdLen
  nonce : Block nonceLen
  deriving DecidableEq

/-- The derived order: fields in turn, bytes lexicographically. -/
instance : Ord ReplayKey :=
  ⟨compareLex (compareOn fun k : ReplayKey => k.keyId.val) (compareOn fun k => k.nonce.val)⟩

instance : Std.TransOrd ReplayKey :=
  inferInstanceAs (Std.TransCmp (compareLex (compareOn fun k : ReplayKey => k.keyId.val)
    (compareOn fun k => k.nonce.val)))

structure Expiration where
  expiresAt : UInt64
  key : ReplayKey
  deriving DecidableEq

instance : Ord Expiration :=
  ⟨compareLex (compareOn fun e : Expiration => e.expiresAt) (compareOn fun e => e.key)⟩

instance : Std.TransOrd Expiration :=
  inferInstanceAs (Std.TransCmp (compareLex (compareOn fun e : Expiration => e.expiresAt)
    (compareOn fun e => e.key)))

structure GrantReplayCache where
  processStartedAt : UInt64
  capacity : ℕ
  entries : Table ReplayKey UInt64
  expirations : MinHeap Expiration

namespace GrantReplayCache
/-- `none` is the panic of the capacity assertion. -/
def new (processStartedAt : UInt64) (capacity : ℕ) : Option GrantReplayCache :=
  if 0<capacity then some ⟨processStartedAt,capacity,Table.empty,MinHeap.empty⟩ else none

def pruneLoop (now : UInt64) : ℕ → GrantReplayCache → GrantReplayCache
  | 0,cache => cache
  | turns+1,cache =>
    match cache.expirations.peek with
    | none => cache
    | some ⟨expiresAt,key⟩ =>
      if now<expiresAt then cache
      else
        pruneLoop now turns { cache with
          expirations := cache.expirations.pop
          entries := if cache.entries.get key=some expiresAt then cache.entries.erase key
            else cache.entries }

def prune (cache : GrantReplayCache) (now : UInt64) : GrantReplayCache :=
  pruneLoop now cache.expirations.items.length cache
end GrantReplayCache

def replayKey (grant : VerifiedGrant) : ReplayKey := ⟨grant.keyId,grant.nonce⟩

namespace GrantReplayCache
def accept (cache : GrantReplayCache) (grant : VerifiedGrant) (now : UInt64) :
    GrantReplayCache × Except ReplayError Unit :=
  if grant.expiresAt≤now then (cache,.error .expired)
  else if grant.issuedAt<cache.processStartedAt then (cache,.error .predatesProcess)
  else if cache.entries.contains (replayKey grant) then (cache,.error .replayed)
  else if cache.capacity ≤ cache.entries.len then (cache,.error .capacity)
  else
    ({ cache with
      entries := cache.entries.insert (replayKey grant) grant.expiresAt
      expirations := cache.expirations.push ⟨grant.expiresAt,replayKey grant⟩ },.ok ())

def consume (cache : GrantReplayCache) (grant : VerifiedGrant) (now : UInt64) :
    GrantReplayCache × Except ReplayError Unit :=
  (cache.prune now).accept grant now

def pairs (t : Table ReplayKey UInt64) : List Expiration := t.entries.map fun e => ⟨e.2,e.1⟩

variable {e : Expiration} {cache : GrantReplayCache} {now : UInt64}
lemma mem_pairs {t : Table ReplayKey UInt64} : e∈pairs t ↔ t.get e.key=some e.expiresAt := by
  rw [get_eq_some]
  constructor
  · intro h
    obtain ⟨x,hx,rfl⟩ := mem_map.mp h
    exact hx
  · intro h
    exact mem_map.mpr ⟨_,h,rfl⟩

variable (t : Table ReplayKey UInt64)
lemma pairs_keys : (pairs t).map Expiration.key=t.entries.map Prod.fst := by
  rw [pairs,map_map]
  rfl

lemma pairs_erase (key : ReplayKey) : pairs (t.erase key)=(pairs t).filter fun e => e.key≠key := by
  rw [pairs,pairs,Table.erase,filter_map]
  rfl

def Coupled (cache : GrantReplayCache) : Prop := (pairs cache.entries).Perm cache.expirations.items

lemma filter_of_nodup_keys {es : List Expiration} (h : ((e::es).map Expiration.key).Nodup) :
    (e::es).filter (fun x => x.key≠e.key)=es := by
  rw [map_cons,nodup_cons] at h
  rw [filter_cons_of_neg (by simp)]
  apply filter_eq_self.mpr
  intro x hx
  have hne : x.key≠e.key := by
    intro heq
    exact h.1 (heq ▸ mem_map_of_mem hx)
  exact decide_eq_true hne

lemma Coupled.pop (h : cache.Coupled) (he : cache.expirations.peek=some e) :
    cache.entries.get e.key=some e.expiresAt ∧
      (pairs (cache.entries.erase e.key)).Perm cache.expirations.pop.items := by
  obtain ⟨hit,-⟩ := MinHeap.peek_eq_some he
  have hp : (pairs cache.entries).Perm (e::cache.expirations.pop.items) := hit ▸ h
  have hk : ((e::cache.expirations.pop.items).map Expiration.key).Nodup := by
    rw [← (hp.map Expiration.key).nodup_iff,pairs_keys]
    exact cache.entries.nodup
  constructor
  · exact mem_pairs.mp (hp.mem_iff.mpr (mem_cons_self ..))
  · grind [pairs_erase,filter_of_nodup_keys,hp.filter]

lemma expiresAt_le_of_compare {a b : Expiration} (h : (compare a b).isLE) :
    a.expiresAt≤b.expiresAt := by
  have ht : ((compare a.expiresAt b.expiresAt).then (compare a.key b.key)).isLE := h
  by_contra hlt
  have hgt : compare a.expiresAt b.expiresAt=.gt := Std.compare_eq_gt.mpr (UInt64.not_le.mp hlt)
  rw [hgt] at ht
  cases ht

structure Pruned (now : UInt64) (cache after : GrantReplayCache) : Prop where
  coupled : after.Coupled
  kept : (pairs after.entries).Perm ((pairs cache.entries).filter fun e => now<e.expiresAt)
  started : after.processStartedAt=cache.processStartedAt
  capacity : after.capacity=cache.capacity

lemma Pruned.refl (h : cache.Coupled) (hl : ∀ e∈cache.expirations.items, now<e.expiresAt) :
    Pruned now cache cache where
  coupled := h
  kept := by
    have ha : (pairs cache.entries).filter (fun e => now<e.expiresAt)=pairs cache.entries := by
      apply filter_eq_self.mpr
      intro e he
      exact decide_eq_true (hl e (h.mem_iff.mp he))
    rw [ha]
  started := rfl
  capacity := rfl

lemma pruneLoop_pruned (now : UInt64) (turns : ℕ) (cache : GrantReplayCache) (h : cache.Coupled)
    (ht : cache.expirations.items.length≤turns) : Pruned now cache (pruneLoop now turns cache) := by
  induction turns generalizing cache with
  | zero =>
    have hn : cache.expirations.items=[] := eq_nil_of_length_eq_zero (by omega)
    refine Pruned.refl h ?_
    intro e he
    rw [hn] at he
    cases he
  | succ turns ih =>
    rw [pruneLoop]
    cases hp : cache.expirations.peek with
    | none =>
      refine Pruned.refl h ?_
      intro e he
      rw [MinHeap.peek_eq_none hp] at he
      cases he
    | some e =>
      obtain ⟨hit,hl⟩ := MinHeap.peek_eq_some hp
      obtain ⟨hg,ho⟩ := h.pop hp
      simp only
      split
      next hlt =>
        -- the least expiry is in the future, so all are
        refine Pruned.refl h ?_
        intro x hx
        rw [hit] at hx
        rcases mem_cons.mp hx with hx | hx
        · rw [hx]
          exact hlt
        · exact UInt64.lt_of_lt_of_le hlt (expiresAt_le_of_compare (hl x hx))
      next hu =>
        have hle : cache.expirations.pop.items.length≤turns := by
          rw [hit,length_cons] at ht
          omega
        have hr:=ih { cache with
          expirations := cache.expirations.pop
          entries := cache.entries.erase e.key } ho hle
        have hd : ((pairs cache.entries).filter fun x => now<x.expiresAt).Perm
            (cache.expirations.pop.items.filter fun x => now<x.expiresAt) := by
          have hpr:=h.filter fun x => decide (now<x.expiresAt)
          rw [hit,filter_cons_of_neg (by simpa using hu)] at hpr
          exact hpr
        exact {
          coupled := hr.coupled
          kept := hr.kept.trans ((ho.filter _).trans hd.symm)
          started := hr.started
          capacity := hr.capacity }

lemma prune_pruned (cache : GrantReplayCache) (now : UInt64) (h : cache.Coupled) :
    Pruned now cache (cache.prune now) :=
  pruneLoop_pruned now _ cache h le_rfl

lemma Pruned.get {g : GrantReplayCache} (h : Pruned now cache g) (key : ReplayKey)
    (expiresAt : UInt64) : g.entries.get key=some expiresAt ↔
      cache.entries.get key=some expiresAt ∧ now<expiresAt := by
  have hm:=h.kept.mem_iff (a := ⟨expiresAt,key⟩)
  rw [mem_pairs,mem_filter,mem_pairs,decide_eq_true_eq] at hm
  exact hm

variable {a : GrantReplayCache}
lemma Pruned.len (h : Pruned now cache a) :
    a.entries.len=cache.entries.entries.countP fun e => now<e.2 := by
  have hl:=h.kept.length_eq
  rw [← countP_eq_length_filter,pairs,pairs,length_map,countP_map] at hl
  exact hl

lemma pruneLoop_shrinks (now : UInt64) (t : ℕ) (cache : GrantReplayCache) :
    (pruneLoop now t cache).entries.entries.Sublist cache.entries.entries ∧
      (pruneLoop now t cache).processStartedAt=cache.processStartedAt ∧
      (pruneLoop now t cache).capacity=cache.capacity := by
  induction t generalizing cache with
  | zero => exact ⟨List.Sublist.refl _,rfl,rfl⟩
  | succ t ih =>
    rw [pruneLoop]
    cases cache.expirations.peek with
    | none => exact ⟨List.Sublist.refl _,rfl,rfl⟩
    | some e =>
      simp only
      split
      · exact ⟨List.Sublist.refl _,rfl,rfl⟩
      · obtain ⟨hu,hs,hc⟩ := ih { cache with
          expirations := cache.expirations.pop
          entries := if cache.entries.get e.key=some e.expiresAt then cache.entries.erase e.key
            else cache.entries }
        refine ⟨hu.trans ?_,hs,hc⟩
        simp only
        split
        · exact filter_sublist
        · exact List.Sublist.refl _

lemma consume_ok (cache : GrantReplayCache) {g : VerifiedGrant}
    (hu : now<g.expiresAt) (his : cache.processStartedAt≤g.issuedAt)
    (hf : cache.entries.get (replayKey g)=none)
    (hr : cache.entries.len<cache.capacity) :
    (cache.consume g now).2=.ok () := by
  obtain ⟨hb,hs,hc⟩ := pruneLoop_shrinks now cache.expirations.items.length cache
  have hn : (cache.prune now).entries.get (replayKey g)=none := by
    rw [get_eq_none] at hf ⊢
    intro hm
    exact hf ((hb.map Prod.fst).subset hm)
  have hl:=hb.length_le
  have hl : (cache.prune now).entries.len<(cache.prune now).capacity := hc ▸ Nat.lt_of_le_of_lt hl hr
  have h1 : ¬g.expiresAt≤now := UInt64.not_le.mpr hu
  have h2 : ¬g.issuedAt<(cache.prune now).processStartedAt := by
    rw [prune,hs]
    exact UInt64.not_lt.mpr his
  have h3 : (cache.prune now).entries.contains (replayKey g)=false := by
    rw [Table.contains,hn]
    rfl
  have h4 : ¬(cache.prune now).capacity≤(cache.prune now).entries.len := Nat.not_le.mpr hl
  rw [consume,accept,if_neg h1,if_neg h2,h3,if_neg Bool.false_ne_true,if_neg h4]

structure Sound (cache : GrantReplayCache) : Prop where
  coupled : cache.Coupled
  bounded : cache.entries.len ≤ cache.capacity

lemma new_sound {psa : UInt64} {c : ℕ} (h : new psa c=some cache) :
    cache.Sound ∧ 0<cache.capacity ∧ cache.processStartedAt=psa ∧
      cache.capacity=c ∧ ∀ key, cache.entries.get key=none := by
  unfold new at h
  split at h
  next hp =>
    rw [← Option.some.inj h]
    exact ⟨⟨List.Perm.refl _,Nat.zero_le _⟩,hp,rfl,rfl,fun key => rfl⟩
  · cases h

inductive Consumed (cache : GrantReplayCache) (grant : VerifiedGrant) (now : UInt64) :
    GrantReplayCache → Except ReplayError Unit → Prop
  | expired (after : GrantReplayCache) (h : Pruned now cache after) (he : grant.expiresAt≤now) :
      Consumed cache grant now after (.error .expired)
  | predates (after : GrantReplayCache) (h : Pruned now cache after)
      (hs : grant.issuedAt<cache.processStartedAt) :
      Consumed cache grant now after (.error .predatesProcess)
  | replayed (after : GrantReplayCache) (h : Pruned now cache after) :
      Consumed cache grant now after (.error .replayed)
  | full (after : GrantReplayCache) (h : Pruned now cache after)
      (hfull : cache.capacity≤after.entries.len) :
      Consumed cache grant now after (.error .capacity)
  | accepted (pruned : GrantReplayCache) (h : Pruned now cache pruned) (he : now<grant.expiresAt)
      (hs : cache.processStartedAt≤grant.issuedAt)
      (hnew : pruned.entries.get (replayKey grant)=none)
      (hroom : pruned.entries.len<cache.capacity) :
      Consumed cache grant now { pruned with
        entries := pruned.entries.insert (replayKey grant) grant.expiresAt
        expirations := pruned.expirations.push ⟨grant.expiresAt,replayKey grant⟩ } (.ok ())

lemma consume_consumed (cache : GrantReplayCache) (g : VerifiedGrant) (now : UInt64)
    (h : cache.Coupled) :
    Consumed cache g now (cache.consume g now).1 (cache.consume g now).2 := by
  have hp:=cache.prune_pruned now h
  unfold consume accept
  split
  next he => exact .expired _ hp he
  next he =>
    split
    next hs => exact .predates _ hp (hp.started ▸ hs)
    next hs =>
      split
      · exact .replayed _ hp
      next hw =>
        split
        next hf => exact .full _ hp (hp.capacity ▸ hf)
        next hr =>
          have hn : (cache.prune now).entries.get (replayKey g)=none := by
            simpa [Table.contains] using hw
          exact .accepted _ hp (UInt64.not_le.mp he) (hp.started ▸ UInt64.not_lt.mp hs) hn
            (hp.capacity ▸ Nat.lt_of_not_le hr)

section
variable {c after : GrantReplayCache} {g : VerifiedGrant} {now : UInt64} {r : Except ReplayError Unit}
lemma Pruned.sound (h : Pruned now c after) (hs : c.Sound) : after.Sound where
  coupled := h.coupled
  bounded := by
    have hc:=countP_le_length (p := fun e => decide (now<e.2)) (l := c.entries.entries)
    have hb:=hs.bounded
    rw [h.len,h.capacity]
    exact hc.trans hb

lemma Consumed.sound (h : Consumed c g now after r) (hs : c.Sound) :
    after.Sound ∧ after.capacity=c.capacity ∧ after.processStartedAt=c.processStartedAt := by
  cases h with
  | expired _ hp _ => exact ⟨hp.sound hs,hp.capacity,hp.started⟩
  | predates _ hp _ => exact ⟨hp.sound hs,hp.capacity,hp.started⟩
  | replayed _ hp => exact ⟨hp.sound hs,hp.capacity,hp.started⟩
  | full _ hp _ => exact ⟨hp.sound hs,hp.capacity,hp.started⟩
  | accepted pr hp he hst hn hr =>
    refine ⟨⟨?_,?_⟩,hp.capacity,hp.started⟩
    · have hen : pairs (pr.entries.insert (replayKey g) g.expiresAt) =
          ⟨g.expiresAt,replayKey g⟩::pairs pr.entries := by
        rw [pairs,Table.insert,map_cons,erase_entries_of_absent _ _ hn]
        rfl
      show (pairs (pr.entries.insert (replayKey g) g.expiresAt)).Perm _
      rw [hen]
      exact (hp.coupled.cons _).trans (MinHeap.perm_push _ _).symm
    · grind [len_insert_of_absent,hp.capacity]

lemma Consumed.kept (h : Consumed c g now after r) {key : ReplayKey} {expiresAt : UInt64}
    (hg : c.entries.get key=some expiresAt) (hl : now<expiresAt) :
    after.entries.get key=some expiresAt := by
  cases h with
  | expired _ hp _ => exact (hp.get _ _).mpr ⟨hg,hl⟩
  | predates _ hp _ => exact (hp.get _ _).mpr ⟨hg,hl⟩
  | replayed _ hp => exact (hp.get _ _).mpr ⟨hg,hl⟩
  | full _ hp _ => exact (hp.get _ _).mpr ⟨hg,hl⟩
  | accepted pr hp he hs hn hr => grind [hp.get,get_insert_ne]

lemma Consumed.ok (h : Consumed c g now after (.ok ())) :
    after.entries.get (replayKey g)=some g.expiresAt ∧ now<g.expiresAt ∧ c.processStartedAt≤g.issuedAt ∧
      ∀ ea, c.entries.get (replayKey g)=some ea → ea≤now := by
  cases h with
  | accepted pr hp he hs hn hr =>
    refine ⟨get_insert_self ..,he,hs,?_⟩
    intro ea hg
    by_contra hlt
    have hk:=(hp.get _ _).mpr ⟨hg,UInt64.not_le.mp hlt⟩
    rw [hn] at hk
    cases hk

lemma Consumed.capacity (h : Consumed c g now after (.error .capacity)) (hs : c.Sound) :
    (c.entries.entries.countP fun e => now<e.2)=c.capacity ∧ after.entries.len=c.capacity ∧
      ∀ key expiresAt, after.entries.get key=some expiresAt → now<expiresAt := by
  cases h with
  | full _ hp hf =>
    have hb:=(hp.sound hs).bounded
    rw [hp.capacity] at hb
    have hl : after.entries.len=c.capacity := by omega
    refine ⟨hp.len ▸ hl,hl,?_⟩
    intro key expiresAt hg
    exact ((hp.get _ _).mp hg).2
end

/-- What a call that may consume a grant does to the cache, and the grant it accepted. -/
inductive Used (cache : GrantReplayCache) (now : UInt64) :
    GrantReplayCache → Option VerifiedGrant → Prop
  | untouched : Used cache now cache none
  | refused (grant : VerifiedGrant) (after : GrantReplayCache) (e : ReplayError)
      (h : Consumed cache grant now after (.error e)) : Used cache now after none
  | accepted (grant : VerifiedGrant) (after : GrantReplayCache)
      (h : Consumed cache grant now after (.ok ())) : Used cache now after (some grant)

variable {cache : GrantReplayCache} {steps : List UseStep} {j : ℕ} {s : UseStep} {g : VerifiedGrant}
variable {u : Option VerifiedGrant}
lemma Used.sound {now : UInt64} (h : Used cache now a u) (hs : cache.Sound) : a.Sound := by
  cases h with
  | untouched => exact hs
  | refused g _ e h => exact (h.sound hs).1
  | accepted g _ h => exact (h.sound hs).1

lemma Used.kept {now : UInt64} (h : Used cache now a u) {key : ReplayKey} {expiresAt : UInt64}
    (hg : cache.entries.get key=some expiresAt) (hl : now<expiresAt) :
    a.entries.get key=some expiresAt := by
  cases h with
  | untouched => exact hg
  | refused g _ e h => exact h.kept hg hl
  | accepted g _ h => exact h.kept hg hl

structure UseStep where
  now : UInt64
  used : Option VerifiedGrant
  after : GrantReplayCache

def UseChain : GrantReplayCache → List UseStep → Prop
  | _,[] => True
  | cache,s::steps => Used cache s.now s.after s.used ∧ UseChain s.after steps

lemma UseChain.unexpired (htr : UseChain cache steps) (hj : steps[j]?=some s)
    (hu : s.used=some g) : s.now<g.expiresAt := by
  induction steps generalizing cache j with
  | nil => cases hj
  | cons f steps ih =>
    obtain ⟨hs,hr⟩ := htr
    cases j with
    | zero =>
      rw [Option.some.inj hj,hu] at hs
      cases hs with
      | accepted _ _ h => exact h.ok.2.1
    | succ j => exact ih hr hj

lemma due_before_reuse {key : ReplayKey} {expiry : UInt64}
    (hg : cache.entries.get key=some expiry) (htr : UseChain cache steps) (hj : steps[j]?=some s)
    (hu : s.used=some g) (hk : replayKey g=key) :
    ∃ m s', m≤j ∧ steps[m]?=some s' ∧ expiry ≤ s'.now := by
  induction steps generalizing cache j with
  | nil => cases hj
  | cons f steps ih =>
    obtain ⟨hs,hr⟩ := htr
    by_cases hd : expiry≤f.now
    · exact ⟨0,f,Nat.zero_le _,rfl,hd⟩
    · have hlt:=UInt64.not_le.mp hd
      cases j with
      | zero =>
        -- the key is still there, so this call was not accepted
        have hsm : f=s := Option.some.inj hj
        rw [hsm,hu] at hs
        cases hs with
        | accepted _ _ h => grind [h.ok,absurd]
      | succ j =>
        obtain ⟨m,s',hm,hs',hle⟩ := ih (hs.kept hg hlt) hr hj
        exact ⟨m+1,s',by omega,hs',hle⟩

lemma reuse_after_expiry (htr : UseChain cache steps) {i : ℕ} {s' : UseStep} (hij : i<j)
    (hi : steps[i]?=some s) (hj : steps[j]?=some s') {g' : VerifiedGrant}
    (hu : s.used=some g) (hu' : s'.used=some g')
    (hk : replayKey g=replayKey g') :
    ∃ m s0, i < m ∧ m≤j ∧ steps[m]?=some s0 ∧ g.expiresAt ≤ s0.now := by
  induction steps generalizing cache i j with
  | nil => cases hi
  | cons f steps ih =>
    obtain ⟨hs,hr⟩ := htr
    obtain ⟨j,rfl⟩ : ∃ j', j=j'+1 := ⟨j - 1,by omega⟩
    cases i with
    | zero =>
      rw [Option.some.inj hi,hu] at hs
      have hsm : f=s := Option.some.inj hi
      cases hs with
      | accepted _ _ h =>
        obtain ⟨hst,-⟩ := h.ok
        obtain ⟨m,s0,hm,hs0,hl⟩ := due_before_reuse (hsm ▸ hst) hr hj hu' hk.symm
        exact ⟨m+1,s0,by omega,by omega,hs0,hl⟩
    | succ i =>
      obtain ⟨m,s0,him,hmj,hs0,hl⟩ := ih hr (by omega) hi hj
      exact ⟨m+1,s0,by omega,by omega,hs0,hl⟩
end GrantReplayCache

structure ConsumeCall where
  grant : VerifiedGrant
  now : UInt64

structure ConsumeStep where
  before : GrantReplayCache
  grant : VerifiedGrant
  now : UInt64
  reply : Except ReplayError Unit
  after : GrantReplayCache

def consumeTrace : GrantReplayCache → List ConsumeCall → List ConsumeStep
  | _,[] => []
  | cache,c::calls =>
    ⟨cache,c.grant,c.now,(cache.consume c.grant c.now).2,(cache.consume c.grant c.now).1⟩ ::
      consumeTrace (cache.consume c.grant c.now).1 calls

open GrantReplayCache

variable {cache : GrantReplayCache}
lemma consumeTrace_steps (hs : cache.Sound) (calls : List ConsumeCall) :
    ∀ s∈consumeTrace cache calls, s.before.Sound ∧ s.before.capacity=cache.capacity ∧
      Consumed s.before s.grant s.now s.after s.reply := by
  induction calls generalizing cache with
  | nil =>
    intro s hs
    cases hs
  | cons c calls ih =>
    intro s hm
    have hst:=consume_consumed cache c.grant c.now hs.coupled
    obtain ⟨hsn,hc,-⟩ := hst.sound hs
    rcases mem_cons.mp hm with hm | hm
    · rw [hm]
      exact ⟨hs,rfl,hst⟩
    · grind

def ConsumeStep.use (s : ConsumeStep) : UseStep := ⟨s.now,s.reply.toOption.map fun _ => s.grant,s.after⟩

lemma consumeTrace_chain (hs : cache.Sound) (calls : List ConsumeCall) :
    UseChain cache ((consumeTrace cache calls).map ConsumeStep.use) := by
  induction calls generalizing cache with
  | nil => trivial
  | cons c calls ih =>
    have hst:=consume_consumed cache c.grant c.now hs.coupled
    refine ⟨?_,ih (hst.sound hs).1⟩
    show Used cache c.now (cache.consume c.grant c.now).1
      ((cache.consume c.grant c.now).2.toOption.map fun _ => c.grant)
    cases hr : (cache.consume c.grant c.now).2 with
    | error e => exact .refused c.grant _ e (hr ▸ hst)
    | ok u => exact .accepted c.grant _ (hr ▸ hst)

lemma consumeTrace_call {calls : List ConsumeCall} {i : ℕ} {s : ConsumeStep}
    (h : (consumeTrace cache calls)[i]?=some s) :
    calls[i]?=some ⟨s.grant,s.now⟩ := by
  induction calls generalizing cache i with
  | nil => cases h
  | cons c calls ih =>
    cases i with
    | zero =>
      rw [← Option.some.inj h]
      rfl
    | succ i => exact ih h

def NonDecreasing (calls : List ConsumeCall) : Prop := calls.Pairwise fun a b => a.now≤b.now

instance (calls : List ConsumeCall) : Decidable (NonDecreasing calls) :=
  inferInstanceAs (Decidable (calls.Pairwise _))

lemma NonDecreasing.le {c : List ConsumeCall} (h : NonDecreasing c) {i j : ℕ}
    {s s' : ConsumeStep} (hij : i≤j) (hi : (consumeTrace cache c)[i]?=some s)
    (hj : (consumeTrace cache c)[j]?=some s') :
    s.now ≤ s'.now :=
  pairwise_at h (fun _ => UInt64.le_refl _) hij (consumeTrace_call hi) (consumeTrace_call hj)

structure ReplayInvariant (capacity : ℕ) (steps : List ConsumeStep) : Prop where
  /-- a grant is not accepted twice before it expires -/
  exclusive : ∀ (i j : ℕ) (s s' : ConsumeStep), i<j → steps[i]?=some s → steps[j]?=some s' →
    s.reply=.ok () → s'.reply=.ok () → replayKey s.grant=replayKey s'.grant →
    s.grant.expiresAt ≤ s'.now
  /-- map and heap hold the same pairs -/
  coupled : ∀ s∈steps, s.before.Coupled ∧ s.after.Coupled
  bounded : ∀ s∈steps, s.before.entries.len ≤ capacity ∧ s.after.entries.len ≤ capacity
  /-- only what is due is removed -/
  removed : ∀ s∈steps, ∀ key expiresAt, s.before.entries.get key=some expiresAt →
    s.after.entries.get key≠some expiresAt → expiresAt ≤ s.now
  /-- `Capacity` means that live entries fill the cache -/
  full : ∀ s∈steps, s.reply=.error .capacity → (s.before.entries.entries.countP fun e => s.now<e.2)=capacity ∧
    s.after.entries.len=capacity ∧
    ∀ key expiresAt, s.after.entries.get key=some expiresAt → s.now<expiresAt

theorem replayCache_invariant {processStartedAt : UInt64} {capacity : ℕ} {cache : GrantReplayCache}
    (hnew : GrantReplayCache.new processStartedAt capacity=some cache) (calls : List ConsumeCall)
    (hclock : NonDecreasing calls) : ReplayInvariant capacity (consumeTrace cache calls) := by
  obtain ⟨hs,-,-,hcap,-⟩ := new_sound hnew
  have hsteps:=consumeTrace_steps hs calls
  have hnext : ∀ s∈consumeTrace cache calls, s.after.Sound ∧ s.after.capacity=capacity := by
    intro s hme
    obtain ⟨hb,hcapacity,hp⟩ := hsteps s hme
    obtain ⟨hafter,hsame,-⟩ := hp.sound hb
    exact ⟨hafter,hsame.trans (hcapacity.trans hcap)⟩
  constructor
  · intro i j s s' hij hi hj hok hok' hkey
    have hat : ∀ (k : ℕ) (s : ConsumeStep), (consumeTrace cache calls)[k]?=some s →
        ((consumeTrace cache calls).map ConsumeStep.use)[k]?=some s.use := by
      intro k s hk
      rw [List.getElem?_map,hk]
      rfl
    have hused : s.use.used=some s.grant := by simp [ConsumeStep.use,hok,Except.toOption]
    have hused' : s'.use.used=some s'.grant := by simp [ConsumeStep.use,hok',Except.toOption]
    obtain ⟨m,s0,-,hmj,hm,hle⟩ := reuse_after_expiry (consumeTrace_chain hs calls) hij (hat i s hi)
      (hat j s' hj) hused hused' hkey
    rw [List.getElem?_map] at hm
    obtain ⟨s1,hs1,rfl⟩ := Option.map_eq_some_iff.mp hm
    exact UInt64.le_trans hle (hclock.le hmj hs1 hj)
  · intro s hme
    exact ⟨(hsteps s hme).1.coupled,(hnext s hme).1.coupled⟩
  · intro s hme
    obtain ⟨hb,hcapacity,-⟩ := hsteps s hme
    obtain ⟨hafter,hsame⟩ := hnext s hme
    constructor
    · exact hcap ▸ hcapacity ▸ hb.bounded
    · exact hsame ▸ hafter.bounded
  · intro s hme key ea hget hgone
    by_contra hlt
    exact hgone ((hsteps s hme).2.2.kept hget (UInt64.not_le.mp hlt))
  · intro s hme hreply
    obtain ⟨hb,hcapacity,hp⟩ := hsteps s hme
    rw [hreply] at hp
    have hfull:=hp.capacity hb
    rw [hcapacity,hcap] at hfull
    exact hfull

def sampleGrant (nonce : UInt8) (issuedAt expiresAt : UInt64) : VerifiedGrant :=
  ⟨Block.fill 32 1,issuedAt,expiresAt,Block.fill 32 nonce,Nwg2.sampleAudience⟩

def sampleCalls : List ConsumeCall :=
  [⟨sampleGrant 1 100 200,100⟩,⟨sampleGrant 2 100 150,100⟩,⟨sampleGrant 3 120 300,120⟩,
    ⟨sampleGrant 1 100 200,130⟩,⟨sampleGrant 3 120 300,150⟩]

theorem replayCache_invariant_sample : ∃ cache, GrantReplayCache.new 100 2=some cache ∧
    (consumeTrace cache sampleCalls).map (fun s => s.reply.toOption)=[some (),some (),none,none,some ()] ∧
    ReplayInvariant 2 (consumeTrace cache sampleCalls) := by
  refine ⟨_,rfl,?_,replayCache_invariant (rfl : GrantReplayCache.new 100 2=some _) sampleCalls (by decide)⟩
  decide +kernel
end NilVpn.Node
