import NilVpn.Base.Block
import NilVpn.Base.Runs
import NilVpn.Base.Table

/-!
# The rate limiter (nil-portal/src/ratelimit.rs:39-125)

Instants and durations are natural numbers. A call reads the clock before it takes the lock, so
other calls may come in between.
-/

namespace NilVpn.Portal.RateLimit
open Base Option List Table

def u32Max : ℕ := 2^32 - 1

/-- A bucket is the start of its window and what is used of it. -/
abbrev Buckets := Table Bytes (ℕ × ℕ)

/-- An admitted charge; a `RateLimitReservation` is one that is not committed. -/
structure Charge where
  key : Bytes
  (start cost : ℕ)

def refund (buckets : Buckets) (c : Charge) : Buckets :=
  match buckets.get c.key with
  | some (start,used) =>
    if start=c.start then
      if used - c.cost=0 then buckets.erase c.key else buckets.insert c.key (start,used - c.cost)
    else buckets
  | none => buckets

/-- A call of `charge_n` that has read the clock and waits for the lock. -/
structure Waiting where
  key : Bytes
  (cost now : ℕ)
  reserves : Bool

/-- `spent` are the charges of `check_n` and the committed ones, `latest` the latest reading that
had the lock. -/
structure State where
  (clock latest : ℕ)
  waiting : List Waiting
  buckets : Buckets
  (spent live : List Charge)

def new : State := ⟨0,0,[],Table.empty,[],[]⟩

inductive Event
  | tick (d : ℕ)
  | checkN (key : Bytes) (cost : ℕ)
  | reserveN (key : Bytes) (cost : ℕ)
  | lock (i : ℕ)
  | commit (i : ℕ)
  | drop (i : ℕ)

/-- `charge_n` up to its lock; a call without a cost is refused before it reads the clock. -/
def State.read (s : State) (key : Bytes) (cost : ℕ) (reserves : Bool) : State :=
  if cost=0 then s else {s with waiting := s.waiting++[⟨key,cost,s.clock,reserves⟩]}

section
variable (max window : ℕ)
def collect (buckets : Buckets) (now : ℕ) : Buckets :=
  if 4096<buckets.len then buckets.retain fun _ b => now - b.1<window else buckets

def entryOf (buckets : Buckets) (key : Bytes) (now : ℕ) : ℕ × ℕ :=
  let entry:=(buckets.get key).getD (now,0)
  if window≤now - entry.1 then (now,0) else entry

/-- The rest of `charge_n`, under the lock. -/
def chargeN (buckets : Buckets) (w : Waiting) : Buckets × Option Charge :=
  let buckets:=collect window buckets w.now
  let entry:=entryOf window buckets w.key w.now
  let used:=min (entry.2+w.cost) u32Max
  (buckets.insert w.key (entry.1,used),if used ≤ max then some ⟨w.key,entry.1,w.cost⟩ else none)

def State.step (s : State) : Event → State
  | .tick d => {s with clock := s.clock+d}
  | .checkN key cost => s.read key cost false
  | .reserveN key cost => s.read key cost true
  | .lock i =>
    match s.waiting[i]? with
    | some w =>
      let r:=chargeN max window s.buckets w
      {s with
        latest := s.latest⊔w.now
        waiting := s.waiting.eraseIdx i
        buckets := r.1
        spent := s.spent++if w.reserves then [] else r.2.toList
        live := s.live++if w.reserves then r.2.toList else []}
    | none => s
  | .commit i => {s with live := s.live.eraseIdx i,spent := s.spent++s.live[i]?.toList}
  | .drop i =>
    match s.live[i]? with
    | some c => {s with buckets := refund s.buckets c,live := s.live.eraseIdx i}
    | none => s
end

def Charge.within (key : Bytes) (start : ℕ) (c : Charge) : ℕ :=
  if c.key=key ∧ c.start=start then c.cost else 0

def total (charges : List Charge) (key : Bytes) (start : ℕ) : ℕ :=
  (charges.map (Charge.within key start)).sum

/-- What is charged to a window and not refunded. -/
def State.charged (s : State) (key : Bytes) (start : ℕ) : ℕ :=
  total s.spent key start+total s.live key start

lemma total_append (xs ys : List Charge) (key : Bytes) (start : ℕ) :
    total (xs++ys) key start=total xs key start+total ys key start := by
  rw [total,map_append,sum_append]
  rfl

lemma total_eraseIdx (cs : List Charge) (i : ℕ) (key : Bytes) (start : ℕ) :
    total cs key start=total (cs.eraseIdx i) key start+total cs[i]?.toList key start := by
  induction cs generalizing i with
  | nil => rfl
  | cons d cs ih =>
    cases i with
    | zero => simp [total,Nat.add_comm]
    | succ i =>
      have hr:=ih i
      simp only [total,map_cons,sum_cons,eraseIdx_cons_succ,List.getElem?_cons_succ]
        at hr ⊢
      omega

/-- A bucket counts at least what is charged to its window, and a window without a bucket that is
charged lies a whole window behind the latest reading. -/
structure Bounded (max window : ℕ) (buckets : Buckets) (charged : Bytes → ℕ → ℕ)
    (latest : ℕ) : Prop where
  bucket : ∀ key start used, buckets.get key=some (start,used) →
    charged key start≤used ∧ used≤u32Max
  past : ∀ key start, (∀ used, buckets.get key≠some (start,used)) → latest<start+window →
    charged key start=0
  cap : ∀ key start, charged key start ≤ max

section
variable {max window latest : ℕ} {buckets : Buckets} {charged charged' : Bytes → ℕ → ℕ}
  (h : Bounded max window buckets charged latest)
include h
lemma Bounded.mono {later : ℕ} (hl : latest≤later)
    (hle : ∀ key start, charged' key start ≤ charged key start) :
    Bounded max window buckets charged' later := by
  refine ⟨fun key start used hg => ?_,fun key start hg ht => ?_,fun key start => ?_⟩
  · exact (h.bucket key start used hg).imp_left (hle key start).trans
  · exact Nat.le_zero.mp (h.past key start hg (by omega) ▸ hle key start)
  · exact (hle key start).trans (h.cap key start)

lemma Bounded.collect {now : ℕ} (hw : 0<window) (hn : now≤latest) :
    Bounded max window (collect window buckets now) charged latest := by
  rw [RateLimit.collect]
  split
  · refine ⟨fun key start used hg => ?_,fun key start hg ht => ?_,h.cap⟩
    · rw [get_retain] at hg
      exact h.bucket key start used (filter_eq_some_iff.mp hg).1
    · refine h.past key start (fun used hb => hg used ?_) ht
      -- what is collected lies a whole window behind `now`
      rw [get_retain,hb,filter_some,if_pos (decide_eq_true (by omega))]
  · exact h

/-- The window that a charge goes to is its bucket's, or has not been charged. -/
lemma Bounded.entry {now : ℕ} (hw : 0<window) (ht : latest<now+window) (key : Bytes) :
    charged key (entryOf window buckets key now).1≤(entryOf window buckets key now).2 ∧
      (entryOf window buckets key now).2≤u32Max := by
  have hz (hg : ∀ used, buckets.get key≠some (now,used)) : charged key now≤0 ∧ 0≤u32Max :=
    ⟨(h.past key now hg ht).le,Nat.zero_le _⟩
  rw [entryOf]
  cases hb : buckets.get key with
  | none =>
    rw [Option.getD_none,ite_self]
    exact hz fun used => by simp [hb]
  | some b =>
    rw [getD_some]
    split
    · refine hz fun used hg => ?_
      cases hb.symm.trans hg
      omega
    · exact h.bucket key b.1 b.2 hb

/-- A bucket may be replaced by one whose window is later than its own by a whole window. -/
lemma Bounded.insert (c : Charge) (used : ℕ)
    (ho : ∀ start u, buckets.get c.key=some (start,u) → start≠c.start → start+window≤latest)
    (hu : charged c.key c.start+c.cost≤used) (hm : used≤u32Max)
    (hc : charged c.key c.start+c.cost ≤ max) :
    Bounded max window (buckets.insert c.key (c.start,used))
      (fun k s => charged k s+c.within k s) latest := by
  refine ⟨fun k s u hg => ?_,fun k s hg ht => ?_,fun k s => ?_⟩
  · rw [get_insert] at hg
    split at hg
    · rename_i hk
      obtain ⟨rfl,rfl⟩ := Prod.mk.inj (Option.some.inj hg)
      rw [hk]
      exact ⟨by simpa [Charge.within] using hu,hm⟩
    · rename_i hk
      simpa [Charge.within,Ne.symm hk] using h.bucket k s u hg
  · have hk : ¬(c.key=k ∧ c.start=s) := by
      rintro ⟨rfl,rfl⟩
      exact hg used (get_insert_self ..)
    rw [Charge.within,if_neg hk]
    refine h.past k s (fun u hb => hg u ?_) ht
    rw [get_insert]
    split
    · rename_i he
      subst he
      have hs:=ho s u hb fun hs => hk ⟨rfl,hs.symm⟩
      omega
    · exact hb
  · by_cases hk : c.key=k ∧ c.start=s
    · obtain ⟨rfl,rfl⟩ := hk
      simpa [Charge.within] using hc
    · simpa [Charge.within,hk] using h.cap k s

lemma Bounded.charge (hw : 0<window) (hm : max<u32Max) (w : Waiting)
    (ht : latest<w.now+window) :
    Bounded max window (chargeN max window buckets w).1
      (fun k s => charged k s+total (chargeN max window buckets w).2.toList k s)
      (latest⊔w.now) := by
  have hb : Bounded max window buckets charged (latest⊔w.now) :=
    h.mono le_sup_left fun _ _ => Nat.le_refl _
  have hb:=hb.collect hw le_sup_right
  obtain ⟨hu,hx⟩ := hb.entry hw (show latest⊔w.now<w.now+window by omega) w.key
  have ho (start used : ℕ) (hg : (RateLimit.collect window buckets w.now).get w.key=some (start,used))
      (hs : start≠(entryOf window (RateLimit.collect window buckets w.now) w.key w.now).1) :
      start+window≤latest⊔w.now := by
    rw [entryOf,hg,getD_some] at hs
    split at hs
    · omega
    · exact absurd rfl hs
  rw [chargeN]
  dsimp only
  generalize RateLimit.collect window buckets w.now=bs at hb hu hx ho ⊢
  generalize entryOf window bs w.key w.now=entry at hu hx ho ⊢
  split
  · have hp:=hb.insert ⟨w.key,entry.1,w.cost⟩ (min (entry.2+w.cost) u32Max) ho
      (by dsimp only; omega) (Nat.min_le_right ..) (by dsimp only; omega)
    simpa [total] using hp
  · have hp:=hb.insert ⟨w.key,entry.1,0⟩ (min (entry.2+w.cost) u32Max) ho
      (by dsimp only; omega) (Nat.min_le_right ..) (hb.cap w.key _)
    simpa [total,Charge.within] using hp

lemma Bounded.refund {c : Charge}
    (hc : ∀ key start, charged key start=charged' key start+c.within key start) :
    Bounded max window (refund buckets c) charged' latest := by
  have hl:=h.mono (Nat.le_refl latest) fun k s => (Nat.le_add_right _ _).trans (hc k s).ge
  have ho:=hc c.key c.start
  rw [Charge.within,if_pos ⟨rfl,rfl⟩] at ho
  rw [RateLimit.refund]
  cases hb : buckets.get c.key with
  | none => exact hl
  | some b =>
    obtain ⟨start,used⟩ := b
    dsimp only
    split
    · rename_i hs
      subst hs
      obtain ⟨hu,hm⟩ := h.bucket c.key c.start used hb
      split
      · refine ⟨fun k s u hg => ?_,fun k s hg ht => ?_,hl.cap⟩
        · rw [get_erase] at hg
          split at hg
          · cases hg
          · exact hl.bucket k s u hg
        · by_cases hk : k=c.key ∧ s=c.start
          · rw [hk.1,hk.2]
            omega
          · refine hl.past k s (fun u hg' => hg u ?_) ht
            rw [get_erase,if_neg]
            · exact hg'
            · rintro rfl
              cases hb.symm.trans hg'
              exact hk ⟨rfl,rfl⟩
      · have hp:=hl.insert ⟨c.key,c.start,0⟩ (used - c.cost)
          (fun s u hg hs => absurd (congrArg Prod.fst (Option.some.inj (hb.symm.trans hg))) hs.symm)
          (by dsimp only; omega) (by omega) (hl.cap _ _)
        simpa [Charge.within] using hp
    · exact hl
end

/-- A call gets the lock before a reading that is a whole window later than its own does. -/
def Prompt (window : ℕ) (s : State) : Event → Prop
  | .lock i => ∀ w∈s.waiting[i]?, s.latest<w.now+window
  | _ => True

instance (window : ℕ) (s : State) : (e : Event) → Decidable (Prompt window s e)
  | .lock i => inferInstanceAs (Decidable (∀ w∈s.waiting[i]?, s.latest<w.now+window))
  | .tick _ | .checkN .. | .reserveN .. | .commit _ | .drop _ => .isTrue trivial

lemma Bounded.step {max window : ℕ} (hm : max<u32Max) (hw : 0<window) (s : State) (e : Event)
    (h : Bounded max window s.buckets s.charged s.latest) (hp : Prompt window s e) :
    Bounded max window (s.step max window e).buckets (s.step max window e).charged
      (s.step max window e).latest := by
  have hr (key : Bytes) (cost : ℕ) (reserves : Bool) : Bounded max window
      (s.read key cost reserves).buckets (s.read key cost reserves).charged
      (s.read key cost reserves).latest := by
    rw [State.read]
    split <;> exact h
  cases e with
  | tick d => exact h
  | checkN key cost => exact hr key cost false
  | reserveN key cost => exact hr key cost true
  | lock i =>
    rw [State.step]
    cases hi : s.waiting[i]? with
    | none => exact h
    | some w =>
      refine (h.charge hw hm w (hp w hi)).mono (Nat.le_refl _) fun k st => ?_
      simp only [State.charged,total_append]
      cases w.reserves <;> simp [total,Nat.add_assoc,Nat.add_comm,Nat.add_left_comm]
  | commit i =>
    refine h.mono (Nat.le_refl _) fun k st => ?_
    have ht:=total_eraseIdx s.live i k st
    simp only [State.step,State.charged,total_append]
    omega
  | drop i =>
    rw [State.step]
    cases hi : s.live[i]? with
    | none => exact h
    | some c =>
      refine h.refund fun k st => ?_
      have ht:=total_eraseIdx s.live i k st
      rw [hi] at ht
      rw [State.charged,State.charged,ht,Nat.add_assoc]
      rfl

/-- The cost of `c` is given back to its window, or no bucket changes. -/
def Restores (before after : Buckets) (c : Charge) : Prop :=
  (∀ used, before.get c.key=some (c.start,used) → c.cost≤used ∧
    (after.get c.key).getD (c.start,0)=(c.start,used - c.cost) ∧
    ∀ key, key≠c.key → after.get key=before.get key) ∧
  ((∀ used, before.get c.key≠some (c.start,used)) → after=before)

lemma Bounded.restores {max window i : ℕ} {s : State} {c : Charge}
    (h : Bounded max window s.buckets s.charged s.latest) (hi : s.live[i]?=some c) :
    Restores s.buckets (s.step max window (.drop i)).buckets c := by
  simp only [State.step,hi]
  refine ⟨fun used hb => ?_,fun hb => ?_⟩
  · have hu:=(h.bucket c.key c.start used hb).1
    have ht:=total_eraseIdx s.live i c.key c.start
    simp only [hi,total,Charge.within,toList_some,map_cons,and_self,if_true,sum_cons] at ht
    rw [State.charged,total,total] at hu
    simp only [RateLimit.refund,hb,if_true]
    refine ⟨by omega,?_⟩
    split
    · rename_i hz
      refine ⟨by rw [get_erase,if_pos rfl,hz]; rfl,fun key hk => ?_⟩
      rw [get_erase,if_neg hk]
    · exact ⟨by rw [get_insert_self]; rfl,fun key hk => get_insert_ne _ _ _ _ hk⟩
  · rw [RateLimit.refund]
    split
    · rename_i st used hg
      rw [if_neg]
      rintro rfl
      exact hb used hg
    · rfl

theorem reservations_never_exceed_max (max window : ℕ) (hmax : max<u32Max) (hwindow : 0<window)
    (events : List Event)
    (hprompt : Along (State.step max window) (Prompt window) new events) :
    let s:=runFrom (State.step max window) new events
    (∀ key start, s.charged key start ≤ max) ∧
    (∀ i c, s.live[i]?=some c → Restores s.buckets (s.step max window (.drop i)).buckets c) ∧
    ∀ key, s.step max window (.checkN key 0)=s ∧ s.step max window (.reserveN key 0)=s := by
  have hn : Bounded max window new.buckets new.charged new.latest :=
    ⟨nofun,fun _ _ _ _ => rfl,fun _ _ => Nat.zero_le _⟩
  have h:=Along.invariant (I := fun s => Bounded max window s.buckets s.charged s.latest)
    (Bounded.step hmax hwindow) hn events hprompt
  exact ⟨h.cap,fun i c hi => h.restores hi,fun key => ⟨rfl,rfl⟩⟩

/-- Two calls read the clock; the second is refused, and let in again after the first is dropped. -/
theorem refused_until_dropped :
    let s:=runFrom (State.step 2 10) new [.reserveN [] 2,.checkN [] 1,.tick 4,.lock 0,.lock 0,
      .drop 0,.checkN [] 1,.lock 0]
    s.charged [] 0=1 ∧ s.charged [] 0≤2 :=
  ⟨by decide,(reservations_never_exceed_max 2 10 (by decide) (by decide) [.reserveN [] 2,.checkN [] 1,
    .tick 4,.lock 0,.lock 0,.drop 0,.checkN [] 1,.lock 0] (by decide)).1 [] 0⟩

/-- Of two calls that read the clock at 0, one is let in and committed. The other gets the lock only
after a later window has come and gone, and is charged to the first window as well. -/
theorem stale_reading_charged_twice : ¬(runFrom (State.step 1 1) new [.reserveN [] 1,.reserveN [] 1,
    .lock 0,.commit 0,.tick 1,.reserveN [] 1,.lock 1,.drop 0,.lock 0]).charged [] 0≤1 := by decide
end NilVpn.Portal.RateLimit
