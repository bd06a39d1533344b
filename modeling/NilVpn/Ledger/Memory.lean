import NilVpn.Ledger.Record

/-!
# The in-memory ledger (nullifier.rs:277-375) and its call traces

The store serialises its calls by a mutex, so a history is a list of calls.
-/

namespace NilVpn.Ledger
open Option StoredRecord Base List Table

structure Commit where
  epoch : UInt32
  key : Bytes
  replayUntil : UInt64
  response : Bytes
  now : UInt64

def Commit.Valid (a : Commit) : Prop := validateCommit a.key a.replayUntil a.response a.now=.ok ()

def Commit.record (a : Commit) (ciphertext : Bytes) : StoredRecord :=
  ⟨a.epoch,some a.replayUntil,some ciphertext⟩

def expectLive : Option CommitOutcome → Except IoError CommitOutcome
  | some outcome => .ok outcome
  | none => .error ⟨.other,"newly sealed replay result is live"⟩

def commitOrReplay (cipher : Aead) (entropy : Option Nonce) (a : Commit) (t : Records) :
    Records × Except IoError CommitOutcome :=
  match validateCommit a.key a.replayUntil a.response a.now with
  | .error e => (t,.error e)
  | .ok () =>
    match t.get a.key with
    | some existing =>
      match liveOutcome cipher a.key existing a.now false with
      | some outcome => (t,.ok outcome)
      | none => (t.modify a.key StoredRecord.clear,.ok .alreadySpent)
    | none =>
      match sealReplay cipher entropy a.epoch a.key a.replayUntil a.response with
      | .error e => (t,.error e)
      | .ok ciphertext =>
        (t.insert a.key (a.record ciphertext),
          expectLive (liveOutcome cipher a.key (a.record ciphertext) a.now true))

def pruneExpiredReplays (now : UInt64) (t : Records) : Records × Except IoError ℕ :=
  (pruneRecords now t,.ok (prunedCount now t))

inductive Op
  | commit (a : Commit) (entropy : Option Nonce)
  | prune (now : UInt64)

inductive Reply
  | commit (r : Except IoError CommitOutcome)
  | prune (r : Except IoError ℕ)
  deriving DecidableEq

def Reply.IsError : Reply → Prop
  | commit (.error _) | prune (.error _) => True
  | _ => False

def memoryStep (cipher : Aead) (t : Records) : Op → Records × Reply
  | .commit a entropy =>
    ((commitOrReplay cipher entropy a t).1,.commit (commitOrReplay cipher entropy a t).2)
  | .prune now => ((pruneExpiredReplays now t).1,.prune (pruneExpiredReplays now t).2)

structure Step where
  before : Records
  op : Op
  reply : Reply
  after : Records

def trace {σ : Type} (step : σ → Op → σ × Reply) (view : σ → Records) : σ → List Op → List Step
  | _,[] => []
  | s,op::ops => ⟨view s,op,(step s op).2,view (step s op).1⟩::trace step view (step s op).1 ops

def Step.Grants (s : Step) (a : Commit) (response : Bytes) (newlyCommitted : Bool) : Prop :=
  (∃ entropy, s.op=.commit a entropy) ∧ s.reply=.commit (.ok (.granted response newlyCommitted))

/-- A record that was in the ledger before the trace answers `response` below its expiry. -/
def Inherited (cipher : Aead) (t : Records) (a : Commit) (response : Bytes) : Prop :=
  ∃ r replayUntil ciphertext, t.get a.key=some r ∧ r.replayUntil=some replayUntil ∧
    r.ciphertext=some ciphertext ∧ a.now < replayUntil ∧
    openReplay cipher r.epoch a.key replayUntil ciphertext=.ok response

structure SingleWinner (cipher : Aead) (t : Records) (steps : List Step) : Prop where
  /-- at most one call per key commits newly -/
  once : ∀ (i j : ℕ) (s s' : Step) (a a' : Commit) (resp resp' : Bytes), steps[i]?=some s → steps[j]?=some s' →
    s.Grants a resp true → s'.Grants a' resp' true → a.key=a'.key → i=j
  /-- a new commit is for a key the ledger did not start with, and grants its own response -/
  fresh : ∀ (i : ℕ) (s : Step) (a : Commit) (resp : Bytes), steps[i]?=some s → s.Grants a resp true →
    t.get a.key=none ∧ resp=a.response
  /-- every other grant repeats the first commit, below its expiry -/
  replay : ∀ (i : ℕ) (s : Step) (a : Commit) (resp : Bytes), steps[i]?=some s → s.Grants a resp false →
    (∃ (j : ℕ) (s0 : Step) (a0 : Commit), j < i ∧ steps[j]?=some s0 ∧ s0.Grants a0 resp true ∧ a0.key=a.key ∧
      a.now<a0.replayUntil) ∨ Inherited cipher t a resp
  /-- after the stored response is cleared, valid calls answer `AlreadySpent` -/
  cleared : ∀ (i j : ℕ) (s s' : Step) (a : Commit) (entropy : Option Nonce) (r : StoredRecord),
    i<j → steps[i]?=some s → steps[j]?=some s' →
    s.after.get a.key=some r → r.ciphertext=none → s'.op=.commit a entropy → a.Valid →
    s'.reply=.commit (.ok .alreadySpent)
  /-- a call that errs leaves the records as they were -/
  unchanged : ∀ (i : ℕ) (s : Step), steps[i]?=some s → s.reply.IsError → s.after=s.before

/-- A record only ever loses its stored response. -/
def Descends (r r' : StoredRecord) : Prop := r'=r ∨ r'=r.clear

variable {r : StoredRecord} {cipher : Aead}
lemma Descends.trans {s t : StoredRecord} (h : Descends r s) (h' : Descends s t) :
    Descends r t := by
  rcases h with rfl | rfl
  · exact h'
  · rcases h' with rfl | rfl
    · exact .inr rfl
    · exact .inr rfl

lemma prune_descends (now : UInt64) (r : StoredRecord) : Descends r (r.prune now).1 := by
  unfold prune
  split
  · split
    · exact .inr rfl
    · exact .inl rfl
  · exact .inl rfl

lemma liveOutcome_clear (cipher : Aead) (key : Bytes) (r : StoredRecord) (now : UInt64)
    (b : Bool) (h : r.ciphertext=none) : liveOutcome cipher key r now b=none := by
  grind [liveOutcome,liveCiphertext]

lemma liveOutcome_granted {key : Bytes} {now : UInt64} {b b' : Bool} {resp : Bytes}
    (h : liveOutcome cipher key r now b=some (.granted resp b')) :
    b'=b ∧ ∃ replayUntil ciphertext, r.replayUntil=some replayUntil ∧
      r.ciphertext=some ciphertext ∧ now < replayUntil ∧
      openReplay cipher r.epoch key replayUntil ciphertext=.ok resp := by
  grind [liveCiphertext,liveOutcome]

lemma validateCommit_lt {a : Commit} (h : a.Valid) : a.now<a.replayUntil := by
  grind [Commit.Valid,validateCommit,UInt64.not_le.mp]

lemma liveOutcome_record (hc : cipher.Opens) {a : Commit} (ha : a.Valid) {e : Option Nonce} {c : Bytes}
    (hs : sealReplay cipher e a.epoch a.key a.replayUntil a.response=.ok c)
    (b : Bool) :
    liveOutcome cipher a.key (a.record c) a.now b=some (.granted a.response b) := by
  have hlt:=validateCommit_lt ha
  have ho:=hc _ _ _ _ _ _ hs
  simp only [liveOutcome,liveCiphertext,Commit.record,if_pos hlt,ho]

inductive CommitCase (cipher : Aead) (a : Commit) (entropy : Option Nonce) (t t' : Records)
    (reply : Except IoError CommitOutcome) : Prop
  | rejected (e : IoError) (h : ¬(a.Valid ∧ ∃ r, t.get a.key=some r)) (ht : t'=t)
      (hreply : reply=.error e)
  | live (r : StoredRecord) (outcome : CommitOutcome) (hv : a.Valid) (hr : t.get a.key=some r)
      (ho : liveOutcome cipher a.key r a.now false=some outcome) (ht : t'=t)
      (hreply : reply=.ok outcome)
  | spent (r : StoredRecord) (hv : a.Valid) (hr : t.get a.key=some r)
      (ho : liveOutcome cipher a.key r a.now false=none)
      (ht : t'=t.modify a.key StoredRecord.clear) (hreply : reply=.ok .alreadySpent)
  | first (ciphertext : Bytes) (hv : a.Valid) (hr : t.get a.key=none)
      (hs : sealReplay cipher entropy a.epoch a.key a.replayUntil a.response=.ok ciphertext)
      (ht : t'=t.insert a.key (a.record ciphertext))
      (hreply : reply=.ok (.granted a.response true))

lemma commitOrReplay_cases (hc : cipher.Opens) (a : Commit) (n : Option Nonce) (t : Records) :
    CommitCase cipher a n t (commitOrReplay cipher n a t).1 (commitOrReplay cipher n a t).2 := by
  unfold commitOrReplay
  split
  next e hv =>
    refine .rejected e ?_ rfl rfl
    rintro ⟨hv',-⟩
    rw [Commit.Valid,hv] at hv'
    cases hv'
  next hv =>
    split
    next r hr =>
      split
      next o ho => exact .live r o hv hr ho rfl rfl
      next ho => exact .spent r hv hr ho rfl rfl
    next hr =>
      split
      next e hs =>
        refine .rejected e ?_ rfl rfl
        rintro ⟨-,r,hr'⟩
        rw [hr] at hr'
        cases hr'
      next c hs =>
        rw [liveOutcome_record hc hv hs true]
        exact .first c hv hr hs rfl rfl

lemma memoryStep_descends (hc : cipher.Opens) (t : Records) (op : Op) {k : Bytes} (hk : t.get k=some r) :
    ∃ r', (memoryStep cipher t op).1.get k=some r' ∧ Descends r r' := by
  cases op with
  | prune now =>
    refine ⟨(r.prune now).1,?_,prune_descends now r⟩
    simp only [memoryStep,pruneExpiredReplays,pruneRecords,get_mapVal,hk,map_some]
  | commit a en =>
    simp only [memoryStep]
    cases commitOrReplay_cases hc a en t with
    | rejected e h ht hp =>
      rw [ht]
      exact ⟨r,hk,.inl rfl⟩
    | live r0 o hv hr ho ht hp =>
      rw [ht]
      exact ⟨r,hk,.inl rfl⟩
    | spent r0 hv hr ho ht hp =>
      rw [ht,get_modify,hk]
      split
      · exact ⟨r.clear,rfl,.inr rfl⟩
      · exact ⟨r,rfl,.inl rfl⟩
    | first c hv hr hs ht hp =>
      have hne : k≠a.key := by
        rintro rfl
        rw [hr] at hk
        cases hk
      exact ⟨r,by rw [ht,get_insert_ne _ _ _ _ hne]; exact hk,.inl rfl⟩

lemma memoryStep_new (hc : cipher.Opens) (t : Records) (op : Op) {k : Bytes} (hk : t.get k=none)
    (hr : (memoryStep cipher t op).1.get k=some r) :
    ∃ a en c, op=.commit a en ∧ a.key=k ∧ r=a.record c ∧
      sealReplay cipher en a.epoch a.key a.replayUntil a.response=.ok c ∧
      (memoryStep cipher t op).2=.commit (.ok (.granted a.response true)) := by
  cases op with
  | prune now =>
    simp only [memoryStep,pruneExpiredReplays,pruneRecords,get_mapVal,hk,map_none] at hr
    cases hr
  | commit a en =>
    simp only [memoryStep] at hr ⊢
    cases commitOrReplay_cases hc a en t with
    | rejected e h ht hp =>
      rw [ht,hk] at hr
      cases hr
    | live r0 o hv h0 ho ht hp =>
      rw [ht,hk] at hr
      cases hr
    | spent r0 hv h0 ho ht hp =>
      rw [ht,get_modify,hk] at hr
      split at hr <;> cases hr
    | first c hv h0 hs ht hp => grind [get_insert_self,get_insert_ne]

section
variable {cipher : Aead}
abbrev memoryTrace (cipher : Aead) (t : Records) (ops : List Op) : List Step :=
  trace (memoryStep cipher) id t ops

variable {t : Records} {ops : List Op} {i : ℕ} {s : Step} {k resp : Bytes} {r : StoredRecord} {a : Commit}
lemma memoryTrace_step (h : (memoryTrace cipher t ops)[i]?=some s) :
    s.after=(memoryStep cipher s.before s.op).1 ∧ s.reply=(memoryStep cipher s.before s.op).2 := by
  induction ops generalizing t i with
  | nil => cases h
  | cons op ops ih =>
    cases i with
    | zero =>
      rw [← some.inj h]
      exact ⟨rfl,rfl⟩
    | succ i => exact ih h

section
variable (hc : cipher.Opens)
include hc
lemma memoryTrace_keeps (h : (memoryTrace cipher t ops)[i]?=some s)
    (hk : t.get k=some r) : ∃ r', s.before.get k=some r' ∧ Descends r r' := by
  induction ops generalizing t i r with
  | nil => cases h
  | cons op ops ih =>
    cases i with
    | zero =>
      rw [← some.inj h]
      exact ⟨r,hk,.inl rfl⟩
    | succ i =>
      obtain ⟨r1,hk1,hd1⟩ := memoryStep_descends hc t op hk
      obtain ⟨r2,hk2,hd2⟩ := ih h hk1
      exact ⟨r2,hk2,hd1.trans hd2⟩

lemma memoryTrace_later {j : ℕ} {s' : Step} (hij : i<j)
    (hi : (memoryTrace cipher t ops)[i]?=some s) (hj : (memoryTrace cipher t ops)[j]?=some s')
    (hk : s.after.get k=some r) : ∃ r', s'.before.get k=some r' ∧ Descends r r' := by
  induction ops generalizing t i j with
  | nil => cases hi
  | cons op ops ih =>
    obtain ⟨j,rfl⟩ := Nat.exists_eq_succ_of_ne_zero (Nat.ne_zero_of_lt hij)
    cases i with
    | zero =>
      rw [← some.inj hi] at hk
      have ht : (memoryTrace cipher (memoryStep cipher t op).1 ops)[j]?=some s' := hj
      exact memoryTrace_keeps hc ht hk
    | succ i => exact ih (Nat.lt_of_succ_lt_succ hij) hi hj

lemma memoryTrace_origin (h : (memoryTrace cipher t ops)[i]?=some s) (hk : s.before.get k=some r) :
    (∃ r0, t.get k=some r0 ∧ Descends r0 r) ∨
    (∃ (j : ℕ) (s0 : Step) (a0 : Commit) (entropy : Option Nonce) (c : Bytes), j < i ∧
      (memoryTrace cipher t ops)[j]?=some s0 ∧ s0.Grants a0 a0.response true ∧ a0.key=k ∧
      Descends (a0.record c) r ∧
      sealReplay cipher entropy a0.epoch a0.key a0.replayUntil a0.response=.ok c) := by
  induction ops generalizing t i with
  | nil => cases h
  | cons op ops ih =>
    cases i with
    | zero =>
      rw [← some.inj h] at hk
      exact .inl ⟨r,hk,.inl rfl⟩
    | succ i =>
      rcases ih h with ⟨r1,hk1,hd⟩ | ⟨j,s0,a0,entropy,c,hj,hs0,hrs⟩
      · cases ht : t.get k with
        | some r0 =>
          obtain ⟨r1',hk1',hd1⟩ := memoryStep_descends hc t op ht
          have heq : r1'=r1 := some.inj (hk1'.symm.trans hk1)
          exact .inl ⟨r0,rfl,hd1.trans (heq ▸ hd)⟩
        | none =>
          obtain ⟨a,entropy,c,hop,hy,hr,hs,hrp⟩ := memoryStep_new hc t op ht hk1
          exact .inr ⟨0,_,a,entropy,c,Nat.succ_pos i,rfl,⟨⟨entropy,hop⟩,hrp⟩,hy,hr ▸ hd,hs⟩
      · exact .inr ⟨j+1,s0,a0,entropy,c,Nat.succ_lt_succ hj,hs0,hrs⟩

lemma memoryStep_grants {n : Option Nonce} {b : Bool}
    (h : (memoryStep cipher t (.commit a n)).2=.commit (.ok (.granted resp b))) :
    (b=false ∧ ∃ r, t.get a.key=some r ∧ liveOutcome cipher a.key r a.now false=some (.granted resp false)) ∨
    (b ∧ t.get a.key=none ∧ resp=a.response ∧
      ∃ r, (memoryStep cipher t (.commit a n)).1.get a.key=some r) := by
  simp only [memoryStep,Reply.commit.injEq] at h ⊢
  cases commitOrReplay_cases hc a n t with
  | rejected e _ ht hp =>
    rw [hp] at h
    cases h
  | live r o hv hr ho ht hp => grind [liveOutcome_granted]
  | spent r hv hr ho ht hp =>
    rw [hp] at h
    cases h
  | first c hv hr hs ht hp => simp_all [get_insert_self,Or.inr]

lemma memoryStep_spent (hr : t.get a.key=some r)
    (hcl : r.ciphertext=none) (hv : a.Valid) (n : Option Nonce) :
    (memoryStep cipher t (.commit a n)).2=.commit (.ok .alreadySpent) := by
  simp only [memoryStep]
  cases commitOrReplay_cases hc a n t with
  | rejected e h ht hp => exact absurd ⟨hv,r,hr⟩ h
  | live r1 o _ h1 ho ht hp => grind [liveOutcome_clear,some.inj]
  | spent r1 _ h1 ho ht hp => rw [hp]
  | first c _ h1 hs ht hp =>
    rw [h1] at hr
    cases hr

lemma memoryStep_error {op : Op} (he : (memoryStep cipher t op).2.IsError) :
    (memoryStep cipher t op).1=t := by
  cases op with
  | prune now => cases he
  | commit a en =>
    simp only [memoryStep] at he ⊢
    cases commitOrReplay_cases hc a en t with
    | rejected e h ht hr => exact ht
    | live r o hv h0 ho ht hr => exact ht
    | spent r hv h0 ho ht hr =>
      rw [hr] at he
      cases he
    | first c hv h0 hs ht hr =>
      rw [hr] at he
      cases he

lemma memoryTrace_grants {b : Bool}
    (hi : (memoryTrace cipher t ops)[i]?=some s) (hs : s.Grants a resp b) :
    (b=false ∧ ∃ r, s.before.get a.key=some r ∧
      liveOutcome cipher a.key r a.now false=some (.granted resp false)) ∨
    (b ∧ s.before.get a.key=none ∧ resp=a.response ∧ ∃ r, s.after.get a.key=some r) := by
  obtain ⟨⟨en,hop⟩,hrp⟩ := hs
  obtain ⟨ha,hr⟩ := memoryTrace_step hi
  rw [hop] at ha hr
  rw [ha]
  exact memoryStep_grants hc (hr.symm.trans hrp)

lemma memoryTrace_once {j : ℕ} {s' : Step} {a' : Commit} {resp' : Bytes}
    (hij : i<j) (hi : (memoryTrace cipher t ops)[i]?=some s)
    (hj : (memoryTrace cipher t ops)[j]?=some s') (hs : s.Grants a resp true)
    (hs' : s'.Grants a' resp' true) : a.key≠a'.key := by
  rcases memoryTrace_grants hc hi hs with ⟨hb,-⟩ | ⟨-,-,-,r,hg⟩
  · cases hb
  rcases memoryTrace_grants hc hj hs' with ⟨hb,-⟩ | ⟨-,hn,-⟩
  · cases hb
  intro hk
  obtain ⟨r',hr',-⟩ := memoryTrace_later hc hij hi hj hg
  rw [hk,hn] at hr'
  cases hr'

lemma memoryTrace_replay (hi : (memoryTrace cipher t ops)[i]?=some s) (hs : s.Grants a resp false) :
    (∃ (j : ℕ) (s0 : Step) (a0 : Commit), j < i ∧ (memoryTrace cipher t ops)[j]?=some s0 ∧
      s0.Grants a0 resp true ∧ a0.key=a.key ∧ a.now<a0.replayUntil) ∨
    Inherited cipher t a resp := by
  rcases memoryTrace_grants hc hi hs with ⟨-,r,hget,ho⟩ | ⟨hb,-⟩
  swap
  · cases hb
  obtain ⟨-,u,c,hu,ht,hl,hn⟩ := liveOutcome_granted ho
  rcases memoryTrace_origin hc hi hget with
    ⟨r0,hr0,hd⟩ | ⟨j,s0,a0,entropy0,ciphertext,hj,hs0,hg,hk,hd,hsl⟩
  · rcases hd with rfl | rfl
    · exact .inr ⟨r,u,c,hr0,hu,ht,hl,hn⟩
    · cases ht
  · rcases hd with rfl | rfl
    · -- the live record is the one the first commit sealed
      obtain rfl := some.inj hu
      obtain rfl := some.inj ht
      have hf:=hc _ _ _ _ _ _ hsl
      rw [hk] at hf
      have hr : a0.response=resp := Except.ok.inj (hf.symm.trans hn)
      exact .inl ⟨j,s0,a0,hj,hs0,hr ▸ hg,hk,hl⟩
    · cases ht

lemma memoryTrace_singleWinner (t : Records) (ops : List Op) :
    SingleWinner cipher t (memoryTrace cipher t ops) where
  once i j s s' a a' resp resp' hi hj hs hs' hk := by
    rcases Nat.lt_trichotomy i j with hlt | heq | hgt
    · exact absurd hk (memoryTrace_once hc hlt hi hj hs hs')
    · exact heq
    · exact absurd hk.symm (memoryTrace_once hc hgt hj hi hs' hs)
  fresh i s a resp hi hs := by
    rcases memoryTrace_grants hc hi hs with ⟨hb,-⟩ | ⟨-,hn,hrs,-⟩
    · cases hb
    refine ⟨?_,hrs⟩
    cases ht : t.get a.key with
    | none => rfl
    | some r =>
      obtain ⟨r',hr',-⟩ := memoryTrace_keeps hc hi ht
      rw [hn] at hr'
      cases hr'
  replay i s a resp hi hs := memoryTrace_replay hc hi hs
  cleared i j s s' a entropy r hij hi hj hg hn hop hv := by
    obtain ⟨-,hp⟩ := memoryTrace_step hj
    obtain ⟨r',hr,hd⟩ := memoryTrace_later hc hij hi hj hg
    have hcl : r'.ciphertext=none := by
      rcases hd with rfl | rfl
      · exact hn
      · rfl
    rw [hp,hop]
    exact memoryStep_spent hc hr hcl hv entropy
  unchanged i s hi he := by
    obtain ⟨ha,hp⟩ := memoryTrace_step hi
    rw [ha]
    rw [hp] at he
    exact memoryStep_error hc he
end
end

def plainAead : Aead where
  encrypt _ _ message := some (message++List.replicate tagLen 0)
  decrypt _ _ ciphertext := some (ciphertext.take (ciphertext.length - tagLen))

lemma plainAead_opens : plainAead.Opens := by
  intro en epoch key ru plaintext st h
  unfold sealReplay at h
  split at h
  · cases h
  next hl =>
    cases en with
    | none => cases h
    | some no =>
      have hs : st=no.bytes++(plaintext++List.replicate tagLen 0) := (Except.ok.inj h).symm
      have hn:=no.length_eq
      have ht : st.drop nonceLen=plaintext++List.replicate tagLen 0 := by rw [hs,drop_left' hn]
      have hsz : st.length=nonceLen+plaintext.length+tagLen := by grind
      have hb : plaintext.length ≤ maxReplayResultBytes := by
        by_contra hlt
        exact hl (.inr (by omega))
      have hr : ¬(st.length<nonceLen+tagLen ∨ maxCiphertextBytes<st.length) := by
        rw [hsz,maxCiphertextBytes]
        omega
      simp [openReplay,if_neg hr,ht,plainAead,if_neg hl]
end NilVpn.Ledger
