import NilVpn.Ledger.FileOpen

/-!
# One winner per token, in both ledgers
-/

namespace NilVpn.Ledger
open Base
open Program (Safe faulty_of_failed)

def noFault : ℕ → Program.Verdict := fun _ => .ok

@[simp] lemma not_faulty_noFault : ¬Program.Faulty noFault := by
  intro h
  obtain ⟨i,n,hi⟩ := h
  cases hi

def killAt (n : ℕ) : ℕ → Program.Verdict := fun i => if i=n then .kill 0 else .ok

@[simp] lemma killAt_free (n : ℕ) : ¬Program.Faulty (killAt n) := by
  intro h
  obtain ⟨i,m,hi⟩ := h
  unfold killAt at hi
  split at hi <;> cases hi

abbrev FileState := FileInner × Volume FileName

/-- One call with every file-system call carried out. The last branch is never
taken: an operation returns its own error as a value. -/
def fileStep (cipher : Aead) (s : FileState) (op : Op) : FileState × Reply :=
  match (fileOp cipher s.1 op).run noFault s.2 with
  | (.done (inner,reply),v) => ((inner,v),reply)
  | (_,v) => ((s.1,v),.commit (.error ioFailure))

abbrev fileTrace (cipher : Aead) (s : FileState) (ops : List Op) : List Step :=
  trace (fileStep cipher) (fun s => s.1.records) s ops

def noAssertion : (Records → Prop) → Prop := fun _ => False

lemma noAssertion_persistent : ∀ A, noAssertion A → Persistent A := fun _ hA => hA.elim

lemma inv_noAssertion {v : Volume FileName} (h : v.Scratch .rewriteTmp .ledger) :
    Inv (KeepsAll noAssertion) v := by
  refine ⟨?_,h⟩
  intro d hd
  cases hn : d .ledger with
  | none => exact fun _ hA => hA.elim
  | some i => exact fun _ _ _ hA => hA.elim

structure Open (s : FileState) : Prop where
  inv : Inv (KeepsAll noAssertion) s.2
  live : Live noAssertion s.1 s.2
  handle : s.1.file≠none

lemma fileStep_refines {c : Aead} (hc : c.Opens) {s : FileState} (h : Open s)
    (op : Op) : Open (fileStep c s op).1 ∧ memoryStep c s.1.records op =
        ((fileStep c s op).1.1.records,(fileStep c s op).2) := by
  have hsf : Safe False _ _ _ (fileOp c s.1 op) s.2 :=
    fileOp_safe hc noAssertion_persistent h.inv h.live op
  obtain ⟨r,v',hr,ha⟩ := hsf.returns
  obtain ⟨hfl,hm⟩ := ha.refines (fun hf => hf) h.handle
  have hs : fileStep c s op=((r.1,v'),r.2) := by rw [fileStep,show noFault=fun _ => .ok from rfl,hr]
  rw [hs]
  exact ⟨⟨ha.inv,ha.live,hfl⟩,hm⟩

lemma fileTrace_eq_memoryTrace {c : Aead} (hc : c.Opens) {s : FileState} (h : Open s)
    (ops : List Op) : fileTrace c s ops=memoryTrace c s.1.records ops := by
  induction ops generalizing s with
  | nil => rfl
  | cons op ops ih => simp_all [fileTrace,memoryTrace,trace,id_eq,fileStep_refines]

lemma openStore_open {v v' : Volume FileName} {i : FileInner}
    (h : v.Scratch .rewriteTmp .ledger) (m : FileMode) (l : Option LegacyPath)
    (now : UInt64) (hu : (openStore m l now).run noFault v=(.done i,v')) :
    Open (i,v') := by
  have hs : Safe False _ _ _ (openStore m l now) v :=
    openStore_safe noAssertion_persistent (inv_noAssertion h) m l now
  have hrd:=hs.run noFault fun _ hc => not_faulty_noFault (faulty_of_failed hc)
  rw [hu] at hrd
  have hr : Ready noAssertion i v' := hrd
  obtain ⟨fd,hfd,-⟩ := hr.settled
  refine ⟨hr.inv,hr.live,?_⟩
  rw [hfd]
  exact Option.some_ne_none fd

/-- A new in-memory ledger, and a file ledger opened on any volume: every history
of commits and prunes without an I/O failure has one winner per key. -/
theorem ledger_single_winner (cipher : Aead) (hc : cipher.Opens) :
    (∀ ops, SingleWinner cipher Table.empty (memoryTrace cipher Table.empty ops)) ∧
    (∀ (v v' : Volume FileName) (mode : FileMode) (legacy : Option LegacyPath) (now : UInt64)
      (inner : FileInner), v.Scratch .rewriteTmp .ledger →
      (openStore mode legacy now).run noFault v=(.done inner,v') →
      ∀ ops, SingleWinner cipher inner.records (fileTrace cipher (inner,v') ops)) := by
  refine ⟨fun ops => memoryTrace_singleWinner hc Table.empty ops,?_⟩
  intro v v' mode legacy now inner hs hr ops
  have hopen:=openStore_open hs mode legacy now hr
  rw [fileTrace_eq_memoryTrace hc hopen ops]
  exact memoryTrace_singleWinner hc inner.records ops

theorem ledger_single_winner_plain : plainAead.Opens ∧ (∀ ops, SingleWinner plainAead Table.empty
      (memoryTrace plainAead Table.empty ops)) ∧
    ∃ inner v', (openStore .flat none 0).run noFault Volume.empty=(.done inner,v') ∧
      ∀ ops, SingleWinner plainAead inner.records (fileTrace plainAead (inner,v') ops) :=
  ⟨plainAead_opens,(ledger_single_winner plainAead plainAead_opens).1,_,_,rfl,
    (ledger_single_winner plainAead plainAead_opens).2 _ _ .flat none 0 _ (Volume.scratch_empty _ _) rfl⟩
end NilVpn.Ledger
