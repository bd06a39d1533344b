import NilVpn.Ledger.Beside
import NilVpn.Ledger.Durability

/-!
# Migration of the legacy ledger (nullifier.rs:424-495)

An open that returns has made every folded key durable before the rename, so it does not matter that nobody
syncs the rename.
-/

namespace NilVpn.Ledger.Migration
open Base Option List Table
open Program (Safe Reads Meets Verdict Faulty)

/-- `past` are the directories after each event, latest first: a legacy path in a
directory of its own may fall back to any of them. -/
structure World where
  volume : Volume FileName
  live : Option FileInner
  past : List (FileName → Option ℕ)

/-- A crash with `elsewhere` picks the entries of the legacy path's names, one by one,
from the past; without it these names are in the ledger's directory. -/
inductive Event
  | openEpoch (now : UInt64) (env : ℕ → Verdict)
  | call (op : Op) (env : ℕ → Verdict)
  | kill
  | crash (pickFile : ℕ → ℕ) (pickDir : ℕ) (elsewhere : Option (FileName → ℕ))

def ofLegacy : FileName → Bool
  | .legacy | .legacyLock | .migrated => true
  | .ledger | .rewriteTmp | .lock => false

def World.restored (w : World) (d : FileName → Option ℕ) (pick : FileName → ℕ) : FileName → Option ℕ :=
  fun n => if ofLegacy n then ((w.past[pick n]?).getD w.volume.dir.current) n else d n

def World.crash (w : World) (pickFile : ℕ → ℕ) (pickDir : ℕ) (elsewhere : Option (FileName → ℕ)) :
    Volume FileName :=
  let v:=w.volume.crash pickFile pickDir
  match elsewhere with
  | none => v
  | some pick => v.withDir (w.restored v.dir.current pick)

def World.next (w : World) (v : Volume FileName) (live : Option FileInner) : World :=
  ⟨v,live,v.dir.current::w.past⟩

def openEpoch (now : UInt64) : FileProg FileInner := openStore .epoch (some .other) now

def World.step (cipher : Aead) (w : World) : Event → World
  | .openEpoch now env =>
    match w.live with
    -- the process lock is held
    | some _ => w
    | none =>
      match (Migration.openEpoch now).run env w.volume with
      | (.done inner,v) => w.next v (some inner)
      | (_,v) => w.next v none
  | .call op env =>
    match w.live with
    | none => w
    | some inner =>
      match (fileOp cipher inner op).run env w.volume with
      | (.done (inner',_),v) => w.next v (some inner')
      | (_,v) => w.next v none
  | .kill => w.next w.volume none
  | .crash pickFile pickDir elsewhere => w.next (w.crash pickFile pickDir elsewhere) none

def World.run (cipher : Aead) (w : World) (events : List Event) : World :=
  runFrom (World.step cipher) w events

def World.start (v : Volume FileName) : World := ⟨v,none,[v.dir.current]⟩

/-- Both ledgers are durable and parse: the epoch ledger into `own`, the legacy ledger
into `folded`. -/
structure Begins (v : Volume FileName) (own folded : Records) : Prop where
  scratch : v.Scratch .rewriteTmp .ledger
  durable : v.Holds .ledger fun o => o=v.visible .ledger
  loads : loadBytes .epoch ((v.visible .ledger).getD [])=.ok own
  legacy : ∃ inode bytes, (v.file inode).images=[bytes] ∧ loadBytes .flat bytes=.ok folded ∧
    ∀ d∈v.dir.images, d .legacy=some inode ∧ d .ledger≠some inode ∧ d .rewriteTmp≠some inode

/-- The running store has every key of both ledgers, with the epoch of the epoch
ledger's record. -/
def World.Remembers (own folded : Records) (w : World) : Prop :=
  ∀ inner, w.live=some inner →
    (∀ k r, own.get k=some r → ∃ r', inner.records.get k=some r' ∧ r'.epoch=r.epoch) ∧
    ∀ k r, folded.get k=some r → inner.records.get k≠none

/-- The question that decides the fold-in is not failed by the operating system. -/
def FoldChecked (env : ℕ → Verdict) (v : Volume FileName) : Prop :=
  match (prepareOpen .epoch (some .other)).run env v with
  | (.done _,v') => Call.found .legacy∉(loadWithLegacy .epoch (some .other)).failures
      (fun i => env (i+(prepareOpen .epoch (some .other)).calls env v)) v'
  | _ => True

instance (env : ℕ → Verdict) (v : Volume FileName) : Decidable (FoldChecked env v) := by
  unfold FoldChecked
  split <;> infer_instance

def World.Checked (w : World) : Event → Prop
  | .openEpoch _ env => FoldChecked env w.volume
  | _ => True

instance (w : World) : DecidablePred w.Checked
  | .openEpoch _ env => inferInstanceAs (Decidable (FoldChecked env w.volume))
  | .call .. | .kill | .crash .. => inferInstanceAs (Decidable True)

def World.CheckedRun (cipher : Aead) : World → List Event → Prop :=
  Along (World.step cipher) World.Checked

def spent (own folded : Records) : (Records → Prop) → Prop :=
  fun A => heldBy own A ∨ presentIn (folded.entries.map Prod.fst) A

lemma spent_persistent (own folded : Records) : ∀ A, spent own folded A → Persistent A := by
  rintro A (hA | hA)
  · exact heldBy_persistent own A hA
  · exact presentIn_persistent _ A hA

structure Pending (own : Records) (inode : ℕ) (bytes : Bytes) (v : Volume FileName) : Prop where
  inv : Inv (KeepsAll (heldBy own)) v
  beside : Beside inode bytes v

section
variable {own folded : Records} {ino : ℕ} {bytes : Bytes} {v : Volume FileName}
lemma presentIn_foldLegacy (own' folded : Records) :
    ∀ A, presentIn (folded.entries.map Prod.fst) A → A (foldLegacy own' folded).1 := by
  rintro A ⟨k,hk,rfl⟩ hnn
  rw [foldLegacy,get_orInsertAll] at hnn
  have hg : folded.get k≠none := fun hn => (get_eq_none folded k).mp hn hk
  obtain ⟨r,hr⟩ := ne_none_iff_exists'.mp hg
  change Table.lookup k folded.entries=some r at hr
  rw [hr] at hnn
  cases ho : own'.get k with
  | none =>
    rw [ho] at hnn
    cases hnn
  | some r' =>
    rw [ho] at hnn
    cases hnn

lemma loadWithLegacy_folds (h : Beside ino bytes v) (hf : loadBytes .flat bytes=.ok folded) :
    Safe (·≠.found .legacy) AnyVolume
      (fun out _ => ∀ A, presentIn (folded.entries.map Prod.fst) A → A out.1) AnyError
      (loadWithLegacy .epoch (some .other)) v := by
  obtain ⟨hl,-⟩ := h.names _ v.dir.current_mem
  have hs : v.visible .legacy=some bytes := by rw [Volume.visible,hl,map_some,h.current]
  refine Safe.afterReading (loadRecords_reads .ledger .epoch) trivial (fun _ => trivial) ?_
  intro own' _
  have hp : Reads (·≠.found .legacy) (fun b => b=true) (legacyPresent .epoch (some .other)) v := by
    refine ⟨fun _ => rfl,fun hne => absurd rfl hne,rfl,?_⟩
    rw [hl]
    rfl
  refine Safe.afterReading hp trivial (fun _ => trivial) ?_
  rintro b rfl
  refine Safe.afterReading (loadRecords_reads .legacy .flat) trivial (fun _ => trivial) ?_
  intro old hln
  rw [hs] at hln
  have heq : old=folded := Except.ok.inj (hln.symm.trans (loadBytes_lines hf))
  rw [heq]
  exact presentIn_foldLegacy own' folded

variable {S : (Records → Prop) → Prop}
lemma KeepsAll.of_heldBy (hS : ∀ A, S A → Persistent A) {t : Records} (ht : ∀ A, S A → A t) {c : Bytes}
    (h : KeepsAll (heldBy t) (some c)) : KeepsAll S (some c) := by
  intro A hA
  rw [keeps_iff]
  intro m t' hl
  refine hS A hA t t' (ht A hA) ?_
  intro k r hr
  exact keeps_iff.mp (h _ ⟨k,r,hr,rfl⟩) m t' hl

lemma ready_of_durable (hS : ∀ A, S A → Persistent A) {i : FileInner} (h : Durable i v)
    {S' : (Records → Prop) → Prop} (hr : Ready S' i v) (hin : ∀ A, S A → A i.records) : Ready S i v := by
  obtain ⟨fd,hd⟩ := h
  refine ⟨⟨Volume.holds_of_settled hd.settled ?_,hd.inv.scratch⟩,
    ⟨hr.live.storable,hin,hr.live.handle⟩,hr.settled⟩
  intro c hc
  have hold:=hd.inv.holds v.dir.current v.dir.current_mem
  rw [hd.settled _ v.dir.current_mem] at hold
  exact KeepsAll.of_heldBy hS hin (hold c hc)

lemma openEpoch_pending (hft : loadBytes .flat bytes=.ok folded) (h : Pending own ino bytes v)
    (now : UInt64) (env : ℕ → Verdict) (hch : FoldChecked env v) :
    Meets (Pending own ino bytes) (fun ir v' => Ready (spent own folded) ir v')
      (fun _ v' => Pending own ino bytes v') ((openEpoch now).run env v) := by
  rw [openEpoch,openStore_eq]
  refine Meets.bind ?_
  have hp : Safe True _ _ _ (prepareOpen .epoch (some .other)) v :=
    (prepareOpen_safe (shape_keepsAll _) h.inv .epoch (some .other)).and
      (prepareOpen_beside .epoch (some .other) _ h.beside)
  have hrun:=hp.run env (fun _ _ => trivial)
  rw [FoldChecked] at hch
  generalize (prepareOpen .epoch (some .other)).calls env v=m at hch ⊢
  generalize (prepareOpen .epoch (some .other)).run env v=out at hrun hch ⊢
  obtain ⟨o,v1⟩ := out
  cases o with
  | error | killed => exact ⟨hrun.1,hrun.2⟩
  | done u =>
  obtain ⟨⟨hn,hcl⟩,hb⟩ := hrun
  refine Meets.bind ?_
  have hl : Reads True _ (loadWithLegacy .epoch (some .other)) v1 := loadWithLegacy_reads ..
  -- the load goes by the verdicts that are left
  have hr:=Safe.run hl (fun i => env (i+m)) (fun _ _ => trivial)
  have hfl:=(loadWithLegacy_folds hb hft).run (fun i => env (i+m))
    fun c hc hq => hch (hq ▸ hc)
  generalize (loadWithLegacy .epoch (some .other)).calls (fun i => env (i+m)) v1=more
  generalize (loadWithLegacy .epoch (some .other)).run (fun i => env (i+m)) v1=out at hr hfl ⊢
  obtain ⟨o,v2⟩ := out
  cases o with
  | error e | killed =>
    have hq : v2=v1 := hr
    rw [hq]
    exact ⟨hn,hb⟩
  | done lo =>
  obtain ⟨hq,own',hf⟩ := hr
  rw [hq]
  have ha:=hf.asserts (heldBy_persistent own) hn
  have ho : Safe True _ _ _ (openLoaded .epoch (some .other) now lo) v1 :=
    ((openLoaded_safe (heldBy_persistent own) hn hcl hf.storable ha .epoch (some .other) now).and
      (openLoaded_durable hn.scratch hb.coherent hcl hf (some .other) now)).and
      (openLoaded_beside hb .epoch (some .other) now lo)
  refine (ho.mono (fun _ hv => ⟨hv.1.1,hv.2⟩) ?_ (fun _ _ hv => ⟨hv.1.1,hv.2⟩)).run _ (fun _ _ => trivial)
  rintro ir v3 ⟨⟨⟨hrd,hg⟩,hd⟩,-⟩
  refine ready_of_durable (spent_persistent own folded) hd hrd ?_
  refine asserts_of_extends (spent_persistent own folded) ?_ hg
  rintro A (hA | hA)
  · exact ha A hA
  · exact hfl A hA
end
section
variable {own folded : Records} {inode : ℕ} {bytes : Bytes} {cipher : Aead}
/-- Either nothing was folded durably yet, no store is open and the legacy name was never
taken away; or the epoch ledger asserts everything. -/
structure World.Kept (own folded : Records) (inode : ℕ) (bytes : Bytes) (w : World) : Prop where
  bounded : ∀ d∈w.past, ∀ n i, d n=some i → i<w.volume.next
  phase : (w.live=none ∧ Pending own inode bytes w.volume ∧ ∀ d∈w.past, d .legacy=some inode) ∨
    (Inv (KeepsAll (spent own folded)) w.volume ∧
      ∀ inner, w.live=some inner → Live (spent own folded) inner w.volume)

variable {w : World} {v : Volume FileName}
section
variable (h : w.Kept own folded inode bytes)
include h
lemma World.Kept.remembers : w.Remembers own folded := by
  intro ir hl
  rcases h.phase with ⟨hn,-⟩ | ⟨-,hs⟩
  · rw [hn] at hl
    cases hl
  have ha:=(hs ir hl).asserts
  refine ⟨?_,?_⟩
  · intro k r hr
    obtain ⟨r',hr',hd⟩ := ha _ (.inl ⟨k,r,hr,rfl⟩)
    refine ⟨r',hr',?_⟩
    rcases hd with rfl | rfl
    · rfl
    · rfl
  · intro k r hr
    have hm : k∈folded.entries.map Prod.fst :=
      List.mem_map.mpr ⟨(k,r),(get_eq_some folded k r).mp hr,rfl⟩
    exact ha _ (.inr ⟨k,hm,rfl⟩)

section
variable (hn : w.volume.next≤v.next)
include hn
lemma World.Kept.bounded_next (hs : v.Scratch .rewriteTmp .ledger) (l : Option FileInner) :
    ∀ d∈(w.next v l).past, ∀ n i, d n=some i → i<(w.next v l).volume.next := by
  intro d hd n i hi
  rcases mem_cons.mp hd with rfl | hd
  · exact hs.bounded _ v.dir.current_mem n i hi
  · exact Nat.lt_of_lt_of_le (h.bounded d hd n i hi) hn

lemma World.Kept.pending (hp : ∀ d∈w.past, d .legacy=some inode) (hv : Pending own inode bytes v) :
    (w.next v none).Kept own folded inode bytes := by
  refine ⟨h.bounded_next hn hv.inv.scratch none,.inl ⟨rfl,hv,?_⟩⟩
  intro d hd
  rcases mem_cons.mp hd with rfl | hd
  · exact (hv.beside.names _ v.dir.current_mem).1
  · exact hp d hd

lemma World.Kept.asserting (hv : Inv (KeepsAll (spent own folded)) v) {l : Option FileInner}
    (hl : ∀ inner, l=some inner → Live (spent own folded) inner v) :
    (w.next v l).Kept own folded inode bytes :=
  ⟨h.bounded_next hn hv.scratch l,.inr ⟨hv,hl⟩⟩

lemma World.Kept.closed (hv : Inv (KeepsAll (spent own folded)) v) :
    (w.next v none).Kept own folded inode bytes :=
  h.asserting hn hv nofun
end
end

lemma step_openEpoch_kept (hf : loadBytes .flat bytes=.ok folded)
    (h : w.Kept own folded inode bytes) (now : UInt64) (env : ℕ → Verdict)
    (hc : FoldChecked env w.volume) :
    (w.step cipher (.openEpoch now env)).Kept own folded inode bytes := by
  cases hl : w.live with
  | some ir =>
    simp only [World.step,hl]
    exact h
  | none =>
    have hn:=(openEpoch now).run_next_le env w.volume
    simp only [World.step,hl]
    rcases h.phase with ⟨-,hp,hps⟩ | ⟨hinv,-⟩
    · have hrun:=openEpoch_pending hf hp now env hc
      generalize (openEpoch now).run env w.volume=out at hrun hn
      obtain ⟨o,v⟩ := out
      cases o with
      | error | killed => exact h.pending hn hps hrun
      | done ir =>
        have hr : Ready (spent own folded) ir v := hrun
        refine h.asserting hn hr.inv ?_
        rintro _ ⟨⟩
        exact hr.live
    · have hs : Safe True _ _ _ (openEpoch now) w.volume :=
        openStore_safe (spent_persistent own folded) hinv .epoch (some .other) now
      have hrun:=hs.run env (fun _ _ => trivial)
      generalize (openEpoch now).run env w.volume=out at hrun hn
      obtain ⟨o,v⟩ := out
      cases o with
      | error | killed => exact h.closed hn hrun
      | done ir =>
        have hr : Ready (spent own folded) ir v := hrun
        refine h.asserting hn hr.inv ?_
        rintro _ ⟨⟩
        exact hr.live

lemma step_call_kept (hc : cipher.Opens) (h : w.Kept own folded inode bytes) (op : Op)
    (env : ℕ → Verdict) : (w.step cipher (.call op env)).Kept own folded inode bytes := by
  cases hl : w.live with
  | none =>
    simp only [World.step,hl]
    exact h
  | some ir =>
    rcases h.phase with ⟨hnn,-⟩ | ⟨hinv,hs⟩
    · rw [hnn] at hl
      cases hl
    have hsf : Safe True _ _ _ (fileOp cipher ir op) w.volume :=
      fileOp_safe hc (spent_persistent own folded) hinv (hs ir hl) op
    have hr:=hsf.run env (fun _ _ => trivial)
    have hn:=(fileOp cipher ir op).run_next_le env w.volume
    simp only [World.step,hl]
    generalize (fileOp cipher ir op).run env w.volume=out at hr hn
    obtain ⟨o,v⟩ := out
    cases o with
    | error e => exact False.elim hr
    | killed => exact h.closed hn hr
    | done r =>
      have ha : Answered (spent own folded) True cipher ir op w.volume r.1 r.2 v := hr
      refine h.asserting hn ha.inv ?_
      rintro _ ⟨⟩
      exact ha.live

lemma World.Kept.restored_lt (h : w.Kept own folded inode bytes)
    (hs : w.volume.Scratch .rewriteTmp .ledger) (pickDir : ℕ) (p : FileName → ℕ) :
    ∀ n i, w.restored (w.volume.dir.restore pickDir).current p n=some i → i<w.volume.next := by
  intro n i hi
  unfold World.restored at hi
  split at hi
  · cases hp : w.past[p n]? with
    | none =>
      rw [hp] at hi
      exact hs.bounded _ w.volume.dir.current_mem n i hi
    | some d =>
      rw [hp] at hi
      exact h.bounded d (mem_of_getElem? hp) n i hi
  · exact hs.bounded _ (Cached.restore_current_mem w.volume.dir pickDir) n i hi

lemma step_crash_kept (h : w.Kept own folded inode bytes) (p : ℕ → ℕ) (pickDir : ℕ)
    (e : Option (FileName → ℕ)) :
    (w.step cipher (.crash p pickDir e)).Kept own folded inode bytes := by
  have hn : w.volume.next≤(w.crash p pickDir e).next := by
    unfold World.crash
    split
    · exact Nat.le_refl _
    · exact Nat.le_refl _
  rcases h.phase with ⟨-,hpe,hps⟩ | ⟨hinv,-⟩
  · refine h.pending hn hps ?_
    have hc : Pending own inode bytes (w.volume.crash p pickDir) :=
      ⟨hpe.inv.crash p pickDir,hpe.beside.crash p pickDir⟩
    cases e with
    | none => exact hc
    | some pc =>
      have hb:=h.restored_lt hpe.inv.scratch pickDir pc
      -- every directory of the past has the legacy ledger under its name
      have hl : w.restored (w.volume.dir.restore pickDir).current pc .legacy=some inode := by
        change ((w.past[pc .legacy]?).getD w.volume.dir.current) .legacy=some inode
        cases hp : w.past[pc .legacy]? with
        | none => exact (hpe.beside.names _ w.volume.dir.current_mem).1
        | some d => exact hps d (mem_of_getElem? hp)
      exact ⟨⟨hc.inv.holds.withDir rfl,hc.inv.scratch.withDir rfl rfl hb⟩,hc.beside.withDir rfl rfl hl hb⟩
  · refine h.closed hn ?_
    have hc:=hinv.crash p pickDir
    cases e with
    | none => exact hc
    | some pc =>
      have hb:=h.restored_lt hinv.scratch pickDir pc
      exact ⟨hc.holds.withDir rfl,hc.scratch.withDir rfl rfl hb⟩

lemma step_kept (hc : cipher.Opens) (hf : loadBytes .flat bytes=.ok folded)
    (h : w.Kept own folded inode bytes) (e : Event) (hch : w.Checked e) :
    (w.step cipher e).Kept own folded inode bytes := by
  cases e with
  | openEpoch now env => exact step_openEpoch_kept hf h now env hch
  | call op env => exact step_call_kept hc h op env
  | crash pf pd el => exact step_crash_kept h pf pd el
  | kill =>
    rcases h.phase with ⟨-,hp,hps⟩ | ⟨hinv,-⟩
    · exact h.pending (Nat.le_refl _) hps hp
    · exact h.closed (Nat.le_refl _) hinv

lemma run_kept (hc : cipher.Opens) (hf : loadBytes .flat bytes=.ok folded)
    (h : w.Kept own folded inode bytes) (events : List Event) (hch : w.CheckedRun cipher events) :
    (w.run cipher events).Kept own folded inode bytes :=
  Along.invariant (I := World.Kept own folded inode bytes) (fun _ e hk he => step_kept hc hf hk e he)
    h events hch

lemma kept_start (h : Begins v own folded) (hf : (v.file inode).images=[bytes])
    (hn : ∀ d∈v.dir.images, d .legacy=some inode ∧ d .ledger≠some inode ∧ d .rewriteTmp≠some inode) :
    (World.start v).Kept own folded inode bytes := by
  have hl : Inv (linesAre (shownLines v)) v := by
    refine ⟨h.durable.mono ?_,h.scratch⟩
    intro o ho
    rw [ho]
    rfl
  have hp : Pending own inode bytes v :=
    ⟨inv_heldBy hl (loadBytes_lines h.loads),h.scratch,coherent_of_linesAre hl,hf,hn⟩
  refine ⟨?_,.inl ⟨rfl,hp,?_⟩⟩
  · intro d hd
    rw [mem_singleton.mp hd]
    exact h.scratch.bounded _ v.dir.current_mem
  · intro d hd
    rw [mem_singleton.mp hd]
    exact (hn _ v.dir.current_mem).1

/-- In every run whose opens all learn whether there is a legacy ledger, each open store
has the keys of both ledgers. -/
theorem migration_forgets_nothing (cipher : Aead) (hc : cipher.Opens) (v : Volume FileName)
    (own folded : Records) (hv : Begins v own folded) (events : List Event)
    (hcheck : (World.start v).CheckedRun cipher events) :
    ((World.start v).run cipher events).Remembers own folded := by
  obtain ⟨inode,bytes,hf,hl,hn⟩ := hv.legacy
  exact (run_kept hc hl (kept_start hv hf hn) events hcheck).remembers
end

def bothLedgers : Volume FileName where
  file := fun i => Cached.clean (if i=1 then [97,98,newline] else [])
  next := 2
  dir := Cached.clean fun
    | .ledger => some 0
    | .legacy => some 1
    | _ => none

def legacyRecords : Records := Table.empty.insert [97,98] ⟨0,none,none⟩

lemma begins_bothLedgers : Begins bothLedgers Table.empty legacyRecords := by
  refine ⟨⟨?_,?_,?_⟩,by decide,rfl,1,[97,98,newline],rfl,rfl,by decide⟩
  · intro d hd m i hi
    rw [mem_singleton.mp hd] at hi
    cases m <;> cases hi <;> decide
  · intro d hd i hi
    rw [mem_singleton.mp hd] at hi
    cases hi
  · intro i hi
    cases hi

def unfolded : List Event := [.openEpoch 0 (failAt 12)]

/-- An open whose `stat` fails returns a store without the legacy key. -/
theorem legacy_key_forgotten : plainAead.Opens ∧ Begins bothLedgers Table.empty legacyRecords ∧
      ¬((World.start bothLedgers).run plainAead unfolded).Remembers Table.empty legacyRecords := by
  refine ⟨plainAead_opens,begins_bothLedgers,?_⟩
  intro ha
  have hout : ((World.start bothLedgers).run plainAead unfolded).live.map
      (fun inner => inner.records.get [97,98])=some none := by decide +kernel
  obtain ⟨inner,hl,hn⟩ := map_eq_some_iff.mp hout
  exact (ha inner hl).2 [97,98] ⟨0,none,none⟩ rfl hn

/-- A kill between the rename and the directory sync of the fold-in, a crash that takes the
rename back, a whole migration, a crash that brings the legacy file back, and an open. -/
def halfFinished : List Event :=
  [.openEpoch 0 (killAt 25),.crash (fun _ => 0) 1 none,.openEpoch 1 noFault,
    .crash (fun _ => 0) 0 (some fun _ => 1),.openEpoch 2 noFault]

theorem migration_forgets_nothing_halfFinished : (World.start bothLedgers).CheckedRun plainAead halfFinished ∧
      ((World.start bothLedgers).run plainAead halfFinished).live.isSome=true ∧
      ((World.start bothLedgers).run plainAead halfFinished).Remembers Table.empty legacyRecords := by
  have hc : Along (World.step plainAead) World.Checked (World.start bothLedgers) halfFinished := by
    decide +kernel
  refine ⟨hc,by decide +kernel,?_⟩
  exact migration_forgets_nothing plainAead plainAead_opens bothLedgers Table.empty legacyRecords
    begins_bothLedgers halfFinished hc
end NilVpn.Ledger.Migration
