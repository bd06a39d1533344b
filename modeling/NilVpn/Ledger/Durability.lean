import NilVpn.Base.Runs
import NilVpn.Ledger.SingleWinner

/-!
# Durability of the file ledger under failures, kills and crashes
-/

namespace NilVpn.Ledger
open Base Option List
open Program (Safe Verdict)

structure World where
  volume : Volume FileName
  live : Option FileInner
  granted : List Bytes
  answers : List (Bytes × Bytes)

inductive Event
  | openStore (mode : FileMode) (legacy : Option LegacyPath) (now : UInt64) (env : ℕ → Verdict)
  | call (op : Op) (env : ℕ → Verdict)
  | kill
  | crash (pickFile : ℕ → ℕ) (pickDir : ℕ)

def newKey : Op → Reply → List Bytes
  | .commit a _,.commit (.ok (.granted _ true)) => [a.key]
  | _,_ => []

def newAnswer : Op → Reply → List (Bytes × Bytes)
  | .commit a _,.commit (.ok (.granted response _)) => [(a.key,response)]
  | _,_ => []

def World.step (cipher : Aead) (w : World) : Event → World
  | .openStore mode legacy now env =>
    match w.live with
    | some _ => w
    | none =>
      match (Ledger.openStore mode legacy now).run env w.volume with
      | (.done inner,v) => {w with volume := v,live := some inner}
      | (_,v) => {w with volume := v,live := none}
  | .call op env =>
    match w.live with
    | none => w
    | some inner =>
      match (fileOp cipher inner op).run env w.volume with
      | (.done (inner',reply),v) =>
        ⟨v,some inner',newKey op reply++w.granted,newAnswer op reply++w.answers⟩
      | (_,v) => {w with volume := v,live := none}
  | .kill => {w with live := none}
  | .crash pickFile pickDir => {w with volume := w.volume.crash pickFile pickDir,live := none}

def World.run (cipher : Aead) (w : World) (events : List Event) : World :=
  runFrom (World.step cipher) w events

def World.start (v : Volume FileName) : World := ⟨v,none,[],[]⟩

def World.AllPresent (w : World) : Prop :=
  ∀ inner, w.live=some inner → ∀ k∈w.granted, inner.records.get k≠none

/-- No first commit is appended while a crash could still unbind the ledger's name
from the file the handle writes to. -/
def World.Anchored (w : World) : Event → Prop
  | .call (.commit a _) _ => ∀ inner fd, w.live=some inner → inner.file=some fd →
      inner.records.get a.key=none → w.volume.Settled .ledger fd
  | _ => True

def presentIn (granted : List Bytes) : (Records → Prop) → Prop :=
  fun A => ∃ k∈granted, A=fun t => t.get k≠none

lemma presentIn_persistent (g : List Bytes) : ∀ A, presentIn g A → Persistent A := by
  intro A hA
  obtain ⟨k,-,rfl⟩ := hA
  intro t t' ht he
  obtain ⟨r,hr⟩ := ne_none_iff_exists'.mp ht
  obtain ⟨r',hr',-⟩ := he k r hr
  rw [hr']
  exact some_ne_none r'

structure World.Good (w : World) : Prop where
  inv : Inv (KeepsAll (presentIn w.granted)) w.volume
  live : ∀ inner, w.live=some inner → Live (presentIn w.granted) inner w.volume

variable {w : World} {v : Volume FileName} {cipher : Aead}
lemma World.Good.allPresent (h : w.Good) : w.AllPresent := by
  intro ir hl k hk
  exact (h.live ir hl).asserts _ ⟨k,hk,rfl⟩

lemma good_start (h : v.Scratch .rewriteTmp .ledger) : (World.start v).Good := by
  refine ⟨⟨?_,h⟩,nofun⟩
  have hnn : ∀ o, KeepsAll (presentIn []) o := by
    intro o A hA
    obtain ⟨k,hk,-⟩ := hA
    cases hk
  intro d hd
  cases hn : d .ledger with
  | none => exact hnn none
  | some i => exact fun c _ => hnn (some c)

lemma World.Good.dead (h : Inv (KeepsAll (presentIn w.granted)) v) :
    ({w with volume := v,live := none} : World).Good := ⟨h,fun _ hl => (by cases hl)⟩

lemma keeps_commitLine {c : Bytes} (htr : Terminated c) {a : Commit} {sealed : Bytes}
    (hs : Storable a.key (a.record sealed)) :
    Keeps (fun t => t.get a.key≠none) (some (c++commitLine a sealed)) := by
  rw [keeps_iff]
  intro m t ht
  have hl:=splitLines_line (lineText a.key (a.record sealed)) [] (newline_not_mem_lineText hs)
  rw [commitLine,splitLines_append c _ htr,hl,loadLines_append] at ht
  obtain ⟨t0,-,ht⟩ := except_bind_ok ht
  simp only [splitLines,loadLines,loadLine_lineText m t0 hs,bind,Except.bind] at ht
  rw [← Except.ok.inj ht,Table.get_orInsert,if_pos rfl]
  exact some_ne_none _

lemma inv_granted {g : List Bytes} (h : Inv (KeepsAll (presentIn g)) v) {fd : ℕ}
    (hs : v.Settled .ledger fd) {k c : Bytes} (him : (v.file fd).images=[c])
    (hk : Keeps (fun t => t.get k≠none) (some c)) :
    Inv (KeepsAll (presentIn (k::g))) v := by
  refine ⟨Volume.holds_of_settled hs ?_,h.scratch⟩
  intro x hx A hA
  have hold:=h.holds v.dir.current v.dir.current_mem
  rw [hs _ v.dir.current_mem] at hold
  obtain ⟨k',hk',rfl⟩ := hA
  rcases mem_cons.mp hk' with rfl | hk'
  · exact forall_of_singleton (P := fun c => Keeps _ (some c)) him hk x hx
  · exact hold x hx _ ⟨k',hk',rfl⟩

lemma step_open_good (h : w.Good) (m : FileMode) (l : Option LegacyPath) (now : UInt64)
    (env : ℕ → Verdict) :
    (w.step cipher (.openStore m l now env)).Good := by
  cases hl : w.live with
  | some ir =>
    simp only [World.step,hl]
    exact h
  | none =>
    have hs : Safe True _ _ _ (Ledger.openStore m l now) w.volume :=
      openStore_safe (presentIn_persistent w.granted) h.inv m l now
    have hrun:=hs.run env (fun _ _ => trivial)
    simp only [World.step,hl]
    generalize (Ledger.openStore m l now).run env w.volume=out at hrun
    obtain ⟨o,v⟩ := out
    cases o with
    | done ir =>
      have hr : Ready (presentIn w.granted) ir v := hrun
      refine ⟨hr.inv,?_⟩
      rintro _ ⟨⟩
      exact hr.live
    | error | killed => exact World.Good.dead hrun

lemma newKey_cases (op : Op) (r : Reply) : newKey op r=[] ∨
    ∃ a en re, op=.commit a en ∧ r=.commit (.ok (.granted re true)) ∧ newKey op r=[a.key] := by
  unfold newKey
  split
  next a en re => exact Or.inr ⟨a,en,re,rfl,rfl,rfl⟩
  · exact Or.inl rfl

lemma World.Good.reply (hc : cipher.Opens) (h : w.Good) {f inner' : FileInner}
    (hl : w.live=some f) {op : Op} {env : ℕ → Verdict} (hcn : w.Anchored (.call op env))
    {r : Reply}
    (ha : Answered (presentIn w.granted) True cipher f op w.volume inner' r v) :
    World.Good ⟨v,some inner',newKey op r++w.granted,newAnswer op r++w.answers⟩ := by
  rcases newKey_cases op r with hn | ⟨a,entropy,resp,hop,hr,hkey⟩
  · rw [hn]
    refine ⟨ha.inv,?_⟩
    rintro _ ⟨⟩
    exact ha.live
  obtain ⟨-,hv,hg,fd,c,hf,hs,hre,hdi,him⟩ := ha.granted a entropy resp hop hr
  rw [hop] at hcn
  have hse : v.Settled .ledger fd := by
    have hset:=hcn f fd hl hf hg
    intro d hd
    rw [hdi] at hd
    exact hset d hd
  have ht:=((h.live f hl).handle fd hf).2
  have hst:=storable_record hc hv hs
  rw [hkey]
  refine ⟨inv_granted ha.inv hse him (keeps_commitLine ht hst),?_⟩
  rintro _ ⟨⟩
  refine ⟨ha.live.storable,?_,ha.live.handle⟩
  intro A hA
  obtain ⟨k,hk,rfl⟩ := hA
  rcases mem_cons.mp hk with rfl | hk
  · rw [hre,Table.get_insert_self]
    exact some_ne_none _
  · exact ha.live.asserts _ ⟨k,hk,rfl⟩

lemma step_call_good (hc : cipher.Opens) (h : w.Good) (op : Op) (env : ℕ → Verdict)
    (hcn : w.Anchored (.call op env)) :
    (w.step cipher (.call op env)).Good := by
  cases hl : w.live with
  | none =>
    simp only [World.step,hl]
    exact h
  | some ir =>
    have hs : Safe True _ _ _ (fileOp cipher ir op) w.volume :=
      fileOp_safe hc (presentIn_persistent w.granted) h.inv (h.live ir hl) op
    have hr:=hs.run env (fun _ _ => trivial)
    simp only [World.step,hl]
    generalize (fileOp cipher ir op).run env w.volume=out at hr
    obtain ⟨o,v⟩ := out
    cases o with
    | error e => exact False.elim hr
    | killed => exact World.Good.dead hr
    | done r => exact h.reply hc hl hcn hr

lemma step_good (hc : cipher.Opens) (h : w.Good) (e : Event) (hcn : w.Anchored e) :
    (w.step cipher e).Good := by
  cases e with
  | openStore m lg now env => exact step_open_good h m lg now env
  | call op env => exact step_call_good hc h op env hcn
  | kill => exact World.Good.dead h.inv
  | crash pf pd => exact World.Good.dead (h.inv.crash pf pd)

def World.AnchoredRun (cipher : Aead) : World → List Event → Prop :=
  Along (World.step cipher) World.Anchored

lemma run_good (hc : cipher.Opens) (h : w.Good) (events : List Event)
    (hcn : w.AnchoredRun cipher events) : (w.run cipher events).Good :=
  Along.invariant (I := World.Good) (fun _ e hg he => step_good hc hg e he) h events hcn

/-- On any volume, in every run whose first commits are appended only under a
durable name, every granted key is spent in every store that opens later. -/
theorem granted_keys_survive (cipher : Aead) (hc : cipher.Opens) (v : Volume FileName)
    (hv : v.Scratch .rewriteTmp .ledger) (events : List Event)
    (hcond : (World.start v).AnchoredRun cipher events) :
    ((World.start v).run cipher events).AllPresent :=
  (run_good hc (good_start hv) events hcond).allPresent

def sampleNonce : Nonce := ⟨List.replicate nonceLen 0,rfl⟩

def sampleCommit (digit : UInt8) (replayUntil : UInt64) (response : Bytes) (now : UInt64) : Op :=
  .commit ⟨0,List.replicate 64 digit,replayUntil,response,now⟩ (some sampleNonce)

def failAt (n : ℕ) : ℕ → Verdict := fun i => if i=n then .fail 0 else .ok

/-- The cleanup renames a new ledger into place and its directory sync (call 7)
fails; the next commit is granted from the new file; a crash restores the old name. -/
def lostCommit : List Event :=
  [.openStore .flat none 0 noFault,.call (sampleCommit 49 10 [7] 5) noFault,.call (.prune 20) (failAt 7),
    .call (sampleCommit 50 40 [8] 25) noFault,
    .crash (fun _ => 0) 1,
    .openStore .flat none 30 noFault]

/-- A granted key that a store opened after a crash does not know. -/
theorem granted_key_lost : plainAead.Opens ∧ (Volume.empty : Volume FileName).Scratch .rewriteTmp .ledger ∧
      ¬((World.start Volume.empty).run plainAead lostCommit).AllPresent := by
  refine ⟨plainAead_opens,Volume.scratch_empty _ _,?_⟩
  intro hall
  have hout : let w:=(World.start Volume.empty).run plainAead lostCommit
      List.replicate 64 50∈w.granted ∧
        (w.live.map fun inner => inner.records.get (List.replicate 64 50))=some none := by
    decide +kernel
  obtain ⟨hg,hl⟩ := hout
  obtain ⟨inner,hn,hno⟩ := map_eq_some_iff.mp hl
  exact hall inner hn _ hg hno

def keptCommit : List Event :=
  [.openStore .flat none 0 noFault,.call (sampleCommit 49 10 [7] 5) noFault,.crash (fun _ => 0) 0,
    .openStore .flat none 6 noFault]

theorem granted_keys_survive_kept : (World.start Volume.empty).AnchoredRun plainAead keptCommit ∧
      ((World.start Volume.empty).run plainAead keptCommit).AllPresent := by
  have hs : let w:=(World.start Volume.empty).step plainAead (.openStore .flat none 0 noFault)
      ∀ inner∈w.live, ∀ fd∈inner.file, w.volume.Settled .ledger fd := by
    decide +kernel
  have hc : (World.start Volume.empty).AnchoredRun plainAead keptCommit :=
    ⟨trivial,fun inner fd hl hf _ => hs inner hl fd hf,trivial,trivial,trivial⟩
  exact ⟨hc,granted_keys_survive plainAead plainAead_opens Volume.empty (Volume.scratch_empty _ _)
    keptCommit hc⟩
end NilVpn.Ledger
