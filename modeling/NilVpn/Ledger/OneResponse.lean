import NilVpn.Ledger.Durability

/-!
# One response per token across kills and crashes

`open` does not sync the ledger file, so a record that a killed process wrote but never synced is replayed
by the next store.
-/

namespace NilVpn.Ledger
open Option Base List
open Program (Safe Verdict Faulty faulty_of_failed)

def Event.FaultFree : Event → Prop
  | .openStore _ _ _ env | .call _ env => ¬Faulty env
  | _ => True

/-- A store is opened only on a ledger whose complete lines a crash cannot change. -/
def World.SteadyOpen (w : World) : Event → Prop
  | .openStore _ _ _ _ => w.live=none → Steady w.volume
  | _ => True

def World.SteadyRun (cipher : Aead) : World → List Event → Prop :=
  Along (World.step cipher) World.SteadyOpen

def World.OneResponse (w : World) : Prop := ∀ k r r', (k,r)∈w.answers → (k,r')∈w.answers → r=r'

/-- Whatever the record still opens as is `response`. -/
def AnswersOnly (cipher : Aead) (key : Bytes) (record : StoredRecord) (response : Bytes) : Prop :=
  ∀ u c resp, record.replayUntil=some u → record.ciphertext=some c →
    openReplay cipher record.epoch key u c=.ok resp → resp=response

variable {cipher : Aead} {r : StoredRecord} {v : Volume FileName} {w : World} {inner : FileInner}
lemma AnswersOnly.descends {key response : Bytes} {r' : StoredRecord}
    (h : AnswersOnly cipher key r response) (hd : Descends r r') :
    AnswersOnly cipher key r' response := by
  rcases hd with rfl | rfl
  · exact h
  · intro u c resp hu
    cases hu

def answered (cipher : Aead) (answers : List (Bytes × Bytes)) : (Records → Prop) → Prop :=
  fun A => ∃ k resp, (k,resp)∈answers ∧ A=fun t => ∃ r, t.get k=some r ∧ AnswersOnly cipher k r resp

lemma answered_persistent (cipher : Aead) (a : List (Bytes × Bytes)) :
    ∀ A, answered cipher a A → Persistent A := by
  intro A hA
  obtain ⟨k,resp,-,rfl⟩ := hA
  intro t t' ht he
  obtain ⟨r,hr,ho⟩ := ht
  obtain ⟨r',hr',hd⟩ := he k r hr
  exact ⟨r',hr',ho.descends hd⟩

structure World.Consistent (cipher : Aead) (w : World) : Prop where
  inv : Inv (KeepsAll (answered cipher w.answers)) w.volume
  live : ∀ inner, w.live=some inner → Live (answered cipher w.answers) inner w.volume ∧ Durable inner w.volume
  one : w.OneResponse

lemma consistent_start (cipher : Aead) (h : v.Scratch .rewriteTmp .ledger) :
    (World.start v).Consistent cipher := by
  refine ⟨⟨?_,h⟩,nofun,nofun⟩
  have hnn : ∀ o, KeepsAll (answered cipher []) o := by
    intro o A hA
    obtain ⟨k,resp,hk,-⟩ := hA
    cases hk
  intro d hd
  cases hn : d .ledger with
  | none => exact hnn none
  | some i => exact fun c _ => hnn (some c)

lemma World.Consistent.dead (h : w.Consistent cipher) (hv : Inv (KeepsAll (answered cipher w.answers)) v) :
    ({w with volume := v,live := none} : World).Consistent cipher :=
  ⟨hv,nofun,h.one⟩

lemma inv_answered {a : List (Bytes × Bytes)}
    (h : Inv (KeepsAll (answered cipher a)) v) (hd : Durable inner v) {k resp : Bytes}
    (hr : inner.records.get k=some r) (hon : AnswersOnly cipher k r resp) :
    Inv (KeepsAll (answered cipher ((k,resp)::a))) v := by
  obtain ⟨fd,hd⟩ := hd
  refine ⟨(h.holds.and hd.inv.holds).mono ?_,h.scratch⟩
  intro o ho A hA
  obtain ⟨k',re',hm,rfl⟩ := hA
  rcases mem_cons.mp hm with heq | hm
  · obtain ⟨rfl,rfl⟩ := Prod.mk.inj heq
    obtain ⟨c,hc,hl⟩ := ho.2 _ ⟨k',r,hr,rfl⟩
    refine ⟨c,hc,?_⟩
    intro m t ht
    obtain ⟨r',hr',hds⟩ := hl m t ht
    exact ⟨r',hr',hon.descends hds⟩
  · exact ho.1 _ ⟨k',re',hm,rfl⟩

lemma consistent_answer (h : w.OneResponse) {g : List Bytes}
    (hn : Inv (KeepsAll (answered cipher w.answers)) v)
    (hl : Live (answered cipher w.answers) inner v) (hd : Durable inner v) {k resp : Bytes}
    (hr : inner.records.get k=some r) (ho : AnswersOnly cipher k r resp)
    (ha : ∀ re', (k,re')∈w.answers → re'=resp) :
    World.Consistent cipher ⟨v,some inner,g,(k,resp)::w.answers⟩ := by
  refine ⟨inv_answered hn hd hr ho,?_,?_⟩
  · rintro _ ⟨⟩
    refine ⟨⟨hl.storable,?_,hl.handle⟩,hd⟩
    intro A hA
    obtain ⟨k',re',hm,rfl⟩ := hA
    rcases mem_cons.mp hm with heq | hm
    · obtain ⟨rfl,rfl⟩ := Prod.mk.inj heq
      exact ⟨r,hr,ho⟩
    · exact hl.asserts _ ⟨k',re',hm,rfl⟩
  · intro k' r1 r2 h1 h2
    rcases mem_cons.mp h1 with he1 | hol
    · grind [Prod.mk.inj]
    · rcases mem_cons.mp h2 with he2 | hod
      · obtain ⟨rfl,rfl⟩ := Prod.mk.inj he2
        exact ha r1 hol
      · exact h k' r1 r2 hol hod

lemma step_open_consistent (h : w.Consistent cipher) (m : FileMode)
    (l : Option LegacyPath) (now : UInt64) (env : ℕ → Verdict) (he : ¬Faulty env)
    (hs : w.live=none → Steady w.volume) :
    (w.step cipher (.openStore m l now env)).Consistent cipher := by
  cases hl : w.live with
  | some inner =>
    simp only [World.step,hl]
    exact h
  | none =>
    have hsf : Safe False _ _ _ (Ledger.openStore m l now) w.volume :=
      (openStore_safe (answered_persistent cipher w.answers) h.inv m l now).and
        (openStore_durable h.inv.scratch (hs hl) m l now)
    have hrun:=hsf.run env fun _ hc => he (faulty_of_failed hc)
    simp only [World.step,hl]
    generalize (Ledger.openStore m l now).run env w.volume=out at hrun
    obtain ⟨o,v⟩ := out
    cases o with
    | done inner =>
      have hr : Ready (answered cipher w.answers) inner v ∧ Durable inner v := hrun
      refine ⟨hr.1.inv,?_,h.one⟩
      rintro _ ⟨⟩
      exact ⟨hr.1.live,hr.2⟩
    | error | killed => exact h.dead hrun.1

lemma newAnswer_cases (op : Op) (r : Reply) : newAnswer op r=[] ∨
    ∃ a en re b, op=.commit a en ∧ r=.commit (.ok (.granted re b)) ∧ newAnswer op r=[(a.key,re)] := by
  unfold newAnswer
  split
  next a en re b => exact Or.inr ⟨a,en,re,b,rfl,rfl,rfl⟩
  · exact Or.inl rfl

section
variable (hc : cipher.Opens)
include hc
section
variable (h : w.Consistent cipher)
include h
lemma World.Consistent.reply {inner' : FileInner} (hli : w.live=some inner) {op : Op} {reply : Reply}
    (ha : Answered (answered cipher w.answers) False cipher inner op w.volume inner' reply v) :
    World.Consistent cipher ⟨v,some inner',newKey op reply++w.granted,newAnswer op reply++w.answers⟩ := by
  obtain ⟨hl,hdur⟩ := h.live inner hli
  have hdur':=ha.durable (fun hf => hf) hdur
  rcases newAnswer_cases op reply with hn | ⟨a,entropy,rs,b,hop,hrp,hans⟩
  · rw [hn]
    refine ⟨ha.inv,?_,h.one⟩
    rintro _ ⟨⟩
    exact ⟨ha.live,hdur'⟩
  rw [hans]
  cases b with
  | true =>
    obtain ⟨hrs,hv,hg,fd,ci,-,hs,hrec,-⟩ := ha.granted a entropy rs hop hrp
    have hon:=hc _ _ _ _ _ _ hs
    have hr : inner'.records.get a.key=some (a.record ci) := by rw [hrec,Table.get_insert_self]
    refine consistent_answer h.one ha.inv ha.live hdur' hr ?_ ?_
    · intro u c rs' hu ht ho
      rw [← some.inj hu,← some.inj ht] at ho
      rw [hrs]
      exact Except.ok.inj (ho.symm.trans hon)
    · -- an answered key is in the records, and this one was not
      intro rs' hm
      obtain ⟨r0,hr0,-⟩ := hl.asserts _ ⟨a.key,rs',hm,rfl⟩
      rw [hg] at hr0
      cases hr0
  | false =>
    obtain ⟨hin,hvol,r,hr,ho⟩ := ha.replayed a entropy rs hop hrp
    obtain ⟨-,u,c,hu,ht,-,hon⟩ := liveOutcome_granted ho
    rw [hin] at hdur' ⊢
    have hli' : Live (answered cipher w.answers) inner v := hin ▸ ha.live
    refine consistent_answer h.one ha.inv hli' hdur' hr ?_ ?_
    · intro u' c' rs' hu' ht' ho'
      obtain rfl := some.inj (hu'.symm.trans hu)
      obtain rfl := some.inj (ht'.symm.trans ht)
      exact Except.ok.inj (ho'.symm.trans hon)
    · intro rs' hm
      obtain ⟨r0,hr0,hol⟩ := hl.asserts _ ⟨a.key,rs',hm,rfl⟩
      obtain rfl := some.inj (hr0.symm.trans hr)
      exact (hol u c rs hu ht hon).symm

lemma step_call_consistent (op : Op) (env : ℕ → Verdict) (he : ¬Faulty env) :
    (w.step cipher (.call op env)).Consistent cipher := by
  cases hl : w.live with
  | none =>
    simp only [World.step,hl]
    exact h
  | some inner =>
    have hs : Safe False _ _ _ (fileOp cipher inner op) w.volume :=
      fileOp_safe hc (answered_persistent cipher w.answers) h.inv (h.live inner hl).1 op
    have hr:=hs.run env fun _ hc => he (faulty_of_failed hc)
    simp only [World.step,hl]
    generalize (fileOp cipher inner op).run env w.volume=out at hr
    obtain ⟨o,v⟩ := out
    cases o with
    | error e => exact False.elim hr
    | killed => exact h.dead hr
    | done r => exact h.reply hc hl hr

lemma step_consistent (e : Event) (hf : e.FaultFree) (hcn : w.SteadyOpen e) :
    (w.step cipher e).Consistent cipher := by
  cases e with
  | openStore m lg now env => exact step_open_consistent h m lg now env hf hcn
  | call op env => exact step_call_consistent hc h op env hf
  | kill => exact h.dead h.inv
  | crash pf pd => exact h.dead (h.inv.crash pf pd)

lemma run_consistent (events : List Event) (hf : ∀ e∈events, e.FaultFree)
    (hcn : w.SteadyRun cipher events) : (w.run cipher events).Consistent cipher :=
  Along.invariant (I := World.Consistent cipher)
    (fun _ e hw he => step_consistent hc hw e (hf e he.2) he.1) h events (hcn.mem (Subset.refl _))
end
end

/-- On any volume, in every run without I/O failures whose stores open on steady
ledgers, all responses granted for a key by all stores are equal. -/
theorem one_response_per_key (cipher : Aead) (hc : cipher.Opens) (v : Volume FileName)
    (hv : v.Scratch .rewriteTmp .ledger) (events : List Event)
    (hfree : ∀ e∈events, e.FaultFree) (hcond : (World.start v).SteadyRun cipher events) :
    ((World.start v).run cipher events).OneResponse :=
  (run_consistent hc (consistent_start cipher hv) events hfree hcond).one

/-- The process is killed between the write and the fsync of its first commit; the
next store replays that commit; a crash takes all 134 unsynced bytes back; the
third store grants the key again. -/
def twoResponses : List Event :=
  [.openStore .flat none 0 noFault,.call (sampleCommit 49 100 [7] 5) (killAt 2),
    .openStore .flat none 6 noFault,
    .call (sampleCommit 49 100 [9] 6) noFault,
    .crash (fun _ => 134) 0,
    .openStore .flat none 7 noFault,
    .call (sampleCommit 49 100 [9] 7) noFault]

/-- Two different responses granted for one key, without an I/O failure. -/
theorem two_responses_granted :
    plainAead.Opens ∧ (Volume.empty : Volume FileName).Scratch .rewriteTmp .ledger ∧
      (∀ e∈twoResponses, e.FaultFree) ∧
      ¬((World.start Volume.empty).run plainAead twoResponses).OneResponse := by
  refine ⟨plainAead_opens,Volume.scratch_empty _ _,by simp [twoResponses,Event.FaultFree],?_⟩
  intro ho
  have hans : ((World.start Volume.empty).run plainAead twoResponses).answers =
      [(List.replicate 64 49,[9]),(List.replicate 64 49,[7])] := by
    decide +kernel
  have heq:=ho (List.replicate 64 49) [9] [7] (by rw [hans]; simp) (by rw [hans]; simp)
  cases heq

def sameResponse : List Event :=
  [.openStore .flat none 0 noFault,.call (sampleCommit 49 100 [7] 5) noFault,.crash (fun _ => 0) 0,
    .openStore .flat none 6 noFault,
    .call (sampleCommit 49 100 [9] 6) noFault]

theorem one_response_per_key_same : (World.start Volume.empty).SteadyRun plainAead sameResponse ∧
      ((World.start Volume.empty).run plainAead sameResponse).OneResponse := by
  have hf : ∀ e∈sameResponse, e.FaultFree := by simp [sameResponse,Event.FaultFree]
  have hs : Steady ((World.start Volume.empty).run plainAead (sameResponse.take 3)).volume := by
    decide +kernel
  have hc : (World.start Volume.empty).SteadyRun plainAead sameResponse :=
    ⟨fun _ => (by decide : Steady Volume.empty),trivial,trivial,fun _ => hs,trivial,trivial⟩
  exact ⟨hc,one_response_per_key plainAead plainAead_opens Volume.empty (Volume.scratch_empty _ _)
    sameResponse hf hc⟩
end NilVpn.Ledger
