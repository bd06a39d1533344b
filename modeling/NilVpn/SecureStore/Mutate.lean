import NilVpn.SecureStore.FileSpec
import NilVpn.SecureStore.TokenStore

/-!
# Mutations of the vault are failure-atomic (securestore.rs:618-633)

But for one failure: when only the directory's sync fails, after the rename.
-/

namespace NilVpn.SecureStore
open StoreCall Base
open Program (Verdict Safe Reads Calls failed_later Outcome)
open Portal (Hash)
open Routine (SafeOn attempt)

variable (json : Json) (sealer : Sealer)
def loadNow (entropy : Option (Block 32)) (w : Disks Dir FileName) : Outcome VaultError Vault :=
  ((loadLocked json sealer entropy).run (fun _ => .ok) w).1

variable {json sealer}
lemma loadNow_eq (entropy : Option (Block 32)) (w : Disks Dir FileName) : loadNow json sealer entropy w =
      Outcome.ofExcept (loaded json sealer entropy ((w .vault).visible .vault)) := by
  unfold loadNow loadLocked readOptionalPrivateFile
  cases hc : (w .vault).dir.current .vault with
  | none =>
    simp only [attempt,bind,Program.bind,Program.run,Disks.exec_eq,Call.exec,hc,Volume.visible,loaded,
      Option.map_none]
    rfl
  | some i =>
    simp only [attempt,bind,Program.bind,Program.run,Disks.exec_eq,Call.exec,hc,Volume.visible,loaded,
      Option.map_some,Routine.io,Disks.set_self]
    by_cases hl : ((w .vault).file i).current.length ≤ maxVaultFileBytes
    · have ht : ((w .vault).file i).current.take (maxVaultFileBytes+1)=((w .vault).file i).current :=
        List.take_of_length_le (by omega)
      simp only [hl,decide_true,ensure_true,Program.ofExcept,Program.bind,Program.run,Disks.exec_eq,Call.exec,
        Disks.set_self,ht,if_true]
      exact congrArg Prod.fst (Program.run_ofExcept _ _ _)
    · simp only [hl,decide_false]
      rfl

def Transacts {R : Type} (json : Json) (sealer : Sealer) (entropy : Option (Block 32))
    (mutation : Mutation R) (o o' : Option Bytes) (r : R) : Prop :=
  ∃ before after, loaded json sealer entropy o=.ok before ∧
    transact mutation before=.ok (after,r) ∧ ∀ entropy', loaded json sealer entropy' o'=.ok after

lemma mutate_safeOn (f : Dir × Call FileName → Prop) (hj : json.Faithful)
    (hs : sealer.Correct) {R : Type} (draws : Draws) (mutation : Mutation R)
    (w : Disks Dir FileName) (hw : (w .vault).Bounded) :
    SafeOn f .vault (fun _ => True)
      (fun r v => Transacts json sealer draws.entropy mutation ((w .vault).visible .vault)
        (v.visible .vault) r)
      (fun _ v => v.visible .vault=(w .vault).visible .vault ∨ f (.vault,.syncDir))
      (mutate json sealer draws mutation) w := by
  have ht : draws.temp≠.vault := by
    intro h
    cases h
  apply SafeOn.afterReading (load_reads draws.entropy) trivial (fun _ => .inl rfl)
  intro be hb
  apply SafeOn.afterReading (Reads.ofExcept _) trivial (fun _ => .inl rfl)
  intro out ho
  obtain ⟨af,re⟩ := out
  have hu : Unmoved .vault (fun _ => True) ((w .vault).visible .vault) (w .vault) :=
    ⟨⟨Volume.holds_true _ _,hw⟩,rfl⟩
  have hp : SafeOn f .vault (fun _ => True)
      (fun _ v => ∀ en, loaded json sealer en (v.visible .vault)=.ok af)
      (fun _ v => v.visible .vault=(w .vault).visible .vault ∨ f (.vault,.syncDir))
      (persistLocked json sealer draws.nonce draws.temp af.val) w := by
    refine (persist_safeOn ht (fun _ _ => trivial) hu).mono (fun _ _ => trivial) ?_ ?_
    · intro _ v ⟨file,hf,hk⟩ en
      rw [hk.holds.visible]
      exact loaded_encode hj hs hf en
    · intro _ v hv
      rcases hv with hv | hv
      · exact .inl hv.2
      · exact .inr hv.1
  apply SafeOn.andThen hp
  intro _ w' hw'
  exact SafeOn.pure ⟨be,af,hb,ho,hw'⟩

section
variable {R : Type} {draws : Draws} {mutation : Mutation R} {env : ℕ → Verdict}
  {w w' : Disks Dir FileName}
lemma mutate_done (hj : json.Faithful) (hs : sealer.Correct) (hw : (w .vault).Bounded) {r : R}
    (hr : (mutate json sealer draws mutation).run env w=(.done r,w')) :
    Transacts json sealer draws.entropy mutation ((w .vault).visible .vault)
      ((w' .vault).visible .vault) r := by
  have hsf:=mutate_safeOn True hj hs draws mutation w hw
  have hm:=Safe.run hsf env fun _ _ => trivial
  rw [hr] at hm
  exact hm.1

lemma mutate_failed (hj : json.Faithful) (hs : sealer.Correct) (hw : (w .vault).Bounded)
    {e : VaultError} (hr : (mutate json sealer draws mutation).run env w=(.error e,w'))
    (hsn : (Dir.vault,Call.syncDir)∉(mutate json sealer draws mutation).failures env w) :
    (w' .vault).visible .vault=(w .vault).visible .vault := by
  have hsf:=mutate_safeOn (·≠(Dir.vault,Call.syncDir)) hj hs draws mutation w hw
  have hm:=Safe.run hsf env fun f hf heq => hsn (heq ▸ hf)
  rw [hr] at hm
  exact hm.1.resolve_right fun h => h rfl

lemma mutate_sync_failed (hj : json.Faithful) (hs : sealer.Correct) (hw : (w .vault).Bounded)
    (hx : (Dir.vault,Call.syncDir)∈(mutate json sealer draws mutation).failures env w) :
    ∃ e w' r, (mutate json sealer draws mutation).run env w=(.error e,w') ∧
      Transacts json sealer draws.entropy mutation ((w .vault).visible .vault)
        ((w' .vault).visible .vault) r := by
  unfold mutate at hx ⊢
  obtain ⟨before,_,_,⟨rfl,hb⟩,hx,hr⟩ := failed_later hx (load_reads draws.entropy) (load_calls _)
  rw [hr]
  obtain ⟨⟨after,r⟩,_,_,⟨rfl,ho⟩,hx,hr⟩ := failed_later hx (Reads.ofExcept _) (Calls.ofExcept _)
  rw [hr]
  obtain ⟨file,e,w',hl,hr,hv⟩ := persist_sync_failed (by rintro ⟨⟩) hw hx fun _ _ h => by cases h
  exact ⟨e,w',r,hr,before,after,hb,ho,fun en => hv ▸ loaded_encode hj hs hl en⟩
end

section
variable {R : Type} (json : Json) (sealer : Sealer) (draws : Draws) (mutation : Mutation R)
  (env : ℕ → Verdict) (w : Disks Dir FileName)
/-- A mutation that returns has made its vault the one that loads. -/
def Committed : Prop :=
  ∀ r w', (mutate json sealer draws mutation).run env w=(.done r,w') →
    ∃ before after, loadNow json sealer draws.entropy w=.done before ∧
      transact mutation before=.ok (after,r) ∧ ∀ entropy, loadNow json sealer entropy w'=.done after

/-- One that errs leaves what a load returns. -/
def RolledBack : Prop :=
  ∀ e w', (mutate json sealer draws mutation).run env w=(.error e,w') →
    ∀ entropy, loadNow json sealer entropy w'=loadNow json sealer entropy w

/-- What the mutation makes of the vault is what loads already. -/
def LeavesVault : Prop :=
  ∀ before after r, loadNow json sealer draws.entropy w=.done before →
    transact mutation before=.ok (after,r) → ∀ entropy, loadNow json sealer entropy w=.done after

variable {json sealer draws mutation env w}
lemma loadNow_done {entropy : Option (Block 32)} {v : Vault} : loadNow json sealer entropy w=.done v ↔
    loaded json sealer entropy ((w .vault).visible .vault)=.ok v := by
  rw [loadNow_eq]
  cases loaded json sealer entropy ((w .vault).visible .vault) <;> simp [Outcome.ofExcept]

/-- Mutations are failure-atomic unless the directory's sync fails under one that changes the
vault. -/
theorem mutate_failure_atomic (hjson : json.Faithful) (hseal : sealer.Correct)
    (hw : (w .vault).Bounded) :
    Committed json sealer draws mutation env w ∧ (RolledBack json sealer draws mutation env w ↔
      (Dir.vault,Call.syncDir)∉(mutate json sealer draws mutation).failures env w ∨
        LeavesVault json sealer draws mutation w) := by
  refine ⟨?_,?_,?_⟩
  · intro r w' hr
    obtain ⟨before,after,hb,ho,ha⟩ := mutate_done hjson hseal hw hr
    exact ⟨before,after,loadNow_done.mpr hb,ho,fun en => loadNow_done.mpr (ha en)⟩
  · intro h
    by_cases hx : (Dir.vault,Call.syncDir)∈(mutate json sealer draws mutation).failures env w
    · right
      intro before after r hb ho en
      obtain ⟨e,w',r',hr,before',after',hb',ho',ha⟩ := mutate_sync_failed hjson hseal hw hx
      rw [Except.ok.inj ((loadNow_done.mp hb).symm.trans hb'),ho'] at ho
      obtain ⟨rfl,-⟩ := Prod.mk.inj (Except.ok.inj ho)
      rw [← h e w' hr en]
      exact loadNow_done.mpr (ha en)
    · exact .inl hx
  · intro h e w' hr en
    by_cases hx : (Dir.vault,Call.syncDir)∈(mutate json sealer draws mutation).failures env w
    · obtain ⟨e',w'',r,hr',before,after,hb,ho,ha⟩ := mutate_sync_failed hjson hseal hw hx
      obtain ⟨-,rfl⟩ := Prod.mk.inj (hr.symm.trans hr')
      rw [(h.resolve_left fun hn => hn hx) before after r (loadNow_done.mpr hb) ho en]
      exact loadNow_done.mpr (ha en)
    · rw [loadNow_eq,loadNow_eq,mutate_failed hjson hseal hw hr hx]
end

/-! ### Calls of the pass store and crashes -/

/-- A pass store on a file that no crash takes away. -/
structure Store where
  json : Json
  sealer : Sealer
  sha : Bytes → Hash
  disks : Disks Dir FileName
  vault : Vault
  faithful : json.Faithful
  correct : sealer.Correct
  kept : Kept .vault (fun file => ∀ en, loaded json sealer en file=.ok vault) (disks .vault)

inductive VaultEvent
  | operate (op : Op) (draws : Draws) (env : ℕ → Verdict)
  | crash (pickFile : Dir → ℕ → ℕ) (pickDir : Dir → ℕ)

/-- The disks, the calls made, and the results of those that returned. -/
structure History where
  disks : Disks Dir FileName
  made : List Op
  returned : List (Op × Answer)

namespace Store
variable (σ : Store)
def step (h : History) : VaultEvent → History
  | .operate op draws env =>
    if op.refused then h
    else match (mutate σ.json σ.sealer draws (op.mutation σ.sha)).run env h.disks with
      | (.done a,w) => ⟨w,h.made++[op],h.returned++[(op,a)]⟩
      | (_,w) => ⟨w,h.made++[op],h.returned⟩
  | .crash pickFile pickDir => {h with disks := h.disks.crash pickFile pickDir}

def run (es : List VaultEvent) : History := runFrom σ.step ⟨σ.disks,[],[]⟩ es

/-- One call after the other, none of which fails: the vault and the answers. -/
def serve (s : Vault × List (Op × Answer)) (op : Op) : Vault × List (Op × Answer) :=
  match perform σ.sha s.1 ⟨op,none⟩ with
  | .ok (next,a) => (next,s.2++[(op,a)])
  | .error _ => s

def served (ops : List Op) : Vault × List (Op × Answer) := runFrom σ.serve (σ.vault,[]) ops

/-- The file holds the vault that some of the calls made give, in their order, and all that
was returned is among their answers. -/
def InForce (made : List Op) (returned : List (Op × Answer)) (file : Option Bytes) : Prop :=
  ∃ ops, ops.Sublist made ∧ returned.Sublist (σ.served ops).2 ∧
    ∀ en, loaded σ.json σ.sealer en file=.ok (σ.served ops).1

variable {σ} {m : List Op} {returned : List (Op × Answer)} {w : Disks Dir FileName}
lemma mutate_inForce {op : Op} (hop : op.refused=false) (d : Draws)
    (h : Kept .vault (σ.InForce m returned) (w .vault)) :
    SafeOn True .vault (Kept .vault (σ.InForce (m++[op]) returned))
      (fun a => Kept .vault (σ.InForce (m++[op]) (returned++[(op,a)])))
      (fun _ => Kept .vault (σ.InForce (m++[op]) returned))
      (mutate σ.json σ.sealer d (op.mutation σ.sha)) w := by
  have hm:=h.mono (Q := σ.InForce (m++[op]) returned)
    fun _ => Exists.imp fun _ h => ⟨h.1.trans (List.sublist_append_left ..),h.2⟩
  obtain ⟨ops,hc,hr,hl⟩ := h.holds.visible
  apply SafeOn.afterReading (load_reads d.entropy) hm fun _ => hm
  intro be hb
  apply SafeOn.afterReading (Reads.ofExcept _) hm fun _ => hm
  rintro ⟨af,a⟩ ho
  rw [Except.ok.inj (hb.symm.trans (hl _))] at ho
  have hp : σ.served (ops++[op])=(af,(σ.served ops).2++[(op,a)]) := by
    rw [served,runFrom,List.foldl_append]
    change σ.serve (σ.served ops) op=_
    simp only [serve,perform,hop,ho]
    rfl
  have hn : ∀ file, encodeVault σ.json σ.sealer d.nonce af.val=.ok file →
      σ.InForce (m++[op]) (returned++[(op,a)]) (some file) := by
    intro file hf
    refine ⟨ops++[op],hc.append_right _,?_,?_⟩
    · exact hp ▸ hr.append_right _
    · exact hp ▸ loaded_encode σ.faithful σ.correct hf
  refine SafeOn.andThen ((persist_safeOn (fun h => by cases h) (fun file hf => ?_) ⟨hm,rfl⟩).mono
    (fun _ => id) ?_ ?_) fun _ _ hw => SafeOn.pure hw
  · obtain ⟨ops,hc,hr,h⟩ := hn file hf
    exact ⟨ops,hc,(List.sublist_append_left ..).trans hr,h⟩
  · rintro _ _ ⟨file,hf,hk⟩
    exact hk.mono fun _ ho => ho ▸ hn file hf
  · rintro _ _ (hu | ⟨-,hk,-⟩)
    · exact hu.1
    · exact hk

lemma step_inForce (h : History) (e : VaultEvent)
    (hk : Kept .vault (σ.InForce h.made h.returned) (h.disks .vault)) :
    Kept .vault (σ.InForce (σ.step h e).made (σ.step h e).returned) ((σ.step h e).disks .vault) := by
  cases e with
  | crash pf pd => exact hk.crash (pf .vault) (pd .vault)
  | operate op dr env =>
    simp only [step]
    split
    · exact hk
    next hop =>
      have hm:=Safe.run (mutate_inForce (Bool.eq_false_iff.mpr hop) dr hk) env fun _ _ => trivial
      cases hr : (mutate σ.json σ.sealer dr (op.mutation σ.sha)).run env h.disks with
      | mk ending w' =>
        rw [hr] at hm
        cases ending <;> exact hm.1

/-- Whatever calls fail or are killed half-way and whatever crashes take back, the vault loads, with
every call that returned and no part of any other. -/
theorem returned_calls_survive (σ : Store) (es : List VaultEvent) :
    ∃ ops, ops.Sublist (σ.run es).made ∧ (σ.run es).returned.Sublist (σ.served ops).2 ∧
      ∀ en, loadNow σ.json σ.sealer en (σ.run es).disks=.done (σ.served ops).1 := by
  have hi : Kept .vault (σ.InForce [] []) (σ.disks .vault) :=
    σ.kept.mono fun _ hl => ⟨[],.slnil,.slnil,hl⟩
  have hk:=run_invariant (I := fun h : History =>
    Kept .vault (σ.InForce h.made h.returned) (h.disks .vault)) step_inForce (s := ⟨σ.disks,[],[]⟩) hi es
  obtain ⟨ops,hc,hr,hl⟩ := hk.holds.visible
  refine ⟨ops,hc,hr,fun en => ?_⟩
  rw [run,loadNow_eq,hl]
  rfl
end Store

def sampleJson (first second : VaultV1) : Json where
  toVec := fun v => if v=first then .ok [1] else if v=second then .ok [2] else .error "unknown"
  fromSlice := fun bytes =>
    if bytes=[1] then .ok first.toWire else if bytes=[2] then .ok second.toWire else .error "unknown"
  authFromSlice := fun _ => .error "unknown"
  tokensFromSlice := fun _ => .error "unknown"

lemma sampleJson_faithful (f s : VaultV1) : (sampleJson f s).Faithful := by
  intro v bt h
  simp only [sampleJson] at h ⊢
  split at h
  next hv =>
    rw [← Except.ok.inj h,hv]
    simp
  next => grind

def openSealer : Sealer where
  sealBytes := fun _ plaintext _ => .ok plaintext
  openBytes := fun ciphertext _ => .ok ciphertext

lemma openSealer_correct : openSealer.Correct := by
  intro _ pl _ c h
  rw [Except.ok.inj h]
  rfl

def sampleAccount : AccountAuthMaterial := ⟨toHex (List.replicate 32 1),toHex (List.replicate 32 2)⟩
def signedIn : Vault := ⟨{VaultV1.empty with auth := some sampleAccount},by decide +kernel⟩
def accountJson : Json := sampleJson VaultV1.empty signedIn.val
def sampleDisks : Disks Dir FileName := fun _ => Volume.empty

def sampleMutate : VaultRoutine Unit :=
  mutate accountJson openSealer ⟨none,[],1,0⟩ (replaceAccount sampleAccount)

def failAt (k : ℕ) (i : ℕ) : Verdict := if i=k then .fail 0 else .ok

theorem failed_create_loses_nothing : (sampleMutate.run (failAt 4) sampleDisks).1 =
      .error (.io "create vault temporary file" ioFailure) ∧
    loadNow accountJson openSealer none (sampleMutate.run (failAt 4) sampleDisks).2 =
      loadNow accountJson openSealer none sampleDisks := by
  have hf : (sampleMutate.run (failAt 4) sampleDisks).1 =
      .error (.io "create vault temporary file" ioFailure) := by decide +kernel
  have hc : sampleMutate.failures (failAt 4) sampleDisks=[(.vault,.createNew (.temp 1 0))] := rfl
  have hs : (Dir.vault,Call.syncDir)∉sampleMutate.failures (failAt 4) sampleDisks := by
    rw [hc]
    simp
  have hatomic : RolledBack accountJson openSealer ⟨none,[],1,0⟩ (replaceAccount sampleAccount) (failAt 4)
      sampleDisks :=
    (mutate_failure_atomic (sampleJson_faithful _ _) openSealer_correct Volume.bounded_empty).2.mpr (.inl hs)
  exact ⟨hf,hatomic _ _ (Prod.ext hf rfl) none⟩

/-- Call number 8 is the sync of the directory: the call errs and the vault is the new one. -/
theorem failed_sync_keeps_mutation : accountJson.Faithful ∧ openSealer.Correct ∧
    (sampleDisks .vault).Bounded ∧
    (sampleMutate.run (failAt 8) sampleDisks).1=.error (.io "sync vault directory" ioFailure) ∧
    loadNow accountJson openSealer none sampleDisks=.done Vault.empty ∧
    loadNow accountJson openSealer none (sampleMutate.run (failAt 8) sampleDisks).2=.done signedIn := by
  refine ⟨sampleJson_faithful _ _,openSealer_correct,Volume.bounded_empty,?_⟩
  decide +kernel

def sampleStore : Store where
  json := accountJson
  sealer := openSealer
  sha := fun _ => Block.fill 32 0
  disks := sampleDisks
  vault := Vault.empty
  faithful := sampleJson_faithful _ _
  correct := openSealer_correct
  kept := by
    have hf : (sampleDisks .vault).Holds .vault fun o => o=none := by decide
    exact ⟨hf.mono fun _ ho _ => ho ▸ rfl,Volume.bounded_empty⟩

/-- An account is stored and a second try fails at its sync; then the machine crashes. -/
def sampleEvents : List VaultEvent :=
  [.operate (.replaceAccount sampleAccount) ⟨none,[],1,0⟩ fun _ => .ok,
    .operate (.replaceAccount sampleAccount) ⟨none,[],1,1⟩ (failAt 10),
    .crash (fun _ _ => 0) fun _ => 0]

theorem stored_account_survives : (sampleStore.run sampleEvents).returned =
      [(.replaceAccount sampleAccount,.unit)] ∧
    ∃ ops, ops.Sublist (sampleStore.run sampleEvents).made ∧
      (sampleStore.run sampleEvents).returned.Sublist (sampleStore.served ops).2 ∧
      ∀ en, loadNow sampleStore.json sampleStore.sealer en (sampleStore.run sampleEvents).disks =
        .done (sampleStore.served ops).1 :=
  ⟨by decide +kernel,Store.returned_calls_survive sampleStore sampleEvents⟩
end NilVpn.SecureStore
