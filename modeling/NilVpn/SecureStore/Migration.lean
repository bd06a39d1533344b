import NilVpn.SecureStore.Mutate

/-!
# Migration of the legacy files (securestore.rs:657-717)

Two states are safe: both legacy files are durable, whatever became of the vault; or the vault is durable.
-/

namespace NilVpn.SecureStore
open Base
open Program (Verdict Safe Reads)
open Routine (SafeOn On io attempt)

structure LegacyFiles (json : Json) where
  (authFile tokensFile : Bytes)
  auth : AccountAuthMaterial
  tokens : List StoredToken
  authParsed : json.authFromSlice authFile=.ok auth
  tokensParsed : json.tokensFromSlice tokensFile=.ok tokens

inductive MigrationEvent
  | run (draws : Draws) (env : ℕ → Verdict)
  | crash (pickFile : Dir → ℕ → ℕ) (pickDir : Dir → ℕ)

variable {json : Json} {sealer : Sealer}
variable (json sealer) in
def MigrationEvent.step (w : Disks Dir FileName) : MigrationEvent → Disks Dir FileName
  | run draws env => ((migrateLegacy json sealer draws).run env w).2
  | crash pickFile pickDir => w.crash pickFile pickDir

variable (json sealer) in
def OpensTo (o : Option Bytes) (v : Vault) : Prop :=
  ∃ file, o=some file ∧ ∀ entropy, loaded json sealer entropy (some file)=.ok v

variable (sealer) in
structure Readable (files : LegacyFiles json) (w : Disks Dir FileName) : Prop where
  auth : (w .legacy).visible .auth=some files.authFile ∨
    ∃ v, OpensTo json sealer ((w .vault).visible .vault) v ∧ v.val.auth=some files.auth
  tokens : (w .legacy).visible .tokens=some files.tokensFile ∨
    ∃ v, OpensTo json sealer ((w .vault).visible .vault) v ∧ v.val.tokens=files.tokens

structure Unmigrated (files : LegacyFiles json) (w : Disks Dir FileName) : Prop where
  auth : (w .legacy).Holds .auth fun o => o=some files.authFile
  tokens : (w .legacy).Holds .tokens fun o => o=some files.tokensFile
  vault : Kept .vault (fun o => o=none) (w .vault)

/-- A run that finds a vault finds one that no crash takes away. -/
def FindsDurable (w : Disks Dir FileName) : MigrationEvent → Prop
  | .run _ _ => (w .vault).visible .vault≠none →
    (w .vault).Holds .vault fun o => o=(w .vault).visible .vault
  | .crash _ _ => True

section
variable (sealer) (files : LegacyFiles json)
def Migrated (o : Option Bytes) : Prop :=
  ∃ v, v.val=legacyVault (some files.auth) files.tokens ∧ OpensTo json sealer o v

structure LegacyKept (w : Disks Dir FileName) : Prop where
  auth : (w .legacy).Holds .auth fun o => o=some files.authFile
  tokens : (w .legacy).Holds .tokens fun o => o=some files.tokensFile
  vault : Kept .vault (fun o => o=none ∨ Migrated sealer files o) (w .vault)

def VaultKept (w : Disks Dir FileName) : Prop := Kept .vault (Migrated sealer files) (w .vault)
def Preserved (w : Disks Dir FileName) : Prop := LegacyKept sealer files w ∨ VaultKept sealer files w

variable {sealer files} {w : Disks Dir FileName}
section
variable (h : Preserved sealer files w)
include h
lemma Preserved.readable : Readable sealer files w := by
  rcases h with h | h
  · exact ⟨.inl h.auth.visible,.inl h.tokens.visible⟩
  · obtain ⟨v,hv,ho⟩ := h.holds.visible
    exact ⟨.inr ⟨v,ho,by rw [hv]; rfl⟩,.inr ⟨v,ho,by rw [hv]; rfl⟩⟩

lemma Preserved.crash (p : Dir → ℕ → ℕ) (pickDir : Dir → ℕ) :
    Preserved sealer files (w.crash p pickDir) := by
  rcases h with h | h
  · exact .inl ⟨h.auth.crash _ _,h.tokens.crash _ _,h.vault.crash _ _⟩
  · exact .inr (Kept.crash h _ _)

lemma Preserved.vaultKept (hf : (w .vault).visible .vault≠none)
    (hd : (w .vault).Holds .vault fun o => o=(w .vault).visible .vault) : VaultKept sealer files w := by
  rcases h with h | h
  · have hs : Migrated sealer files ((w .vault).visible .vault) := h.vault.holds.visible.resolve_left hf
    exact ⟨hd.mono fun o ho => ho ▸ hs,h.vault.bounded⟩
  · exact h
end

variable {J : Volume FileName → Prop}
lemma VaultKept.frame (h : VaultKept sealer files w) {w' : Disks Dir FileName} (hw' : On .legacy w J w') :
    VaultKept sealer files w' := by
  grind [VaultKept,hw'.2]

lemma LegacyKept.frame (h : LegacyKept sealer files w) {w' : Disks Dir FileName} (hw' : On .vault w J w')
    (hv : Kept .vault (fun o => o=none ∨ Migrated sealer files o) (w' .vault)) :
    LegacyKept sealer files w' := by
  have hs : w' .legacy=w .legacy := hw'.2 .legacy (by decide)
  refine ⟨?_,?_,hv⟩
  · rw [hs]
    exact h.auth
  · rw [hs]
    exact h.tokens
end
section
variable {f : LegacyFiles json} {w : Disks Dir FileName} {faults : Dir × Call FileName → Prop}
lemma removeIfPresent_safeOn (n : FileName) :
    SafeOn faults .legacy (fun _ => True) (fun _ _ => True) (fun _ _ => True)
      (removeLegacyIfPresent n) w := by
  apply SafeOn.afterReading (found_reads .legacy n) trivial (fun _ => trivial)
  intro pr _
  split
  · have hr : SafeOn faults .legacy (fun _ => True) (fun _ _ => True) (fun _ _ => True)
        (io .legacy (ioError "remove legacy file") (.remove n)) w :=
      SafeOn.io (fun _ => trivial) (fun _ _ => trivial) (fun _ _ => trivial) (fun _ _ => trivial)
    apply SafeOn.andThen hr
    intro _ w' _
    exact SafeOn.io (fun _ => trivial) (fun _ _ => trivial) (fun _ _ => trivial) (fun _ _ => trivial)
  · exact SafeOn.pure trivial

/-- The vault's directory is not touched any more. -/
lemma removeLegacy_safe (h : VaultKept sealer f w) :
    Safe faults (Preserved sealer f) (fun _ => VaultKept sealer f)
      (fun _ => Preserved sealer f) removeLegacy w := by
  have hp : SafeOn faults .legacy (fun _ => True) (fun _ _ => True) (fun _ _ => True)
      removeLegacy w := by
    apply SafeOn.andThen (removeIfPresent_safeOn .auth)
    exact fun _ _ _ => removeIfPresent_safeOn .tokens
  refine Safe.mono hp ?_ ?_ ?_
  · exact fun _ hw' => .inr (h.frame hw')
  · exact fun _ _ hw' => h.frame hw'
  · exact fun _ _ hw' => .inr (h.frame hw')

lemma readLegacyAuth_reads (h : (w .legacy).visible .auth=some f.authFile) :
    Reads faults (fun r => r=(true,some f.auth)) (readLegacyAuth json) w := by
  apply Reads.andThen (readOptional_reads .legacy .auth "legacy auth" maxLegacyAuthBytes)
  rintro _ ⟨rfl,-⟩
  rw [h]
  dsimp only
  rw [f.authParsed]
  exact Reads.pure rfl

lemma readLegacyTokens_reads (h : (w .legacy).visible .tokens=some f.tokensFile) :
    Reads faults (fun r => r=(true,f.tokens)) (readLegacyTokens json) w := by
  apply Reads.andThen (readOptional_reads .legacy .tokens "legacy tokens" maxLegacyTokensBytes)
  rintro _ ⟨rfl,-⟩
  rw [h]
  dsimp only
  rw [f.tokensParsed]
  exact Reads.pure rfl

lemma removeVault_safe (h : LegacyKept sealer f w) {β : Type} (e : VaultError)
    {Q : β → Disks Dir FileName → Prop} :
    Safe faults (Preserved sealer f) Q (fun _ => Preserved sealer f)
      (attempt .vault (.remove .vault) >>= fun _ => (.throw e : VaultRoutine β)) w := by
  have hr : SafeOn faults .vault (Kept .vault fun o => o=none ∨ Migrated sealer f o)
      (fun _ => Kept .vault fun o => o=none ∨ Migrated sealer f o) (fun _ _ => False)
      (attempt .vault (.remove .vault) : VaultRoutine _) w := by
    apply SafeOn.attempt
    · exact fun _ => h.vault
    · exact fun _ _ => h.vault
    · grind [Call.exec,h.vault,h.vault.unlink_self]
  apply Safe.bind
  refine Safe.mono hr ?_ ?_ ?_
  · exact fun _ hw' => .inl (h.frame hw' hw'.1)
  · exact fun _ _ hw' => .inl (h.frame hw' hw'.1)
  · exact fun _ _ hw' => hw'.1.elim

lemma verifyWritten_safe (hl : LegacyKept sealer f w) (hv : VaultKept sealer f w)
    (entropy : Option (Block 32)) (v : VaultV1) :
    Safe faults (Preserved sealer f) (fun _ => VaultKept sealer f)
      (fun _ => Preserved sealer f) (verifyWritten json sealer entropy v) w := by
  apply Safe.afterReading (load_reads entropy).attempt (.inl hl) (fun _ => .inl hl)
  intro ve _
  cases ve with
  | error e => exact removeVault_safe hl e
  | ok ve =>
    dsimp only
    split
    · exact removeVault_safe hl _
    · exact hv

lemma persist_migrated (hj : json.Faithful) (hs : sealer.Correct) (d : Draws) {v : Vault}
    (hv : v.val=legacyVault (some f.auth) f.tokens) (h : LegacyKept sealer f w) :
    Safe faults (Preserved sealer f)
      (fun _ w' => LegacyKept sealer f w' ∧ VaultKept sealer f w')
      (fun _ => Preserved sealer f) (persistLocked json sealer d.nonce d.temp v.val) w := by
  have ht : d.temp≠.vault := by
    intro h
    cases h
  have hf : ∀ fi, encodeVault json sealer d.nonce v.val=.ok fi → Migrated sealer f (some fi) :=
    fun fi hf => ⟨v,hv,fi,rfl,loaded_encode hj hs hf⟩
  have hu : Unmoved .vault (fun o => o=none ∨ Migrated sealer f o)
      ((w .vault).visible .vault) (w .vault) := ⟨h.vault,rfl⟩
  refine Safe.mono (persist_safeOn ht (fun fi h => .inr (hf fi h)) hu) ?_ ?_ ?_
  · exact fun _ hw' => .inl (h.frame hw' hw'.1)
  · intro _ w' hw'
    obtain ⟨fi,he,hk⟩ := hw'.1
    have hl : VaultKept sealer f w' := hk.mono fun o ho => ho ▸ hf fi he
    exact ⟨h.frame hw' (hl.mono fun _ ho => .inr ho),hl⟩
  · intro _ w' hw'
    refine .inl (h.frame hw' ?_)
    rcases hw'.1 with hu | ⟨-,hk,-⟩
    · exact hu.1
    · exact hk

lemma migrate_found (d : Draws) (h : VaultKept sealer f w) :
    Safe faults (Preserved sealer f) (fun _ => Preserved sealer f)
      (fun _ => Preserved sealer f) (migrateLegacy json sealer d) w := by
  apply Safe.afterReading (found_reads .vault .vault) (.inr h) (fun _ => .inr h)
  intro pr hp
  obtain ⟨v,-,file,hs,-⟩ := h.holds.visible
  rw [hs] at hp
  rw [hp]
  apply Safe.afterReading (load_reads d.entropy) (.inr h) (fun _ => .inr h)
  intro _ _
  apply Safe.andThen (removeLegacy_safe h)
  exact fun _ _ hw' => .inr hw'

lemma migrate_absent (hj : json.Faithful) (hs : sealer.Correct) (d : Draws)
    (h : LegacyKept sealer f w) (ha : (w .vault).visible .vault=none) :
    Safe faults (Preserved sealer f) (fun _ => Preserved sealer f)
      (fun _ => Preserved sealer f) (migrateLegacy json sealer d) w := by
  apply Safe.afterReading (found_reads .vault .vault) (.inl h) (fun _ => .inl h)
  intro pr hp
  rw [ha] at hp
  rw [hp]
  apply Safe.afterReading (readLegacyAuth_reads h.auth.visible) (.inl h) (fun _ => .inl h)
  intro r hr
  rw [hr]
  apply Safe.afterReading (readLegacyTokens_reads h.tokens.visible) (.inl h) (fun _ => .inl h)
  intro r hr
  rw [hr]
  apply Safe.afterReading (Reads.ofExcept _) (.inl h) (fun _ => .inl h)
  intro v hc
  have hv : v.val=legacyVault (some f.auth) f.tokens := Vault.check_eq_ok hc
  apply Safe.andThen (persist_migrated hj hs d hv h)
  intro _ w1 h1
  apply Safe.andThen (verifyWritten_safe h1.1 h1.2 d.entropy v.val)
  intro _ w2 h2
  apply Safe.andThen (removeLegacy_safe h2)
  exact fun _ _ hw' => .inr hw'

lemma Preserved.step (hj : json.Faithful) (hs : sealer.Correct) (e : MigrationEvent)
    (h : Preserved sealer f w) (hfn : FindsDurable w e) :
    Preserved sealer f (e.step json sealer w) := by
  cases e with
  | crash pf pd => exact h.crash pf pd
  | run dr env =>
    have hsf : Safe True (Preserved sealer f) (fun _ => Preserved sealer f)
        (fun _ => Preserved sealer f) (migrateLegacy json sealer dr) w := by
      by_cases hf : (w .vault).visible .vault=none
      · rcases h with h | h
        · exact migrate_absent hj hs dr h hf
        · exact migrate_found dr h
      · exact migrate_found dr (h.vaultKept hf (hfn hf))
    exact hsf.invariant env fun _ _ => trivial
end

/-- Whatever runs, failures, kills and crashes come, no credential is lost, if no run trusts a
vault that a crash could still take away. -/
theorem migration_loses_nothing (hjson : json.Faithful) (hseal : sealer.Correct)
    (files : LegacyFiles json) (w : Disks Dir FileName) (hstart : Unmigrated files w)
    (events : List MigrationEvent)
    (hfinds : Along (MigrationEvent.step json sealer) FindsDurable w events) :
    Readable sealer files (runFrom (MigrationEvent.step json sealer) w events) := by
  have hp : Preserved sealer files w :=
    .inl ⟨hstart.auth,hstart.tokens,hstart.vault.mono fun _ ho => .inl ho⟩
  have hrun:=hfinds.invariant (I := Preserved sealer files)
    (fun w ev h hf => h.step hjson hseal ev hf) hp
  exact hrun.readable

def legacyPass : StoredToken := ⟨toHex (List.replicate 32 3),toHex (List.replicate 256 4)⟩

def migrationJson : Json :=
  { sampleJson VaultV1.empty (legacyVault (some sampleAccount) [legacyPass]) with
    authFromSlice := fun _ => .ok sampleAccount
    tokensFromSlice := fun _ => .ok [legacyPass] }

lemma migrationJson_faithful : migrationJson.Faithful := sampleJson_faithful _ _

def legacyNames : FileName → Option ℕ
  | .auth => some 0
  | .tokens => some 1
  | _ => none

def startDisks : Disks Dir FileName
  | .vault => Volume.empty
  | .legacy => ⟨fun i => Cached.clean [UInt8.ofNat i],2,Cached.clean legacyNames⟩

def sampleFiles : LegacyFiles migrationJson := ⟨[0],[1],sampleAccount,[legacyPass],rfl,rfl⟩

lemma startDisks_unmigrated : Unmigrated sampleFiles startDisks where
  auth := by decide
  tokens := by decide
  vault := ⟨by decide,Volume.bounded_empty⟩

def migration (env : ℕ → Verdict) : MigrationEvent := .run ⟨none,[],1,0⟩ env
def oldestImages : MigrationEvent := .crash (fun _ _ => 0) fun _ => 2

theorem migrated_vault_survives : Unmigrated sampleFiles startDisks ∧
      Readable openSealer sampleFiles (runFrom (MigrationEvent.step migrationJson openSealer) startDisks
        [migration fun _ => .ok,oldestImages]) := by
  refine ⟨startDisks_unmigrated,?_⟩
  apply migration_loses_nothing migrationJson_faithful openSealer_correct _ _ startDisks_unmigrated
  exact ⟨fun hf => absurd rfl hf,trivial,trivial⟩

/-- The first run fails at the sync of the vault's directory, the second finds the vault and
unlinks the legacy files, and a crash undoes the rename. -/
def crashedDisks : Disks Dir FileName := runFrom (MigrationEvent.step migrationJson openSealer) startDisks
  [migration (failAt 14),migration fun _ => .ok,oldestImages]

theorem unsynced_vault_lost :
    migrationJson.Faithful ∧ openSealer.Correct ∧ Unmigrated sampleFiles startDisks ∧
      ¬Readable openSealer sampleFiles crashedDisks := by
  refine ⟨migrationJson_faithful,openSealer_correct,startDisks_unmigrated,?_⟩
  intro hr
  have hl : (crashedDisks .legacy).visible .auth=none := by decide +kernel
  have hv : (crashedDisks .vault).visible .vault=none := by decide +kernel
  rcases hr.auth with hauth | ⟨v,⟨file,hfile,-⟩,-⟩
  · rw [hl] at hauth
    cases hauth
  · rw [hv] at hfile
    cases hfile
end NilVpn.SecureStore
