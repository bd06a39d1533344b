import NilVpn.SecureStore.File

/-!
# What the vault file's routines do
-/

namespace NilVpn.SecureStore
open Base Option List
open Routine (SafeOn io_reads io_calls attempt)
open Program (Verdict Reads Calls failed_later)

lemma envelope_parts (c : Bytes) : fileMagic++fileVersion::(beBytes 4 c.length++c) =
      fileMagic++[fileVersion]++(beBytes 4 c.length++c) := by
  rw [append_assoc,singleton_append]

variable {file : Bytes}
lemma decodeEnvelope_encode {ciphertext : Bytes} (h : encodeEnvelope ciphertext=.ok file) :
    decodeEnvelope file=.ok ciphertext ∧ file.length ≤ maxVaultFileBytes := by
  obtain ⟨_,hne,_,hl,h⟩ := except_bind_ok₂ h
  have hp : ciphertext.length≠0 := by simpa using ensure_eq_ok hne
  have hl:=ensure_eq_ok hl
  simp only [Bool.and_eq_true,decide_eq_true_eq] at hl
  have hf:=(Except.ok.inj h).symm
  rw [envelope_parts] at hf
  have ht : file.length=fileHeaderLen+ciphertext.length := by
    simp only [hf,length_append,length_singleton,beBytes_length,fileHeaderLen]
    omega
  have hm : file.take fileMagic.length=fileMagic := by rw [hf,append_assoc,take_left]
  have hv : file.getD fileMagic.length 0=fileVersion := by simp [hf]
  have hr : file.drop (fileMagic.length+1)=beBytes 4 ciphertext.length++ciphertext := by simp_all
  have hd : ofBe ((file.drop (fileMagic.length+1)).take 4)=ciphertext.length := by
    rw [hr,take_left' (beBytes_length 4 _)]
    exact ofBe_beBytes 4 _ (by omega)
  have hb : file.drop fileHeaderLen=ciphertext := by grind [drop_drop,fileHeaderLen,drop_left']
  refine ⟨?_,by omega⟩
  unfold decodeEnvelope
  rw [hm,hv,hd,hb,ensure_of _ _ (by simp; omega),
    ensure_of (fileHeaderLen≤file.length) _ (by simp; omega),ensure_of (fileMagic=fileMagic) _ (by simp),
    ensure_of (fileVersion=fileVersion) _ (by simp),ensure_of (ciphertext.length≠0) _ (by simpa using hp),
    ensure_of _ _ (by simp; omega)]
  rfl

lemma intoVault_toWire (entropy : Option (Block 32)) (v : VaultV1) : v.toWire.intoVault entropy=.ok v := by
  cases h : v.pendingRedemption with
  | none =>
    simp only [StrictVaultWire.intoVault,VaultV1.toWire,h,map_none]
    cases v
    cases h
    rfl
  | some p =>
    simp only [StrictVaultWire.intoVault,VaultV1.toWire,h,map_some]
    cases v
    cases h
    rfl

variable {json : Json} {sealer : Sealer}
lemma decodeVault_encode (hj : json.Faithful) (hs : sealer.Correct) {v : Vault}
    {nonce : Bytes} (h : encodeVault json sealer nonce v.val=.ok file) :
    file.length ≤ maxVaultFileBytes ∧ ∀ en, decodeVault json sealer en file=.ok v := by
  obtain ⟨_,-,pl,hp,_,hl,c,hct,h⟩ := except_bind_ok₄ h
  obtain ⟨hne,hw⟩ := hj v.val pl (mapError_eq_ok hp)
  obtain ⟨hd,hsz⟩ := decodeEnvelope_encode h
  refine ⟨hsz,fun en => ?_⟩
  unfold decodeVault
  rw [hd,ok_bind,hs _ _ _ _ hct,ok_bind,ensure_of _ _ (ensure_eq_ok hl),
    ensure_of _ _ (by simpa using hne),hw]
  simp only [ok_bind,Except.mapError,intoVault_toWire]
  exact v.check_val

def loaded (json : Json) (sealer : Sealer) (entropy : Option (Block 32)) :
    Option Bytes → Except VaultError Vault
  | none => .ok Vault.empty
  | some file =>
    if file.length ≤ maxVaultFileBytes then decodeVault json sealer entropy file
    else .error (.tooLarge "vault" maxVaultFileBytes)

lemma loaded_encode (hj : json.Faithful) (hs : sealer.Correct) {v : Vault} {nonce : Bytes}
    (h : encodeVault json sealer nonce v.val=.ok file) (entropy : Option (Block 32)) :
    loaded json sealer entropy (some file)=.ok v := by
  grind [loaded,decodeVault_encode]

section
variable {faults : Dir × Call FileName → Prop} {w : Disks Dir FileName}
def OpenedAs (v : Volume FileName) (n : FileName) : Except IoError ℕ → Prop
  | .ok i => v.dir.current n=some i
  | .error e => e.kind=.notFound → v.dir.current n=none

lemma open_reads (d : Dir) (n : FileName) :
    Reads faults (OpenedAs (w d) n) (attempt d (.openExisting n) : VaultRoutine _) w := by
  refine ⟨?_,?_,?_⟩
  · exact fun _ => Disks.set_same w d
  · intro _ _
    refine ⟨Disks.set_same w d,?_⟩
    intro h
    cases h
  · cases hc : (w d).dir.current n with
    | none =>
      simp only [Disks.exec_eq,Call.exec_missing hc,Disks.set_same]
      exact ⟨rfl,fun _ => hc⟩
    | some i =>
      simp only [Disks.exec_eq,Call.exec_openExisting hc,Disks.set_same]
      exact ⟨rfl,hc⟩

lemma readOptional_reads (d : Dir) (n : FileName) (kind : String) (max : ℕ) :
    Reads faults (fun r => (w d).visible n=r ∧ ∀ bytes, r=some bytes → bytes.length ≤ max)
      (readOptionalPrivateFile d n kind max) w := by
  apply Reads.andThen (open_reads d n)
  intro r ho
  cases r with
  | error e =>
    dsimp only
    split
    next hk =>
      apply Reads.pure
      refine ⟨?_,?_⟩
      · simp only [Volume.visible,ho hk,map_none]
      · intro bytes hbt
        cases hbt
    next => exact Reads.throw
  | ok i =>
    have hu : (w d).dir.current n=some i := ho
    apply Reads.andThen (io_reads (c := .size i) _ rfl fun _ => rfl)
    intro len hl
    apply Reads.andThen (Reads.ofExcept _)
    intro _ hc
    have hle : len ≤ max := of_decide_eq_true (ensure_eq_ok hc)
    apply Reads.andThen (io_reads (c := .read i) _ rfl fun _ => rfl)
    intro bytes hbt
    have hs : bytes.length ≤ max := by
      rw [hbt,← hl]
      exact hle
    have ht : bytes.take (max+1)=bytes := take_of_length_le (by omega)
    rw [ht]
    apply Reads.andThen (Reads.ofExcept _)
    intro _ _
    apply Reads.pure
    refine ⟨?_,?_⟩
    · simp only [Volume.visible,hu,map_some,hbt]
    · intro b hb
      rw [← Option.some.inj hb]
      exact hs

lemma load_reads (entropy : Option (Block 32)) :
    Reads faults (fun vault => loaded json sealer entropy ((w .vault).visible .vault)=.ok vault)
      (loadLocked json sealer entropy) w := by
  apply Reads.andThen (readOptional_reads .vault .vault "vault" maxVaultFileBytes)
  intro r hr
  obtain ⟨hv,hl⟩ := hr
  rw [hv]
  cases r with
  | none => exact Reads.pure rfl
  | some file => simp_all [loaded,Reads.ofExcept]

lemma found_reads (d : Dir) (n : FileName) :
    Reads faults (fun r => r=((w d).visible n).isSome) (regularFileExists d n) w := by
  refine (io_reads (c := .found n) _ rfl fun _ => rfl).mono ?_
  intro r hr
  rw [hr,Volume.visible,isSome_map]

variable {P : Option Bytes → Prop} {o : Option Bytes} {temp : FileName}
lemma replaceFile_safeOn (ht : temp≠.vault) (body : Bytes) (hP : P (some body))
    (h : Unmoved .vault P o (w .vault)) :
    SafeOn faults .vault (Kept .vault P) (fun _ v => ∃ i, Renamed .vault P body i v)
      (fun _ => Unmoved .vault P o) (replaceFile temp body) w := by
  apply SafeOn.andThen (createNew_safeOn ht h)
  intro i w1 hw
  apply SafeOn.andThen (write_safeOn body hw.1 hw.2)
  intro _ w2 hw2
  apply SafeOn.andThen (fsync_safeOn hw2.1 hw2.2)
  intro _ w3 hw3
  refine (rename_safeOn hw3.1 hw3.2 hP).mono (fun _ => id) ?_ (fun _ _ hv => hv)
  exact fun _ _ hv => ⟨i,hv⟩

lemma cleanupTemp_safeOn (ht : temp≠.vault) (h : Unmoved .vault P o (w .vault))
    {F : VaultError → Volume FileName → Prop} :
    SafeOn faults .vault (Kept .vault P) (fun _ => Unmoved .vault P o) F (cleanupTemp temp) w := by
  apply SafeOn.andThen (remove_safeOn ht h)
  exact fun _ _ hw' => SafeOn.pure hw'

/-- How a replacement can err: the old file is still in sight, or the new one is and the
sync of the directory failed. -/
def Unreplaced (faults : Dir × Call FileName → Prop) (P : Option Bytes → Prop) (o : Option Bytes)
    (body : Bytes) (v : Volume FileName) : Prop :=
  Kept .vault P v ∧ (v.visible .vault=o ∨ faults (.vault,.syncDir) ∧ v.visible .vault=some body)

lemma atomicWrite_safeOn (ht : temp≠.vault) (body : Bytes) (hP : P (some body))
    (h : Unmoved .vault P o (w .vault)) :
    SafeOn faults .vault (Kept .vault P) (fun _ => Kept .vault fun o => o=some body)
      (fun _ => Unreplaced faults P o body) (atomicWritePrivate temp body) w := by
  have hs : ∀ _ : VaultError, Unreplaced faults P o body (w .vault) := fun _ => ⟨h.1,.inl h.2⟩
  apply SafeOn.afterReading (Reads.ofExcept _) h.1 hs
  intro _ _
  apply SafeOn.afterReading (io_reads (c := .createDirAll) _ rfl fun _ => rfl) h.1 hs
  intro _ _
  apply SafeOn.afterReading (io_reads (c := .createDirAll) _ rfl fun _ => rfl) h.1 hs
  intro _ _
  apply SafeOn.afterReading (found_reads .vault .vault) h.1 hs
  intro _ _
  have hr : SafeOn faults .vault (Kept .vault P) (fun _ v => ∃ i, Renamed .vault P body i v)
      (fun _ => Unreplaced faults P o body) ((replaceFile temp body).orElse (cleanupTemp temp)) w := by
    apply SafeOn.orElse (replaceFile_safeOn ht body hP h)
    intro e w5 h5
    refine (cleanupTemp_safeOn ht h5).mono (fun _ => id) ?_ (fun _ _ hv => hv)
    exact fun _ _ hv => ⟨hv.1,.inl hv.2⟩
  apply SafeOn.andThen hr
  intro _ w5 h5
  obtain ⟨i,hre⟩ := h5
  refine (syncDir_safeOn hre).mono (fun _ => id) (fun _ _ hv => hv) ?_
  exact fun _ _ hv => ⟨hv.2.1,.inr ⟨hv.1,hv.2.2⟩⟩

lemma persist_safeOn {nonce : Bytes} {v : VaultV1} (ht : temp≠.vault)
    (hP : ∀ file, encodeVault json sealer nonce v=.ok file → P (some file))
    (h : Unmoved .vault P o (w .vault)) :
    SafeOn faults .vault (Kept .vault P)
      (fun _ vol => ∃ file, encodeVault json sealer nonce v=.ok file ∧ Kept .vault (fun o => o=some file) vol)
      (fun _ vol => Unmoved .vault P o vol ∨ faults (.vault,.syncDir) ∧ Kept .vault P vol ∧
        ∃ file, encodeVault json sealer nonce v=.ok file ∧ vol.visible .vault=some file)
      (persistLocked json sealer nonce temp v) w := by
  apply SafeOn.afterReading (Reads.ofExcept _) h.1 (fun _ => .inl h)
  intro file hl
  refine (atomicWrite_safeOn ht file (hP file hl) h).mono (fun _ => id) ?_ ?_
  · exact fun _ vol hv => ⟨file,hl,hv⟩
  · intro _ vol hv
    rcases hv.2 with ho | ⟨hf,hn⟩
    · exact .inl ⟨hv.1,ho⟩
    · exact .inr ⟨hf,hv.1,file,hl,hn⟩

/-! Only the last call syncs the directory, so when that fails the new file is in place. -/

def NoSync (c : Dir × Call FileName) : Prop := (Dir.vault,Call.syncDir)≠c

lemma load_calls (entropy : Option (Block 32)) : (loadLocked json sealer entropy).Calls NoSync := by
  refine Calls.bind (Calls.bind ⟨by rintro ⟨⟩,fun _ => trivial⟩ fun r => ?_) fun r => ?_
  · cases r with
    | error e =>
      dsimp only
      split <;> trivial
    | ok fd =>
      refine Calls.bind (io_calls (by rintro ⟨⟩)) fun _ => Calls.bind (Calls.ofExcept _) fun _ => ?_
      exact Calls.bind (io_calls (by rintro ⟨⟩)) fun _ => Calls.bind (Calls.ofExcept _) fun _ => trivial
  · cases r with
    | none => trivial
    | some file => exact Calls.ofExcept _

lemma replaceFile_calls (temp : FileName) (body : Bytes) :
    ((replaceFile temp body).orElse (cleanupTemp temp)).Calls NoSync := by
  refine Calls.orElse (Calls.bind (io_calls ?_) fun _ => Calls.bind (io_calls ?_) fun _ =>
    Calls.bind (io_calls ?_) fun _ => io_calls ?_) (Calls.bind ⟨?_,fun _ => trivial⟩ fun _ => trivial)
  all_goals rintro ⟨⟩

lemma persist_sync_failed {R : Type} {f : Unit → VaultRoutine R} {nonce : Bytes} {v : VaultV1}
    {env : ℕ → Verdict} (ht : temp≠.vault) (hw : (w .vault).Bounded)
    (hx : (Dir.vault,Call.syncDir)∈(persistLocked json sealer nonce temp v >>= f).failures env w)
    (hf : ∀ env (w : Disks Dir FileName), (Dir.vault,Call.syncDir)∉(f ()).failures env w) :
    ∃ file e w', encodeVault json sealer nonce v=.ok file ∧
      (persistLocked json sealer nonce temp v >>= f).run env w=(.error e,w') ∧
      (w' .vault).visible .vault=some file := by
  have hu : Unmoved .vault (fun _ => True) ((w .vault).visible .vault) (w .vault) :=
    ⟨⟨Volume.holds_true _ _,hw⟩,rfl⟩
  simp only [persistLocked,atomicWritePrivate,Program.bind_assoc] at hx ⊢
  obtain ⟨file,_,_,⟨rfl,hl⟩,hx,hr⟩ := failed_later hx (Reads.ofExcept _) (Calls.ofExcept _)
  rw [hr]
  obtain ⟨_,_,_,⟨rfl,-⟩,hx,hr⟩ := failed_later hx (Reads.ofExcept _) (Calls.ofExcept _)
  rw [hr]
  obtain ⟨_,_,_,⟨rfl,-⟩,hx,hr⟩ := failed_later hx
    (io_reads (c := .createDirAll) _ rfl fun _ => rfl) (io_calls (by rintro ⟨⟩))
  rw [hr]
  obtain ⟨_,_,_,⟨rfl,-⟩,hx,hr⟩ := failed_later hx
    (io_reads (c := .createDirAll) _ rfl fun _ => rfl) (io_calls (by rintro ⟨⟩))
  rw [hr]
  obtain ⟨_,_,_,⟨rfl,-⟩,hx,hr⟩ := failed_later hx (found_reads .vault .vault) (io_calls (by rintro ⟨⟩))
  rw [hr]
  obtain ⟨_,w',env',⟨⟨i,hn⟩,-⟩,hx,hr⟩ := failed_later hx (SafeOn.orElse (replaceFile_safeOn ht file trivial hu)
    fun _ _ h => cleanupTemp_safeOn ht h) (replaceFile_calls temp file)
  rw [hr]
  refine ⟨file,ioError "sync vault directory" ioFailure,w',hl,?_,hn.visible⟩
  change (Dir.vault,Call.syncDir)∈(Program.call (Dir.vault,Call.syncDir) _).failures env' w' at hx
  change (Program.call (Dir.vault,Call.syncDir) _).run env' w'=_
  simp only [Program.failures,Program.run] at hx ⊢
  split at hx
  · exact absurd hx (hf _ _)
  next n _ =>
    change (_,w'.set .vault (w' .vault))=_
    rw [Disks.set_same]
  · cases hx
end
end NilVpn.SecureStore
