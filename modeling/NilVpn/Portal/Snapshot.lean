import NilVpn.Portal.FileStore

/-!
# Writing a snapshot and reading it back

`Storable` excludes the two things that are lost on the way: an account under a number other than its own,
and a one-shot signature that does not have the size of one.
-/

namespace NilVpn.Portal
open Except RecordDto Base List Table

lemma unhex32_hex32 (b : Hash) : unhex32 (hex32 b)=some b := by
  simp [hex32,toHex_length,b.length_val,unhex32,fromHex_toHex,Block.ofBytes_val]

lemma hex32_injective : Function.Injective hex32 := by
  intro a b h
  have ha:=unhex32_hex32 a
  rw [h,unhex32_hex32] at ha
  exact (Option.some.inj ha).symm

lemma entFrom_entStr (e : Entitlement) : entFrom (entStr e)=some e := by
  cases e with
  | none | expired => decide
  | active u =>
    have hle : activeText.length<(entStr (.active u)).length := by
      simp only [entStr,length_append,length_cons]
      omega
    have hh : (entStr (.active u)).head?=activeText.head? := rfl
    have hn : entStr (.active u)≠noneText := by
      intro h
      rw [h] at hh
      exact absurd hh (by decide)
    have he : entStr (.active u)≠expiredText := by
      intro h
      rw [h] at hh
      exact absurd hh (by decide)
    have ha : entStr (.active u)≠activeText := by
      intro h
      rw [h] at hle
      exact lt_irrefl _ hle
    have hl : (activeText++[colon]).isPrefixOf (entStr (.active u)) := by
      rw [List.isPrefixOf_iff_prefix]
      exact ⟨decimal u.toNat,by simp [entStr]⟩
    have hd : (entStr (.active u)).drop 7=decimal u.toNat := rfl
    rw [entFrom,if_neg hn,if_neg he,if_neg ha,if_pos hl,hd,parseUnsigned_decimal _ _ u.toNat_lt]
    simp

lemma authFrom_authStr (pk : Hash) : authFrom (authStr pk)=some pk := by
  have hne : authStr pk≠[] := by
    intro h
    have hl : (authStr pk).length=64 := by rw [authStr,hex32,toHex_length,pk.length_val]
    rw [h] at hl
    cases hl
  rw [authFrom,if_neg hne]
  exact unhex32_hex32 pk

lemma unhexBytes_toHex (b : Bytes) : unhexBytes (toHex b)=some b := by
  have he : (toHex b).length % 2=0 := by
    rw [toHex_length]
    omega
  have hh : (toHex b).all isLowerHex := all_eq_true.mpr (toHex_lowerHex b)
  rw [unhexBytes,if_neg (by simp [he,hh]),fromHex_toHex]

lemma toHex_ne_nil {b : Bytes} (h : b≠[]) : toHex b≠[] := by
  grind [length_nil,toHex_length,length_eq_zero_iff.mp]

lemma signatureChunks_flatten (signatures : List Bytes) (h : ∀ s∈signatures, s.length=rawSignatureBytes) :
    signatureChunks signatures.length signatures.flatten=signatures := by
  induction signatures with
  | nil => rfl
  | cons s rest ih =>
    obtain ⟨hs,hr⟩ := forall_mem_cons.mp h
    rw [length_cons,flatten_cons,signatureChunks,take_append_of_le_length hs.ge,
      take_of_length_le hs.le,← hs,drop_left,ih hr]

lemma flatten_length (sigs : List Bytes) (h : ∀ s∈sigs, s.length=rawSignatureBytes) :
    sigs.flatten.length=sigs.length*rawSignatureBytes := by
  induction sigs with
  | nil => simp
  | cons s rest ih => grind

lemma decodeMintPayload_encode {signatures : List Bytes} {payload : Bytes}
    (h : encodeMintPayload signatures=.ok payload) : decodeMintPayload payload=.ok signatures := by
  unfold encodeMintPayload at h
  split at h
  · cases h
  next hs =>
    split at h
    · cases h
    next hl =>
      cases h
      simp only [Bool.or_eq_true,List.isEmpty_iff,decide_eq_true_eq,not_or,not_lt] at hs
      obtain ⟨hne,hm⟩ := hs
      have hl : ∀ s∈signatures, s.length=rawSignatureBytes := by simpa using hl
      have hp : 0<signatures.length := length_pos_iff.mpr hne
      have hm' : signatures.length≤16 := hm
      have hc : (UInt8.ofNat signatures.length).toNat=signatures.length := by
        rw [UInt8.toNat_ofNat']
        omega
      have hz : UInt8.ofNat signatures.length≠0 := by
        intro h0
        rw [h0] at hc
        exact hp.ne hc
      simp only [decodeMintPayload,hc]
      rw [if_neg (by simp [hz,hm,flatten_length signatures hl]),signatureChunks_flatten signatures hl]

lemma loadAccount_fromRecord (r : AccountRecord) :
    loadAccount (fromRecord r)=.ok (r.accountNumber,r) := by
  have h : (fromRecord r).toRecord=some r := by
    simp [fromRecord,toRecord,unhex32_hex32,entFrom_entStr,authFrom_authStr]
  rw [loadAccount,h]
  rfl

lemma loadActivation_hex32 (e : Hash × UInt64) : loadActivation (hex32 e.1,e.2)=.ok e := by
  rw [loadActivation,unhex32_hex32]
  rfl

lemma loadQuota_quotaDto (e : (Hash × UInt64) × QuotaRow) (h : e.1.2<e.2.windowEnd) :
    loadQuota (quotaDto e)=.ok e := by
  have hk : unhex32 (quotaDto e).quotaKey=some e.1.1 := unhex32_hex32 e.1.1
  have hw : (quotaDto e).windowStart<(quotaDto e).windowEnd := h
  rw [loadQuota,hk,okOr_some,ok_bind,ensure_of _ _ (decide_eq_true hw)]
  rfl

section
variable {cipher : ResultCipher} {draws : Draws} {i : ℕ}
lemma sealResult_ne_nil {e : Option (Block resultNonceLen)} {k : ResultKind}
    {key ha : Hash} {expiry : UInt64} {plain st : Bytes}
    (h : cipher.sealResult e k key ha expiry plain=.ok st) : st≠[] := by
  unfold ResultCipher.sealResult at h
  split at h
  · cases h
  · split at h
    · cases h
    next no =>
      split at h
      · cases h
      · cases h
        intro hn
        have hl:=no.length_val
        rw [(append_eq_nil_iff.mp hn).1] at hl
        cases hl

variable {row : Hash × IssuanceResult}
variable {d : Bytes × IssuanceDto}
lemma issuanceDto_eq_ok (h : issuanceDto cipher draws i row=.ok d) :
    ∃ bl, d=(hex32 row.1,⟨hex32 row.2.requestHash,bl,[],row.2.replayUntil⟩) ∧
      (row.2.blindSig=[] ∧ bl=[] ∨
        ∃ st, cipher.sealResult (draws.issuance i) .oneShot row.1 row.2.requestHash
          row.2.replayUntil row.2.blindSig=.ok st ∧ bl=toHex st) := by
  unfold issuanceDto at h
  obtain ⟨bl,hb,h⟩ := except_bind_ok h
  refine ⟨bl,(ok.inj h).symm,?_⟩
  unfold issuanceBlob at hb
  split at hb
  next he => exact .inl ⟨List.isEmpty_iff.mp he,(ok.inj hb).symm⟩
  · obtain ⟨st,hs,rfl⟩ := map_eq_ok hb
    exact .inr ⟨st,mapError_eq_ok hs,rfl⟩

lemma loadIssuance_issuanceDto (hc : cipher.Opens) (h : issuanceDto cipher draws i row=.ok d)
    (hg : row.2.blindSig=[] ∨ row.2.blindSig.length*2=blindTokenHexLen) :
    loadIssuance cipher d=.ok row := by
  obtain ⟨bl,hd,hb⟩ := issuanceDto_eq_ok h
  have ho : openIssuance cipher row.1 row.2.requestHash row.2.replayUntil bl=.ok row.2.blindSig := by
    rcases hb with ⟨hn,he⟩ | ⟨stored,hs,ht⟩
    · rw [he,hn]
      rfl
    · have hne : (toHex stored).isEmpty=false := by
        rw [isEmpty_eq_false_iff]
        exact toHex_ne_nil (sealResult_ne_nil hs)
      have hsz : (if row.2.blindSig.length*2=blindTokenHexLen then row.2.blindSig else []) =
          row.2.blindSig := by
        rcases hg with hn | hl
        · rw [hn]
          rfl
        · rw [if_pos hl]
      rw [ht,openIssuance,hne]
      simp [unhexBytes_toHex,okOr_some,ok_bind,hc _ _ _ _ _ _ _ hs,hsz]
  rw [hd]
  simp only [loadIssuance,unhex32_hex32,okOr_some,ok_bind,ho]

lemma mintDto_eq_ok {row : Hash × MintResult} {d : Bytes × MintDto} (h : mintDto cipher draws i row=.ok d) :
    ∃ bl, d=(hex32 row.1,⟨hex32 row.2.requestHash,bl,[],row.2.expiresAt⟩) ∧
      (row.2.blindSigs=[] ∧ bl=[] ∨ ∃ pa st, encodeMintPayload row.2.blindSigs=.ok pa ∧
          cipher.sealResult (draws.mint i) .subscriptionMint row.1 row.2.requestHash
            row.2.expiresAt pa=.ok st ∧ bl=toHex st) := by
  unfold mintDto at h
  obtain ⟨bl,hb,h⟩ := except_bind_ok h
  refine ⟨bl,(ok.inj h).symm,?_⟩
  unfold mintBlob at hb
  split at hb
  next hem => exact .inl ⟨List.isEmpty_iff.mp hem,(ok.inj hb).symm⟩
  · obtain ⟨pa,hp,hb⟩ := except_bind_ok hb
    obtain ⟨st,hs,rfl⟩ := map_eq_ok hb
    exact .inr ⟨pa,st,mapError_eq_ok hp,mapError_eq_ok hs,rfl⟩

lemma loadMint_mintDto (hc : cipher.Opens) {row : Hash × MintResult} {d : Bytes × MintDto}
    (h : mintDto cipher draws i row=.ok d) : loadMint cipher d=.ok row := by
  obtain ⟨bl,hd,hb⟩ := mintDto_eq_ok h
  have ho : openMint cipher row.1 row.2.requestHash row.2.expiresAt bl=.ok row.2.blindSigs := by
    rcases hb with ⟨hn,hem⟩ | ⟨payload,stored,he,hs,ht⟩
    · rw [hem,hn]
      rfl
    · have hne : (toHex stored).isEmpty=false := by
        rw [isEmpty_eq_false_iff]
        exact toHex_ne_nil (sealResult_ne_nil hs)
      have hp : (cipher.openResult .subscriptionMint row.1 row.2.requestHash row.2.expiresAt
          stored).bind decodeMintPayload=.ok row.2.blindSigs := by
        rw [hc _ _ _ _ _ _ _ hs]
        exact decodeMintPayload_encode he
      rw [ht,openMint,hne]
      simp [unhexBytes_toHex,okOr_some,ok_bind,hp]
  rw [hd]
  simp only [loadMint,unhex32_hex32,okOr_some,ok_bind,ho]
end
section
variable {α K V : Type} [DecidableEq K] {row : α → Except IoError (K × V)}
lemma loadEach_rows {l : List α} {es : List (K × V)}
    (h : List.Forall₂ (fun a e => row a=.ok e) l es) (t : Table K V) :
    loadEach row l t=.ok (t.insertAll es) := by
  induction h generalizing t with
  | nil => rfl
  | cons ha _ ih =>
    simp only [loadEach,ha,ok_bind]
    exact ih _

lemma loadEach_perm {l l' : List α} (hp : l'.Perm l) {t : Table K V}
    (h : List.Forall₂ (fun a e => row a=.ok e) l t.entries) :
    ∃ t', loadEach row l' Table.empty=.ok t' ∧ ∀ k, t'.get k=t.get k := by
  obtain ⟨es,hs,hs'⟩ := perm_comp_forall₂ hp h
  exact ⟨_,loadEach_rows hs _,get_insertAll_perm t hs'⟩

lemma loadEach_all {P : K → V → Prop} (hr : ∀ a e, row a=.ok e → P e.1 e.2) {l : List α}
    {t t' : Table K V} (h : loadEach row l t=.ok t') (ht : ∀ k v, t.get k=some v → P k v) :
    ∀ k v, t'.get k=some v → P k v := by
  induction l generalizing t with
  | nil =>
    cases h
    exact ht
  | cons a l ih =>
    obtain ⟨e,he,h⟩ := except_bind_ok h
    exact ih h (forall_insert ht (hr a e he))
end

lemma forall₂_and_right {α β : Type} {R : α → β → Prop} {P : β → Prop} {l : List α} {t : List β}
    (h : List.Forall₂ R l t) (ht : ∀ b∈t, P b) : List.Forall₂ (fun a b => R a b ∧ P b) l t := by
  induction h with
  | nil => exact List.Forall₂.nil
  | cons hab _ ih => simp_all

structure StoreState.Storable (s : StoreState) : Prop where
  accounts : ∀ k r, s.accounts.get k=some r → r.accountNumber=k
  issuance : ∀ k r, s.issuanceResults.get k=some r → r.blindSig=[] ∨ r.blindSig.length*2=blindTokenHexLen
  quotas : ∀ k row, s.mintQuotas.get k=some row → k.2 < row.windowEnd

structure StoreState.Agrees (s s' : StoreState) : Prop where
  accounts : ∀ k, s'.accounts.get k=s.accounts.get k
  activations : ∀ k, s'.activationResults.get k=s.activationResults.get k
  issuance : ∀ k, s'.issuanceResults.get k=s.issuanceResults.get k
  mint : ∀ k, s'.mintResults.get k=s.mintResults.get k
  quotas : ∀ k, s'.mintQuotas.get k=s.mintQuotas.get k

/-- What the writer produces: no cleartext payload, every key of a map once. -/
structure SnapshotDto.Plain (dto : SnapshotDto) : Prop where
  sealedOnly : dto.rewriteNeeded=false
  activationKeys : (dto.activationResults.map Prod.fst).Nodup
  issuanceKeys : (dto.issuanceResults.map Prod.fst).Nodup
  mintKeys : (dto.mintResults.map Prod.fst).Nodup

structure SnapshotDto.Reordered (dto dto' : SnapshotDto) : Prop where
  accounts : dto'.accounts=dto.accounts
  activations : dto'.activationResults.Perm dto.activationResults
  issuance : dto'.issuanceResults.Perm dto.issuanceResults
  mint : dto'.mintResults.Perm dto.mintResults
  quotas : dto'.mintQuotas=dto.mintQuotas

/-- The contract of `serde_json` for these types: what it writes is not empty and it
reads it back, with maps in any order. -/
def SnapshotJson.RoundTrips (json : SnapshotJson) : Prop :=
  ∀ dto bytes, dto.Plain → json.toVec dto=some bytes →
    bytes≠[] ∧ ∃ dto', json.fromSlice bytes=some (.snapshot dto') ∧ dto.Reordered dto'

section
variable {cipher : ResultCipher} {draws : Draws} {s : StoreState} {dto : SnapshotDto}
lemma snapshotOf_eq_ok (h : snapshotOf cipher draws s=.ok dto) :
    dto.accounts=s.accounts.entries.map (fun e => fromRecord e.2) ∧
    dto.activationResults=s.activationResults.entries.map (fun e => (hex32 e.1,e.2)) ∧
    List.Forall₂ (fun d e => ∃ i, issuanceDto cipher draws i e=.ok d) dto.issuanceResults
      s.issuanceResults.entries ∧
    List.Forall₂ (fun d e => ∃ i, mintDto cipher draws i e=.ok d) dto.mintResults s.mintResults.entries ∧
    dto.mintQuotas=s.mintQuotas.entries.map quotaDto := by
  unfold snapshotOf at h
  obtain ⟨ic,his,m,hm,h⟩ := except_bind_ok₂ h
  rw [← ok.inj h]
  exact ⟨rfl,rfl,collectIdx_forall₂ his,collectIdx_forall₂ hm,rfl⟩

lemma hexKeys_nodup {α V : Type} {R : Bytes × α → Hash × V → Prop} {l : List (Bytes × α)}
    {t : Table Hash V} (h : List.Forall₂ R l t.entries) (hy : ∀ d e, R d e → d.1=hex32 e.1) :
    (l.map Prod.fst).Nodup := by
  have hk : List.Forall₂ (·=·) (l.map Prod.fst) ((t.entries.map Prod.fst).map hex32) := by
    rw [forall₂_map_left_iff,map_map,forall₂_map_right_iff]
    exact h.imp hy
  rw [forall₂_eq_eq_eq] at hk
  rw [hk]
  exact t.nodup.map hex32_injective

lemma snapshotOf_plain (h : snapshotOf cipher draws s=.ok dto) : dto.Plain := by
  obtain ⟨-,ha,hu,hm,-⟩ := snapshotOf_eq_ok h
  have ha' : List.Forall₂ (fun d e => d=(hex32 e.1,e.2)) dto.activationResults
      s.activationResults.entries := by
    rw [ha,forall₂_map_left_iff,forall₂_same]
    exact fun _ _ => rfl
  have hu' : List.Forall₂ (fun d e => d.2.blindSig=[] ∧ d.1=hex32 e.1) dto.issuanceResults
      s.issuanceResults.entries := by
    refine hu.imp ?_
    intro d e ⟨i,hd⟩
    obtain ⟨bl,rfl,-⟩ := issuanceDto_eq_ok hd
    exact ⟨rfl,rfl⟩
  have hm' : List.Forall₂ (fun d e => d.2.blindSigs=[] ∧ d.1=hex32 e.1) dto.mintResults
      s.mintResults.entries := by
    refine hm.imp ?_
    intro d e ⟨i,hd⟩
    obtain ⟨bl,rfl,-⟩ := mintDto_eq_ok hd
    exact ⟨rfl,rfl⟩
  refine ⟨?_,?_,hexKeys_nodup hu' fun _ _ h => h.2,hexKeys_nodup hm' fun _ _ h => h.2⟩
  · have hs:=((forall₂_and_left _ _).mp hu').1
    have hb:=((forall₂_and_left _ _).mp hm').1
    simp only [SnapshotDto.rewriteNeeded,Bool.or_eq_false_iff,any_eq_false]
    refine ⟨?_,?_⟩
    · intro d hd
      rw [hs d hd]
      decide
    · intro d hd
      rw [hb d hd]
      decide
  · refine hexKeys_nodup ha' ?_
    intro d e hd
    rw [hd]

lemma loadSnapshot_reordered (hc : cipher.Opens) (hs : s.Storable)
    (h : snapshotOf cipher draws s=.ok dto) {dto' : SnapshotDto} (ht : dto.Reordered dto') :
    ∃ s', loadSnapshot cipher dto'=.ok s' ∧ s.Agrees s' := by
  obtain ⟨hac,ha,his,hm,hq⟩ := snapshotOf_eq_ok h
  have hr1 : List.Forall₂ (fun d e => loadAccount d=.ok e) dto.accounts s.accounts.entries := by
    rw [hac,forall₂_map_left_iff,forall₂_same]
    intro e he
    have hn:=hs.accounts e.1 e.2 ((get_eq_some _ _ _).mpr he)
    rw [loadAccount_fromRecord,hn]
  have hr : List.Forall₂ (fun d e => loadActivation d=.ok e) dto.activationResults
      s.activationResults.entries := by
    rw [ha,forall₂_map_left_iff,forall₂_same]
    exact fun e _ => loadActivation_hex32 e
  have hrw : List.Forall₂ (fun d e => loadIssuance cipher d=.ok e) dto.issuanceResults
      s.issuanceResults.entries := by
    refine (forall₂_and_right his fun e he => hs.issuance e.1 e.2 ((get_eq_some _ _ _).mpr he)).imp ?_
    intro d e ⟨⟨i,hd⟩,hsi⟩
    exact loadIssuance_issuanceDto hc hd hsi
  have hr4 : List.Forall₂ (fun d e => loadMint cipher d=.ok e) dto.mintResults
      s.mintResults.entries := by
    refine hm.imp ?_
    intro d e ⟨i,hd⟩
    exact loadMint_mintDto hc hd
  have hr5 : List.Forall₂ (fun d e => loadQuota d=.ok e) dto.mintQuotas s.mintQuotas.entries := by
    rw [hq,forall₂_map_left_iff,forall₂_same]
    intro e he
    exact loadQuota_quotaDto e (hs.quotas e.1 e.2 ((get_eq_some _ _ _).mpr he))
  obtain ⟨t1,ht1,hgt⟩ := loadEach_perm (List.Perm.of_eq ht.accounts) hr1
  obtain ⟨t2,ht2,hg⟩ := loadEach_perm ht.activations hr
  obtain ⟨t3,ht3,hg3⟩ := loadEach_perm ht.issuance hrw
  obtain ⟨t4,ht4,hg4⟩ := loadEach_perm ht.mint hr4
  obtain ⟨t5,ht5,hg5⟩ := loadEach_perm (List.Perm.of_eq ht.quotas) hr5
  refine ⟨⟨t1,t2,t3,t4,t5⟩,?_,hgt,hg,hg3,hg4,hg5⟩
  simp only [loadSnapshot,ht1,ht2,ht3,ht4,ht5,ok_bind]

lemma Reordered.rewriteNeeded {dto' : SnapshotDto} (h : dto.Reordered dto')
    (hp : dto.rewriteNeeded=false) : dto'.rewriteNeeded=false := by
  simp only [SnapshotDto.rewriteNeeded,Bool.or_eq_false_iff,any_eq_false] at hp ⊢
  exact ⟨fun d hd => hp.1 d (h.issuance.mem_iff.mp hd),fun d hd => hp.2 d (h.mint.mem_iff.mp hd)⟩

structure Codec.Faithful (codec : Codec) : Prop where
  json : codec.json.RoundTrips
  cipher : codec.cipher.Opens

lemma loadContents_snapshot {c : Codec} (hc : c.Faithful) (hs : s.Storable)
    (hd : snapshotOf c.cipher draws s=.ok dto) {bytes : Bytes} (hb : c.json.toVec dto=some bytes) :
    ∃ s', loadContents c (some bytes)=.ok (s',false) ∧ s.Agrees s' := by
  obtain ⟨hne,dto',hr,hm⟩ := hc.json dto bytes (snapshotOf_plain hd) hb
  obtain ⟨s',hl,ha⟩ := loadSnapshot_reordered hc.cipher hs hd hm
  have hk:=Reordered.rewriteNeeded hm (snapshotOf_plain hd).sealedOnly
  refine ⟨s',?_,ha⟩
  cases bytes with
  | nil => exact absurd rfl hne
  | cons b rest => simp only [loadContents,hr,okOr_some,ok_bind,DiskDto.snapshotDto,hl,hk]

lemma loadAccount_key {d : RecordDto} {e : Hash × AccountRecord} (h : loadAccount d=.ok e) :
    e.2.accountNumber=e.1 := by
  obtain ⟨r,-,h⟩ := except_bind_ok h
  rw [← ok.inj h]

lemma openIssuance_size {key ha : Hash} {replayUntil : UInt64} {blob signature : Bytes}
    (h : openIssuance cipher key ha replayUntil blob=.ok signature) :
    signature=[] ∨ signature.length*2=blindTokenHexLen := by
  unfold openIssuance at h
  split at h
  · exact .inl (ok.inj h).symm
  · obtain ⟨st,-,h⟩ := except_bind_ok h
    split at h
    next o _ => grind
    · exact .inl (ok.inj h).symm

lemma loadIssuance_size {d : Bytes × IssuanceDto} {e : Hash × IssuanceResult}
    (h : loadIssuance cipher d=.ok e) :
    e.2.blindSig=[] ∨ e.2.blindSig.length*2=blindTokenHexLen := by
  obtain ⟨key,-,ha,-,h⟩ := except_bind_ok₂ h
  obtain ⟨si,ho,h⟩ := except_bind_ok h
  rw [← ok.inj h]
  exact openIssuance_size ho

lemma loadQuota_window {d : MintQuotaDto} {e : (Hash × UInt64) × QuotaRow}
    (h : loadQuota d=.ok e) : e.1.2<e.2.windowEnd := by
  obtain ⟨key,-,u,hw,h⟩ := except_bind_ok₂ h
  rw [← ok.inj h]
  exact of_decide_eq_true (ensure_eq_ok hw)

lemma storable_empty : StoreState.empty.Storable := by
  refine ⟨?_,?_,?_⟩
  · intro k r h
    cases h
  · intro k r h
    cases h
  · intro k row h
    cases h

lemma loadSnapshot_storable (h : loadSnapshot cipher dto=.ok s) : s.Storable := by
  unfold loadSnapshot at h
  obtain ⟨t1,h1,t2,-,t3,h3,t4,-,h⟩ := except_bind_ok₄ h
  obtain ⟨t5,h5,h⟩ := except_bind_ok h
  rw [← ok.inj h]
  refine ⟨?_,?_,?_⟩
  · refine loadEach_all (P := fun k r => r.accountNumber=k) (fun _ _ => loadAccount_key) h1 ?_
    exact storable_empty.accounts
  · exact loadEach_all (fun _ _ => loadIssuance_size) h3 storable_empty.issuance
  · exact loadEach_all (fun _ _ => loadQuota_window) h5 storable_empty.quotas

lemma loadContents_storable {c : Option Bytes} {r : Bool}
    (h : loadContents codec c=.ok (s,r)) : s.Storable := by
  match c,h with
  | none,h =>
    cases h
    exact storable_empty
  | some [],h =>
    cases h
    exact storable_empty
  | some (b::rest),h =>
    obtain ⟨disk,-,s',hl,h⟩ := except_bind_ok₂ h
    cases h
    exact loadSnapshot_storable hl
end
end NilVpn.Portal
