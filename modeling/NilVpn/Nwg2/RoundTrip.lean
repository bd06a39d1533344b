import NilVpn.Nwg2.Token

/-!
# Parsing what was minted
-/

namespace NilVpn.Nwg2
open Except Base List

@[simp] lemma magic_length : magic.length=4 := rfl

@[simp] lemma previousHopWire_length (ho : Option Ipv4) : (previousHopWire ho).length=previousHopLen := by
  cases ho <;> rfl

@[simp] lemma nextHopWire_length (ho : Option SocketAddrV4) : (nextHopWire ho).length=nextHopLen := by
  cases ho with
  | none => rfl
  | some en => simp [nextHopWire,Ipv4.octets,nextHopLen]

structure Parts where
  keyId : Block keyIdLen
  (issuedAt expiresAt : UInt64)
  nonce : Block nonceLen
  audience : GrantAudience
  signature : Block signatureLen

namespace Parts
variable (p : Parts)
abbrev node : GrantNodeIdentity := p.audience.node
def payload : Bytes := Nwg2.payload p.keyId p.issuedAt p.expiresAt p.nonce p.audience
def token : Bytes := p.payload++p.signature.val

def layout : List Bytes :=
  [magic,p.keyId.val,beBytes 8 p.issuedAt.toNat,beBytes 8 p.expiresAt.toNat,p.nonce.val,
    [p.node.role.toWire],[p.node.transport.toWire],[teeToWire p.node.tee],
    beBytes 2 p.node.realm.length,beBytes 2 p.node.nodeId.length,p.node.realm,p.node.nodeId,
    p.node.measurement.val,p.node.tlsSpkiSha256.val,previousHopWire p.audience.previousHop,
    nextHopWire p.audience.nextHop,p.signature.val]

lemma token_eq_flatten : p.token=p.layout.flatten := by
  simp only [token,payload,Nwg2.payload,layout,flatten_cons,flatten_nil,append_nil,append_assoc]

def nextHopEnd : ℕ :=
  identifiersOffset+p.node.realm.length+p.node.nodeId.length+measurementLen +
    tlsSpkiSha256Len+previousHopLen+nextHopLen

lemma identifiersOffset_eq : identifiersOffset=91 := rfl

lemma payload_length : p.payload.length=p.nextHopEnd := by
  simp only [payload,Nwg2.payload,nextHopEnd,length_append,magic_length,Block.length_val,
    beBytes_length,length_singleton,previousHopWire_length,nextHopWire_length,keyIdLen,
    nonceLen,identifiersOffset_eq,node]
  omega

lemma token_length : p.token.length=p.nextHopEnd+signatureLen := by
  rw [token,length_append,Block.length_val,payload_length]

lemma slice_token (k : ℕ) {f : Bytes} {lo hi : ℕ} (hk : p.layout[k]?=some f)
    (hlo : lo=(p.layout.take k).flatten.length) (hhi : hi=lo+f.length) :
    slice p.token lo hi=some f := by
  rw [token_eq_flatten]
  exact slice_flatten _ k f hk hlo hhi

lemma slice_magic : slice p.token 0 4=some magic := p.slice_token 0 rfl rfl rfl

lemma slice_keyId : slice p.token keyIdOffset (keyIdOffset+keyIdLen)=some p.keyId.val :=
  p.slice_token 1 rfl (by simp [layout]; rfl) (by rw [Block.length_val])

lemma slice_issuedAt : slice p.token issuedAtOffset (issuedAtOffset+8)=some (beBytes 8 p.issuedAt.toNat) :=
  p.slice_token 2 rfl (by simp [layout]; rfl) (by rw [beBytes_length])

lemma slice_expiresAt :
    slice p.token expiresAtOffset (expiresAtOffset+8)=some (beBytes 8 p.expiresAt.toNat) :=
  p.slice_token 3 rfl (by simp [layout]; rfl) (by rw [beBytes_length])

lemma slice_nonce : slice p.token nonceOffset (nonceOffset+nonceLen)=some p.nonce.val :=
  p.slice_token 4 rfl (by simp [layout]; rfl) (by rw [Block.length_val])

lemma slice_role : slice p.token roleOffset (roleOffset+1)=some [p.node.role.toWire] :=
  p.slice_token 5 rfl (by simp [layout]; rfl) rfl

lemma slice_transport : slice p.token transportOffset (transportOffset+1)=some [p.node.transport.toWire] :=
  p.slice_token 6 rfl (by simp [layout]; rfl) rfl

lemma slice_tee : slice p.token teeOffset (teeOffset+1)=some [teeToWire p.node.tee] :=
  p.slice_token 7 rfl (by simp [layout]; rfl) rfl

lemma slice_realmLen :
    slice p.token realmLenOffset (realmLenOffset+2)=some (beBytes 2 p.node.realm.length) :=
  p.slice_token 8 rfl (by simp [layout]; rfl) (by rw [beBytes_length])

lemma slice_nodeIdLen :
    slice p.token nodeIdLenOffset (nodeIdLenOffset+2)=some (beBytes 2 p.node.nodeId.length) :=
  p.slice_token 9 rfl (by simp [layout]; rfl) (by rw [beBytes_length])

lemma slice_realm :
    slice p.token identifiersOffset (identifiersOffset+p.node.realm.length)=some p.node.realm :=
  p.slice_token 10 rfl (by simp [layout]; rfl) rfl

def nodeIdEnd : ℕ := identifiersOffset+p.node.realm.length+p.node.nodeId.length

lemma layout_nodeIdEnd : p.nodeIdEnd=(p.layout.take 12).flatten.length := by
  simp only [nodeIdEnd,layout,take_succ_cons,take_zero,flatten_cons,
    flatten_nil,length_append,magic_length,Block.length_val,beBytes_length,
    length_singleton,length_nil,keyIdLen,nonceLen,identifiersOffset_eq,node]
  omega

lemma slice_nodeId :
    slice p.token (identifiersOffset+p.node.realm.length) p.nodeIdEnd=some p.node.nodeId := by
  have hb : p.nodeIdEnd=(p.layout.take 11).flatten.length+p.node.nodeId.length := by
    rw [layout_nodeIdEnd]
    simp only [layout,take_succ_cons,take_zero,flatten_cons,flatten_nil,length_append,length_nil]
    omega
  have hs : p.nodeIdEnd=identifiersOffset+p.node.realm.length+p.node.nodeId.length := rfl
  exact p.slice_token 11 rfl (by omega) hs

lemma slice_measurement :
    slice p.token p.nodeIdEnd (p.nodeIdEnd+measurementLen)=some p.node.measurement.val :=
  p.slice_token 12 rfl p.layout_nodeIdEnd (by rw [Block.length_val])

lemma slice_behind (k d : ℕ) {f : Bytes} {lo hi : ℕ} (hk : p.layout[12+k]?=some f)
    (hd : d=((p.layout.drop 12).take k).flatten.length) (hlo : lo=p.nodeIdEnd+d)
    (hhi : hi=lo+f.length) : slice p.token lo hi=some f := by
  refine p.slice_token (12+k) hk ?_ hhi
  rw [hlo,layout_nodeIdEnd,hd,take_add,flatten_append,length_append]

lemma slice_tlsSpki :
    slice p.token (p.nodeIdEnd+measurementLen) (p.nodeIdEnd+measurementLen+tlsSpkiSha256Len) =
      some p.node.tlsSpkiSha256.val :=
  p.slice_behind 1 _ rfl (by simp [layout]) rfl (by rw [Block.length_val])

lemma slice_previousHop : slice p.token (p.nodeIdEnd+measurementLen+tlsSpkiSha256Len)
      (p.nodeIdEnd+measurementLen+tlsSpkiSha256Len+previousHopLen) =
      some (previousHopWire p.audience.previousHop) :=
  p.slice_behind 2 (measurementLen+tlsSpkiSha256Len) rfl (by simp [layout])
    (Nat.add_assoc _ _ _) (by rw [previousHopWire_length])

lemma slice_nextHop :
    slice p.token (p.nodeIdEnd+measurementLen+tlsSpkiSha256Len+previousHopLen) p.nextHopEnd =
      some (nextHopWire p.audience.nextHop) :=
  p.slice_behind 3 (measurementLen+(tlsSpkiSha256Len+previousHopLen)) rfl (by simp [layout])
    (by omega) (by rw [nextHopWire_length]; rfl)

lemma slice_signature : slice p.token p.nextHopEnd (p.nextHopEnd+signatureLen)=some p.signature.val :=
  p.slice_behind 4 (measurementLen+(tlsSpkiSha256Len+(previousHopLen+nextHopLen))) rfl
    (by simp [layout]) (by simp only [nextHopEnd,nodeIdEnd]; omega) (by rw [Block.length_val])
end Parts

variable {o : ℕ} {token : Bytes}
lemma readArray_of_slice {n : ℕ} (b : Block n) (h : slice token o (o+n)=some b.val) :
    readArray n token o=.ok b := by
  rw [readArray,field,h,okOr_some,ok_bind,Block.ofBytes_val,okOr_some]

lemma readUint_of_slice {n v : ℕ} (hv : v<256^n) (h : slice token o (o+n)=some (beBytes n v)) :
    readUint n token o=.ok v := by
  have hb : readArray n token o=.ok ⟨beBytes n v,beBytes_length n v⟩ :=
    readArray_of_slice ⟨beBytes n v,beBytes_length n v⟩ h
  rw [readUint,hb,ok_bind,ofBe_beBytes n v hv]

lemma readByte_of_slice {b : UInt8} (h : slice token o (o+1)=some [b]) : readByte token o=.ok b := by
  obtain ⟨-,hl,hr⟩ := slice_eq_some h
  have ho : o+1 - o=1 := by omega
  have hb : token[o]?=some b := by
    have hh:=congrArg List.head? hr
    rw [ho,List.head?_take,if_neg one_ne_zero,List.head?_drop] at hh
    exact hh.symm
  rw [readByte,hb,okOr_some]

lemma readText_of_slice {lo hi : ℕ} {text : Bytes} (ht : isUtf8 text)
    (h : slice token lo hi=some text) : readText token lo hi=.ok text := by
  rw [readText,field,h,okOr_some,ok_bind,ht,ensure_true,ok_bind]

lemma parsePreviousHop_wire (hop : Option Ipv4) : parsePreviousHop (previousHopWire hop)=.ok hop := by
  cases hop with
  | none => rfl
  | some ip => simp [previousHopWire,Ipv4.octets,parsePreviousHop]

lemma ofBe_port (port : UInt16) : UInt16.ofNat (ofBe (beBytes 2 port.toNat))=port := by
  rw [ofBe_beBytes 2 _ port.toNat_lt,UInt16.ofNat_toNat]

lemma parseNextHop_wire {hop : Option SocketAddrV4} (hp : ∀ en, hop=some en → en.port≠0) :
    parseNextHop (nextHopWire hop)=.ok hop := by
  cases hop with
  | none => rfl
  | some en =>
    have hne:=hp en rfl
    have hbc:=ofBe_port en.port
    obtain ⟨hi,lo,hb⟩ : ∃ hi lo, beBytes 2 en.port.toNat=[hi,lo] := ⟨_,_,rfl⟩
    rw [hb] at hbc
    simp [nextHopWire,Ipv4.octets,parseNextHop,hb,hbc,hne]

lemma GrantAudience.port_ne_zero (x : GrantAudience) : ∀ en, x.nextHop=some en → en.port≠0 := by
  intro en he
  have h:=x.admitted
  rw [he] at h
  cases hr : x.node.role <;> cases hp : x.previousHop <;>
    simp [hr,hp,neighboursAdmitted] at h <;> exact h

lemma parseAudience_token (p : Parts) :
    parseAudience p.token p.node.realm.length p.node.nodeId.length=.ok p.audience := by
  have he : p.nextHopEnd=p.token.length - signatureLen := by rw [p.token_length,Nat.add_sub_cancel]
  have hr:=readText_of_slice (isIdentifier_utf8 p.node.realm_valid) p.slice_realm
  have hn:=readText_of_slice (isIdentifier_utf8 p.node.nodeId_valid) p.slice_nodeId
  have hrl:=readByte_of_slice p.slice_role
  have ht:=readByte_of_slice p.slice_transport
  have htee:=readByte_of_slice p.slice_tee
  have hm:=readArray_of_slice p.node.measurement p.slice_measurement
  have htls:=readArray_of_slice p.node.tlsSpkiSha256 p.slice_tlsSpki
  have hp:=p.slice_previousHop
  have hnx:=p.slice_nextHop
  simp only [Parts.nextHopEnd,Parts.nodeIdEnd] at he hn hm htls hp hnx
  simp only [parseAudience,he,decide_true,ensure_true,ok_bind,hr,hn,hrl,
    GrantRole.fromWire_toWire,okOr_some,ht,GrantTransport.fromWire_toWire,htee,
    teeFromWire_toWire,hm,htls,field,hp,parsePreviousHop_wire]
  rw [← he,hnx,okOr_some,ok_bind,parseNextHop_wire p.audience.port_ne_zero,ok_bind,
    GrantAudience.new_parts]
  rfl

lemma not_legacy (p : Parts) : legacyMagic.isPrefixOf p.token=false := rfl

lemma minTokenLen_le (p : Parts) : minTokenLen≤p.token.length := by
  have hr:=isIdentifier_length p.node.realm_valid
  have hn:=isIdentifier_length p.node.nodeId_valid
  rw [p.token_length,Parts.nextHopEnd,minTokenLen]
  omega

/-- `parse` returns exactly the fields a token was built from. -/
lemma parse_token (p : Parts) :
    parse p.token=.ok ⟨p.keyId,p.issuedAt,p.expiresAt,p.nonce,p.audience,p.payload,p.signature⟩ := by
  have hr:=isIdentifier_length p.node.realm_valid
  have hn:=isIdentifier_length p.node.nodeId_valid
  have hre:=readUint_of_slice (by omega) p.slice_realmLen
  have hno:=readUint_of_slice (by omega) p.slice_nodeIdLen
  have hl : (decide (p.node.realm.length≠0) &&
      decide (p.node.realm.length ≤ maxGrantIdentifierLen) &&
      decide (p.node.nodeId.length≠0) &&
      decide (p.node.nodeId.length ≤ maxGrantIdentifierLen))=true := by
    simp only [maxGrantIdentifierLen,Bool.and_eq_true,decide_eq_true_eq]
    exact ⟨⟨⟨by omega,decide_eq_true hr.2⟩,by omega⟩,decide_eq_true hn.2⟩
  have ho : p.token.length - signatureLen=p.nextHopEnd := by rw [p.token_length,Nat.add_sub_cancel]
  have hs:=readArray_of_slice p.signature p.slice_signature
  have hk:=readArray_of_slice p.keyId p.slice_keyId
  have his:=readUint_of_slice p.issuedAt.toNat_lt p.slice_issuedAt
  have he:=readUint_of_slice p.expiresAt.toNat_lt p.slice_expiresAt
  have hnn:=readArray_of_slice p.nonce p.slice_nonce
  have hp : p.token.take p.nextHopEnd=p.payload := by rw [Parts.token,← p.payload_length,take_left]
  simp only [parse,not_legacy,Bool.not_false,ensure_true,ok_bind,minTokenLen_le,decide_true,
    p.slice_magic,hre,hno,hl,parseAudience_token,ho,hs,hk,
    his,he,hnn,hp,UInt64.ofNat_toNat]

structure Authentic (scheme : Scheme) (token : Bytes) (v : GrantVerifier) (now : UInt64)
    (p : ParsedGrant) : Prop where
  parsed : parse token=.ok p
  signed : ∃ publicKey, v.keys.get p.keyId=some publicKey ∧
    scheme.verifyStrict publicKey p.signedPayload p.signature=true
  ordered : p.issuedAt≤p.expiresAt
  lifetime : 1≤p.expiresAt.toNat - p.issuedAt.toNat ∧ p.expiresAt.toNat - p.issuedAt.toNat ≤ maxGrantTtlSecs
  unexpired : now<p.expiresAt
  started : p.issuedAt.toNat - now.toNat ≤ maxGrantClockSkewSecs

section
variable {scheme : Scheme} {t : Bytes} {v : GrantVerifier} {now : UInt64}
lemma verifyAuthentic_eq_ok {p : ParsedGrant} :
    verifyAuthentic scheme t v now=.ok p ↔ Authentic scheme t v now p := by
  constructor
  · intro h
    unfold verifyAuthentic at h
    obtain ⟨pa,hp,pk,hk,_,hs,_,ho,h⟩ := except_bind_ok₄ h
    obtain ⟨_,hl,_,hu,h⟩ := except_bind_ok₂ h
    obtain ⟨_,hst,h⟩ := except_bind_ok h
    have hl:=ensure_eq_ok hl
    rw [Bool.and_eq_true,decide_eq_true_eq,decide_eq_true_eq] at hl
    rw [← ok.inj h]
    exact {
      parsed := hp
      signed := ⟨pk,okOr_eq_ok hk,ensure_eq_ok hs⟩
      ordered := of_decide_eq_true (ensure_eq_ok ho)
      lifetime := hl
      unexpired := of_decide_eq_true (ensure_eq_ok hu)
      started := of_decide_eq_true (ensure_eq_ok hst) }
  · intro h
    obtain ⟨pk,hk,hs⟩ := h.signed
    have hl:=h.lifetime
    rw [verifyAuthentic,h.parsed,ok_bind,hk,okOr_some,ok_bind,hs,ensure_true,ok_bind]
    simp [h.ordered,hl.1,hl.2,h.unexpired,h.started,ensure_true,ok_bind]

lemma verify_eq_ok {e : GrantAudience} {r : VerifiedGrant} : verify scheme t v e now=.ok r ↔
      ∃ p, Authentic scheme t v now p ∧ p.audience=e ∧ r=p.intoVerified := by
  constructor
  · intro h
    unfold verify at h
    obtain ⟨p,hp,_,ha,h⟩ := except_bind_ok₂ h
    exact ⟨p,verifyAuthentic_eq_ok.mp hp,of_decide_eq_true (ensure_eq_ok ha),(ok.inj h).symm⟩
  · rintro ⟨p,hp,ha,rfl⟩
    rw [verify,verifyAuthentic_eq_ok.mpr hp,ok_bind,decide_eq_true ha,ensure_true,ok_bind]

lemma verifyForNode_eq_ok {e : GrantNodeIdentity} {r : VerifiedGrant} :
    verifyForNode scheme t v e now=.ok r ↔
      ∃ p, Authentic scheme t v now p ∧ p.audience.node=e ∧ r=p.intoVerified := by
  constructor
  · intro h
    unfold verifyForNode at h
    obtain ⟨p,hp,_,ha,h⟩ := except_bind_ok₂ h
    exact ⟨p,verifyAuthentic_eq_ok.mp hp,of_decide_eq_true (ensure_eq_ok ha),(ok.inj h).symm⟩
  · rintro ⟨p,hp,ha,rfl⟩
    rw [verifyForNode,verifyAuthentic_eq_ok.mpr hp,ok_bind,decide_eq_true ha,ensure_true,ok_bind]
end
section
variable {scheme : Scheme} {key : GrantSigningKey} {audience : GrantAudience}
  {nonce : Block nonceLen} {ttl : Duration} {now : UInt64}
def Duration.Grantable (ttl : Duration) : Prop :=
  ttl.subsecNanos=0 ∧ 1≤ttl.secs.toNat ∧ ttl.secs.toNat ≤ maxGrantTtlSecs

def mintedParts (scheme : Scheme) (key : GrantSigningKey) (audience : GrantAudience)
    (nonce : Block nonceLen) (now expiresAt : UInt64) : Parts :=
  ⟨key.keyId scheme,now,expiresAt,nonce,audience,
    scheme.sign key.seed (payload (key.keyId scheme) now expiresAt nonce audience)⟩

variable {g : Grant} {v : GrantVerifier}
lemma mint_eq_ok (h : mint scheme key audience nonce ttl now=.ok g) :
    ttl.Grantable ∧ ∃ ea : UInt64, ea.toNat=now.toNat+ttl.secs.toNat ∧
      g=⟨(mintedParts scheme key audience nonce now ea).token,nonce⟩ := by
  unfold mint at h
  obtain ⟨_,-,_,-,_,ht,ea,he,h⟩ := except_bind_ok₄ h
  obtain ⟨_,-,_,-,h⟩ := except_bind_ok₂ h
  have ht:=ensure_eq_ok ht
  simp only [Bool.and_eq_true,decide_eq_true_eq] at ht
  have he:=checkedAdd_eq_some.mp (okOr_eq_ok he)
  exact ⟨⟨ht.1.1,ht.1.2,ht.2⟩,ea,he,(ok.inj h).symm⟩

lemma mint_ok (ht : ttl.Grantable) {expiry : UInt64} (he : expiry.toNat=now.toNat+ttl.secs.toNat) :
    mint scheme key audience nonce ttl now =
      .ok ⟨(mintedParts scheme key audience nonce now expiry).token,nonce⟩ := by
  have hr:=isIdentifier_length audience.node.realm_valid
  have hn:=isIdentifier_length audience.node.nodeId_valid
  have hrl : audience.node.realm.length<2^16 := by omega
  have hno : audience.node.nodeId.length<2^16 := by omega
  obtain ⟨hnn,hl,hh⟩ := ht
  simp only [mint,validateNamedIdentifier,audience.node.realm_valid,audience.node.nodeId_valid,
    ensure_true,ok_bind,hnn,hl,hh,decide_true,Bool.and_self,
    checkedAdd_eq_some.mpr he,okOr_some,hrl,hno]
  rfl

lemma parse_minted (h : mint scheme key audience nonce ttl now=.ok g) :
    ∃ parsed, parse g.token=.ok parsed ∧ parsed.audience=audience ∧ parsed.nonce=nonce ∧
      parsed.issuedAt=now ∧ parsed.expiresAt.toNat=now.toNat+ttl.secs.toNat ∧
      parsed.keyId=key.keyId scheme ∧
      parsed.signature=scheme.sign key.seed parsed.signedPayload := by
  obtain ⟨-,ea,he,rfl⟩ := mint_eq_ok h
  exact ⟨_,parse_token _,rfl,rfl,rfl,he,rfl,rfl⟩

lemma GrantVerifier.addPublicKey_get {v' : GrantVerifier} {publicKey : Block 32}
    (h : v.addPublicKey scheme publicKey=.ok v') :
    v'.keys.get (keyIdForPublicKey scheme publicKey)=some publicKey ∧
    ∀ id held, v.keys.get id=some held → v'.keys.get id=some held := by
  unfold GrantVerifier.addPublicKey at h
  split at h
  · cases h
  split at h
  next ex hg => grind
  next hn =>
    rw [← ok.inj h]
    refine ⟨Table.get_insert_self ..,?_⟩
    intro id held hh
    have hne : id≠keyIdForPublicKey scheme publicKey := by
      intro he
      rw [he,hn] at hh
      cases hh
    rw [Table.get_insert_ne _ _ _ _ hne]
    exact hh

lemma GrantVerifier.addAll_get {pk : List (Block 32)} {v' : GrantVerifier}
    (h : GrantVerifier.addAll scheme pk v=.ok v') :
    (∀ pu∈pk, v'.keys.get (keyIdForPublicKey scheme pu)=some pu) ∧
    ∀ id held, v.keys.get id=some held → v'.keys.get id=some held := by
  induction pk generalizing v with
  | nil =>
    rw [← ok.inj h]
    refine ⟨?_,fun _ _ hh => hh⟩
    intro pu hm
    cases hm
  | cons f rest ih =>
    obtain ⟨v1,ha,hr⟩ := except_bind_ok h
    obtain ⟨hf,hk⟩ := addPublicKey_get ha
    obtain ⟨hall,hl⟩ := ih hr
    refine ⟨?_,fun id held hh => hl id held (hk id held hh)⟩
    intro pu hm
    rcases mem_cons.mp hm with rfl | hm
    · exact hl _ _ hf
    · exact hall pu hm

lemma GrantVerifier.new_get {pk : List (Block 32)} (h : GrantVerifier.new scheme pk=.ok v) :
    ∀ publicKey∈pk, v.keys.get (keyIdForPublicKey scheme publicKey)=some publicKey := by
  unfold GrantVerifier.new at h
  obtain ⟨v1,ha,_,-,h⟩ := except_bind_ok₂ h
  rw [← ok.inj h]
  exact (GrantVerifier.addAll_get ha).1

lemma authentic_of_mint (hid : scheme.Ideal)
    (hy : v.keys.get (key.keyId scheme)=some (key.publicKeyBytes scheme)) {issuedAt : UInt64}
    (h : mint scheme key audience nonce ttl issuedAt=.ok g)
    (hu : now.toNat < issuedAt.toNat+ttl.secs.toNat)
    (hs : issuedAt.toNat - now.toNat ≤ maxGrantClockSkewSecs) :
    ∃ p, Authentic scheme g.token v now p ∧ p.audience=audience ∧ p.nonce=nonce := by
  obtain ⟨⟨-,hl,hh⟩,-⟩ := mint_eq_ok h
  obtain ⟨p,hp,ha,hn,his,he,hk,hg⟩ := parse_minted h
  refine ⟨p,?_,ha,hn⟩
  exact {
    parsed := hp
    signed := ⟨_,hk ▸ hy,(hid key.seed _ _).mpr hg⟩
    ordered := by
      rw [UInt64.le_iff_toNat_le,his]
      omega
    lifetime := by
      rw [his]
      omega
    unexpired := by
      rw [UInt64.lt_iff_toNat_lt]
      omega
    started := his ▸ hs }

lemma verifyForNode_minted (hid : scheme.Ideal)
    (hk : v.keys.get (key.keyId scheme)=some (key.publicKeyBytes scheme))
    (h : mint scheme key audience nonce ttl now=.ok g) (e : GrantNodeIdentity) :
    (audience.node=e → ∃ verified, verifyForNode scheme g.token v e now =
      .ok verified ∧ verified.audience=audience ∧ verified.nonce=nonce) ∧
    (audience.node≠e → verifyForNode scheme g.token v e now=.error .wrongAudience) := by
  obtain ⟨⟨-,hl,-⟩,-⟩ := mint_eq_ok h
  have hu : now.toNat<now.toNat+ttl.secs.toNat := by omega
  obtain ⟨p,hp,ha,hn⟩ := authentic_of_mint hid hk h hu (by omega)
  constructor
  · intro he
    exact ⟨p.intoVerified,verifyForNode_eq_ok.mpr ⟨p,hp,ha ▸ he,rfl⟩,ha,hn⟩
  · intro hne
    rw [verifyForNode,verifyAuthentic_eq_ok.mpr hp,ok_bind,ha,decide_eq_false hne]
    rfl
end

def plainScheme : Scheme where
  publicKey seed := seed
  sign seed message := ⟨seed.val++(message++List.replicate 32 0).take 32,by simp [signatureLen]⟩
  verifyStrict key message signature := signature.val=key.val++(message++List.replicate 32 0).take 32
  acceptsKey _ := true
  sha256 message := ⟨(message++List.replicate 32 0).take 32,by simp⟩

lemma plainScheme_ideal : plainScheme.Ideal := by
  intro seed m si
  simp only [plainScheme,decide_eq_true_eq]
  constructor
  · intro h
    exact Subtype.ext h
  · intro h
    rw [h]
end NilVpn.Nwg2
