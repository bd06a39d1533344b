import NilVpn.Nwg2.RoundTrip

/-!
# What is accepted was minted
-/

namespace NilVpn.Nwg2
open UInt64 Except Base List Table

section
variable {t : Bytes}
variable {o : ℕ}
lemma slice_of_readArray {n : ℕ} {b : Block n} (h : readArray n t o=.ok b) :
    slice t o (o+n)=some b.val := by
  obtain ⟨bt,hb,h⟩ := except_bind_ok h
  rw [okOr_eq_ok hb,Block.ofBytes_eq_some (okOr_eq_ok h)]

lemma slice_of_readUint {n v : ℕ} (h : readUint n t o=.ok v) :
    slice t o (o+n)=some (beBytes n v) ∧ v<256^n := by
  obtain ⟨b,hb,h⟩ := except_bind_ok h
  have hv:=ok.inj h
  have hl:=b.length_val
  have hbc:=beBytes_ofBe b.val
  have hlt:=ofBe_lt b.val
  rw [hl,hv] at hbc hlt
  rw [hbc]
  exact ⟨slice_of_readArray hb,hlt⟩

lemma slice_of_readByte {b : UInt8} (h : readByte t o=.ok b) : slice t o (o+1)=some [b] := by
  have hg:=okOr_eq_ok h
  obtain ⟨hlt,hb⟩ := List.getElem?_eq_some_iff.mp hg
  have hin : o≤o+1 ∧ o+1≤t.length := by omega
  have ho : o+1 - o=1 := by omega
  rw [slice,if_pos hin,ho,drop_eq_getElem_cons hlt,take_succ_cons,take_zero,hb]

lemma slice_of_readText {lo hi : ℕ} {text : Bytes} (h : readText t lo hi=.ok text) :
    slice t lo hi=some text := by
  obtain ⟨bt,hb,_,-,h⟩ := except_bind_ok₂ h
  rw [← ok.inj h]
  exact okOr_eq_ok hb

lemma slice_of_field {lo hi : ℕ} {bytes : Bytes} (h : field t lo hi=.ok bytes) :
    slice t lo hi=some bytes := okOr_eq_ok h
end

variable {b : UInt8} {token : Bytes} {scheme : Scheme} {v : GrantVerifier}
lemma GrantRole.toWire_of_fromWire {r : GrantRole} (h : fromWire b=some r) : b=r.toWire := by
  unfold fromWire at h
  split_ifs at h with hb hb hb <;> cases h <;> exact hb

lemma GrantTransport.toWire_of_fromWire {t : GrantTransport} (h : fromWire b=some t) : b=t.toWire := by
  unfold fromWire at h
  split_ifs at h with hb hb hb hb <;> cases h <;> exact hb

lemma teeToWire_of_fromWire {t : Tee} (h : teeFromWire b=some t) : b=teeToWire t := by
  unfold teeFromWire at h
  split_ifs at h with hb hb <;> cases h <;> exact hb

lemma previousHopWire_of_parse {bytes : Bytes} {hop : Option Ipv4}
    (h : parsePreviousHop bytes=.ok hop) : bytes=previousHopWire hop := by
  unfold parsePreviousHop at h
  split at h
  next tag a b c d =>
    split at h
    next hz =>
      rw [hz,← ok.inj h]
      rfl
    split at h
    next ht =>
      rw [ht,← ok.inj h]
      rfl
    · cases h
  · cases h

lemma orMalformed_eq_ok {α : Type} {x : Except GrantError α} {a : α}
    (h : orMalformed x=.ok a) : x=.ok a := by
  cases x with
  | ok b => exact h
  | error e => cases h

lemma beBytes_port (hi lo : UInt8) : beBytes 2 (UInt16.ofNat (ofBe [hi,lo])).toNat=[hi,lo] := by
  have hlt : ofBe [hi,lo]<256^2 := ofBe_lt [hi,lo]
  have hb : beBytes 2 (ofBe [hi,lo])=[hi,lo] := beBytes_ofBe [hi,lo]
  have hp : (UInt16.ofNat (ofBe [hi,lo])).toNat=ofBe [hi,lo] := by
    rw [UInt16.toNat_ofNat']
    omega
  rw [hp]
  exact hb

lemma nextHopWire_of_parse {bytes : Bytes} {hop : Option SocketAddrV4}
    (h : parseNextHop bytes=.ok hop) : bytes=nextHopWire hop := by
  unfold parseNextHop at h
  split at h
  next tag a b c d ph pl =>
    split at h
    next hz =>
      rw [hz,← ok.inj h]
      rfl
    split at h
    next ht =>
      split at h
      · cases h
      · rw [ht,← ok.inj h]
        simp only [nextHopWire,Ipv4.octets,beBytes_port]
        rfl
    · cases h
  · cases h

structure Spelled (token : Bytes) (realmLen nodeIdLen : ℕ) (audience : GrantAudience) : Prop where
  role : slice token roleOffset (roleOffset+1)=some [audience.node.role.toWire]
  transport : slice token transportOffset (transportOffset+1)=some [audience.node.transport.toWire]
  tee : slice token teeOffset (teeOffset+1)=some [teeToWire audience.node.tee]
  realm : slice token identifiersOffset (identifiersOffset+realmLen)=some audience.node.realm
  nodeId : slice token (identifiersOffset+realmLen) (identifiersOffset+realmLen+nodeIdLen) =
    some audience.node.nodeId
  measurement : slice token (identifiersOffset+realmLen+nodeIdLen)
    (identifiersOffset+realmLen+nodeIdLen+measurementLen) =
    some audience.node.measurement.val
  tlsSpki : slice token (identifiersOffset+realmLen+nodeIdLen+measurementLen)
    (identifiersOffset+realmLen+nodeIdLen+measurementLen+tlsSpkiSha256Len) =
    some audience.node.tlsSpkiSha256.val
  previousHop : slice token (identifiersOffset+realmLen+nodeIdLen+measurementLen+tlsSpkiSha256Len)
    (identifiersOffset+realmLen+nodeIdLen+measurementLen+tlsSpkiSha256Len +
      previousHopLen)=some (previousHopWire audience.previousHop)
  nextHop : slice token (identifiersOffset+realmLen+nodeIdLen+measurementLen+tlsSpkiSha256Len +
      previousHopLen) (token.length - signatureLen)=some (nextHopWire audience.nextHop)

lemma parseAudience_eq_ok {realmLen nodeIdLen : ℕ} {audience : GrantAudience}
    (h : parseAudience token realmLen nodeIdLen=.ok audience) :
    Spelled token realmLen nodeIdLen audience := by
  unfold parseAudience at h
  obtain ⟨_,he,re,hrl,ni,hno,rb,hr,h⟩ := except_bind_ok₄ h
  obtain ⟨ro,hro,tb,ht,tr,htr,te,hte,h⟩ := except_bind_ok₄ h
  obtain ⟨tee,htee,m,hm,tls,hl,pw,hp,h⟩ := except_bind_ok₄ h
  obtain ⟨pr,hpr,nw,hn,h⟩ := except_bind_ok₂ h
  obtain ⟨next,hnx,h⟩ := except_bind_ok h
  have he:=of_decide_eq_true (ensure_eq_ok he)
  obtain ⟨h1,h2,h3,h4,h5,h6,h7,h8,h9⟩ := GrantAudience.new_eq_ok (orMalformed_eq_ok h)
  subst h1 h2 h3 h4 h5 h6 h7 h8 h9
  rw [GrantRole.toWire_of_fromWire (okOr_eq_ok hro)] at hr
  rw [GrantTransport.toWire_of_fromWire (okOr_eq_ok htr)] at ht
  rw [teeToWire_of_fromWire (okOr_eq_ok htee)] at hte
  rw [previousHopWire_of_parse hpr] at hp
  rw [nextHopWire_of_parse hnx,he] at hn
  exact {
    role := slice_of_readByte hr
    transport := slice_of_readByte ht
    tee := slice_of_readByte hte
    realm := slice_of_readText hrl
    nodeId := slice_of_readText hno
    measurement := slice_of_readArray hm
    tlsSpki := slice_of_readArray hl
    previousHop := slice_of_field hp
    nextHop := slice_of_field hn }

lemma take_identifiersOffset {realmLen nodeIdLen issuedAt expiresAt : ℕ}
    {a : GrantAudience} {keyId : Block keyIdLen} {nonce : Block nonceLen}
    (hs : Spelled token realmLen nodeIdLen a) (hm : slice token 0 4=some magic)
    (hk : slice token keyIdOffset (keyIdOffset+keyIdLen)=some keyId.val)
    (his : slice token issuedAtOffset (issuedAtOffset+8)=some (beBytes 8 issuedAt))
    (he : slice token expiresAtOffset (expiresAtOffset+8)=some (beBytes 8 expiresAt))
    (hnn : slice token nonceOffset (nonceOffset+nonceLen)=some nonce.val)
    (hr : slice token realmLenOffset (realmLenOffset+2)=some (beBytes 2 realmLen))
    (hn : slice token nodeIdLenOffset (nodeIdLenOffset+2)=some (beBytes 2 nodeIdLen)) :
    token.take identifiersOffset=magic++(keyId.val++(beBytes 8 issuedAt ++
      (beBytes 8 expiresAt++(nonce.val++([a.node.role.toWire] ++
      ([a.node.transport.toWire]++([teeToWire a.node.tee] ++
      (beBytes 2 realmLen++beBytes 2 nodeIdLen)))))))) := by
  have c1 : token.take keyIdOffset=token.take 0++magic := take_slice hm
  have c2 : token.take issuedAtOffset=token.take keyIdOffset++keyId.val := take_slice hk
  have c3 : token.take expiresAtOffset=token.take issuedAtOffset++beBytes 8 issuedAt := take_slice his
  have c4 : token.take nonceOffset=token.take expiresAtOffset++beBytes 8 expiresAt := take_slice he
  have c5 : token.take roleOffset=token.take nonceOffset++nonce.val := take_slice hnn
  have c6 : token.take transportOffset=token.take roleOffset++[a.node.role.toWire] :=
    take_slice hs.role
  have c7 : token.take teeOffset=token.take transportOffset++[a.node.transport.toWire] :=
    take_slice hs.transport
  have c8 : token.take realmLenOffset=token.take teeOffset++[teeToWire a.node.tee] := take_slice hs.tee
  have c9 : token.take nodeIdLenOffset=token.take realmLenOffset++beBytes 2 realmLen := take_slice hr
  have c10 : token.take identifiersOffset=token.take nodeIdLenOffset++beBytes 2 nodeIdLen :=
    take_slice hn
  rw [c10,c9,c8,c7,c6,c5,c4,c3,c2,c1,take_zero,nil_append]
  simp only [append_assoc]

def ParsedGrant.parts (p : ParsedGrant) : Parts :=
  ⟨p.keyId,p.issuedAt,p.expiresAt,p.nonce,p.audience,p.signature⟩

/-- A token that parses is the encoding of what it parses to. -/
lemma parse_eq_ok {p : ParsedGrant} (h : parse token=.ok p) :
    token=p.parts.token ∧ p.signedPayload=p.parts.payload := by
  unfold parse at h
  obtain ⟨_,-,_,hmi,_,hm,realmLen,hr,h⟩ := except_bind_ok₄ h
  obtain ⟨nodeIdLen,hn,_,-,audience,ha,si,hsi,h⟩ := except_bind_ok₄ h
  obtain ⟨ki,hk,ia,his,ea,he,nonce,hnn,h⟩ := except_bind_ok₄ h
  have hmi : minTokenLen≤token.length := of_decide_eq_true (ensure_eq_ok hmi)
  have hm:=of_decide_eq_true (ensure_eq_ok hm)
  have hs:=parseAudience_eq_ok ha
  obtain ⟨hr,-⟩ := slice_of_readUint hr
  obtain ⟨hn,-⟩ := slice_of_readUint hn
  obtain ⟨his,hid⟩ := slice_of_readUint his
  obtain ⟨he,hep⟩ := slice_of_readUint he
  have hk:=slice_of_readArray hk
  have hnn:=slice_of_readArray hnn
  have hsi:=slice_of_readArray hsi
  have hrl:=slice_length hs.realm
  have hno:=slice_length hs.nodeId
  rw [Nat.add_sub_cancel_left] at hrl hno
  have hp : token.take (token.length - signatureLen) =
      payload ki (ofNat ia) (ofNat ea) nonce audience := by
    rw [take_slice hs.nextHop,take_slice hs.previousHop,take_slice hs.tlsSpki,
      take_slice hs.measurement,take_slice hs.nodeId,take_slice hs.realm,
      take_identifiersOffset hs hm hk his he hnn hr hn,
      payload,toNat_ofNat_of_lt' hid,toNat_ofNat_of_lt' hep,hrl,
      hno]
    simp only [append_assoc]
  have ht : token=token.take (token.length - signatureLen)++si.val := by
    have hl : token.length - signatureLen+signatureLen=token.length := by
      have hg : signatureLen ≤ minTokenLen := by decide
      omega
    rw [← take_slice hsi,hl,take_length]
  rw [← ok.inj h]
  refine ⟨?_,hp⟩
  rw [hp] at ht
  exact ht

/-- The tokens are canonical: re-encoding what a token parses to gives the token back, so no two
tokens parse alike, and no two tuples have one signed payload. -/
theorem token_canonical : (∀ token p, parse token=.ok p →
      payload p.keyId p.issuedAt p.expiresAt p.nonce p.audience++p.signature.val=token) ∧
    (∀ token token' p p', parse token=.ok p → parse token'=.ok p' → token≠token' →
      (p.keyId,p.issuedAt,p.expiresAt,p.nonce,p.audience,p.signature) ≠
        (p'.keyId,p'.issuedAt,p'.expiresAt,p'.nonce,p'.audience,p'.signature)) ∧
    (∀ k i e n a k' i' e' n' a', (k,i,e,n,a)≠(k',i',e',n',a') →
      payload k i e n a≠payload k' i' e' n' a') := by
  refine ⟨?_,?_,?_⟩
  · intro token p h
    exact (parse_eq_ok h).1.symm
  · intro token token' p p' h h' hne hq
    simp only [Prod.mk.injEq] at hq
    refine hne ?_
    rw [(parse_eq_ok h).1,(parse_eq_ok h').1]
    simp only [ParsedGrant.parts,hq]
  · intro k i e n a k' i' e' n' a' hne hq
    -- Under one signature the two payloads are one token, which parses to both tuples.
    have ht : Parts.token ⟨k,i,e,n,a,Block.fill 64 0⟩ =
        Parts.token ⟨k',i',e',n',a',Block.fill 64 0⟩ := congrArg (·++_) hq
    have hparsed:=parse_token ⟨k,i,e,n,a,Block.fill 64 0⟩
    rw [ht,parse_token] at hparsed
    obtain ⟨hk,hi,he,hn,ha,-⟩ := ParsedGrant.mk.inj (ok.inj hparsed)
    exact hne (by simp only at hk hi he hn ha; rw [hk,hi,he,hn,ha])

/-- A signature verifies only under the public key of a signing key, and only under that of the
key it was made with. -/
def Scheme.Exclusive (scheme : Scheme) : Prop :=
  ∀ publicKey message signature, scheme.verifyStrict publicKey message signature=true →
    (∃ seed, scheme.publicKey seed=publicKey) ∧
    ∀ seed, signature=scheme.sign seed message → scheme.publicKey seed=publicKey

/-- The verifiers there are: the default one and those that keys were added to. -/
inductive GrantVerifier.Built (scheme : Scheme) : GrantVerifier → Prop
  | default : Built scheme ⟨Table.empty⟩
  | add {v v' : GrantVerifier} (publicKey : Block 32) (h : Built scheme v)
      (hadd : v.addPublicKey scheme publicKey=.ok v') : Built scheme v'

def GrantVerifier.Trusts (scheme : Scheme) (v : GrantVerifier) (key : GrantSigningKey) : Prop :=
  v.keys.get (key.keyId scheme)=some (key.publicKeyBytes scheme)

lemma GrantVerifier.addAll_eq_ok {ks : List (Block 32)} {v' : GrantVerifier} (hv : v.Built scheme)
    (h : GrantVerifier.addAll scheme ks v=.ok v') : v'.Built scheme ∧ ∀ id pk, v'.keys.get id=some pk ↔
      v.keys.get id=some pk ∨ pk∈ks ∧ id=keyIdForPublicKey scheme pk := by
  induction ks generalizing v with
  | nil => simp [← ok.inj h,hv]
  | cons k ks ih =>
    obtain ⟨v1,ha,h⟩ := except_bind_ok h
    obtain ⟨hb,hg⟩ := ih (.add k hv ha) h
    refine ⟨hb,fun id pk => ?_⟩
    rw [hg]
    unfold GrantVerifier.addPublicKey at ha
    grind [get_insert]

lemma GrantVerifier.Built.keyId (hv : v.Built scheme) :
    ∀ id publicKey, v.keys.get id=some publicKey → id=keyIdForPublicKey scheme publicKey := by
  induction hv with
  | default =>
    intro id publicKey h
    cases h
  | add publicKey hv ha ih =>
    intro id hl h
    unfold GrantVerifier.addPublicKey at ha
    split at ha
    · cases ha
    split at ha
    · grind
    · rw [← ok.inj ha] at h
      by_cases hd : id=keyIdForPublicKey scheme publicKey
      · rw [hd,get_insert_self] at h
        rw [hd,Option.some.inj h]
      · rw [get_insert_ne _ _ _ _ hd] at h
        exact ih id hl h

lemma Parts.token_length_le (p : Parts) : p.token.length ≤ maxGrantTokenLen := by
  have hr:=isIdentifier_length p.node.realm_valid
  have hn:=isIdentifier_length p.node.nodeId_valid
  rw [p.token_length,Parts.nextHopEnd,maxGrantTokenLen,maxGrantIdentifierLen]
  omega

section
variable {scheme : Scheme}
lemma mint_token {key : GrantSigningKey} {a : GrantAudience} {n : Block nonceLen}
    {ttl : Duration} {issuedAt : UInt64} {g : Grant}
    (h : mint scheme key a n ttl issuedAt=.ok g) :
    g.nonce=n ∧ g.token≠[] ∧ g.token.length ≤ maxGrantTokenLen := by
  obtain ⟨-,ea,-,rfl⟩ := mint_eq_ok h
  refine ⟨rfl,?_,Parts.token_length_le _⟩
  have hm:=minTokenLen_le (mintedParts scheme key a n issuedAt ea)
  have hp : 0 < minTokenLen := by decide
  exact ne_nil_of_length_pos (Nat.lt_of_lt_of_le hp hm)

lemma authentic_minted (hid : scheme.Ideal) (he : scheme.Exclusive)
    {key : GrantSigningKey} {a : GrantAudience} {n : Block nonceLen} {ttl : Duration}
    {issuedAt : UInt64} {g : Grant}
    (h : mint scheme key a n ttl issuedAt=.ok g) (v : GrantVerifier)
    (now : UInt64) :
    (∀ p, Authentic scheme g.token v now p → p.audience=a) ∧
    ((∃ p, Authentic scheme g.token v now p) ↔ v.Trusts scheme key ∧
      now.toNat < issuedAt.toNat+ttl.secs.toNat ∧
      issuedAt.toNat - now.toNat ≤ maxGrantClockSkewSecs) := by
  obtain ⟨-,ea,hx,rfl⟩ := mint_eq_ok h
  have hpr:=parse_token (mintedParts scheme key a n issuedAt ea)
  refine ⟨?_,?_,?_⟩
  · intro p hp
    rw [← ok.inj (hpr.symm.trans hp.parsed)]
    rfl
  · rintro ⟨p,hp⟩
    have hsi:=hp.signed
    have hu:=hp.unexpired
    have hs:=hp.started
    rw [← ok.inj (hpr.symm.trans hp.parsed)] at hsi hu hs
    obtain ⟨pk,hk,hg⟩ := hsi
    have ho:=(he _ _ _ hg).2 key.seed rfl
    rw [← ho] at hk
    rw [lt_iff_toNat_lt] at hu
    exact ⟨hk,hx ▸ hu,hs⟩
  · rintro ⟨ht,hu,hs⟩
    obtain ⟨p,hp,-⟩ := authentic_of_mint hid ht h hu hs
    exact ⟨p,hp⟩

lemma minted_of_authentic (hil : scheme.Ideal) (he : scheme.Exclusive)
    {v : GrantVerifier} (hv : v.Built scheme) {token : Bytes} {now : UInt64} {p : ParsedGrant}
    (h : Authentic scheme token v now p) :
    ∃ key ttl, v.Trusts scheme key ∧
      mint scheme key p.audience p.nonce ttl p.issuedAt=.ok ⟨token,p.nonce⟩ := by
  obtain ⟨pk,hk,hg⟩ := h.signed
  obtain ⟨⟨seed,hs⟩,-⟩ := he _ _ _ hg
  obtain ⟨ht,hp⟩ := parse_eq_ok h.parsed
  have hd : p.keyId=GrantSigningKey.keyId scheme ⟨seed⟩ := by
    rw [hv.keyId _ _ hk,← hs]
    rfl
  have hpr : p.parts=mintedParts scheme ⟨seed⟩ p.audience p.nonce p.issuedAt p.expiresAt := by
    rw [← hs,hp] at hg
    have hsg : p.signature=scheme.sign seed (payload (GrantSigningKey.keyId scheme ⟨seed⟩)
        p.issuedAt p.expiresAt p.nonce p.audience) := by
      rw [← hd]
      exact (hil seed _ _).mp hg
    exact congrArg₂ (fun id si => (⟨id,p.issuedAt,p.expiresAt,p.nonce,p.audience,si⟩ : Parts)) hd hsg
  have hc : (p.expiresAt - p.issuedAt).toNat=p.expiresAt.toNat - p.issuedAt.toNat :=
    UInt64.toNat_sub_of_le _ _ h.ordered
  have ho:=UInt64.le_iff_toNat_le.mp h.ordered
  refine ⟨⟨seed⟩,⟨p.expiresAt - p.issuedAt,0⟩,?_,?_⟩
  · rw [hd,← hs] at hk
    exact hk
  · have hx : p.expiresAt.toNat=p.issuedAt.toNat+(p.expiresAt - p.issuedAt).toNat := by omega
    rw [mint_ok ⟨rfl,hc ▸ h.lifetime.1,hc ▸ h.lifetime.2⟩ hx,← hpr,← ht]

structure GrantContract (scheme : Scheme) : Prop where
  /-- every admissible grant is minted, fits the bound and parses to its fields -/
  minted : ∀ (key : GrantSigningKey) (audience : GrantAudience) (nonce : Block nonceLen)
    (ttl : Duration) (issuedAt : UInt64), ttl.Grantable →
    issuedAt.toNat+ttl.secs.toNat<2^64 →
    ∃ grant parsed, mint scheme key audience nonce ttl issuedAt=.ok grant ∧
      grant.token.length ≤ maxGrantTokenLen ∧ parse grant.token=.ok parsed ∧
      parsed.keyId=key.keyId scheme ∧ parsed.issuedAt=issuedAt ∧
      parsed.expiresAt.toNat=issuedAt.toNat+ttl.secs.toNat ∧ parsed.nonce=nonce ∧
      parsed.audience=audience
  /-- acceptance of a minted token -/
  accepted : ∀ (key : GrantSigningKey) (audience : GrantAudience) (nonce : Block nonceLen)
    (ttl : Duration) (issuedAt : UInt64) (grant : Grant),
    mint scheme key audience nonce ttl issuedAt=.ok grant →
    ∀ (v : GrantVerifier) (now : UInt64), (∀ expected, (∃ r, verify scheme grant.token v expected now=.ok r) ↔
        v.Trusts scheme key ∧ expected=audience ∧
        now.toNat < issuedAt.toNat+ttl.secs.toNat ∧ issuedAt.toNat - now.toNat≤30) ∧
      (∀ expected, (∃ r, verifyForNode scheme grant.token v expected now=.ok r) ↔
        v.Trusts scheme key ∧ expected=audience.node ∧
        now.toNat < issuedAt.toNat+ttl.secs.toNat ∧ issuedAt.toNat - now.toNat≤30)
  /-- nothing else is accepted -/
  genuine : ∀ (token : Bytes) (v : GrantVerifier) (now : UInt64), v.Built scheme →
    (∃ expected r, verify scheme token v expected now=.ok r) ∨
      (∃ expected r, verifyForNode scheme token v expected now=.ok r) →
    ∃ key audience nonce ttl issuedAt, v.Trusts scheme key ∧
      mint scheme key audience nonce ttl issuedAt=.ok ⟨token,nonce⟩

theorem mint_verify_contract (hideal : scheme.Ideal) (hexclusive : scheme.Exclusive) :
    GrantContract scheme where
  minted := by
    intro key au no ttl ia hl hlt
    have hep : (ia+ttl.secs).toNat=ia.toNat+ttl.secs.toNat := by
      rw [UInt64.toNat_add,Nat.mod_eq_of_lt hlt]
    exact ⟨_,_,mint_ok hl hep,Parts.token_length_le _,parse_token _,rfl,rfl,hep,rfl,rfl⟩
  accepted := by
    intro key au no ttl ia g h v now
    obtain ⟨ha,hf⟩ := authentic_minted hideal hexclusive h v now
    constructor
    · intro ex
      constructor
      · rintro ⟨r,hr⟩
        obtain ⟨p,hp,hx,-⟩ := verify_eq_ok.mp hr
        obtain ⟨ht,hw⟩ := hf.mp ⟨p,hp⟩
        exact ⟨ht,hx.symm.trans (ha p hp),hw⟩
      · rintro ⟨ht,rfl,hw⟩
        obtain ⟨p,hp⟩ := hf.mpr ⟨ht,hw⟩
        exact ⟨_,verify_eq_ok.mpr ⟨p,hp,ha p hp,rfl⟩⟩
    · intro ex
      constructor
      · rintro ⟨r,hr⟩
        obtain ⟨p,hp,hx,-⟩ := verifyForNode_eq_ok.mp hr
        obtain ⟨ht,hw⟩ := hf.mp ⟨p,hp⟩
        exact ⟨ht,by rw [← hx,ha p hp],hw⟩
      · rintro ⟨ht,rfl,hw⟩
        obtain ⟨p,hp⟩ := hf.mpr ⟨ht,hw⟩
        exact ⟨_,verifyForNode_eq_ok.mpr ⟨p,hp,by rw [ha p hp],rfl⟩⟩
  genuine := by grind [verify_eq_ok.mp,verifyForNode_eq_ok.mp,minted_of_authentic]

/-- A verifier of pinned keys accepts what was minted under one of them for the expected audience
and is in force, and nothing else. -/
theorem pinned_keys_verify (hideal : scheme.Ideal) (hexclusive : scheme.Exclusive) {v : GrantVerifier}
    (keys : List (Block 32)) (hnew : GrantVerifier.new scheme keys=.ok v) (token : Bytes)
    (expected : GrantAudience) (now : UInt64) : (∃ r, verify scheme token v expected now=.ok r) ↔
      ∃ key nonce ttl issuedAt, key.publicKeyBytes scheme∈keys ∧
        mint scheme key expected nonce ttl issuedAt=.ok ⟨token,nonce⟩ ∧
        now.toNat < issuedAt.toNat+ttl.secs.toNat ∧ issuedAt.toNat - now.toNat≤30 := by
  obtain ⟨v1,ha,_,-,h⟩ := except_bind_ok₂ hnew
  obtain ⟨hb,hg⟩ := GrantVerifier.addAll_eq_ok .default ha
  cases h
  have ht : ∀ key, v.Trusts scheme key ↔ key.publicKeyBytes scheme∈keys := by
    simp [GrantVerifier.Trusts,hg,GrantSigningKey.keyId]
  simp only [← ht]
  constructor
  · rintro ⟨r,hr⟩
    obtain ⟨p,hp,rfl,-⟩ := verify_eq_ok.mp hr
    obtain ⟨key,ttl,hk,hm⟩ := minted_of_authentic hideal hexclusive hb hp
    exact ⟨key,_,ttl,_,hk,hm,((authentic_minted hideal hexclusive hm v now).2.mp ⟨p,hp⟩).2⟩
  · rintro ⟨key,nonce,ttl,ia,hk,hm,hw⟩
    obtain ⟨ha,hf⟩ := authentic_minted hideal hexclusive hm v now
    obtain ⟨p,hp⟩ := hf.mpr ⟨hk,hw⟩
    exact ⟨_,verify_eq_ok.mpr ⟨p,hp,ha p hp,rfl⟩⟩
end

lemma plainScheme_exclusive : plainScheme.Exclusive := by
  intro pk m si h
  have hs:=of_decide_eq_true h
  refine ⟨⟨pk,rfl⟩,?_⟩
  intro seed hm
  have hv:=congrArg Subtype.val hm
  exact Subtype.ext (append_cancel_right (hv.symm.trans hs))

def sampleAudience : GrantAudience where
  node := {
    realm := ascii "dev"
    nodeId := ascii "exit-1"
    role := .exit
    transport := .masque
    tee := .sevSnp
    measurement := Block.fill 48 4
    tlsSpkiSha256 := Block.fill 32 5
    realm_valid := by decide
    nodeId_valid := by decide }
  previousHop := none
  nextHop := none
  admitted := rfl

def sampleKey : GrantSigningKey := ⟨Block.fill 32 7⟩

def sampleVerifier : GrantVerifier :=
  ⟨Table.empty.insert (sampleKey.keyId plainScheme) (sampleKey.publicKeyBytes plainScheme)⟩

lemma sampleVerifier_trusts : sampleVerifier.Trusts plainScheme sampleKey := get_insert_self ..

theorem mint_verify_contract_sample : ∃ grant,
    mint plainScheme sampleKey sampleAudience (Block.fill 32 9) ⟨60,0⟩ 1000=.ok grant ∧
    (∃ r, verify plainScheme grant.token sampleVerifier sampleAudience 970=.ok r) ∧
    ¬ ∃ r, verify plainScheme grant.token sampleVerifier sampleAudience 969=.ok r := by
  have hcontract:=mint_verify_contract plainScheme_ideal plainScheme_exclusive
  obtain ⟨grant,_,hm,-⟩ := hcontract.minted sampleKey sampleAudience (Block.fill 32 9)
    ⟨60,0⟩ 1000 ⟨rfl,by decide,by decide⟩ (by decide)
  have haccepted:=fun now => (hcontract.accepted _ _ _ _ _ _ hm sampleVerifier now).1 sampleAudience
  refine ⟨grant,hm,?_,?_⟩
  · exact (haccepted 970).mpr ⟨sampleVerifier_trusts,rfl,by decide,by decide⟩
  · simp_all

theorem sample_key_pinned :
    GrantVerifier.new plainScheme [sampleKey.publicKeyBytes plainScheme]=.ok sampleVerifier ∧
      ∃ token r, verify plainScheme token sampleVerifier sampleAudience 970=.ok r := by
  refine ⟨rfl,_,(pinned_keys_verify plainScheme_ideal plainScheme_exclusive [_] rfl _ _ _).mpr
    ⟨sampleKey,Block.fill 32 9,⟨60,0⟩,1000,mem_singleton_self _,
      mint_ok ⟨rfl,by decide,by decide⟩ (show UInt64.toNat 1060=_ from rfl),by decide,by decide⟩⟩
end NilVpn.Nwg2
