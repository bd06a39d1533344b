import NilVpn.Base.Block
import NilVpn.Base.Merkle
import NilVpn.Base.Utf8

/-!
# Transparency-log inclusion (nil-crypto/src/translog.rs)

SHA-256, Base64 and Ed25519 are parameters. A shift by 64 is taken modulo 64, as in a build without
overflow checks.
-/

namespace NilVpn.Crypto
open Base Option List
open Merkle (Input sides climb)

abbrev Digest := Block 32

structure LogProof where
  origin : Bytes
  (treeSize leafIndex : UInt64)
  root : Digest
  auditPath : List Digest
  checkpointSig : Bytes
  deriving DecidableEq

def lengthPrefix (n : ℕ) : Bytes := beBytes 2 n

def pathBytes : List Digest → Bytes
  | [] => []
  | d::ds => d.val++pathBytes ds

def LogProof.encode (p : LogProof) : Bytes :=
  lengthPrefix p.origin.length++(p.origin++(beBytes 8 p.treeSize.toNat ++
    (beBytes 8 p.leafIndex.toNat++(p.root.val++(lengthPrefix p.auditPath.length ++
      (pathBytes p.auditPath++(lengthPrefix p.checkpointSig.length++p.checkpointSig)))))))

def take (n : ℕ) (b : Bytes) : Option (Bytes × Bytes) :=
  if b.length<n then none else some (b.take n,b.drop n)

def takeU16 (b : Bytes) : Option (ℕ × Bytes) := do
  let (head,rest) ← take 2 b
  some (ofBe head,rest)

def takeU64 (b : Bytes) : Option (UInt64 × Bytes) := do
  let (head,rest) ← take 8 b
  some (UInt64.ofNat (ofBe head),rest)

def takeDigest (b : Bytes) : Option (Digest × Bytes) := do
  let (head,rest) ← take 32 b
  let digest ← Block.ofBytes 32 head
  some (digest,rest)

def takeDigests : ℕ → Bytes → Option (List Digest × Bytes)
  | 0,b => some ([],b)
  | n+1,b => do
    let (digest,rest) ← takeDigest b
    let (digests,rest) ← takeDigests n rest
    some (digest::digests,rest)

def LogProof.decode (b : Bytes) : Option LogProof := do
  let (originLen,b) ← takeU16 b
  let (origin,b) ← take originLen b
  let origin ← if isUtf8 origin then some origin else none
  let (treeSize,b) ← takeU64 b
  let (leafIndex,b) ← takeU64 b
  let (root,b) ← takeDigest b
  let (pathLen,b) ← takeU16 b
  let (auditPath,b) ← takeDigests pathLen b
  let (sigLen,b) ← takeU16 b
  let (checkpointSig,b) ← take sigLen b
  if b.isEmpty then some ⟨origin,treeSize,leafIndex,root,auditPath,checkpointSig⟩ else none

variable {n : ℕ}
lemma take_append {x : Bytes} (h : x.length=n) (y : Bytes) : take n (x++y)=some (x,y) := by
  rw [take,if_neg (by rw [length_append]; omega),← h,take_left,drop_left]

lemma takeU16_lengthPrefix (h : n<2^16) (b : Bytes) : takeU16 (lengthPrefix n++b)=some (n,b) := by
  simp_all [takeU16,lengthPrefix,take_append,ofBe_beBytes]

lemma takeU64_append (x : UInt64) (b : Bytes) : takeU64 (beBytes 8 x.toNat++b)=some (x,b) := by
  have hv : ofBe (beBytes 8 x.toNat)=x.toNat := ofBe_beBytes 8 x.toNat x.toNat_lt
  rw [takeU64,take_append (beBytes_length 8 _)]
  simp [hv]

lemma takeDigest_append (d : Digest) (b : Bytes) : takeDigest (d.val++b)=some (d,b) := by
  rw [takeDigest,take_append d.length_val]
  simp [Block.ofBytes_val]

lemma takeDigests_append (ds : List Digest) (b : Bytes) :
    takeDigests ds.length (pathBytes ds++b)=some (ds,b) := by
  induction ds with
  | nil => rfl
  | cons d ds ih => simp [takeDigests,pathBytes,takeDigest_append,ih]

lemma LogProof.decode_encode (p : LogProof) (ho : isUtf8 p.origin)
    (hn : p.origin.length<2^16) (hp : p.auditPath.length<2^16)
    (hs : p.checkpointSig.length<2^16) : LogProof.decode p.encode=some p := by
  have hl:=take_append (n := p.checkpointSig.length) rfl []
  rw [append_nil] at hl
  unfold LogProof.decode LogProof.encode
  refine bind_eq_some_iff.mpr ⟨_,takeU16_lengthPrefix hn _,?_⟩
  refine bind_eq_some_iff.mpr ⟨_,take_append rfl _,?_⟩
  dsimp only
  rw [if_pos ho]
  refine bind_eq_some_iff.mpr ⟨p.origin,rfl,?_⟩
  refine bind_eq_some_iff.mpr ⟨_,takeU64_append p.treeSize _,?_⟩
  refine bind_eq_some_iff.mpr ⟨_,takeU64_append p.leafIndex _,?_⟩
  refine bind_eq_some_iff.mpr ⟨_,takeDigest_append p.root _,?_⟩
  refine bind_eq_some_iff.mpr ⟨_,takeU16_lengthPrefix hp _,?_⟩
  refine bind_eq_some_iff.mpr ⟨_,takeDigests_append p.auditPath _,?_⟩
  refine bind_eq_some_iff.mpr ⟨_,takeU16_lengthPrefix hs _,?_⟩
  exact bind_eq_some_iff.mpr ⟨_,hl,rfl⟩

lemma take_eq_some {b x rest : Bytes} (h : take n b=some (x,rest)) : b=x++rest ∧ x.length=n := by
  unfold take at h
  split at h
  · cases h
  next hl =>
    cases h
    exact ⟨(take_append_drop n b).symm,by rw [length_take]; omega⟩

lemma takeU16_eq_some {b rest : Bytes} (h : takeU16 b=some (n,rest)) : b=lengthPrefix n++rest := by
  obtain ⟨⟨x,y⟩,hx,hn⟩ := bind_eq_some_iff.mp h
  obtain ⟨rfl,hl⟩ := take_eq_some hx
  cases hn
  rw [lengthPrefix,← hl,beBytes_ofBe]

lemma takeU64_eq_some {n : UInt64} {b rest : Bytes} (h : takeU64 b=some (n,rest)) :
    b=beBytes 8 n.toNat++rest := by
  obtain ⟨⟨x,y⟩,hx,hn⟩ := bind_eq_some_iff.mp h
  obtain ⟨rfl,hl⟩ := take_eq_some hx
  cases hn
  have hlt : ofBe x<2^64 := by simpa [hl] using ofBe_lt x
  rw [UInt64.toNat_ofNat_of_lt' hlt,← hl,beBytes_ofBe]

lemma takeDigest_eq_some {d : Digest} {b rest : Bytes} (h : takeDigest b=some (d,rest)) :
    b=d.val++rest := by
  obtain ⟨⟨x,y⟩,hx,hd⟩ := bind_eq_some_iff.mp h
  obtain ⟨d',hd',hr⟩ := bind_eq_some_iff.mp hd
  cases hr
  rw [(take_eq_some hx).1,Block.ofBytes_eq_some hd']

lemma takeDigests_eq_some {ds : List Digest} {b rest : Bytes} (h : takeDigests n b=some (ds,rest)) :
    b=pathBytes ds++rest ∧ ds.length=n := by
  induction n generalizing b ds with
  | zero => cases h; exact ⟨rfl,rfl⟩
  | succ n ih =>
    obtain ⟨⟨d,b'⟩,hd,h⟩ := bind_eq_some_iff.mp h
    obtain ⟨⟨ds',rest'⟩,hds,h⟩ := bind_eq_some_iff.mp h
    cases h
    obtain ⟨hb',hl⟩ := ih hds
    rw [takeDigest_eq_some hd,hb',pathBytes,append_assoc,length_cons,hl]
    exact ⟨rfl,rfl⟩

/-- Origins are strings, so UTF-8. -/
theorem logProof_codec_bijective :
    (∀ p : LogProof, isUtf8 p.origin=true → p.origin.length≤65535 → p.auditPath.length≤65535 →
      p.checkpointSig.length≤65535 → LogProof.decode p.encode=some p) ∧
    ∀ (b : Bytes) (p : LogProof), LogProof.decode b=some p → p.encode=b := by
  refine ⟨fun p ho hl hp hg => p.decode_encode ho (by omega) (by omega) (by omega),fun b p h => ?_⟩
  unfold LogProof.decode at h
  obtain ⟨⟨ol,b₁⟩,h₁,h⟩ := bind_eq_some_iff.mp h
  obtain ⟨⟨o,b₂⟩,h₂,h⟩ := bind_eq_some_iff.mp h
  dsimp only at h
  by_cases ho : isUtf8 o=true
  swap
  · rw [if_neg ho] at h
    cases h
  rw [if_pos ho] at h
  obtain ⟨_,hs,h⟩ := bind_eq_some_iff.mp h
  cases hs
  obtain ⟨⟨ts,b₃⟩,h₃,h⟩ := bind_eq_some_iff.mp h
  obtain ⟨⟨li,b₄⟩,h₄,h⟩ := bind_eq_some_iff.mp h
  obtain ⟨⟨root,b₅⟩,h₅,h⟩ := bind_eq_some_iff.mp h
  obtain ⟨⟨pl,b₆⟩,h₆,h⟩ := bind_eq_some_iff.mp h
  obtain ⟨⟨ap,b₇⟩,h₇,h⟩ := bind_eq_some_iff.mp h
  obtain ⟨⟨sl,b₈⟩,h₈,h⟩ := bind_eq_some_iff.mp h
  obtain ⟨⟨cs,b₉⟩,h₉,h⟩ := bind_eq_some_iff.mp h
  dsimp only at h h₄ h₅ h₆ h₇ h₈ h₉
  split at h
  next hm =>
    cases h
    obtain ⟨hb₂,rfl⟩ := take_eq_some h₂
    obtain ⟨hb₇,rfl⟩ := takeDigests_eq_some h₇
    obtain ⟨hb₉,rfl⟩ := take_eq_some h₉
    rw [isEmpty_iff.mp hm,append_nil] at hb₉
    rw [takeU16_eq_some h₁,hb₂,takeU64_eq_some h₃,takeU64_eq_some h₄,takeDigest_eq_some h₅,
      takeU16_eq_some h₆,hb₇,takeU16_eq_some h₈,hb₉]
    rfl
  · cases h

def leadingZeros (x : UInt64) : ℕ := if x=0 then 64 else 63 - Nat.log2 x.toNat
def bitLength (x : UInt64) : ℕ := 64 - leadingZeros x
def countOnes (x : UInt64) : ℕ := Merkle.ones 64 x.toNat

section
variable (sha256 : Bytes → Digest)
def leafHash (data : Bytes) : Digest := sha256 (0::data)
def hashChildren (left right : Digest) : Digest := sha256 (1::(left.val++right.val))

def innerSteps (index : UInt64) : ℕ → Digest → List Digest → Digest
  | _,seed,[] => seed
  | i,seed,sibling::rest =>
    innerSteps index (i+1) (if (index >>> UInt64.ofNat i) &&& 1=0 then hashChildren sha256 seed sibling
        else hashChildren sha256 sibling seed) rest

def borderSteps (seed : Digest) (path : List Digest) : Digest :=
  path.foldl (fun seed sibling => hashChildren sha256 sibling seed) seed

def rootFromInclusion (index size : UInt64) (leaf : Digest) (path : List Digest) : Option Digest :=
  if size ≤ index then none
  else
    let inner:=bitLength (index ^^^ (size - 1))
    let border:=countOnes (index >>> UInt64.ofNat inner)
    if path.length≠inner+border then none
    else some (borderSteps sha256 (innerSteps sha256 index 0 leaf (path.take inner)) (path.drop inner))

/-- The same in a build with overflow checks, where a shift by 64 is a panic, which is `none`.
The shifts of the loop are by less than `inner`. -/
def rootFromInclusionChecked (index size : UInt64) (leaf : Digest) (path : List Digest) :
    Option (Option Digest) :=
  if size ≤ index then some none
  else
    let inner:=bitLength (index ^^^ (size - 1))
    if 64 ≤ inner then none
    else
      let border:=countOnes (index >>> UInt64.ofNat inner)
      if path.length≠inner+border then some none
      else some (some (borderSteps sha256 (innerSteps sha256 index 0 leaf (path.take inner)) (path.drop inner)))

/-- `data_encoding::BASE64`: the text of a root has 44 bytes and tells the root. -/
structure Base64 where
  encode : Bytes → Bytes
  length_root : ∀ root : Digest, (encode root.val).length=44
  root_inj : ∀ root root' : Digest, encode root.val=encode root'.val → root=root'

variable (base64 : Base64)
def checkpointBody (origin : Bytes) (treeSize : UInt64) (root : Digest) : Bytes :=
  origin++newline::(decimal treeSize.toNat++newline::(base64.encode root.val++[newline]))

/-- Ed25519 as the verifier uses it; a signature that is not 64 bytes long has no value. -/
structure Ed25519 (K : Type) where
  fromBytes : Block 32 → Option K
  verify : K → Bytes → Block 64 → Bool

variable {K : Type} (ed : Ed25519 K)
def verifyCheckpoint (proof : LogProof) (logKey : K) : Bool :=
  match Block.ofBytes 64 proof.checkpointSig with
  | none => false
  | some sig => ed.verify logKey (checkpointBody base64 proof.origin proof.treeSize proof.root) sig

def verifyLogged (leafData : Bytes) (proof : LogProof) (logPubkey : Block 32) : Bool :=
  match ed.fromBytes logPubkey with
  | none => false
  | some logKey =>
    verifyCheckpoint base64 ed proof logKey &&
      rootFromInclusion sha256 proof.leafIndex proof.treeSize (leafHash sha256 leafData)
        proof.auditPath=some proof.root
end

def message : Input Bytes Digest → Bytes
  | .leaf data => 0::data
  | .node left right => 1::(left.val++right.val)

lemma message_injective : Function.Injective message := by
  intro x y h
  cases x with
  | leaf da =>
    cases y with
    | leaf da' => rw [tail_eq_of_cons_eq h]
    | node l r => exact absurd (head_eq_of_cons_eq h) (by decide)
  | node l r =>
    cases y with
    | leaf da => exact absurd (head_eq_of_cons_eq h) (by decide)
    | node l' r' =>
      have hn : l.val.length=l'.val.length := by rw [l.length_val,l'.length_val]
      obtain ⟨hl,hr⟩ := append_inj (tail_eq_of_cons_eq h) hn
      rw [Subtype.ext hl,Subtype.ext hr]

section
variable (sha256 : Bytes → Digest)
def merkleHash (x : Input Bytes Digest) : Digest := sha256 (message x)
def rfcRoot (leaves : List Bytes) : Digest := Merkle.treeHash (merkleHash sha256) (sha256 []) leaves

def rfcAuditPath (leaves : List Bytes) (i : ℕ) : List Digest :=
  Merkle.auditPath (merkleHash sha256) (sha256 []) leaves i

def treeMessages (leaves : List Bytes) : List Bytes :=
  (Merkle.treeInputs (merkleHash sha256) (sha256 []) leaves).map message

def proofMessages (data : Bytes) (proof : LogProof) : List Bytes :=
  (Input.leaf data::Merkle.climbInputs (merkleHash sha256) (leafHash sha256 data)
    (sides proof.treeSize.toNat proof.leafIndex.toNat) proof.auditPath).map message
end

lemma bitLength_eq (x : UInt64) : bitLength x=Nat.size x.toNat := by
  unfold bitLength leadingZeros
  split
  next h =>
    rw [h]
    rfl
  next h =>
    have hn : x.toNat≠0 := fun hz => h (UInt64.toNat_inj.mp hz)
    have hl : Nat.log2 x.toNat<64 := (Nat.log2_lt hn).mpr x.toNat_lt
    have hle : Nat.size x.toNat≤Nat.log2 x.toNat+1 := Nat.size_le.mpr Nat.lt_log2_self
    have hge : Nat.log2 x.toNat<Nat.size x.toNat := Nat.lt_size.mpr (Nat.log2_self_le hn)
    omega

lemma bit_eq_zero_iff (ix : UInt64) {i : ℕ} (hi : i<64) :
    (ix >>> UInt64.ofNat i) &&& 1=0 ↔ ix.toNat.testBit i=false := by
  have hm : (UInt64.ofNat i).toNat % 64=i := by
    rw [UInt64.toNat_ofNat_of_lt' (show i<2^64 by omega)]
    omega
  rw [← UInt64.toNat_inj,UInt64.toNat_and,UInt64.toNat_shiftRight,hm,
    Nat.testBit_eq_decide_div_mod_eq,Nat.shiftRight_eq_div_pow]
  simp

lemma testBit_63 {x : ℕ} (hx : x<2^64) : x.testBit 63=decide (2^63≤x) := by
  rw [Nat.testBit_eq_decide_div_mod_eq,decide_eq_decide]
  omega

/-- Only an index below `2 ^ 63` in a tree of more entries than that asks for a shift by 64. -/
lemma bitLength_xor_lt_iff {ix size : UInt64} (hin : ix<size) :
    bitLength (ix ^^^ (size - 1))<64 ↔ ¬(ix.toNat<2^63 ∧ 2^63<size.toNat) := by
  have hlt:=UInt64.lt_iff_toNat_lt.mp hin
  have ho : (size - 1).toNat=size.toNat - 1 := by
    rw [UInt64.toNat_sub_of_le _ _ (UInt64.le_iff_toNat_le.mpr (by simp; omega))]
    rfl
  have hb:=testBit_63 (ix ^^^ (size - 1)).toNat_lt
  rw [UInt64.toNat_xor,Nat.testBit_xor,testBit_63 ix.toNat_lt,testBit_63 (size - 1).toNat_lt,ho] at hb
  rw [bitLength_eq,Nat.lt_succ_iff,Nat.size_le,UInt64.toNat_xor,ho]
  by_cases h₁ : 2^63 ≤ ix.toNat <;> by_cases h₂ : 2^63 ≤ size.toNat - 1 <;>
    simp only [h₁,h₂,decide_true,decide_false,bne_self_eq_false,Bool.true_bne,Bool.false_bne,Bool.not_false]
      at hb <;> simp at hb <;> omega

section
variable (sha256 : Bytes → Digest)
lemma innerSteps_eq (ix : UInt64) (path : List Digest) {k : ℕ} (hk : k+path.length≤64) (s : Digest) :
    innerSteps sha256 ix k s path =
      climb (merkleHash sha256) s ((range' k path.length).map ix.toNat.testBit) path := by
  induction path generalizing k s with
  | nil => rfl
  | cons si rest ih =>
    rw [length_cons] at hk
    rw [innerSteps,ih (by omega),length_cons,range'_succ,map_cons,climb]
    congr 1
    by_cases hb : ix.toNat.testBit k
    · rw [if_neg (by rw [bit_eq_zero_iff ix (by omega),hb]; decide),hb]
      rfl
    · have hf:=Bool.eq_false_iff.mpr hb
      rw [if_pos ((bit_eq_zero_iff ix (by omega)).mpr hf),hf]
      rfl

lemma borderSteps_eq (s : Digest) (path : List Digest) : borderSteps sha256 s path =
      climb (merkleHash sha256) s (replicate path.length true) path :=
  (Merkle.climb_replicate (merkleHash sha256) s path).symm

/-- The bit trick computes the sides of the tree. -/
lemma rootFromInclusion_eq {ix size : UInt64} (hn : ix<size)
    (hsr : bitLength (ix ^^^ (size - 1))<64) (l : Digest) (p : List Digest) :
    rootFromInclusion sha256 ix size l p =
      if p.length=(sides size.toNat ix.toNat).length then
        some (climb (merkleHash sha256) l (sides size.toNat ix.toNat) p)
      else none := by
  have hlt : ix.toNat<size.toNat := UInt64.lt_iff_toNat_lt.mp hn
  have ho : (size - 1).toNat=size.toNat - 1 := by
    rw [UInt64.toNat_sub_of_le _ _ (UInt64.le_iff_toNat_le.mpr (by simp; omega))]
    rfl
  have hir : bitLength (ix ^^^ (size - 1))=Nat.size (ix.toNat ^^^ (size.toNat - 1)) := by
    rw [bitLength_eq,UInt64.toNat_xor,ho]
  have hb : Nat.size (ix.toNat ^^^ (size.toNat - 1))≤63 := by omega
  have hsh : (ix >>> UInt64.ofNat (Nat.size (ix.toNat ^^^ (size.toNat - 1)))).toNat =
      ix.toNat >>> Nat.size (ix.toNat ^^^ (size.toNat - 1)) := by
    rw [UInt64.toNat_shiftRight,UInt64.toNat_ofNat_of_lt' (show _<2^64 by omega),Nat.mod_eq_of_lt (by omega)]
  have hs:=Merkle.sides_eq (w := 64) (size.toNat_lt.le) hlt
  unfold rootFromInclusion
  rw [if_neg (UInt64.not_le.mpr hn)]
  simp only [hir,countOnes,hsh]
  generalize Nat.size (ix.toNat ^^^ (size.toNat - 1))=inner at hb hs ⊢
  generalize Merkle.ones 64 (ix.toNat >>> inner)=border at hs ⊢
  have hl : (sides size.toNat ix.toNat).length=inner+border := by
    rw [hs,length_append,length_map,length_range,length_replicate]
  rw [hl]
  by_cases hp : p.length=inner+border
  · have ht : (p.take inner).length=inner := by
      rw [length_take]
      omega
    have hd : (p.drop inner).length=border := by
      rw [length_drop]
      omega
    rw [if_neg (not_not.mpr hp),if_pos hp,borderSteps_eq,innerSteps_eq _ _ _ (by omega),ht,
      hd,hs,← range_eq_range']
    congr 1
    conv_rhs => rw [← take_append_drop inner p]
    rw [Merkle.climb_append]
    rw [length_map,length_range,ht]
  · rw [if_pos hp,if_neg hp]

lemma rootFromInclusionChecked_eq {ix size : UInt64}
    (h : ix<size → bitLength (ix ^^^ (size - 1))<64) (l : Digest) (p : List Digest) :
    rootFromInclusionChecked sha256 ix size l p=some (rootFromInclusion sha256 ix size l p) := by
  unfold rootFromInclusionChecked rootFromInclusion
  split
  · rfl
  next hlt => grind

/-- Neither build panics, they agree, and the answer is a root exactly for the index of a leaf
and a path as long as its audit path. -/
def InclusionHandled (index size : UInt64) (leaf : Digest) (path : List Digest) : Prop :=
  rootFromInclusionChecked sha256 index size leaf path =
      some (rootFromInclusion sha256 index size leaf path) ∧
    ((rootFromInclusion sha256 index size leaf path).isSome=true ↔ index<size ∧
      path.length=(rfcAuditPath sha256 (List.replicate size.toNat []) index.toNat).length)

theorem inclusion_handled_iff (index size : UInt64) :
    (∀ leaf path, InclusionHandled sha256 index size leaf path) ↔ ¬(index.toNat<2^63 ∧ 2^63<size.toNat) := by
  constructor
  · intro h hw
    have hn : index<size := UInt64.lt_iff_toNat_lt.mpr (by omega)
    have hpanic:=(h (.fill 32 0) []).1
    rw [rootFromInclusionChecked,if_neg (UInt64.not_le.mpr hn),
      if_pos (not_lt.mp fun hs => (bitLength_xor_lt_iff hn).mp hs hw)] at hpanic
    cases hpanic
  · intro hs leaf path
    have hl : (rfcAuditPath sha256 (replicate size.toNat []) index.toNat).length =
        (sides size.toNat index.toNat).length := by
      rw [rfcAuditPath,Merkle.auditPath_length,length_replicate]
    refine ⟨rootFromInclusionChecked_eq sha256 (fun hi => (bitLength_xor_lt_iff hi).mpr hs) leaf path,?_⟩
    rw [hl]
    by_cases hi : index<size
    · rw [rootFromInclusion_eq sha256 hi ((bitLength_xor_lt_iff hi).mpr hs)]
      split
      next hp => simp [hi,hp]
      next hp => simp [hi,hp]
    · simp [rootFromInclusion,hi,UInt64.not_lt.mp hi]
end

theorem shift_by_64_panics : ¬ ∀ (sha256 : Bytes → Digest) (index size : UInt64) (leaf : Digest)
    (path : List Digest), InclusionHandled sha256 index size leaf path := by
  intro h
  have hp : rootFromInclusionChecked (Block.clip 32) 1 (2^63+2) (.fill 32 0)
      (replicate 64 (.fill 32 0))=none := by decide +kernel
  rw [(h (Block.clip 32) 1 (2^63+2) (.fill 32 0) (replicate 64 (.fill 32 0))).1] at hp
  cases hp

lemma checkpointBody_inj {base64 : Base64} {origin origin' : Bytes} {size size' : UInt64}
    {root root' : Digest} (h : checkpointBody base64 origin size root =
      checkpointBody base64 origin' size' root') : origin=origin' ∧ size=size' ∧ root=root' := by
  have hs : ∀ (o : Bytes) (n : UInt64) (r : Digest), checkpointBody base64 o n r =
      (o++newline::decimal n.toNat)++newline::(base64.encode r.val++[newline]) := by
    intro o n r
    simp [checkpointBody]
  rw [hs,hs] at h
  -- the texts of the roots have one length, and so have the tails
  obtain ⟨hh,ht⟩ := append_inj' h (by
    simp only [length_cons,length_append,base64.length_root])
  have hr:=append_cancel_right (tail_eq_of_cons_eq ht)
  obtain ⟨ho,hsz⟩ := append_sep_inj (newline_notMem_decimal _) (newline_notMem_decimal _) hh
  exact ⟨ho,UInt64.toNat_inj.mp (decimal_inj hsz),base64.root_inj _ _ hr⟩

structure Checkpoint where
  origin : Bytes
  leaves : List Bytes

/-- An ideal signature scheme, and a log that signs nothing but the roots of its trees. -/
structure IdealLog {K : Type} (sha256 : Bytes → Digest) (base64 : Base64) (ed : Ed25519 K) (key : Block 32)
    (log : Set Checkpoint) : Prop where
  signed : ∀ k body sig, ed.fromBytes key=some k → ed.verify k body sig=true →
    ∃ c∈log, body=checkpointBody base64 c.origin (UInt64.ofNat c.leaves.length) (rfcRoot sha256 c.leaves)
  bounded : ∀ c∈log, c.leaves.length≤2^63

section
variable {sha256 : Bytes → Digest} {base64 : Base64} {K : Type} {ed : Ed25519 K}
lemma verifyLogged_eq_true {data : Bytes} {p : LogProof} {key : Block 32}
    (h : verifyLogged sha256 base64 ed data p key) :
    (∃ k sig, ed.fromBytes key=some k ∧
      ed.verify k (checkpointBody base64 p.origin p.treeSize p.root) sig) ∧
    rootFromInclusion sha256 p.leafIndex p.treeSize (leafHash sha256 data)
      p.auditPath=some p.root := by
  unfold verifyLogged at h
  cases hk : ed.fromBytes key with
  | none =>
    rw [hk] at h
    cases h
  | some k =>
    rw [hk] at h
    simp only [Bool.and_eq_true,decide_eq_true_eq,verifyCheckpoint] at h
    refine ⟨?_,h.2⟩
    cases hs : Block.ofBytes 64 p.checkpointSig with
    | none =>
      rw [hs] at h
      cases h.1
    | some sig =>
      rw [hs] at h
      exact ⟨k,sig,rfl,h.1⟩

lemma rootFromInclusion_index {ix size : UInt64} {leaf r : Digest} {p : List Digest}
    (h : rootFromInclusion sha256 ix size leaf p=some r) : ix<size := by
  grind [rootFromInclusion]

lemma rootFromInclusion_auditPath {leaves : List Bytes} {ix size : UInt64} {leaf : Bytes}
    (hs : size.toNat=leaves.length) (hb : leaves.length≤2^63)
    (hl : leaves[ix.toNat]?=some leaf) :
    rootFromInclusion sha256 ix size (leafHash sha256 leaf)
      (rfcAuditPath sha256 leaves ix.toNat)=some (rfcRoot sha256 leaves) := by
  obtain ⟨hlt,-⟩ := List.getElem?_eq_some_iff.mp hl
  have hp : (rfcAuditPath sha256 leaves ix.toNat).length =
      (sides leaves.length ix.toNat).length := Merkle.auditPath_length _ _ leaves ix.toNat
  have hc : climb (merkleHash sha256) (leafHash sha256 leaf) (sides leaves.length ix.toNat)
      (rfcAuditPath sha256 leaves ix.toNat)=rfcRoot sha256 leaves := Merkle.climb_auditPath hl
  have hin : ix<size := UInt64.lt_iff_toNat_lt.mpr (by omega)
  rw [rootFromInclusion_eq sha256 hin ((bitLength_xor_lt_iff hin).mpr (by omega)),hs,
    if_pos hp,hc]

lemma leaf_of_rootFromInclusion {S : Set Bytes} (hS : Set.InjOn sha256 S) {leaves : List Bytes}
    {data : Bytes} {p : LogProof} (hs : p.treeSize.toNat=leaves.length)
    (hb : leaves.length≤2^63) (ht : ∀ m∈treeMessages sha256 leaves, m∈S)
    (hp : ∀ m∈proofMessages sha256 data p, m∈S)
    (h : rootFromInclusion sha256 p.leafIndex p.treeSize (leafHash sha256 data)
      p.auditPath=some (rfcRoot sha256 leaves)) :
    leaves[p.leafIndex.toNat]?=some data := by
  have hin:=rootFromInclusion_index h
  rw [rootFromInclusion_eq sha256 hin ((bitLength_xor_lt_iff hin).mpr (by omega))] at h
  unfold proofMessages at hp
  rw [hs] at h hp
  split at h
  next hl =>
    have hn : Set.InjOn (merkleHash sha256) (Set.preimage message S) := by
      intro x hx y hy hxy
      exact message_injective (hS hx hy hxy)
    refine Merkle.leaf_of_climb hn ?_ hl ?_ ?_ ?_ (Option.some.inj h)
    · rw [← hs]
      exact UInt64.lt_iff_toNat_lt.mp hin
    · intro x hx
      exact ht _ (mem_map_of_mem hx)
    · exact hp _ (mem_map_of_mem (mem_cons_self ..))
    · intro x hx
      exact hp _ (mem_map_of_mem (mem_cons_of_mem _ hx))
  next => cases h

/-- Inclusion is that of RFC 6962: an audit path leads to the tree hash, and where the log
signs only roots of its trees and no two hashed messages collide, a proof is accepted
only for the leaf at its index in a tree the log signed as the proof says. -/
theorem inclusion_is_rfc6962 (sha256 : Bytes → Digest) (base64 : Base64) (ed : Ed25519 K) :
    (∀ (leaves : List Bytes) (index size : UInt64) (leaf : Bytes), leaves.length≤2^63 →
      size.toNat=leaves.length → leaves[index.toNat]?=some leaf →
      rootFromInclusion sha256 index size (leafHash sha256 leaf)
        (rfcAuditPath sha256 leaves index.toNat)=some (rfcRoot sha256 leaves)) ∧
    (∀ (key : Block 32) (log : Set Checkpoint) (hashed : Set Bytes) (data : Bytes) (proof : LogProof),
      IdealLog sha256 base64 ed key log → Set.InjOn sha256 hashed →
      (∀ c∈log, ∀ m∈treeMessages sha256 c.leaves, m∈hashed) →
      (∀ m∈proofMessages sha256 data proof, m∈hashed) →
      verifyLogged sha256 base64 ed data proof key=true →
      ∃ leaves, ⟨proof.origin,leaves⟩∈log ∧ leaves.length=proof.treeSize.toNat ∧
        rfcRoot sha256 leaves=proof.root ∧ leaves[proof.leafIndex.toNat]?=some data) := by
  refine ⟨?_,?_⟩
  · grind [rootFromInclusion_auditPath]
  · intro key log hashed data proof hl hinj htree hproof h
    obtain ⟨⟨k,sig,hk,hsig⟩,ho⟩ := verifyLogged_eq_true h
    obtain ⟨c,hc,hbody⟩ := hl.signed k _ sig hk hsig
    obtain ⟨hg,hsize,hr⟩ := checkpointBody_inj hbody
    have hbound:=hl.bounded c hc
    have hn : proof.treeSize.toNat=c.leaves.length := by
      rw [hsize,UInt64.toNat_ofNat_of_lt' (show _<2^64 by omega)]
    rw [hr] at ho
    refine ⟨c.leaves,?_,hn.symm,hr.symm,?_⟩
    · rw [hg]
      exact hc
    · exact leaf_of_rootFromInclusion hinj hn hbound (htree c hc) hproof ho
end

def clip : Bytes → Digest := Block.clip 32
def twoLeaves : List Bytes := [[7],[8]]

def padded : Base64 where
  encode bytes := bytes++replicate 12 61
  length_root root := by rw [length_append,root.length_val]; rfl
  root_inj _ _ h := Subtype.ext (append_cancel_right h)

def twoLeavesEd : Ed25519 Unit where
  fromBytes _ := some ()
  verify _ body _ := body=checkpointBody padded [65] 2 (rfcRoot clip twoLeaves)

def secondLeafProof : LogProof where
  origin := [65]
  treeSize := 2
  leafIndex := 1
  root := rfcRoot clip twoLeaves
  auditPath := rfcAuditPath clip twoLeaves 1
  checkpointSig := List.replicate 64 0

theorem second_leaf_included : verifyLogged clip padded twoLeavesEd [8] secondLeafProof (Block.fill 32 0)=true ∧
    ∃ leaves, ⟨[65],leaves⟩∈({⟨[65],twoLeaves⟩} : Set Checkpoint) ∧ leaves.length=2 ∧
      rfcRoot clip leaves=secondLeafProof.root ∧ leaves[1]?=some [8] := by
  have hspec:=inclusion_is_rfc6962 clip padded twoLeavesEd
  have hroot:=hspec.1 twoLeaves 1 2 [8] (by decide) rfl rfl
  have hv : verifyLogged clip padded twoLeavesEd [8] secondLeafProof (Block.fill 32 0)=true :=
    Bool.and_eq_true_iff.mpr ⟨decide_eq_true rfl,decide_eq_true hroot⟩
  have hl : IdealLog clip padded twoLeavesEd (Block.fill 32 0) {⟨[65],twoLeaves⟩} := by
    refine ⟨?_,?_⟩
    · intro k body sig _ hb
      exact ⟨_,rfl,of_decide_eq_true hb⟩
    · intro c hc
      rw [hc]
      decide
  have hinj : ∀ x∈treeMessages clip twoLeaves, ∀ y∈treeMessages clip twoLeaves, clip x=clip y → x=y := by
    decide +kernel
  refine ⟨hv,hspec.2 (Block.fill 32 0) {⟨[65],twoLeaves⟩} {m | m∈treeMessages clip twoLeaves}
    [8] secondLeafProof hl (fun x hx y hy => hinj x hx y hy) ?_ (by decide +kernel) hv⟩
  intro c hc m hm
  rw [hc] at hm
  exact hm
end NilVpn.Crypto
