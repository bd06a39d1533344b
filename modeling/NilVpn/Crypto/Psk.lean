import Mathlib.Data.Set.Function
import NilVpn.Base.Frames
import NilVpn.Base.Result

/-!
# The hybrid pre-shared key (nil-crypto/src/psk.rs:72-226)

The two KEMs with their randomness, SHA-256 and HKDF-SHA256 are parameters.
-/

namespace NilVpn.Crypto
open Base List

structure MlKem (Dk Ek R : Type) where
  generateKeypair : R → Dk × Ek
  toBytes : Ek → Bytes
  newFromSlice : Bytes → Option Ek
  encapsulate : Ek → R → Bytes × Block 32
  decapsulateSlice : Dk → Bytes → Option (Block 32)

structure McEliece (pkLen ctLen : ℕ) (Sk R : Type) where
  keypair : R → Block pkLen × Sk
  encapsulate : Block pkLen → R → Block ctLen × Block 32
  decapsulate : Block ctLen → Sk → Block 32

inductive PskError
  | badPublicKey (what : String)
  | badCiphertext (what : String)

structure PqOffer where
  (mlkemEk mceliecePk : Bytes)

structure PqCiphertexts where
  (mlkemCt mcelieceCt : Bytes)

structure PqInitiator (Dk Sk : Type) where
  mlkemDk : Dk
  mcelieceSk : Sk
  (mlkemEk mceliecePk : Bytes)

/-- The transcript and the two shared secrets. -/
structure KeyInputs where
  (mlkemEk mlkemCt mceliecePk mcelieceCt : Bytes)
  (ssMlkem ssMceliece : Block 32)

def pskSalt : Bytes := ascii "nil.psk.v2.hkdf-salt"
def pskInfo : Bytes := ascii "nil.psk.v2.wireguard-preshared-key"
def pskTranscriptLabel : Bytes := ascii "nil.psk.v2.kem-transcript"

namespace KeyInputs
def parts (k : KeyInputs) : List Bytes := [k.mlkemEk,k.mlkemCt,k.mceliecePk,k.mcelieceCt]
def transcript (k : KeyInputs) : Bytes := pskTranscriptLabel++frames 4 k.parts
def ikm (k : KeyInputs) : Bytes := k.ssMlkem.val++k.ssMceliece.val

def info (sha256 : Bytes → Block 32) (k : KeyInputs) : Bytes := pskInfo++(sha256 k.transcript).val
end KeyInputs
section
variable {pkLen ctLen : ℕ} {Dk Ek Sk R : Type} (mlkem : MlKem Dk Ek R)
  (mceliece : McEliece pkLen ctLen Sk R) (sha256 : Bytes → Block 32)
  (hkdfSha256 : Bytes → Bytes × Bytes → Block 32)
def combine (k : KeyInputs) : Block 32 := hkdfSha256 pskSalt (k.ikm,k.info sha256)

def generate (r r' : R) : PqInitiator Dk Sk × PqOffer :=
  let keys:=mlkem.generateKeypair r
  let mcKeys:=mceliece.keypair r'
  let offer : PqOffer := ⟨mlkem.toBytes keys.2,mcKeys.1.val⟩
  (⟨keys.1,mcKeys.2,offer.mlkemEk,offer.mceliecePk⟩,offer)

/-- `finish` up to `combine`. -/
def finishInputs (self : PqInitiator Dk Sk) (cts : PqCiphertexts) : Except PskError KeyInputs := do
  let ssMlkem ← okOr (mlkem.decapsulateSlice self.mlkemDk cts.mlkemCt)
    (.badCiphertext "ml-kem ciphertext length")
  let mcCt ← okOr (Block.ofBytes ctLen cts.mcelieceCt) (.badCiphertext "mceliece ciphertext length")
  .ok ⟨self.mlkemEk,cts.mlkemCt,self.mceliecePk,cts.mcelieceCt,ssMlkem,
    mceliece.decapsulate mcCt self.mcelieceSk⟩

def finish (self : PqInitiator Dk Sk) (cts : PqCiphertexts) : Except PskError (Block 32) :=
  (finishInputs mlkem mceliece self cts).map (combine sha256 hkdfSha256)

/-- `responder_encapsulate` up to `combine`. -/
def encapsulateInputs (offer : PqOffer) (r r' : R) : Except PskError KeyInputs := do
  let ek ← okOr (mlkem.newFromSlice offer.mlkemEk) (.badPublicKey "ml-kem encapsulation key")
  let sealed:=mlkem.encapsulate ek r
  let mcPk ← okOr (Block.ofBytes pkLen offer.mceliecePk) (.badPublicKey "mceliece public-key length")
  let mcSealed:=mceliece.encapsulate mcPk r'
  .ok ⟨offer.mlkemEk,sealed.1,offer.mceliecePk,mcSealed.1.val,sealed.2,mcSealed.2⟩

def responderEncapsulate (offer : PqOffer) (r r' : R) : Except PskError (PqCiphertexts × Block 32) :=
  (encapsulateInputs mlkem mceliece offer r r').map fun k =>
    (⟨k.mlkemCt,k.mcelieceCt⟩,combine sha256 hkdfSha256 k)

/-- An invocation on either side. -/
inductive Invocation (Dk Sk R : Type)
  | finish (self : PqInitiator Dk Sk) (cts : PqCiphertexts)
  | encapsulate (offer : PqOffer) (r r' : R)

def Invocation.inputs : Invocation Dk Sk R → Except PskError KeyInputs
  | finish self cts => finishInputs mlkem mceliece self cts
  | encapsulate offer r r' => encapsulateInputs mlkem mceliece offer r r'

def Invocation.psk : Invocation Dk Sk R → Except PskError (Block 32)
  | finish self cts => Crypto.finish mlkem mceliece sha256 hkdfSha256 self cts
  | encapsulate offer r r' =>
    (responderEncapsulate mlkem mceliece sha256 hkdfSha256 offer r r').map Prod.snd

/-- What comes out of the key generation and the encapsulation goes back in. -/
def MlKem.Correct : Prop := ∀ r r',
  mlkem.newFromSlice (mlkem.toBytes (mlkem.generateKeypair r).2)=some (mlkem.generateKeypair r).2 ∧
  mlkem.decapsulateSlice (mlkem.generateKeypair r).1 (mlkem.encapsulate (mlkem.generateKeypair r).2 r').1 =
    some (mlkem.encapsulate (mlkem.generateKeypair r).2 r').2

def McEliece.Correct : Prop := ∀ r r',
  mceliece.decapsulate (mceliece.encapsulate (mceliece.keypair r).1 r').1 (mceliece.keypair r).2 =
    (mceliece.encapsulate (mceliece.keypair r).1 r').2

/-- Every part fits its length field, and the hashes see no input but these. -/
structure KeyInputs.Within (hashed : Set Bytes) (derived : Set (Bytes × Bytes)) (k : KeyInputs) : Prop where
  short : ∀ part∈k.parts, part.length<2^32
  transcript : k.transcript∈hashed
  material : (k.ikm,k.info sha256)∈derived

variable {mlkem mceliece sha256 hkdfSha256}
lemma inputs_agree (hl : mlkem.Correct) (hc : mceliece.Correct) (r r' e e' : R) :
    ∃ k, encapsulateInputs mlkem mceliece (generate mlkem mceliece r r').2 e e'=.ok k ∧
      finishInputs mlkem mceliece (generate mlkem mceliece r r').1 ⟨k.mlkemCt,k.mcelieceCt⟩=.ok k := by
  obtain ⟨hn,hd⟩ := hl r e
  simp only [encapsulateInputs,generate,hn,Block.ofBytes_val,okOr_some,ok_bind]
  refine ⟨_,rfl,?_⟩
  simp only [finishInputs,hd,Block.ofBytes_val,okOr_some,ok_bind,hc r' e']

lemma Invocation.psk_eq (a : Invocation Dk Sk R) : a.psk mlkem mceliece sha256 hkdfSha256 =
    (a.inputs mlkem mceliece).map (combine sha256 hkdfSha256) := by
  cases a with
  | finish self cts => rfl
  | encapsulate o r r' =>
    rw [Invocation.psk,responderEncapsulate,Invocation.inputs]
    cases encapsulateInputs mlkem mceliece o r r' with
    | ok | error => rfl

lemma combine_inj {ha : Set Bytes} {d : Set (Bytes × Bytes)} (hs : Set.InjOn sha256 ha)
    (hd : Set.InjOn (hkdfSha256 pskSalt) d) {k l : KeyInputs} (hk : k.Within sha256 ha d)
    (hl : l.Within sha256 ha d) (h : combine sha256 hkdfSha256 k=combine sha256 hkdfSha256 l) :
    k=l := by
  obtain ⟨hikm,hn⟩ := Prod.mk.inj (hd hk.material hl.material h)
  obtain ⟨hm,hc⟩ := Block.append_inj hikm
  have ht:=hs hk.transcript hl.transcript (Subtype.ext (append_cancel_left hn))
  have hf : frames 4 k.parts++[]=frames 4 l.parts++[] := by
    rw [append_nil,append_nil]
    exact append_cancel_left ht
  have hp:=frames_unique hk.short hl.short rfl rfl hf
  simp only [KeyInputs.parts,List.cons.injEq,and_true] at hp
  cases k
  cases l
  simp_all [Subtype.ext_iff]

variable (mlkem mceliece sha256 hkdfSha256)
theorem psk_agreement_and_binding : (mlkem.Correct → mceliece.Correct → ∀ r r' e e', ∃ cts psk,
      responderEncapsulate mlkem mceliece sha256 hkdfSha256 (generate mlkem mceliece r r').2 e e' =
        .ok (cts,psk) ∧
      finish mlkem mceliece sha256 hkdfSha256 (generate mlkem mceliece r r').1 cts=.ok psk) ∧
    ∀ (hashed : Set Bytes) (derived : Set (Bytes × Bytes)), Set.InjOn sha256 hashed →
      Set.InjOn (hkdfSha256 pskSalt) derived → ∀ a b : Invocation Dk Sk R,
      (∀ k, a.inputs mlkem mceliece=.ok k → k.Within sha256 hashed derived) →
      (∀ k, b.inputs mlkem mceliece=.ok k → k.Within sha256 hashed derived) →
      ∀ psk, a.psk mlkem mceliece sha256 hkdfSha256=.ok psk → b.psk mlkem mceliece sha256 hkdfSha256=.ok psk →
      ∃ k, a.inputs mlkem mceliece=.ok k ∧ b.inputs mlkem mceliece=.ok k := by
  refine ⟨fun hl hc r r' e e' => ?_,fun hashed derived hs hd a b ha hb psk hpa hpb => ?_⟩
  · obtain ⟨k,hk,hf⟩ := inputs_agree hl hc r r' e e'
    exact ⟨_,_,by rw [responderEncapsulate,hk]; rfl,by rw [finish,hf]; rfl⟩
  · rw [Invocation.psk_eq] at hpa hpb
    cases hka : a.inputs mlkem mceliece with
    | error e =>
      rw [hka] at hpa
      cases hpa
    | ok k =>
      cases hkb : b.inputs mlkem mceliece with
      | error e =>
        rw [hkb] at hpb
        cases hpb
      | ok l =>
        rw [hka] at hpa
        rw [hkb] at hpb
        have hkl:=combine_inj hs hd (ha k hka) (hb l hkb) ((Except.ok.inj hpa).trans (Except.ok.inj hpb).symm)
        exact ⟨k,rfl,by rw [hkl]⟩
end

def shift (b r : UInt8) : Block 32 := Block.fill 32 (b+r)

def sampleMlKem : MlKem UInt8 UInt8 UInt8 where
  generateKeypair r := (r,r)
  toBytes ek := [ek]
  newFromSlice := head?
  encapsulate ek r := ([r],shift ek r)
  decapsulateSlice dk ct := ct.head?.map (shift dk)

def sampleMcEliece : McEliece 1 1 UInt8 UInt8 where
  keypair r := (Block.fill 1 r,r)
  encapsulate pk r := (Block.fill 1 r,shift (pk.val.headD 0) r)
  decapsulate ct sk := shift sk (ct.val.headD 0)

def lastBytes (b : Bytes) : Block 32 := Block.clip 32 b.reverse

/-- A responder to one offer, with the randomness `e`. -/
def sampleResponder (e : UInt8) : Invocation UInt8 UInt8 UInt8 :=
  .encapsulate (generate sampleMlKem sampleMcEliece 1 2).2 e e

theorem psk_agreement_and_binding_sample : (∃ cts psk,
    responderEncapsulate sampleMlKem sampleMcEliece lastBytes (fun _ d => lastBytes d.2)
      (generate sampleMlKem sampleMcEliece 1 2).2 3 3=.ok (cts,psk) ∧
    finish sampleMlKem sampleMcEliece lastBytes (fun _ d => lastBytes d.2)
      (generate sampleMlKem sampleMcEliece 1 2).1 cts=.ok psk) ∧
    ∀ psk, (sampleResponder 3).psk sampleMlKem sampleMcEliece lastBytes (fun _ d => lastBytes d.2)=.ok psk →
      (sampleResponder 4).psk sampleMlKem sampleMcEliece lastBytes (fun _ d => lastBytes d.2)≠.ok psk := by
  obtain ⟨ha,hb⟩ := psk_agreement_and_binding sampleMlKem sampleMcEliece lastBytes fun _ d => lastBytes d.2
  refine ⟨ha (fun _ _ => ⟨rfl,rfl⟩) (fun _ _ => rfl) 1 2 3 3,fun psk h h' => ?_⟩
  let k (e : UInt8) : KeyInputs := ⟨[1],[e],[2],[e],shift 1 e,shift 2 e⟩
  obtain ⟨l,hl,hl'⟩ := hb {(k 3).transcript,(k 4).transcript}
    {((k 3).ikm,(k 3).info lastBytes),((k 4).ikm,(k 4).info lastBytes)}
    (Set.injOn_pair.mpr fun he => absurd he (by decide)) (Set.injOn_pair.mpr fun he => absurd he (by decide))
    (sampleResponder 3) (sampleResponder 4)
    (by rintro _ ⟨⟩; exact ⟨by decide,.inl rfl,.inl rfl⟩) (by rintro _ ⟨⟩; exact ⟨by decide,.inr rfl,.inr rfl⟩)
    psk h h'
  cases hl
  cases hl'
end NilVpn.Crypto
