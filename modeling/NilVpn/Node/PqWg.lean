import NilVpn.Base.Runs
import NilVpn.Transport.PqWg

/-!
# The PQ-WireGuard responder's control stream (nil-node/src/pqwg.rs:41-95)

`responder_encapsulate` is given per call, since it draws its own randomness.
-/

namespace NilVpn.Node
open Base List
open Transport (decodeParts encodeParts mceliecePkLen maxPart decodePartsLoop_encodeParts
  encodeParts_of_decodePartsLoop)

def mlkemEkLen : ℕ := 1568
def maxCtrlFrame : ℕ := mceliecePkLen+mlkemEkLen+4096

/-- `offers` records the payloads that were passed to `handle_offer`. -/
structure ClientPqWg (Core : Type) where
  (ctrlIn ctrlOut : Bytes)
  tunn : Option Core
  offers : List Bytes

section
variable {Core Psk : Type} (encapsulate : ℕ → Bytes → Bytes → Except String ((Bytes × Bytes) × Psk))
  (newCore : Block 32 → Psk → Core)
/-- The responder and the ciphertexts that an offer leads to. -/
def handleOffer (calls : ℕ) (offerMsg : Bytes) : Option (Core × Bytes) :=
  match decodeParts offerMsg with
  | some [wgPub,mlkemEk,mceliecePk] =>
    match Block.ofBytes 32 wgPub,encapsulate calls mlkemEk mceliecePk with
    | some clientWgPub,.ok ((mlkemCt,mcelieceCt),psk) =>
      some (newCore clientWgPub psk,encodeParts [mlkemCt,mcelieceCt])
    | _,_ => none
  | _ => none

def ClientPqWg.offer (c : ClientPqWg Core) (offerMsg : Bytes) : ClientPqWg Core :=
  let c':={c with offers := c.offers++[offerMsg]}
  match handleOffer encapsulate newCore c.offers.length offerMsg with
  | some (tunn,ctsMsg) =>
    {c' with tunn := some tunn,ctrlOut := c.ctrlOut++(beBytes 4 ctsMsg.length++ctsMsg)}
  | none => c'

/-- The loop over the frames; each takes at least its length field. -/
def ClientPqWg.drain : ℕ → ClientPqWg Core → ClientPqWg Core
  | 0,c => c
  | turns+1,c =>
    if c.ctrlIn.length<4 then c
    else
      let len:=ofBe (c.ctrlIn.take 4)
      if maxCtrlFrame<len then {c with ctrlIn := []}
      else if c.ctrlIn.length<4+len then c
      else
        let rest:={c with ctrlIn := c.ctrlIn.drop (4+len)}
        drain turns (rest.offer encapsulate newCore ((c.ctrlIn.drop 4).take len))

def ClientPqWg.onControlBytes (c : ClientPqWg Core) (bytes : Bytes) : ClientPqWg Core :=
  drain encapsulate newCore (c.ctrlIn++bytes).length {c with ctrlIn := c.ctrlIn++bytes}

variable {c : ClientPqWg Core} {b : Bytes} {q : List Bytes}
lemma offer_ctrlIn (c : ClientPqWg Core) (offerMsg : Bytes) :
    (c.offer encapsulate newCore offerMsg).ctrlIn=c.ctrlIn ∧
      (c.offer encapsulate newCore offerMsg).offers=c.offers++[offerMsg] := by
  rw [ClientPqWg.offer]
  dsimp only
  split <;> exact ⟨rfl,rfl⟩

/-- Whatever came in, what is kept is shorter than the longest frame. -/
lemma drain_bounded (t : ℕ) (c : ClientPqWg Core) (ht : c.ctrlIn.length≤t) :
    (c.drain encapsulate newCore t).ctrlIn.length<4+maxCtrlFrame := by
  induction t generalizing c with
  | zero => exact Nat.lt_of_le_of_lt ht (by decide)
  | succ t ih =>
    rw [ClientPqWg.drain]
    split
    · omega
    dsimp only
    split
    · exact Nat.lt_of_lt_of_le (by decide : 0<4) (Nat.le_add_right ..)
    split
    · omega
    · refine ih _ ?_
      rw [(offer_ctrlIn _ _ _ _).1,length_drop]
      omega

/-- `b` came in: complete frames, which were offered, and what is kept. -/
structure Fed (c : ClientPqWg Core) (b : Bytes) : Prop where
  bytes : frames 4 c.offers++c.ctrlIn=b
  short : ∀ offer∈c.offers, offer.length<256^4

lemma drain_fed (hq : ∀ p∈q, p.length ≤ maxCtrlFrame) (hb : b <+: frames 4 q) (t : ℕ)
    (c : ClientPqWg Core) (ht : c.ctrlIn.length≤t) (h : Fed c b) :
    Fed (c.drain encapsulate newCore t) b ∧
      takeFrame 4 (c.drain encapsulate newCore t).ctrlIn=none := by
  induction t generalizing c with
  | zero =>
    exact ⟨h,if_pos (Nat.lt_of_le_of_lt ht (Nat.lt_of_lt_of_le (by decide : 0<4) (Nat.le_add_right ..)))⟩
  | succ t ih =>
    rw [ClientPqWg.drain]
    split
    · exact ⟨h,if_pos (by omega)⟩
    rename_i hl
    -- the length field is that of a frame of the stream
    have hle : ofBe (c.ctrlIn.take 4) ≤ maxCtrlFrame := by
      obtain ⟨la,hlt⟩ := hb
      rw [← h.bytes,append_assoc] at hlt
      obtain ⟨re,hr,hin⟩ := frames_split (by decide) h.short
        (fun p hp => Nat.lt_of_le_of_lt (hq p hp) (by decide)) hlt
      cases re with
      | nil =>
        obtain ⟨hn,-⟩ := append_eq_nil_iff.mp hin
        rw [hn] at hl
        exact absurd (by decide) hl
      | cons p re =>
        have hp:=hq p (by simp [hr])
        rw [← take_append_of_le_length (by omega),hin,frames_cons,take_frame,
          ofBe_beBytes 4 _ (Nat.lt_of_le_of_lt hp (by decide))]
        exact hp
    dsimp only
    rw [if_neg (Nat.not_lt.mpr hle)]
    split
    · exact ⟨h,if_pos ‹_›⟩
    · rename_i hf
      obtain ⟨hbt,hs⟩ := of_takeFrame (if_neg hf : takeFrame 4 c.ctrlIn=some _)
      refine ih _ ?_ ⟨?_,?_⟩
      · rw [(offer_ctrlIn _ _ _ _).1,length_drop]
        omega
      · rw [(offer_ctrlIn _ _ _ _).1,(offer_ctrlIn _ _ _ _).2,frames_snoc,append_assoc,← hbt]
        exact h.bytes
      · intro o ho
        rw [(offer_ctrlIn _ _ _ _).2] at ho
        rcases mem_append.mp ho with ho | ho
        · exact h.short o ho
        · exact mem_singleton.mp ho ▸ hs

lemma chunks_fed (hq : ∀ p∈q, p.length ≤ maxCtrlFrame) (chunks : List Bytes)
    (hb : b++chunks.flatten <+: frames 4 q) (h : Fed c b) (hn : takeFrame 4 c.ctrlIn=none) :
    Fed (runFrom (ClientPqWg.onControlBytes encapsulate newCore) c chunks) (b++chunks.flatten) ∧
      takeFrame 4 (runFrom (ClientPqWg.onControlBytes encapsulate newCore) c chunks).ctrlIn=none := by
  induction chunks generalizing c b with
  | nil => exact ⟨(append_nil b).symm ▸ h,hn⟩
  | cons cn chunks ih =>
    rw [flatten_cons,← append_assoc] at hb ⊢
    have hf : Fed {c with ctrlIn := c.ctrlIn++cn} (b++cn) := ⟨by rw [← h.bytes,append_assoc],h.short⟩
    obtain ⟨h,hn⟩ := drain_fed encapsulate newCore hq
      (List.IsPrefix.trans (prefix_append ..) hb) _ _ (Nat.le_refl _) hf
    exact ih hb h hn
end

def ClientPqWg.new (Core : Type) : ClientPqWg Core := ⟨[],[],none,[]⟩

theorem control_frames_reassembled {Core Psk : Type}
    (encapsulate : ℕ → Bytes → Bytes → Except String ((Bytes × Bytes) × Psk))
    (newCore : Block 32 → Psk → Core) :
    (∀ (queue : List Bytes) (next partly : Bytes) (chunks : List Bytes),
      (∀ p∈queue, p.length ≤ maxCtrlFrame) → next.length ≤ maxCtrlFrame →
      partly <+: frame 4 next → partly≠frame 4 next → chunks.flatten=frames 4 queue++partly →
      (runFrom (ClientPqWg.onControlBytes encapsulate newCore) (.new Core) chunks).offers=queue) ∧
    (∀ (c : ClientPqWg Core) (bytes : Bytes),
      (c.onControlBytes encapsulate newCore bytes).ctrlIn.length<4+maxCtrlFrame) ∧
    (∀ parts : List Bytes, (∀ p∈parts, p.length ≤ maxPart) → decodeParts (encodeParts parts)=some parts) ∧
    ∀ b parts, decodeParts b=some parts → encodeParts parts=b := by
  refine ⟨fun queue next partly chunks hq hn hr hne hall => ?_,
    fun c bytes => drain_bounded _ _ _ _ (Nat.le_refl _),
    fun parts hp => decodePartsLoop_encodeParts parts hp _ [] (Nat.le_refl _),fun b parts h => ?_⟩
  · have hq' : ∀ p∈queue++[next], p.length ≤ maxCtrlFrame := by
      exact forall_mem_append.mpr ⟨hq,forall_mem_singleton.mpr hn⟩
    have hshort : ∀ p∈queue, p.length<256^4 := fun p hp => Nat.lt_of_le_of_lt (hq p hp) (by decide)
    have hs : []++chunks.flatten <+: frames 4 (queue++[next]) := by
      rw [nil_append,hall,frames_snoc]
      exact (prefix_append_right_inj _).mpr hr
    have hnone : takeFrame 4 partly=none := by
      obtain ⟨la,ha⟩ := hr
      have hlen:=congrArg List.length ha
      rw [length_append,frame_length] at hlen
      have ha' : 0<la.length := by
        rcases eq_nil_or_concat la with rfl | ⟨xs,x,rfl⟩
        · exact absurd ((append_nil _).symm.trans ha) hne
        · simp
      by_cases hl : partly.length<4
      · exact if_pos (by omega)
      · have hf : partly.take 4=beBytes 4 next.length := by
          rw [← take_append_of_le_length (by omega),ha,← append_nil (frame 4 next),take_frame]
        rw [takeFrame,hf,ofBe_beBytes 4 _ (Nat.lt_of_le_of_lt hn (by decide))]
        exact if_pos (by omega)
    have hnew : Fed (ClientPqWg.new Core) [] := ⟨rfl,fun _ ho => absurd ho not_mem_nil⟩
    obtain ⟨h,hdone⟩ := chunks_fed encapsulate newCore hq' chunks hs hnew rfl
    exact frames_unique h.short hshort hdone hnone (h.bytes.trans hall)
  · obtain ⟨more,rfl,hb⟩ := encodeParts_of_decodePartsLoop _ _ _ _ h
    exact hb.symm
end NilVpn.Node
