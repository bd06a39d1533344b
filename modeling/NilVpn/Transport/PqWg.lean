import NilVpn.Base.Frames
import NilVpn.Transport.Path

/-!
# One PQ-WireGuard tunnel (nil-transport/src/pqwg.rs:154-189, 337-370)
-/

namespace NilVpn.Transport
open Base List
open NilVpn.Core (Error Grant NodeEndpoint Session)

def encodeParts (parts : List Bytes) : Bytes := frames 4 parts

lemma decodePartsLoop_succ (t : ℕ) (b : Bytes) (acc : List Bytes) :
    decodePartsLoop (t+1) b acc=if b=[] then some acc else
      match takeFrame 4 b with
      | none => none
      | some (part,rest) =>
        if maxPart<part.length then none else decodePartsLoop t rest (acc++[part]) := by
  rw [decodePartsLoop,takeFrame]
  split
  · rfl
  split
  · rw [if_pos (by omega)]
  dsimp only
  rw [length_drop]
  by_cases hl : b.length<4+ofBe (b.take 4)
  · rw [if_pos hl,if_pos (by omega : b.length - 4<_),ite_self]
  · have ht : ((b.drop 4).take (ofBe (b.take 4))).length=ofBe (b.take 4) :=
      length_take_of_le (by rw [length_drop]; omega)
    rw [if_neg hl,if_neg (by omega : ¬b.length - 4<_),drop_drop]
    dsimp only
    rw [ht]

lemma decodePartsLoop_encodeParts (parts : List Bytes) (hp : ∀ p∈parts, p.length ≤ maxPart) :
    ∀ t acc, (encodeParts parts).length≤t →
      decodePartsLoop t (encodeParts parts) acc=some (acc++parts) := by
  induction parts with
  | nil =>
    intro t acc _
    cases t <;> simp [encodeParts,frames,decodePartsLoop]
  | cons p parts ih =>
    intro t acc ht
    obtain ⟨hp,hps⟩ := forall_mem_cons.mp hp
    have hb : encodeParts (p::parts)=frame 4 p++encodeParts parts := frames_cons ..
    rw [hb,length_append,frame_length] at ht
    obtain ⟨t,rfl⟩ := Nat.exists_eq_succ_of_ne_zero (by omega : t≠0)
    rw [hb,decodePartsLoop_succ,if_neg (frame_ne_nil (by decide)),
      takeFrame_frame (Nat.lt_of_le_of_lt hp (by decide))]
    dsimp only
    rw [if_neg (Nat.not_lt.mpr hp),ih hps t _ (by omega),append_assoc]
    rfl

lemma encodeParts_of_decodePartsLoop (t : ℕ) : ∀ (b : Bytes) (acc parts : List Bytes),
    decodePartsLoop t b acc=some parts → ∃ more, parts=acc++more ∧ b=encodeParts more := by
  have hd : ∀ {acc parts : List Bytes}, some acc=some parts → ∃ more, parts=acc++more ∧
      []=encodeParts more := fun h => ⟨[],by rw [append_nil,Option.some.inj h],rfl⟩
  induction t with
  | zero =>
    intro b acc parts h
    obtain ⟨rfl,h⟩ := Option.ite_none_right_eq_some.mp h
    exact hd h
  | succ t ih =>
    intro b acc parts h
    rw [decodePartsLoop_succ] at h
    split at h
    · rename_i hb
      exact hb ▸ hd h
    cases hf : takeFrame 4 b with
    | none => simp [hf] at h
    | some f =>
      rw [hf] at h
      obtain ⟨-,h⟩ := Option.ite_none_left_eq_some.mp h
      obtain ⟨more,rfl,hr⟩ := ih _ _ _ h
      refine ⟨f.1::more,append_assoc ..,?_⟩
      rw [(of_takeFrame hf).1,hr,encodeParts,encodeParts,frames_cons]

namespace PathTransport
/-- `PqWgTransport::connect`: what the inner dial opened stays open when the wrap fails. -/
def connectPq (st : PathTransport) (steps : HopSteps) (target : NodeEndpoint) (creds : Grant) :
    PathTransport × Except Error Session :=
  match target.wgPub with
  | none => (st,.error (.transport "PqWg: endpoint carries no node WireGuard key"))
  | some _ =>
    match st.dial steps target creds none with
    | (st,.error e) => (st,.error e)
    | (st,.ok inner) => st.wrapSession steps inner

/-- A failed call leaves no inner session of its own; one that returns `s` leaves exactly one, which
`close(s)` closes. -/
def Contained (st : PathTransport) : PathTransport × Except Error Session → Prop
  | (after,.error _) => after.inner.sessions ⊆ st.inner.sessions
  | (after,.ok s) => ∃ id∉st.inner.sessions, after.inner.sessions=insert id st.inner.sessions ∧
      (after.closePq s).2=.ok () ∧ (after.closePq s).1.inner.sessions=st.inner.sessions

theorem connectPq_contained_iff (st : PathTransport) (steps : HopSteps) (target : NodeEndpoint)
    (creds : Grant) : st.Contained (st.connectPq steps target creds) ↔
      target.wgPub=none ∨ (∃ e, steps.dial target creds none=.error e) ∨ handshake steps.wrap=.ok () := by
  cases hk : target.wgPub with
  | none => simp [connectPq,hk,Contained]
  | some key =>
    cases hd : steps.dial target creds none with
    | error e => simp [connectPq,hk,dial,hd,Contained]
    | ok o =>
      have hf:=st.inner.nextId_notMem
      cases hw : handshake steps.wrap with
      | error e =>
        -- the session of the dial is left behind
        have hl : st.inner.nextId∈(st.inner.register).1.sessions := Finset.mem_insert_self ..
        have hr : (st.connectPq steps target creds)=({st with
            inner := st.inner.register.1
            log := st.log++[.opened (.masque st.inner.register.2.id)]},.error e) := by
          simp [connectPq,hk,dial,hd,wrapSession,hw]
        rw [hr]
        exact iff_of_false (fun h => hf (h hl)) (by simp)
      | ok u =>
        simp only [connectPq,hk,dial,hd,wrapSession,hw,Contained,or_true,iff_true]
        refine ⟨st.inner.nextId,hf,rfl,?_⟩
        simp [closePq,closeMasque,PqWgTransport.register,MasqueTransport.register,
          MasqueTransport.unregister,hf]

/-- The control channel answers nothing: the handshake times out, and the tunnel stays. -/
theorem connectPq_leaks : ∃ (st : PathTransport) (steps : HopSteps) (target : NodeEndpoint)
    (creds : Grant), (st.connectPq steps target creds).2=.error (.transport "PQ handshake timed out") ∧
      st.inner.sessions=∅ ∧ (st.connectPq steps target creds).1.inner.sessions={0} :=
  ⟨⟨⟨0,∅,by simp⟩,⟨0,Table.empty,by simp⟩,Table.empty,∅,[]⟩,
    ⟨.error "",fun _ _ _ => .ok (),⟨.ok (),.ok (),none,fun _ _ => .ok (),.ok [],.ok (),none,
      fun _ => .done,.ok ()⟩⟩,⟨"",0,some ⟨List.replicate 32 0,rfl⟩,none⟩,⟨[],⟨List.replicate 32 0,rfl⟩⟩,
    rfl,rfl,rfl⟩
end PathTransport
end NilVpn.Transport
