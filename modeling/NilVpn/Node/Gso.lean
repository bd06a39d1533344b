import NilVpn.Base.Runs
import NilVpn.Base.Block

/-!
# Batches of datagrams (nil-node/src/server.rs:612-695, gso.rs:20-59)

No send fails, except that the kernel may not have GSO.
-/

namespace NilVpn.Node.Gso
open Base List

/-- What the kernel makes of a GSO batch. -/
def split (seg : ℕ) : ℕ → Bytes → List Bytes
  | 0,_ => []
  | fuel+1,batch => if batch=[] then [] else batch.take seg::split seg fuel (batch.drop seg)

/-- The loop over the segments where the kernel has no GSO. -/
def sendEach (batch : Bytes) (seg : ℕ) : ℕ → ℕ → List Bytes
  | 0,_ => []
  | fuel+1,off =>
    if off<batch.length then
      let stop:=min (off+seg) batch.length
      (batch.drop off).take (stop - off)::sendEach batch seg fuel stop
    else []

def sendBatch (gso : Bool) (batch : Bytes) (seg : ℕ) : List Bytes :=
  if batch=[] ∨ seg=0 then []
  else if batch.length ≤ seg then [batch]
  else if gso then split seg batch.length batch
  else sendEach batch seg batch.length 0

lemma sendEach_eq_split {seg : ℕ} (batch : Bytes) (f off : ℕ) :
    sendEach batch seg f off=split seg f (batch.drop off) := by
  induction f generalizing off with
  | zero => rfl
  | succ f ih =>
    rw [sendEach,split]
    by_cases ho : off<batch.length
    · have hne : batch.drop off≠[] := ne_nil_of_length_pos (by rw [length_drop]; omega)
      rw [if_pos ho,if_neg hne,drop_drop]
      dsimp only
      rw [ih]
      by_cases hla : off+seg≤batch.length
      · rw [Nat.min_eq_left hla,Nat.add_sub_cancel_left]
      · have hl : batch.length≤off+seg := by omega
        rw [Nat.min_eq_right hl,take_of_length_le (by simp),
          take_of_length_le (by rw [length_drop]; omega),drop_of_length_le hl,
          drop_length]
    · rw [if_neg ho,if_pos (drop_of_length_le (Nat.le_of_not_lt ho))]

/-- The packets of a batch: of the segment size, but for a last one that may be shorter. -/
def Run (seg : ℕ) (ps : List Bytes) (q : Bytes) : Prop :=
  (∀ p∈ps, p.length=seg) ∧ 0<q.length ∧ q.length ≤ seg

lemma flatten_length {seg : ℕ} {ps : List Bytes} (h : ∀ p∈ps, p.length=seg) :
    ps.flatten.length=ps.length*seg := by
  induction ps with
  | nil => simp
  | cons p ps ih =>
    obtain ⟨hp,hps⟩ := forall_mem_cons.mp h
    rw [flatten_cons,length_append,hp,ih hps,length_cons,Nat.succ_mul,Nat.add_comm]

lemma split_run {seg : ℕ} {q : Bytes} (hq : 0<q.length) (hl : q.length ≤ seg) (ps : List Bytes) :
    ∀ f, ps.length<f → (∀ p∈ps, p.length=seg) → split seg f (ps.flatten++q)=ps++[q] := by
  induction ps with
  | nil =>
    intro f hf _
    obtain ⟨f,rfl⟩ := Nat.exists_eq_succ_of_ne_zero (Nat.ne_of_gt hf)
    have hr : split seg f (q.drop seg)=[] := by
      rw [drop_of_length_le hl]
      cases f <;> simp [split]
    rw [flatten_nil,nil_append,split,if_neg (ne_nil_of_length_pos hq),hr,
      take_of_length_le hl,nil_append]
  | cons p ps ih =>
    intro f hf hs
    obtain ⟨hp,hs⟩ := forall_mem_cons.mp hs
    obtain ⟨f,rfl⟩ := Nat.exists_eq_succ_of_ne_zero (Nat.ne_of_gt (Nat.zero_lt_of_lt hf))
    have hne : p++(ps.flatten++q)≠[] := append_ne_nil_of_left_ne_nil (ne_nil_of_length_pos (by omega)) _
    rw [flatten_cons,append_assoc,split,if_neg hne,take_left' hp,drop_left' hp,
      ih f (Nat.lt_of_succ_lt_succ hf) hs,cons_append]

lemma sendBatch_run (gso : Bool) {seg : ℕ} {ps : List Bytes} {q : Bytes} (h : Run seg ps q) :
    sendBatch gso (ps.flatten++q) seg=ps++[q] := by
  have hl : (ps.flatten++q).length=ps.length*seg+q.length := by rw [length_append,flatten_length h.1]
  obtain ⟨-,hq,hle⟩ := id h
  rw [sendBatch,if_neg (not_or.mpr ⟨ne_nil_of_length_pos (by omega),by omega⟩)]
  cases ps with
  | nil => rw [if_pos (by simpa using hle)]; rfl
  | cons p ps =>
    have hm : (p::ps).length*seg=ps.length*seg+seg := by rw [length_cons,Nat.succ_mul]
    have hp : ps.length≤ps.length*seg := Nat.le_mul_of_pos_right _ (by omega)
    rw [if_neg (by omega),sendEach_eq_split,drop_zero,ite_self]
    exact split_run hq hle _ _ (by rw [hl,hm,length_cons]; omega) h.1

section
variable {D : Type}
/-- The locals of `flush`, and the batches it has handed to `send_batch`. -/
structure Flush (D : Type) where
  batch : Bytes
  seg : ℕ
  dest : Option D
  sent : List (Bytes × ℕ × D)

def Flush.new : Flush D := ⟨[],0,none,[]⟩

/-- `send_batch`, `clear` and `seg = 0`. -/
def Flush.emit (s : Flush D) (d : D) : Flush D :=
  {s with batch := [],seg := 0,sent := s.sent++[(s.batch,s.seg,d)]}

def Flush.redirect [DecidableEq D] (s : Flush D) (peer : D) : Flush D :=
  let s:=match s.dest with
    | some d => if d≠peer then s.emit d else s
    | none => s
  {s with dest := some peer}

def Flush.append (s : Flush D) (packet : Bytes) (peer : D) : Flush D :=
  if s.seg=0 ∨ packet.length=s.seg then
    {s with batch := s.batch++packet,seg := if s.seg=0 then packet.length else s.seg}
  else if packet.length<s.seg then {s with batch := s.batch++packet}.emit peer
  else {s.emit peer with batch := packet,seg := packet.length}

def Flush.limit (s : Flush D) (peer : D) : Flush D :=
  if 0<s.seg ∧ (64*s.seg ≤ s.batch.length ∨ 60000 ≤ s.batch.length) then s.emit peer else s

def Flush.step [DecidableEq D] (s : Flush D) (packet : Bytes × D) : Flush D :=
  ((s.redirect packet.2).append packet.1 packet.2).limit packet.2

def flush [DecidableEq D] (packets : List (Bytes × D)) : List (Bytes × ℕ × D) :=
  let s:=runFrom Flush.step Flush.new packets
  match s.dest with
  | some d => (s.emit d).sent
  | none => s.sent

def wire (gso : Bool) (sent : List (Bytes × ℕ × D)) : List (Bytes × D) :=
  sent.flatMap fun call => (sendBatch gso call.1 call.2.1).map (·,call.2.2)

/-- At most 64 segments, in fewer than 65507 bytes. -/
def Fits (call : Bytes × ℕ × D) : Prop := call.1.length≤64*call.2.1 ∧ call.1.length<65507

def heldTo (dest : Option D) (pending : List Bytes) : List (Bytes × D) :=
  match dest with
  | none => []
  | some d => pending.map (·,d)

@[simp] lemma heldTo_nil (d : Option D) : heldTo d []=[] := by
  cases d <;> rfl

@[simp] lemma heldTo_some (d : D) (pending : List Bytes) :
    heldTo (some d) pending=pending.map (·,d) := rfl

/-- `pending` are the packets in the batch, the last of `packets`. -/
structure Held (gso : Bool) (s : Flush D) (pending : List Bytes) (packets : List (Bytes × D)) :
    Prop where
  bytes : s.batch=pending.flatten
  sizes : ∀ p∈pending, p.length=s.seg
  seg : 0<s.seg ↔ pending≠[]
  dest : s.dest=none → pending=[]
  bound : s.batch.length≤64*s.seg ∧ s.batch.length<61420
  fits : ∀ call∈s.sent, Fits call
  stream : wire gso s.sent++heldTo s.dest pending=packets

def Room (s : Flush D) : Prop := 0<s.seg → s.batch.length<64*s.seg ∧ s.batch.length<60000

variable {gso : Bool} {s : Flush D} {pending : List Bytes} {packets : List (Bytes × D)} {d : D}
lemma wire_emit (s : Flush D) (d : D) :
    wire gso (s.emit d).sent=wire gso s.sent++(sendBatch gso s.batch s.seg).map (·,d) := by
  simp [wire,Flush.emit]

lemma Held.of_emitted (hs : ∀ call∈(s.emit d).sent, Fits call)
    (hw : wire gso (s.emit d).sent=packets) : Held gso (s.emit d) [] packets where
  bytes := rfl
  sizes := fun _ h => absurd h List.not_mem_nil
  seg := by simp [Flush.emit]
  dest := fun _ => rfl
  bound := by simp [Flush.emit]
  fits := hs
  stream := by simpa using hw

lemma fits_emit (hf : ∀ call∈s.sent, Fits call)
    (hb : s.batch.length≤64*s.seg ∧ s.batch.length<61420) : ∀ call∈(s.emit d).sent, Fits call := by
  intro call hc
  rcases mem_append.mp hc with hc | hc
  · exact hf call hc
  · rw [mem_singleton.mp hc]
    exact ⟨hb.1,Nat.lt_trans hb.2 (by decide)⟩

section
variable (h : Held gso s pending packets)
include h
lemma Held.emit (hd : s.dest=some d) : Held gso (s.emit d) [] packets := by
  refine .of_emitted (fits_emit h.fits h.bound) ?_
  rw [wire_emit,← h.stream,hd]
  have hse : sendBatch gso s.batch s.seg=pending := by
    rw [h.bytes]
    rcases eq_nil_or_concat pending with rfl | ⟨ps,q,rfl⟩
    · simp [sendBatch]
    · have hp:=h.seg.mpr (by simp)
      have hs:=h.sizes
      simp only [concat_eq_append,forall_mem_append,forall_mem_singleton] at hs ⊢
      rw [flatten_append,flatten_singleton,sendBatch_run gso ⟨hs.1,by omega,by omega⟩]
  rw [hse]
  simp

/-- A packet that is no longer than the segments fits in a batch with room. -/
lemma Held.fits_one (hr : Room s) (hp : 0<s.seg) : s.batch.length+s.seg≤64*s.seg := by
  have hl : s.batch.length=pending.length*s.seg := by rw [h.bytes,flatten_length h.sizes]
  have hlt:=(hr hp).1
  rw [hl] at hlt ⊢
  have hc:=Nat.lt_of_mul_lt_mul_right hlt
  rw [← Nat.succ_mul]
  exact Nat.mul_le_mul_right _ hc

lemma Held.retarget (hp : s.dest=some d ∨ pending=[]) :
    Held gso {s with dest := some d} pending packets := by
  refine ⟨h.bytes,h.sizes,h.seg,nofun,h.bound,h.fits,?_⟩
  rw [← h.stream]
  rcases hp with hp | rfl
  · rw [hp]
  · simp

lemma Held.append (hr : Room s) (hd : s.dest=some d) {paymentId : Bytes}
    (ha : 0<paymentId.length ∧ paymentId.length≤1420) :
    ∃ pending, Held gso (s.append paymentId d) pending (packets++[(paymentId,d)]) := by
  rw [Flush.append]
  have hst:=h.stream
  rw [hd] at hst
  split
  · -- the first packet of a batch, or one more of its size
    rename_i hs
    have hsa : (if s.seg=0 then paymentId.length else s.seg)=paymentId.length := by
      rcases hs with hs | hs
      · rw [if_pos hs]
      · rw [if_neg (by omega),hs]
    rw [hsa]
    refine ⟨pending++[paymentId],⟨by rw [h.bytes]; simp,?_,?_,by simp [hd],?_,h.fits,?_⟩⟩
    · intro p hp
      rcases mem_append.mp hp with hp | hp
      · have hp':=h.sizes p hp
        have:=h.seg.mpr (ne_nil_of_mem hp)
        exact hp'.trans (hs.resolve_left (by omega)).symm
      · rw [mem_singleton.mp hp]
    · exact iff_of_true ha.1 (by simp)
    · dsimp only
      rw [length_append]
      rcases hs with hs | hs
      · have hb:=h.bound.1
        rw [hs] at hb
        omega
      · have:=h.fits_one hr (by omega)
        have:=(hr (by omega)).2
        omega
    · rw [← hst]
      simp [hd]
  · rename_i hs
    have hpo : 0<s.seg := by omega
    have ho:=h.fits_one hr hpo
    have hby:=(hr hpo).2
    split
    · -- a shorter packet ends the batch
      rename_i hsh
      refine ⟨[],.of_emitted (fits_emit h.fits ?_) ?_⟩
      · dsimp only
        rw [length_append]
        omega
      · rw [wire_emit,h.bytes,sendBatch_run gso ⟨h.sizes,ha.1,Nat.le_of_lt hsh⟩,← hst]
        simp
    · have hse:=h.emit hd
      refine ⟨[paymentId],⟨by simp,by simp,iff_of_true ha.1 (by simp),by simp [Flush.emit,hd],
        ⟨by dsimp only; omega,Nat.lt_of_le_of_lt ha.2 (by decide)⟩,hse.fits,?_⟩⟩
      have hst:=hse.stream
      rw [← hst]
      simp [Flush.emit,hd]
end

lemma Held.redirect [DecidableEq D] (h : Held gso s pending packets) (hr : Room s) (peer : D) :
    ∃ pending, Held gso (s.redirect peer) pending packets ∧ Room (s.redirect peer) ∧
      (s.redirect peer).dest=some peer := by
  rw [Flush.redirect]
  cases hd : s.dest with
  | none => exact ⟨pending,h.retarget (.inr (h.dest hd)),hr,rfl⟩
  | some e =>
    dsimp only
    split
    · exact ⟨[],(h.emit hd).retarget (.inr rfl),fun hp => absurd hp (Nat.lt_irrefl 0),rfl⟩
    · rename_i hs
      exact ⟨pending,h.retarget (.inl (by rw [hd,not_not.mp hs])),hr,rfl⟩

lemma append_dest (s : Flush D) (pkt : Bytes) (d : D) : (s.append pkt d).dest=s.dest := by
  rw [Flush.append]
  split
  · rfl
  · split <;> rfl

lemma Held.step [DecidableEq D] (h : Held gso s pending packets) (hr : Room s) {p : Bytes × D}
    (hp : 0<p.1.length ∧ p.1.length≤1420) :
    ∃ pending, Held gso (s.step p) pending (packets++[p]) ∧ Room (s.step p) := by
  obtain ⟨_,h,hr,hd⟩ := h.redirect hr p.2
  obtain ⟨pending,h⟩ := h.append hr hd hp
  rw [← append_dest] at hd
  rw [Flush.step,Flush.limit]
  split
  · exact ⟨[],h.emit hd,fun ho => absurd ho (Nat.lt_irrefl 0)⟩
  · rename_i hf
    exact ⟨pending,h,fun ho => by omega⟩

lemma Held.run [DecidableEq D] (h : Held gso s pending packets) (hr : Room s) (m : List (Bytes × D))
    (hm : ∀ pa∈m, 0<pa.1.length ∧ pa.1.length≤1420) :
    ∃ pending, Held gso (runFrom Flush.step s m) pending (packets++m) := by
  induction m generalizing s pending packets with
  | nil => exact ⟨pending,by rwa [append_nil]⟩
  | cons pa m ih =>
    obtain ⟨hp,hm⟩ := forall_mem_cons.mp hm
    obtain ⟨_,h,hr⟩ := h.step hr hp
    obtain ⟨pending,h⟩ := ih h hr hm
    exact ⟨pending,by rwa [append_assoc] at h⟩

theorem flush_preserves_stream [DecidableEq D] (gso : Bool) (packets : List (Bytes × D))
    (hp : ∀ packet∈packets, 1≤packet.1.length ∧ packet.1.length≤1420) :
    wire gso (flush packets)=packets ∧ ∀ call∈flush packets, Fits call := by
  have hn : Held gso (Flush.new : Flush D) [] [] :=
    ⟨rfl,by simp,by simp [Flush.new],fun _ => rfl,by simp [Flush.new],by simp [Flush.new],rfl⟩
  obtain ⟨pending,h⟩ := hn.run (fun hpo => absurd hpo (Nat.lt_irrefl 0)) packets hp
  rw [flush]
  cases hd : (runFrom Flush.step (Flush.new : Flush D) packets).dest with
  | none =>
    have hs:=h.stream
    rw [hd] at hs
    exact ⟨(append_nil _).symm.trans hs,h.fits⟩
  | some d => exact ⟨by simpa using (h.emit hd).stream,(h.emit hd).fits⟩

theorem flush_preserves_two : wire true (flush [([1,2],0),([3],0)])=[([1,2],0),([3],0)] :=
  (flush_preserves_stream true [([1,2],0),([3],0)] (by decide)).1
end
end NilVpn.Node.Gso
