import NilVpn.Base.Frames
import NilVpn.Base.Runs
import NilVpn.Core.Session

/-!
# REALITY records (nil-transport/src/reality.rs:91-94, 387-481, nil-node/src/reality.rs:101-161)

The stream is reliable, so a read fails at its end only.
-/

namespace NilVpn.Transport
open Base List
open NilVpn.Core (Error)

def realityMaxRecord : ℕ := 64*1024

def writeRecordTo (stream data : Bytes) : Bytes × Except Error Unit :=
  if realityMaxRecord<data.length then (stream,.error (.transport "reality record exceeds max size"))
  else (stream++(beBytes 2 (data.length % 2^16)++data),.ok ())

/-- What is left of the stream, and the record. -/
def readRecordFrom (stream : Bytes) : Bytes × Except Error Bytes :=
  if stream.length<2 then ([],.error .closed)
  else
    let len:=ofBe (stream.take 2)
    let body:=stream.drop 2
    if realityMaxRecord<len then (body,.error (.transport "reality record exceeds max size"))
    else if body.length<len then ([],.error .closed)
    else (body.drop len,.ok (body.take len))

def writeAll (stream : Bytes) (payloads : List Bytes) : Bytes :=
  payloads.foldl (fun stream data => (writeRecordTo stream data).1) stream

/-- The payloads for which `write_record_to` returned `Ok`. -/
def accepted (payloads : List Bytes) : List Bytes :=
  payloads.filter fun data => (writeRecordTo [] data).2.isOk

def readMany : ℕ → Bytes → List (Except Error Bytes)
  | 0,_ => []
  | n+1,stream => (readRecordFrom stream).2::readMany n (readRecordFrom stream).1

lemma writeRecordTo_ok (st : Bytes) {data : Bytes} (h : data.length ≤ realityMaxRecord) :
    writeRecordTo st data=(st++(beBytes 2 (data.length % 2^16)++data),.ok ()) :=
  if_neg (Nat.not_lt.mpr h)

lemma accepted_length {payloads : List Bytes} {data : Bytes} (h : data∈accepted payloads) :
    data.length ≤ realityMaxRecord := by
  obtain ⟨-,ho⟩ := mem_filter.mp h
  by_contra hl
  rw [writeRecordTo,if_pos (Nat.lt_of_not_le hl)] at ho
  cases ho

/-- A rejected payload leaves the stream alone: what is written is what is accepted. -/
lemma writeAll_accepted (stream : Bytes) (payloads : List Bytes) :
    writeAll stream payloads=writeAll stream (accepted payloads) := by
  induction payloads generalizing stream with
  | nil => rfl
  | cons da payloads ih =>
    by_cases hl : realityMaxRecord<da.length
    · have hs : accepted (da::payloads)=accepted payloads :=
        filter_cons_of_neg (by simp [writeRecordTo,hl,Except.isOk,Except.toBool])
      have hsm : (writeRecordTo stream da).1=stream := by rw [writeRecordTo,if_pos hl]
      rw [hs,writeAll,foldl_cons,hsm]
      exact ih stream
    · have hk : accepted (da::payloads)=da::accepted payloads :=
        filter_cons_of_pos (by simp [writeRecordTo,hl,Except.isOk,Except.toBool])
      rw [hk]
      exact ih _

lemma writeAll_append (rest : Bytes) (payloads : List Bytes) :
    writeAll rest payloads=rest++writeAll [] payloads := by
  induction payloads generalizing rest with
  | nil => exact (append_nil _).symm
  | cons da payloads ih =>
    rw [writeAll,foldl_cons,writeAll,foldl_cons,← writeAll,← writeAll,ih,ih (writeRecordTo [] da).1]
    by_cases hl : realityMaxRecord<da.length
    · simp [writeRecordTo,hl]
    · simp [writeRecordTo,hl]

lemma writeAll_cons {data : Bytes} (h : data.length ≤ realityMaxRecord) (payloads : List Bytes) :
    writeAll [] (data::payloads)=beBytes 2 (data.length % 2^16)++(data++writeAll [] payloads) := by
  rw [writeAll,foldl_cons,writeRecordTo_ok [] h,← writeAll,writeAll_append,nil_append,append_assoc]

lemma writeAll_frames {payloads : List Bytes} (h : ∀ da∈payloads, da.length<2^16) :
    writeAll [] payloads=frames 2 payloads := by
  induction payloads with
  | nil => rfl
  | cons da payloads ih =>
    obtain ⟨hd,hr⟩ := forall_mem_cons.mp h
    rw [writeAll_cons (Nat.le_of_lt hd),Nat.mod_eq_of_lt hd,frames_cons,frame,append_assoc,ih hr]

/-- A record is read back unless its length does not fit the length field. -/
lemma readRecordFrom_written (data rest : Bytes) (h : data.length ≤ realityMaxRecord) :
    readRecordFrom (beBytes 2 (data.length % 2^16)++(data++rest)) =
      if data.length=realityMaxRecord then (data++rest,.ok []) else (rest,.ok data) := by
  have hfl : (beBytes 2 (data.length % 2^16)++(data++rest)).take 2=beBytes 2 (data.length % 2^16) :=
    take_left' (beBytes_length 2 _)
  have hb : (beBytes 2 (data.length % 2^16)++(data++rest)).drop 2=data++rest :=
    drop_left' (beBytes_length 2 _)
  have hn : ofBe (beBytes 2 (data.length % 2^16))=data.length % 2^16 :=
    ofBe_beBytes 2 _ (Nat.mod_lt _ (by decide))
  have hl : ¬(beBytes 2 (data.length % 2^16)++(data++rest)).length<2 := by
    rw [length_append,beBytes_length]
    omega
  rw [readRecordFrom,if_neg hl]
  simp only [hfl,hb,hn]
  rw [if_neg (by rw [realityMaxRecord]; omega)]
  by_cases hf : data.length=realityMaxRecord
  · have hz : data.length % 2^16=0 := by rw [hf]; rfl
    rw [if_pos hf,hz,if_neg (Nat.not_lt_zero _)]
    rfl
  · have hs : data.length % 2^16=data.length := by
      rw [realityMaxRecord] at h hf
      omega
    rw [if_neg hf,hs,if_neg (by rw [length_append]; omega),drop_left,take_left]

theorem record_round_trip (payloads : List Bytes) :
    (∀ stream data e, (writeRecordTo stream data).2=.error e → (writeRecordTo stream data).1=stream) ∧
    (readMany ((accepted payloads).length+1) (writeAll [] payloads) =
        (accepted payloads).map .ok++[.error .closed] ↔
      ∀ data∈accepted payloads, data.length≠65536) := by
  refine ⟨fun stream data e hr => ?_,?_⟩
  · rw [writeRecordTo] at hr ⊢
    split at hr
    · rw [if_pos ‹_›]
    · cases hr
  rw [writeAll_accepted]
  have ha : ∀ data∈accepted payloads, data.length ≤ realityMaxRecord := fun _ => accepted_length
  generalize accepted payloads=wr at ha ⊢
  induction wr with
  | nil => exact ⟨fun _ _ h => absurd h not_mem_nil,fun _ => rfl⟩
  | cons data rest ih =>
    obtain ⟨hd,hs⟩ := forall_mem_cons.mp ha
    rw [writeAll_cons hd,length_cons,readMany,readRecordFrom_written _ _ hd,
      forall_mem_cons,map_cons,cons_append,List.cons.injEq]
    by_cases hf : data.length=realityMaxRecord
    · -- the length field reads zero
      have hne : ([] : Bytes)≠data := fun h => by rw [← h] at hf; cases hf
      rw [if_pos hf]
      exact iff_of_false (fun h => hne (Except.ok.inj h.1)) fun h => h.1 hf
    · rw [if_neg hf]
      exact ⟨fun h => ⟨hf,(ih hs).mp h.2⟩,fun h => ⟨rfl,(ih hs).mpr h.2⟩⟩

theorem longest_record_lost : ∃ data : Bytes, (writeRecordTo [] data).2=.ok () ∧
    readMany 2 (writeAll [] [data])≠[.ok data,.error .closed] := by
  have hl : (List.replicate realityMaxRecord (0 : UInt8)).length=realityMaxRecord := length_replicate
  refine ⟨List.replicate realityMaxRecord 0,by rw [writeRecordTo_ok [] hl.le],fun h => ?_⟩
  rw [writeAll_cons hl.le,readMany,readRecordFrom_written _ _ hl.le,if_pos hl] at h
  have hn : ([] : Bytes)=List.replicate realityMaxRecord 0 := Except.ok.inj (List.cons.inj h).1
  rw [← hn] at hl
  cases hl

lemma readRecordFrom_eq (st : Bytes) : readRecordFrom st =
    match takeFrame 2 st with
    | none => ([],.error .closed)
    | some (record,rest) => (rest,.ok record) := by
  by_cases hs : st.length<2
  · rw [readRecordFrom,if_pos hs,takeFrame,if_pos (by omega)]
  · have hl:=ofBe_lt (st.take 2)
    rw [length_take_of_le (by omega)] at hl
    rw [readRecordFrom,if_neg hs,takeFrame]
    simp only [length_drop]
    rw [if_neg (by rw [realityMaxRecord]; omega)]
    by_cases hb : st.length<2+ofBe (st.take 2)
    · rw [if_pos (by omega),if_pos hb]
    · rw [if_neg (by omega),if_neg hb,drop_drop]

inductive DriverEvent
  | arrive (chunk : Bytes)
  | eof
  -- the read branch, and whether what decapsulation answers could be written
  | poll (replied : Bool)
  -- an outbound packet or a tick comes first, and whether its record could be written
  | other (written : Bool)
  -- shutdown, a closed channel, or the timeout of the hello
  | stop

/-- `buffer` has arrived and is not read; `pending` is what the unfinished read has consumed. -/
structure Driver where
  (buffer pending : Bytes)
  eof : Bool
  records : List Bytes
  ended : Bool

def realityAuthIdLen : ℕ := 16

def helloCheck (expectedAuth : Block realityAuthIdLen) (hello : Bytes) : Bool :=
  hello.length=realityAuthIdLen+32&&hello.take realityAuthIdLen=expectedAuth.val

namespace Driver
def new : Driver := ⟨[],[],false,[],false⟩

section
-- The node reads and checks one record before its loop begins; the client has no such check.
variable (hello : Option (Bytes → Bool))
def pumping (s : Driver) : Bool := hello.isNone||!s.records.isEmpty

def record (s : Driver) (record rest : Bytes) (replied : Bool) : Driver :=
  { s with
    buffer := rest
    pending := []
    records := s.records++[record]
    ended := !(if s.pumping hello then replied else hello.all (· record)) }

def step (s : Driver) : DriverEvent → Driver
  | .arrive chunk => {s with buffer := s.buffer++chunk}
  | .eof => {s with eof := true}
  | .poll replied =>
    if s.ended then s
    else
      match readRecordFrom (s.pending++s.buffer) with
      | (rest,.ok record) => s.record hello record rest replied
      | (_,.error _) => {s with buffer := [],pending := s.pending++s.buffer,ended := s.eof}
  | .other written =>
    -- the read future is dropped, and with it what it has consumed
    if s.ended||!s.pumping hello then s else {s with pending := [],ended := !written}
  | .stop => {s with ended := true}

/-- No other branch completes while the read holds a part of a record. -/
def Uncut (s : Driver) : DriverEvent → Prop
  | .other _ => s.ended=false → s.pumping hello=true → s.pending=[]
  | _ => True

def payloads (records : List Bytes) : List Bytes :=
  if hello.isSome then records.drop 1 else records

/-- The records that reach decapsulation. -/
def handed (s : Driver) : List Bytes := payloads hello s.records
end

def Waiting (s : Driver) : Prop := (readRecordFrom (s.pending++s.buffer)).2=.error .closed

instance (s : Driver) : Decidable s.Waiting :=
  match h : (readRecordFrom (s.pending++s.buffer)).2 with
  | .error .closed => .isTrue h
  | .error (.sessionNotFound _) | .error (.invalidPacket _) | .error (.transport _) | .ok _ =>
    .isFalse fun hw => by rw [Waiting,h] at hw; cases hw

/-- Every byte of the stream is in a record, with the unfinished read or in the buffer. -/
structure Framed (s : Driver) (stream : Bytes) : Prop where
  bytes : frames 2 s.records++(s.pending++s.buffer)=stream
  short : ∀ record∈s.records, record.length<256^2
end Driver

def DriverEvent.bytes : DriverEvent → Bytes
  | arrive chunk => chunk
  | _ => []

def arrived (es : List DriverEvent) : Bytes := es.flatMap DriverEvent.bytes

namespace Driver
variable {hello : Option (Bytes → Bool)} {s : Driver} {st : Bytes}
lemma Framed.step (h : s.Framed st) (e : DriverEvent) (hu : s.Uncut hello e) :
    (s.step hello e).Framed (st++e.bytes) := by
  cases e with
  | arrive c => exact ⟨by rw [← h.bytes]; simp [Driver.step,DriverEvent.bytes],h.short⟩
  | eof | stop => exact ⟨h.bytes.trans (append_nil _).symm,h.short⟩
  | other wr =>
    show (s.step hello (.other wr)).Framed (st++[])
    rw [append_nil,Driver.step]
    split
    · exact h
    · rename_i hl
      simp only [Bool.or_eq_true,Bool.not_eq_true',not_or,Bool.not_eq_true,Bool.not_eq_false] at hl
      refine ⟨?_,h.short⟩
      rw [← h.bytes,hu hl.1 hl.2]
  | poll re =>
    show (s.step hello (.poll re)).Framed (st++[])
    rw [append_nil,Driver.step,readRecordFrom_eq]
    split
    · exact h
    cases hf : takeFrame 2 (s.pending++s.buffer) with
    | none => exact ⟨by simpa using h.bytes,h.short⟩
    | some f =>
      obtain ⟨rc,rest⟩ := f
      obtain ⟨hb,hs⟩ := of_takeFrame hf
      refine ⟨?_,?_⟩
      · rw [← h.bytes,hb]
        simp [Driver.record,frames_snoc]
      · intro r hr
        rcases mem_append.mp hr with hr | hr
        · exact h.short r hr
        · exact mem_singleton.mp hr ▸ hs

lemma Framed.run (h : s.Framed st) (es : List DriverEvent)
    (hu : Along (Driver.step hello) (Uncut hello) s es) :
    (runFrom (Driver.step hello) s es).Framed (st++arrived es) := by
  induction es generalizing s st with
  | nil => exact (append_nil st).symm ▸ h
  | cons e es ih =>
    have hr:=ih (h.step e hu.1) hu.2
    rwa [append_assoc] at hr

theorem drivers_keep_sync (hello : Option (Bytes → Bool)) (written : List Bytes)
    (hshort : ∀ data∈written, data.length≤65535) (es : List DriverEvent)
    (harrived : arrived es <+: writeAll [] written)
    (huncut : Along (Driver.step hello) (Uncut hello) new es) :
    (runFrom (Driver.step hello) new es).handed hello <+: payloads hello written ∧
      (arrived es=writeAll [] written → (runFrom (Driver.step hello) new es).Waiting →
        (runFrom (Driver.step hello) new es).handed hello=payloads hello written) := by
  have hnew : new.Framed [] := ⟨rfl,fun _ h => absurd h not_mem_nil⟩
  have hframed:=hnew.run es huncut
  have hwritten : ∀ data∈written, data.length<256^2 := fun d hd => Nat.lt_succ_of_le (hshort d hd)
  rw [writeAll_frames hwritten] at harrived ⊢
  generalize runFrom (Driver.step hello) new es=s at hframed
  obtain ⟨la,hl⟩ := harrived
  have hsplit : frames 2 s.records++((s.pending++s.buffer)++la)=frames 2 written := by
    rw [← append_assoc,hframed.bytes]
    exact hl
  obtain ⟨rest,rfl,hrest⟩ := frames_split Nat.two_pos hframed.short hwritten hsplit
  refine ⟨?_,fun hall ha => ?_⟩
  · rw [handed,payloads,payloads]
    split
    · cases s.records with
      | nil => exact List.nil_prefix
      | cons re rc => exact prefix_append rc rest
    · exact prefix_append ..
  · cases rest with
    | nil => rw [handed,append_nil]
    | cons re rest =>
      obtain rfl := append_right_eq_self.mp (hl.trans hall.symm)
      rw [append_nil] at hrest
      rw [Waiting,hrest,frames_cons,readRecordFrom_eq,takeFrame_frame (hwritten re (by simp))] at ha
      cases ha

theorem drivers_keep_sync_uncut : Along (Driver.step none) (Uncut none) new
      [.arrive [0],.poll true,.arrive [1,7],.poll true,.other true] ∧
    (runFrom (Driver.step none) new
      [.arrive [0],.poll true,.arrive [1,7],.poll true,.other true]).handed none=[[7]] :=
  have huncut : Along (Driver.step none) (Uncut none) new
      [.arrive [0],.poll true,.arrive [1,7],.poll true,.other true] :=
    ⟨trivial,trivial,trivial,trivial,fun _ _ => rfl,trivial⟩
  ⟨huncut,(drivers_keep_sync none [[7]] (by decide) _ ⟨[],rfl⟩ huncut).2 rfl rfl⟩

/-- A tick between the two bytes of a length. -/
def tickInLength : List DriverEvent := [.arrive [0],.poll true,.other true,.arrive [1,7],.poll true]

def someHello : Bytes := List.replicate 48 5
def someCheck : Option (Bytes → Bool) := some (helloCheck ⟨List.replicate 16 5,rfl⟩)
def helloFirst : List DriverEvent := .arrive (writeAll [] [someHello])::.poll true::tickInLength

theorem drivers_lose_sync : (arrived tickInLength=writeAll [] [[7]] ∧
      (runFrom (Driver.step none) new tickInLength).Waiting ∧
      (runFrom (Driver.step none) new tickInLength).handed none=[]) ∧
    arrived helloFirst=writeAll [] [someHello,[7]] ∧
      (runFrom (Driver.step someCheck) new helloFirst).Waiting ∧
      (runFrom (Driver.step someCheck) new helloFirst).handed someCheck=[] := by
  decide
end Driver
end NilVpn.Transport
