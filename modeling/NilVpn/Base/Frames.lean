import NilVpn.Base.Block

/-!
# Length-prefixed frames
-/

namespace NilVpn.Base
open List

def frame (width : ℕ) (payload : Bytes) : Bytes := beBytes width payload.length++payload
def frames (width : ℕ) (payloads : List Bytes) : Bytes := payloads.flatMap (frame width)

/-- The first frame and what follows it, if all of the frame is there. -/
def takeFrame (width : ℕ) (b : Bytes) : Option (Bytes × Bytes) :=
  let len:=ofBe (b.take width)
  if b.length<width+len then none else some ((b.drop width).take len,b.drop (width+len))

variable {width : ℕ} {b d x y : Bytes} {as bs : List Bytes}
lemma frame_length : (frame width d).length=width+d.length := by rw [frame,length_append,beBytes_length]

lemma take_frame (width : ℕ) (d rest : Bytes) :
    (frame width d++rest).take width=beBytes width d.length := by
  rw [frame,append_assoc]
  exact take_left' (beBytes_length width _)

lemma drop_frame (width : ℕ) (d rest : Bytes) : (frame width d++rest).drop width=d++rest := by
  rw [frame,append_assoc]
  exact drop_left' (beBytes_length width _)

lemma frames_cons (width : ℕ) (d : Bytes) (ds : List Bytes) :
    frames width (d::ds)=frame width d++frames width ds := List.flatMap_cons ..

lemma frames_snoc (width : ℕ) (ds : List Bytes) (d : Bytes) :
    frames width (ds++[d])=frames width ds++frame width d := by
  simp [frames]

lemma takeFrame_frame (h : d.length<256^width) (rest : Bytes) :
    takeFrame width (frame width d++rest)=some (d,rest) := by
  have hl : ¬(frame width d++rest).length<width+d.length := by
    rw [length_append,frame_length]
    omega
  simp only [takeFrame,take_frame,ofBe_beBytes width d.length h,if_neg hl,drop_frame,
    take_left,← drop_drop,drop_left]

lemma frame_inj {a b : Bytes} (ha : a.length<256^width) (hb : b.length<256^width)
    (h : frame width a++x=frame width b++y) : a=b ∧ x=y := by
  have hs:=congrArg (takeFrame width) h
  rw [takeFrame_frame ha,takeFrame_frame hb] at hs
  exact Prod.mk.inj (Option.some.inj hs)

lemma of_takeFrame (h : takeFrame width b=some (d,x)) : b=frame width d++x ∧ d.length<256^width := by
  rw [takeFrame] at h
  obtain ⟨hl,h⟩ := Option.ite_none_left_eq_some.mp h
  obtain ⟨rfl,rfl⟩ := Prod.mk.inj (Option.some.inj h)
  have hh : (b.take width).length=width := length_take_of_le (by omega)
  have hb : ((b.drop width).take (ofBe (b.take width))).length=ofBe (b.take width) :=
    length_take_of_le (by rw [length_drop]; omega)
  have hlt:=ofBe_lt (b.take width)
  rw [hh] at hlt
  refine ⟨?_,hb.symm ▸ hlt⟩
  have hp:=beBytes_ofBe (b.take width)
  rw [hh] at hp
  rw [frame,hb,hp,← drop_drop,append_assoc,take_append_drop,take_append_drop]

lemma frame_ne_nil (hw : 0<width) : frame width d++x≠[] := by
  intro h
  have := congrArg List.length h
  rw [length_append,frame_length] at this
  simp at this
  omega

/-- A stream of frames begins with other frames only if these are its own first frames. -/
lemma frames_split (hw : 0<width) (hs : ∀ a∈as, a.length<256^width)
    (hbs : ∀ b∈bs, b.length<256^width) (h : frames width as++x=frames width bs) :
    ∃ rest, bs=as++rest ∧ x=frames width rest := by
  induction as generalizing bs with
  | nil => exact ⟨bs,rfl,h⟩
  | cons a as ih =>
    obtain ⟨ha,hs⟩ := forall_mem_cons.mp hs
    rw [frames_cons,append_assoc] at h
    cases bs with
    | nil => exact absurd h (frame_ne_nil hw)
    | cons b bs =>
      obtain ⟨hb,hbs'⟩ := forall_mem_cons.mp hbs
      obtain ⟨rfl,hr⟩ := frame_inj ha hb (h.trans (frames_cons ..))
      obtain ⟨rest,rfl,hx⟩ := ih hs hbs' hr
      exact ⟨rest,rfl,hx⟩

/-- A stream determines its complete frames and the incomplete one after them. -/
lemma frames_unique (has : ∀ a∈as, a.length<256^width) (hbs : ∀ b∈bs, b.length<256^width)
    (hx : takeFrame width x=none) (hy : takeFrame width y=none)
    (h : frames width as++x=frames width bs++y) : as=bs := by
  induction as generalizing bs with
  | nil =>
    cases bs with
    | nil => rfl
    | cons b bs =>
      have hs : x=frame width b++(frames width bs++y) := by
        rw [← append_assoc,← frames_cons,← h]
        rfl
      rw [hs,takeFrame_frame (hbs b (mem_cons_self ..))] at hx
      cases hx
  | cons a as ih =>
    obtain ⟨ha,has⟩ := forall_mem_cons.mp has
    rw [frames_cons,append_assoc] at h
    cases bs with
    | nil =>
      have hs : y=frame width a++(frames width as++x) := h.symm
      rw [hs,takeFrame_frame ha] at hy
      cases hy
    | cons b bs =>
      obtain ⟨hb,hbs'⟩ := forall_mem_cons.mp hbs
      rw [frames_cons,append_assoc] at h
      obtain ⟨rfl,hr⟩ := frame_inj ha hb h
      rw [ih has hbs' hr]
end NilVpn.Base
