import NilVpn.Base.Text

/-!
# UTF-8 text

Shortest form without surrogates; scalar values together with the bytes that spell each of them.
-/

namespace NilVpn.Base
open Option List

abbrev Scalar := ℕ × Bytes
def isTail (b : UInt8) : Bool := 0x80≤b&&b≤0xBF

def twoByte (a b : UInt8) : Option ℕ :=
  if 0xC2≤a&&a≤0xDF&&isTail b then some ((a.toNat - 0xC0)*64+(b.toNat - 0x80))
  else none

/-- The second byte's range excludes overlong forms and surrogates. -/
def threeByte (a b c : UInt8) : Option ℕ :=
  let lo:=if a=0xE0 then 0xA0 else 0x80
  let hi:=if a=0xED then 0x9F else 0xBF
  if 0xE0≤a&&a≤0xEF&&lo≤b&&b≤hi&&isTail c then
    some ((a.toNat - 0xE0)*4096+(b.toNat - 0x80)*64+(c.toNat - 0x80))
  else none

/-- The second byte's range excludes overlong forms and values above U+10FFFF. -/
def fourByte (a b c d : UInt8) : Option ℕ :=
  let lo:=if a=0xF0 then 0x90 else 0x80
  let hi:=if a=0xF4 then 0x8F else 0xBF
  if 0xF0≤a&&a≤0xF4&&lo≤b&&b≤hi&&isTail c&&isTail d then
    some ((a.toNat - 0xF0)*262144+(b.toNat - 0x80)*4096+(c.toNat - 0x80)*64+(d.toNat - 0x80))
  else none

/-- Scalar values of a byte string; `none` when it is not UTF-8. -/
def scalars : Bytes → Option (List Scalar)
  | [] => some []
  | a::s1 =>
    if a<0x80 then (scalars s1).map ((a.toNat,[a])::·)
    else match s1 with
      | [] => none
      | b::s2 => match twoByte a b with
        | some v => (scalars s2).map ((v,[a,b])::·)
        | none => match s2 with
          | [] => none
          | c::s3 => match threeByte a b c with
            | some v => (scalars s3).map ((v,[a,b,c])::·)
            | none => match s3 with
              | [] => none
              | d::s4 => match fourByte a b c d with
                | some v => (scalars s4).map ((v,[a,b,c,d])::·)
                | none => none

def isUtf8 (s : Bytes) : Bool := (scalars s).isSome
abbrev Str := {s : Bytes // isUtf8 s=true}

lemma scalars_one (a : UInt8) (s : Bytes) (ha : a<0x80) :
    scalars (a::s)=(scalars s).map ((a.toNat,[a])::·) := by
  rw [scalars.eq_def]
  simp [ha]

lemma scalars_append (x y : Bytes) (xs : List Scalar) (h : scalars x=some xs) :
    scalars (x++y)=(scalars y).map (xs++·) := by
  fun_induction scalars x generalizing xs with
  | case1 =>
    cases h
    simp
  | case2 _ _ _ ih | case4 _ _ _ _ _ _ ih | case6 _ _ _ _ _ _ _ _ ih | case8 _ _ _ _ _ _ _ _ _ _ ih =>
    obtain ⟨t,ht,rfl⟩ := map_eq_some_iff.mp h
    have hs:=ih t ht
    simp only [cons_append]
    rw [scalars.eq_def]
    simp [*,Function.comp_def]
  | case3 | case5 | case7 | case9 => contradiction

lemma scalars_flatten {s : Bytes} {ss : List Scalar} (h : scalars s=some ss) : ss.flatMap Prod.snd=s := by
  fun_induction scalars s generalizing ss with
  | case1 =>
    cases h
    rfl
  | case2 _ _ _ ih | case4 _ _ _ _ _ _ ih | case6 _ _ _ _ _ _ _ _ ih | case8 _ _ _ _ _ _ _ _ _ _ ih =>
    obtain ⟨t,ht,rfl⟩ := map_eq_some_iff.mp h
    simp [ih ht]
  | case3 | case5 | case7 | case9 => contradiction

lemma scalars_concat {s t : Bytes} {ss ts : List Scalar} (h : scalars s=some ss) (h' : scalars t=some ts) :
    scalars (s++t)=some (ss++ts) := by
  rw [scalars_append s t ss h,h']
  rfl

lemma isUtf8_append (x y : Bytes) (hx : isUtf8 x) (hy : isUtf8 y) : isUtf8 (x++y) := by
  obtain ⟨xs,hxs⟩ := isSome_iff_exists.mp hx
  obtain ⟨ys,hys⟩ := isSome_iff_exists.mp hy
  simp [isUtf8,scalars_append x y xs hxs,hys]

lemma not_isTail {b : UInt8} (hb : b<0x80) : isTail b=false := by
  have hb' : ¬(0x80 : UInt8)≤b := UInt8.not_le.mpr hb
  simp [isTail,hb']

lemma twoByte_ascii (a : UInt8) {b : UInt8} (hb : b<0x80) : twoByte a b=none := by
  simp [twoByte,not_isTail hb]

lemma threeByte_ascii_right (a b : UInt8) {c : UInt8} (hc : c<0x80) : threeByte a b c=none := by
  simp [threeByte,not_isTail hc]

lemma threeByte_ascii_left (a c : UInt8) {b : UInt8} (hb : b<0x80) : threeByte a b c=none := by
  have hlo : ¬(if a=0xE0 then 0xA0 else 0x80 : UInt8)≤b := by
    split
    · exact UInt8.not_le.mpr (UInt8.lt_trans hb (by decide))
    · exact UInt8.not_le.mpr hb
  simp [threeByte,hlo]

lemma fourByte_ascii_left (a c d : UInt8) {b : UInt8} (hb : b<0x80) : fourByte a b c d=none := by
  have hlo : ¬(if a=0xF0 then 0x90 else 0x80 : UInt8)≤b := by
    split
    · exact UInt8.not_le.mpr (UInt8.lt_trans hb (by decide))
    · exact UInt8.not_le.mpr hb
  simp [fourByte,hlo]

lemma fourByte_ascii_middle (a b d : UInt8) {c : UInt8} (hc : c<0x80) : fourByte a b c d=none := by
  simp [fourByte,not_isTail hc]

lemma fourByte_ascii_right (a b c : UInt8) {d : UInt8} (hd : d<0x80) : fourByte a b c d=none := by
  simp [fourByte,not_isTail hd]

/-- An ASCII byte never stands inside a longer encoding, so a string cut there is
two strings. -/
lemma isUtf8_cut (x y : Bytes) {b : UInt8} (hb : b<0x80) (h : isUtf8 (x++b::y)) :
    isUtf8 x ∧ isUtf8 y := by
  unfold isUtf8 at h ⊢
  fun_induction scalars x with
  | case1 =>
    rw [nil_append,scalars_one b y hb,isSome_map] at h
    exact ⟨rfl,h⟩
  | case2 _ _ _ ih | case4 _ _ _ _ _ _ ih | case6 _ _ _ _ _ _ _ _ ih | case8 _ _ _ _ _ _ _ _ _ _ ih =>
    simp only [cons_append] at h
    rw [scalars.eq_def] at h
    rw [isSome_map]
    exact ih (by simpa [*] using h)
  | case3 a ha =>
    have hn : scalars (a::b::y)=none := by
      rw [scalars.eq_def]
      simp only [ha,if_false,twoByte_ascii a hb]
      cases y with
      | nil => rfl
      | cons c y =>
        cases y with
        | nil => simp only [threeByte_ascii_left a c hb]
        | cons d y => simp only [threeByte_ascii_left a c hb,fourByte_ascii_left a c d hb]
    rw [singleton_append,hn] at h
    contradiction
  | case5 a ha b' hab =>
    have hn : scalars (a::b'::b::y)=none := by
      rw [scalars.eq_def]
      simp only [ha,if_false,hab,threeByte_ascii_right a b' hb]
      cases y with
      | nil => rfl
      | cons d y => simp only [fourByte_ascii_middle a b' d hb]
    rw [cons_append,singleton_append,hn] at h
    contradiction
  | case7 a ha b' hab c hc =>
    have hn : scalars (a::b'::c::b::y)=none := by
      rw [scalars.eq_def]
      simp [ha,hab,hc,fourByte_ascii_right a b' c hb]
    rw [cons_append,cons_append,singleton_append,hn] at h
    contradiction
  | case9 a ha b' hab c hc d s4 hd =>
    have hn : scalars (a::b'::c::d::(s4++b::y))=none := by
      rw [scalars.eq_def]
      simp [ha,hab,hc,hd]
    simp only [cons_append] at h
    rw [hn] at h
    contradiction

def IsAscii (s : Bytes) : Prop := ∀ b∈s, b<0x80
def asciiScalars (s : Bytes) : List Scalar := s.map fun b => (b.toNat,[b])

lemma scalars_ascii (s : Bytes) (h : IsAscii s) : scalars s=some (asciiScalars s) := by
  induction s with
  | nil => rfl
  | cons b s ih =>
    have hb:=h b (mem_cons_self ..)
    rw [scalars_one _ _ hb,ih fun c hc => h c (mem_cons_of_mem _ hc)]
    rfl

lemma isUtf8_ascii (s : Bytes) (h : IsAscii s) : isUtf8 s := by simp [isUtf8,scalars_ascii s h]

lemma isAscii_lowerHex (s : Bytes) (h : ∀ b∈s, isLowerHex b) : IsAscii s := by
  intro b hb
  have hr:=isLowerHex_range b (h b hb)
  rw [UInt8.lt_iff_toNat_lt]
  show b.toNat<128
  omega

def isWhitespace (v : ℕ) : Bool :=
  (9≤v&&v≤13)||v == 0x20||v == 0x85||v == 0xA0||v == 0x1680 ||
  (0x2000≤v&&v≤0x200A)||v == 0x2028||v == 0x2029||v == 0x202F||v == 0x205F ||
  v == 0x3000

def splitAtWhitespace : List Scalar → List Bytes
  | [] => [[]]
  | s::rest =>
    if isWhitespace s.1 then []::splitAtWhitespace rest
    else match splitAtWhitespace rest with
      | [] => [s.2]
      | f::fs => (s.2++f)::fs

def splitWhitespace (ss : List Scalar) : List Bytes := (splitAtWhitespace ss).filter fun f => f≠[]

lemma splitWhitespace_ne_nil (ss : List Scalar) : ∀ f∈splitWhitespace ss, f≠[] := by
  intro f hf
  simpa using (mem_filter.mp hf).2

def IsWord (s : Bytes) : Prop := ∀ b∈s, b<0x80 ∧ isWhitespace b.toNat=false

lemma isWord_of_all (s : Bytes) (h : s.all (fun b => b<0x80&&!isWhitespace b.toNat)=true) :
    IsWord s := by
  intro b hb
  simpa using List.all_eq_true.mp h b hb

lemma IsWord.isAscii {s : Bytes} (h : IsWord s) : IsAscii s := fun b hb => (h b hb).1

lemma isWord_lowerHex (s : Bytes) (h : ∀ b∈s, isLowerHex b) : IsWord s := by
  intro b hb
  refine ⟨isAscii_lowerHex s h b hb,?_⟩
  have hr:=isLowerHex_range b (h b hb)
  generalize b.toNat=v at hr
  have : ∀ v, 48≤v → v≤102 → isWhitespace v=false := by
    intro v h1 h2
    interval_cases v <;> rfl
  exact this v hr.1 hr.2

lemma splitAtWhitespace_word (s : Bytes) (hs : IsWord s) :
    splitAtWhitespace (asciiScalars s)=[s] := by
  induction s with
  | nil => rfl
  | cons b s ih =>
    have hb:=(hs b (mem_cons_self ..)).2
    have ht:=ih fun c hc => hs c (mem_cons_of_mem _ hc)
    simp only [asciiScalars,map_cons,splitAtWhitespace,hb] at ht ⊢
    rw [ht]
    rfl

lemma splitAtWhitespace_cons (s : Bytes) (rest : List Scalar) (hs : IsWord s) :
    splitAtWhitespace (asciiScalars s++(0x20,[space])::rest)=s::splitAtWhitespace rest := by
  induction s with
  | nil => rfl
  | cons b s ih =>
    have hb:=(hs b (mem_cons_self ..)).2
    have ht:=ih fun c hc => hs c (mem_cons_of_mem _ hc)
    simp only [asciiScalars,map_cons,cons_append,splitAtWhitespace,hb] at ht ⊢
    rw [ht]
    rfl

lemma splitWhitespace_word (s : Bytes) (hs : IsWord s) (hne : s≠[]) :
    splitWhitespace (asciiScalars s)=[s] := by
  simp [splitWhitespace,splitAtWhitespace_word s hs,hne]

lemma splitWhitespace_cons (s : Bytes) (rest : List Scalar) (hs : IsWord s) (hne : s≠[]) :
    splitWhitespace (asciiScalars s++(0x20,[space])::rest)=s::splitWhitespace rest := by
  simp [splitWhitespace,splitAtWhitespace_cons s rest hs,hne]

lemma asciiScalars_word_space (s rest : Bytes) :
    asciiScalars (s++space::rest)=asciiScalars s++(0x20,[space])::asciiScalars rest := by
  simp [asciiScalars,space]

def trimScalars (ss : List Scalar) : List Scalar :=
  ((ss.dropWhile fun s => isWhitespace s.1).reverse.dropWhile fun s => isWhitespace s.1).reverse

def trim (s : Bytes) : Bytes :=
  match scalars s with
  | some ss => (trimScalars ss).flatMap Prod.snd
  | none => s

lemma dropWhile_word (s : List Scalar) (h : ∀ x∈s, isWhitespace x.1=false) :
    s.dropWhile (fun x => isWhitespace x.1)=s := by
  cases s with
  | nil => rfl
  | cons x s => simp [List.dropWhile,h x (mem_cons_self ..)]

lemma asciiScalars_word_nonwhite (s : Bytes) (hs : IsWord s) :
    ∀ x∈asciiScalars s, isWhitespace x.1=false := by
  intro x hx
  obtain ⟨b,hb,rfl⟩ := List.mem_map.mp hx
  exact (hs b hb).2

lemma trim_word (s : Bytes) (hs : IsWord s) : trim s=s := by
  have hw:=asciiScalars_word_nonwhite s hs
  have hr : ∀ x∈(asciiScalars s).reverse, isWhitespace x.1=false := fun x hx => hw x (mem_reverse.mp hx)
  simp only [trim,scalars_ascii s hs.isAscii,trimScalars,dropWhile_word _ hw,
    dropWhile_word _ hr,reverse_reverse]
  clear hw hr hs
  induction s with
  | nil => rfl
  | cons b s ih =>
    simp only [asciiScalars,map_cons,flatMap_cons] at ih ⊢
    rw [ih]
    rfl
end NilVpn.Base
