import Mathlib.Data.List.Basic
import Mathlib.Tactic.IntervalCases

/-!
# Byte strings as text
-/

namespace NilVpn.Base
open Option List

abbrev Bytes := List UInt8
def ascii (text : String) : Bytes := text.toList.map fun c => UInt8.ofNat c.toNat
def newline : UInt8 := 10
def carriageReturn : UInt8 := 13
def space : UInt8 := 32
def isDigit (b : UInt8) : Bool := 48≤b&&b≤57
def isLowerHex (b : UInt8) : Bool := isDigit b||(97≤b&&b≤102)

lemma isLowerHex_of_isDigit (b : UInt8) (h : isDigit b) : isLowerHex b := by
  simp [isLowerHex,h]

lemma isLowerHex_range (b : UInt8) (h : isLowerHex b) : 48≤b.toNat ∧ b.toNat≤102 := by
  simp only [isLowerHex,isDigit,Bool.or_eq_true,Bool.and_eq_true,decide_eq_true_eq,UInt8.le_iff_toNat_le] at h
  simp only [UInt8.toNat_ofNat] at h
  omega

def hexDigit (n : ℕ) : UInt8 := if n<10 then UInt8.ofNat (48+n) else UInt8.ofNat (87+n)

def nib (b : UInt8) : Option ℕ :=
  if 48≤b&&b≤57 then some (b.toNat - 48)
  else if 97≤b&&b≤102 then some (b.toNat - 87)
  else if 65≤b&&b≤70 then some (b.toNat - 55)
  else none

def toHex : Bytes → Bytes
  | [] => []
  | b::bs => hexDigit (b.toNat / 16)::hexDigit (b.toNat % 16)::toHex bs

/-- Decode hex of either case; `none` on odd length or a non-hex byte. -/
def fromHex : Bytes → Option Bytes
  | [] => some []
  | [_] => none
  | hi::lo::rest => do
    let h ← nib hi
    let l ← nib lo
    let bs ← fromHex rest
    pure (UInt8.ofNat (16*h+l)::bs)

lemma nib_hexDigit : ∀ n, n<16 → nib (hexDigit n)=some n := by decide

lemma hexDigit_lowerHex : ∀ n, n<16 → isLowerHex (hexDigit n) := by decide

lemma nib_of_lowerHex (b : UInt8) (h : isLowerHex b) : ∃ n, nib b=some n := by
  unfold nib
  simp only [isLowerHex,isDigit,Bool.or_eq_true] at h
  rcases h with h | h
  · exact ⟨_,if_pos h⟩
  · split
    next => exact ⟨_,rfl⟩
    next => exact ⟨_,rfl⟩

lemma toHex_length (bs : Bytes) : (toHex bs).length=2*bs.length := by
  induction bs with
  | nil => rfl
  | cons b bs ih =>
    simp only [toHex,length_cons,ih]
    omega

lemma toHex_lowerHex (bs : Bytes) : ∀ b∈toHex bs, isLowerHex b := by
  induction bs with
  | nil => simp [toHex]
  | cons b bs ih =>
    have hb:=b.toNat_lt
    intro c hc
    simp only [toHex,mem_cons] at hc
    rcases hc with rfl | rfl | hc
    · exact hexDigit_lowerHex _ (by omega)
    · exact hexDigit_lowerHex _ (by omega)
    · exact ih c hc

lemma fromHex_toHex (bs : Bytes) : fromHex (toHex bs)=some bs := by
  induction bs with
  | nil => rfl
  | cons b bs ih =>
    have hb:=b.toNat_lt
    have hj : 16*(b.toNat / 16)+b.toNat % 16=b.toNat := by omega
    simp only [toHex,fromHex,nib_hexDigit _ (show b.toNat / 16<16 by omega),
      nib_hexDigit _ (show b.toNat % 16<16 by omega),ih,Option.pure_def,bind_eq_bind,
      bind_some,hj,UInt8.ofNat_toNat]

lemma fromHex_length (s bs : Bytes) (h : fromHex s=some bs) : s.length=2*bs.length := by
  induction s using fromHex.induct generalizing bs with
  | case1 =>
    simp only [fromHex,Option.some.injEq] at h
    subst h
    rfl
  | case2 => simp [fromHex] at h
  | case3 hi lo rest ih =>
    simp only [fromHex,bind_eq_bind,bind_eq_some_iff] at h
    obtain ⟨x,_,y,_,t,ht,he⟩ := h
    cases he
    have hr:=ih t ht
    simp only [length_cons]
    omega

lemma fromHex_of_lowerHex (s : Bytes) (hs : ∀ b∈s, isLowerHex b)
    (he : s.length % 2=0) : ∃ bs, fromHex s=some bs := by
  induction s using fromHex.induct with
  | case1 => exact ⟨[],rfl⟩
  | case2 => simp at he
  | case3 hi lo rest ih =>
    obtain ⟨x,hx⟩ := nib_of_lowerHex hi (hs hi (by simp))
    obtain ⟨y,hy⟩ := nib_of_lowerHex lo (hs lo (by simp))
    obtain ⟨t,ht⟩ := ih (fun b hb => hs b (by simp [hb])) (by simp only [length_cons] at he; omega)
    exact ⟨_,by simp [fromHex,hx,hy,ht]; rfl⟩

def digit (n : ℕ) : UInt8 := UInt8.ofNat (48+n)

/-- Decimal digits of `n` in front of `acc`; `fuel` bounds their number. -/
def decimalAux : ℕ → ℕ → Bytes → Bytes
  | 0,_,acc => acc
  | fuel+1,n,acc =>
    if n<10 then digit n::acc
    else decimalAux fuel (n / 10) (digit (n % 10)::acc)

def decimal (n : ℕ) : Bytes := decimalAux (n+1) n []
def digitsValue (acc : ℕ) (bs : Bytes) : ℕ := bs.foldl (fun v b => 10*v+(b.toNat - 48)) acc

/-- `str::parse` for an unsigned integer below `bound`: an optional leading
`+`, at least one digit, nothing else, and no overflow. -/
def parseUnsigned (bound : ℕ) (s : Bytes) : Option ℕ :=
  let ds:=match s with
    | b::rest => if b=43 then rest else s
    | [] => []
  if ds≠[] ∧ ds.all isDigit ∧ digitsValue 0 ds<bound then some (digitsValue 0 ds) else none

lemma digitsValue_cons (acc : ℕ) (b : UInt8) (bs : Bytes) :
    digitsValue acc (b::bs)=digitsValue (10*acc+(b.toNat - 48)) bs := by
  unfold digitsValue
  rw [foldl_cons]

lemma digit_toNat (n : ℕ) (h : n<10) : (digit n).toNat=48+n := by
  simp only [digit,UInt8.toNat_ofNat']
  omega

lemma digit_isDigit : ∀ n, n<10 → isDigit (digit n) := by decide

lemma decimalAux_digits (f n : ℕ) (acc : Bytes) (ha : ∀ b∈acc, isDigit b) :
    ∀ b∈decimalAux f n acc, isDigit b := by
  induction f generalizing n acc with
  | zero => exact ha
  | succ f ih =>
    intro b hb
    simp only [decimalAux] at hb
    split at hb
    next hn =>
      rcases mem_cons.mp hb with rfl | hb
      · exact digit_isDigit n hn
      · exact ha b hb
    next =>
      refine ih (n / 10) (digit (n % 10)::acc) ?_ b hb
      intro c hc
      rcases mem_cons.mp hc with rfl | hc
      · exact digit_isDigit _ (by omega)
      · exact ha c hc

lemma decimal_digits (n : ℕ) : ∀ b∈decimal n, isDigit b := decimalAux_digits (n+1) n [] (by simp)

lemma decimalAux_value (f n : ℕ) (acc : Bytes) (h : n<f) :
    digitsValue 0 (decimalAux f n acc)=digitsValue n acc := by
  induction f generalizing n acc with
  | zero => omega
  | succ f ih =>
    simp only [decimalAux]
    split
    next hn => grind [digit_toNat,digitsValue_cons]
    next hn =>
      rw [ih (n / 10) (digit (n % 10)::acc) (by omega)]
      have hd : 10*(n / 10)+((digit (n % 10)).toNat - 48)=n := by
        rw [digit_toNat (n % 10) (by omega)]
        omega
      rw [digitsValue_cons,hd]

lemma decimal_value (n : ℕ) : digitsValue 0 (decimal n)=n := decimalAux_value (n+1) n [] (by omega)

lemma decimalAux_ne_nil (f n : ℕ) (acc : Bytes) (h : n<f) : decimalAux f n acc≠[] := by
  induction f generalizing n acc with
  | zero => omega
  | succ f ih =>
    simp only [decimalAux]
    split
    next => simp
    next => exact ih _ _ (by omega)

lemma decimal_ne_nil (n : ℕ) : decimal n≠[] := decimalAux_ne_nil (n+1) n [] (by omega)

lemma decimalAux_length (f n k : ℕ) (acc : Bytes) (hf : n<f) (hk : n<10^(k+1)) :
    (decimalAux f n acc).length≤k+1+acc.length := by
  induction f generalizing n k acc with
  | zero => omega
  | succ f ih =>
    simp only [decimalAux]
    split
    next =>
      simp only [length_cons]
      omega
    next hn =>
      cases k with
      | zero => omega
      | succ k =>
        have hd : n / 10<10^(k+1) := by
          rw [Nat.div_lt_iff_lt_mul (by omega),← pow_succ]
          exact hk
        have h:=ih (n / 10) k (digit (n % 10)::acc) (by omega) hd
        simp only [length_cons] at h
        omega

lemma decimal_length (n k : ℕ) (hk : n<10^(k+1)) : (decimal n).length≤k+1 := by
  have h:=decimalAux_length (n+1) n k [] (by omega) hk
  simp only [length_nil,Nat.add_zero] at h
  exact h

lemma parseUnsigned_digits (bound : ℕ) (s : Bytes) (hs : s≠[]) (hd : ∀ b∈s, isDigit b)
    (hv : digitsValue 0 s<bound) : parseUnsigned bound s=some (digitsValue 0 s) := by
  cases s with
  | nil => exact absurd rfl hs
  | cons b re =>
    have hb : b≠43 := by
      intro h
      have := hd b (mem_cons_self ..)
      rw [h] at this
      revert this
      decide
    have ha : (b::re).all isDigit := List.all_eq_true.mpr hd
    simp only [parseUnsigned,if_neg hb]
    exact if_pos ⟨by simp,ha,hv⟩

lemma parseUnsigned_decimal (bound n : ℕ) (h : n<bound) : parseUnsigned bound (decimal n)=some n := by
  have hp:=parseUnsigned_digits bound (decimal n) (decimal_ne_nil n) (decimal_digits n)
    (by rw [decimal_value]; exact h)
  rw [decimal_value] at hp
  exact hp

def splitLines : Bytes → List Bytes × Bytes
  | [] => ([],[])
  | b::bs =>
    if b=newline then ([]::(splitLines bs).1,(splitLines bs).2)
    else match (splitLines bs).1 with
      | [] => ([],b::(splitLines bs).2)
      | l::ls => ((b::l)::ls,(splitLines bs).2)

def joinLines (ls : List Bytes) : Bytes := ls.flatMap fun l => l++[newline]
def Terminated (c : Bytes) : Prop := (splitLines c).2=[]

instance (c : Bytes) : Decidable (Terminated c) := inferInstanceAs (Decidable (_=_))

lemma joinLines_append (xs ys : List Bytes) : joinLines (xs++ys)=joinLines xs++joinLines ys := by
  simp [joinLines]

variable (c : Bytes)
lemma joinLines_splitLines : joinLines (splitLines c).1++(splitLines c).2=c := by
  induction c with
  | nil => rfl
  | cons b bs ih =>
    simp only [splitLines]
    split
    next hb =>
      simp only [joinLines,flatMap_cons,nil_append,cons_append] at ih ⊢
      rw [ih,hb]
    next hb =>
      split
      next hl =>
        rw [hl] at ih
        simpa [joinLines] using ih
      next l ls hl => simp_all [joinLines,flatMap_cons,cons_append,append_assoc]

lemma splitLines_line (l rest : Bytes) (hl : newline∉l) :
    splitLines (l++newline::rest)=(l::(splitLines rest).1,(splitLines rest).2) := by
  induction l with
  | nil => simp [splitLines]
  | cons b l ih =>
    have hb : b≠newline := fun h => hl (h ▸ mem_cons_self ..)
    have ht:=ih fun h => hl (mem_cons_of_mem _ h)
    simp only [cons_append,splitLines,if_neg hb,ht]

lemma splitLines_noNewline (t : Bytes) (ht : newline∉t) : splitLines t=([],t) := by
  induction t with
  | nil => rfl
  | cons b t ih =>
    have hb : b≠newline := fun h => ht (h ▸ mem_cons_self ..)
    simp only [splitLines,if_neg hb,ih fun h => ht (mem_cons_of_mem _ h)]

lemma splitLines_no_newline_mem : (∀ l∈(splitLines c).1, newline∉l) ∧ newline∉(splitLines c).2 := by
  induction c with
  | nil => simp [splitLines]
  | cons b bs ih => grind [splitLines]

lemma splitLines_joinLines (ls : List Bytes) (t : Bytes) (hls : ∀ l∈ls, newline∉l)
    (ht : newline∉t) : splitLines (joinLines ls++t)=(ls,t) := by
  induction ls with
  | nil => simpa [joinLines] using splitLines_noNewline t ht
  | cons l ls ih => simp_all [joinLines,splitLines_line]

lemma splitLines_append (c x : Bytes) (hc : Terminated c) :
    splitLines (c++x)=((splitLines c).1++(splitLines x).1,(splitLines x).2) := by
  have hcl:=joinLines_splitLines c
  rw [show (splitLines c).2=[] from hc,append_nil] at hcl
  have hx:=joinLines_splitLines x
  have hl:=splitLines_no_newline_mem c
  have hxl:=splitLines_no_newline_mem x
  have hs : c++x=joinLines ((splitLines c).1++(splitLines x).1)++(splitLines x).2 := by
    rw [joinLines_append,append_assoc,hx,hcl]
  rw [hs]
  apply splitLines_joinLines
  · grind [hl.1,hxl.1]
  · exact hxl.2

lemma terminated_nil : Terminated [] := rfl

lemma terminated_append (c x : Bytes) (hc : Terminated c) (hx : Terminated x) : Terminated (c++x) := by
  unfold Terminated
  rw [splitLines_append c x hc]
  exact hx

lemma terminated_joinLines (ls : List Bytes) : Terminated (joinLines ls) := by
  induction ls with
  | nil => rfl
  | cons l ls ih =>
    have hl : Terminated (l++[newline]) := by
      induction l with
      | nil => rfl
      | cons b l ihl =>
        unfold Terminated at ihl ⊢
        simp only [cons_append,splitLines]
        split
        next => exact ihl
        next =>
          split
          next hn =>
            have hj:=joinLines_splitLines (l++[newline])
            rw [hn,ihl] at hj
            simp [joinLines] at hj
          next => exact ihl
    exact terminated_append _ _ hl ih

lemma terminated_iff : Terminated c ↔ c=[] ∨ c.getLast?=some newline := by
  have hj:=joinLines_splitLines c
  have hln:=splitLines_no_newline_mem c
  constructor
  · intro hc
    rw [Terminated] at hc
    rw [hc,append_nil] at hj
    rcases eq_nil_or_concat (splitLines c).1 with hn | ⟨ls,l,hls⟩
    · left
      rw [← hj,hn]
      rfl
    · right
      rw [← hj,hls,concat_eq_append,joinLines_append]
      simp [joinLines]
  · rintro (rfl | hl)
    · exact terminated_nil
    · -- a non-empty tail would hold the last newline
      by_contra hne
      have hm : newline∈(splitLines c).2 := by
        rw [← hj,List.getLast?_append_of_ne_nil _ hne] at hl
        exact mem_of_getLast? hl
      exact hln.2 hm

lemma splitOn_dropLast (hc : Terminated c) (hne : c≠[]) :
    c.dropLast.splitOn newline=(splitLines c).1 := by
  have hj:=joinLines_splitLines c
  rw [Terminated] at hc
  rw [hc,append_nil] at hj
  have hl : (splitLines c).1≠[] := by
    intro h
    rw [h] at hj
    exact hne hj.symm
  have hd : c.dropLast=[newline].intercalate (splitLines c).1 := by
    conv_lhs => rw [← hj]
    generalize (splitLines c).1=ls at hl
    induction ls with
    | nil => exact absurd rfl hl
    | cons l rest ih =>
      cases rest with
      | nil => simp [joinLines]
      | cons m rest =>
        have hr : joinLines (m::rest)≠[] := by simp [joinLines]
        have hcn : joinLines (l::m::rest)=(l++[newline])++joinLines (m::rest) := by simp [joinLines]
        rw [hcn,dropLast_append_of_ne_nil hr,ih (by simp),intercalate_cons_cons,append_assoc]
  rw [hd]
  exact splitOn_intercalate newline (splitLines_no_newline_mem c).1 hl

def splitOnce (sep : UInt8) : Bytes → Option (Bytes × Bytes)
  | [] => none
  | b::bs =>
    if b=sep then some ([],bs)
    else (splitOnce sep bs).map fun r => (b::r.1,r.2)

lemma splitOnce_append (sep : UInt8) (x y : Bytes) (hx : sep∉x) :
    splitOnce sep (x++sep::y)=some (x,y) := by
  induction x with
  | nil => simp [splitOnce]
  | cons b x ih =>
    have hb : b≠sep := fun h => hx (h ▸ mem_cons_self ..)
    have hr:=ih fun h => hx (mem_cons_of_mem _ h)
    simp [splitOnce,hb,hr]

lemma splitOnce_eq_some (sep : UInt8) (s x y : Bytes) (h : splitOnce sep s=some (x,y)) :
    s=x++sep::y ∧ sep∉x := by
  induction s generalizing x with
  | nil => simp [splitOnce] at h
  | cons b s ih =>
    simp only [splitOnce] at h
    split at h
    next hb =>
      cases h
      exact ⟨by rw [hb,nil_append],not_mem_nil⟩
    next hb =>
      obtain ⟨r,hr,he⟩ := map_eq_some_iff.mp h
      cases he
      obtain ⟨hs,hn⟩ := ih r.1 hr
      refine ⟨by rw [hs,cons_append],?_⟩
      intro hm
      rcases mem_cons.mp hm with he | hm
      · exact hb he.symm
      · exact hn hm

lemma append_sep_inj {sep : UInt8} {x y x' y' : Bytes} (hy : sep∉y) (hy' : sep∉y')
    (h : x++sep::y=x'++sep::y') : x=x' ∧ y=y' := by
  have hs : ∀ {u v t : Bytes}, sep∉u → sep::u=t++sep::v → t=[] ∧ u=v := by
    intro u v t hu he
    cases t with
    | nil => exact ⟨rfl,tail_eq_of_cons_eq he⟩
    | cons b t => grind [tail_eq_of_cons_eq,absurd]
  rcases append_eq_append_iff.mp h with ⟨t,hx,ht⟩ | ⟨t,hx,ht⟩
  · grind
  · grind

lemma decimal_inj {m n : ℕ} (h : decimal m=decimal n) : m=n := by rw [← decimal_value m,h,decimal_value]

lemma newline_notMem_decimal (n : ℕ) : newline∉decimal n := by
  intro h
  exact absurd (decimal_digits n newline h) (by decide)
end NilVpn.Base
