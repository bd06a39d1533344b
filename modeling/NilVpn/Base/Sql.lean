import Mathlib.Data.List.TakeWhile
import NilVpn.Base.Table
import NilVpn.Base.Text

/-!
# SQL statements on one table

A table is a finite map from its primary key. A statement returns the table after it with what the client
sees; a value that leaves the range of `BIGINT` is an error.
-/

namespace NilVpn.Base.Sql
open Table List

section
variable {K V : Type}
def updateWhere (t : Table K V) (p : V → Bool) (f : V → V) : ℕ × Table K V :=
  (t.entries.countP fun e => p e.2,t.mapVal fun v => if p v then f v else v)

def deleteWhere (t : Table K V) (p : K → V → Bool) : ℕ × Table K V :=
  (t.entries.countP fun e => p e.1 e.2,t.retain fun k v => !p k v)

variable [DecidableEq K]
def insertOrIgnore (t : Table K V) (k : K) (v : V) : ℕ × Table K V :=
  if t.contains k then (0,t) else (1,t.insert k v)

/-- `INSERT … ON CONFLICT DO UPDATE SET … WHERE … RETURNING …`: what `update` makes of
the row in the way, `none` if the condition does not hold of it. -/
def upsert (t : Table K V) (k : K) (v : V) (update : V → Option V) : Option V × Table K V :=
  match t.get k with
  | none => (some v,t.insert k v)
  | some old =>
    match update old with
    | none => (none,t)
    | some new => (some new,t.insert k new)

/-- `UPDATE … SET … WHERE key = … RETURNING …`; computing the columns may fail. -/
def updateKey {ε : Type} (t : Table K V) (k : K) (f : V → Except ε V) : Except ε (Option V × Table K V) :=
  match t.get k with
  | none => .ok (none,t)
  | some old => (f old).map fun new => (some new,t.insert k new)

lemma get_updateWhere (t : Table K V) (p : V → Bool) (f : V → V) (k : K) :
    (updateWhere t p f).2.get k=(t.get k).map fun v => if p v then f v else v :=
  get_mapVal t _ k

lemma get_deleteWhere (t : Table K V) (p : K → V → Bool) (k : K) :
    (deleteWhere t p).2.get k=(t.get k).filter fun v => !p k v :=
  get_retain t _ k

variable {t : Table K V} {k : K}
lemma insertOrIgnore_absent (h : t.get k=none) (v : V) : insertOrIgnore t k v=(1,t.insert k v) := by
  rw [insertOrIgnore,Table.contains,h]
  rfl

lemma insertOrIgnore_present {old : V} (h : t.get k=some old) (v : V) : insertOrIgnore t k v=(0,t) := by
  rw [insertOrIgnore,Table.contains,h]
  rfl

lemma upsert_absent (h : t.get k=none) (v : V) (u : V → Option V) :
    upsert t k v u=(some v,t.insert k v) := by
  rw [upsert,h]

lemma upsert_present {old : V} (h : t.get k=some old) (v : V) (u : V → Option V) :
    upsert t k v u=(u old,(u old).elim t fun new => t.insert k new) := by
  rw [upsert,h]
  dsimp only
  cases u old with
  | none | some => rfl
end

/-! ### Tables that stand for maps

The keys of a map are written into a column by an injective encoding. -/

section
variable {K L V W : Type} [DecidableEq K] [DecidableEq L] {g : K → L} {t : Table L W} {u : Table K V}
section
variable (hg : Function.Injective g)
include hg
lemma get_insert_encoded (k a : K) (w : W) :
    (t.insert (g k) w).get (g a)=if a=k then some w else t.get (g a) := by
  simp only [get_insert,hg.eq_iff]

lemma map_insert {f : V → W} (h : ∀ a, t.get (g a)=(u.get a).map f) (k : K) (v : V) (a : K) :
    (t.insert (g k) (f v)).get (g a)=((u.insert k v).get a).map f := by
  rw [get_insert_encoded hg,get_insert,h]
  split
  · rfl
  · rfl

lemma rel_insert {R : K → W → V → Prop} (h : ∀ a, Option.Rel (R a) (t.get (g a)) (u.get a)) {k : K}
    {w : W} {v : V} (hv : R k w v) (a : K) :
    Option.Rel (R a) ((t.insert (g k) w).get (g a)) ((u.insert k v).get a) := by
  rw [get_insert_encoded hg,get_insert]
  split
  next ha =>
    rw [ha]
    exact .some hv
  · exact h a
end

variable {R : W → V → Prop} {o : Option W} {o' : Option V}
lemma rel_filter (h : Option.Rel R o o') {p : W → Bool} {q : V → Bool}
    (hpq : ∀ w v, R w v → p w=q v) : Option.Rel R (o.filter p) (o'.filter q) := by
  cases h with
  | none => exact .none
  | some hr =>
    rw [Option.filter_some,Option.filter_some,hpq _ _ hr]
    split
    · exact .some hr
    · exact .none

lemma rel_some (h : Option.Rel R o o') {v : V} (hv : o'=some v) : ∃ w, o=some w ∧ R w v := by
  cases h with
  | none => cases hv
  | some hr =>
    cases hv
    exact ⟨_,rfl,hr⟩

lemma rel_none_iff (h : Option.Rel R o o') : o=none ↔ o'=none := by
  cases h with
  | none => exact ⟨fun _ => rfl,fun _ => rfl⟩
  | some hr => exact ⟨nofun,nofun⟩

lemma countP_entries (u : Table K V) (p : V → Bool) :
    u.entries.countP (fun e => p e.2)=(u.entries.map Prod.fst).countP fun k => (u.get k).any p := by
  rw [countP_map]
  refine countP_congr ?_
  intro e he
  rw [Function.comp_apply,(get_eq_some u e.1 e.2).mpr he,Option.any_some]

lemma countP_rel {R : K → W → V → Prop} {t : Table K W} (h : ∀ k, Option.Rel (R k) (t.get k) (u.get k))
    {p : W → Bool} {q : V → Bool} (hpq : ∀ k w v, R k w v → p w=q v) :
    t.entries.countP (fun e => p e.2)=u.entries.countP fun e => q e.2 := by
  have hks : (t.entries.map Prod.fst).Perm (u.entries.map Prod.fst) := by
    rw [perm_ext_iff_of_nodup t.nodup u.nodup]
    intro k
    have hn:=rel_none_iff (h k)
    rw [get_eq_none,get_eq_none,not_iff_not] at hn
    exact hn
  have ha : ∀ k, (t.get k).any p=(u.get k).any q := by
    intro k
    have hk:=h k
    generalize t.get k=row at hk ⊢
    generalize u.get k=value at hk ⊢
    cases hk with
    | none => rfl
    | some hr => exact hpq k _ _ hr
  rw [countP_entries,countP_entries,funext ha]
  exact hks.countP_eq _
end

inductive SqlError
  | outOfRange
  | invalidText
  | checkViolation
  deriving DecidableEq,Repr

def SqlError.text : SqlError → String
  | outOfRange => "bigint out of range"
  | invalidText => "invalid input syntax for type bigint"
  | checkViolation => "new row violates check constraint"

def bigint (n : ℤ) : Except SqlError ℤ :=
  if -(2^63)≤n ∧ n<2^63 then .ok n else .error .outOfRange

def ofUnsigned (n : ℕ) : Option ℤ := if n<2^63 then some n else none
def toUnsigned (n : ℤ) : Option UInt64 := if 0≤n then some (UInt64.ofNat n.toNat) else none

/-- `split_part`, with the fields counted from 0. -/
def splitPart (sep : UInt8) (s : Bytes) : ℕ → Bytes
  | 0 => s.takeWhile (·≠sep)
  | n+1 => splitPart sep ((s.dropWhile (·≠sep)).drop 1) n

def plus : UInt8 := 43
def minus : UInt8 := 45

/-- `text::bigint`: an optional sign and digits. Blanks around them are not read. -/
def castBigint (s : Bytes) : Except SqlError ℤ :=
  let digits:=if s.head?=some plus ∨ s.head?=some minus then s.drop 1 else s
  if digits≠[] ∧ digits.all isDigit then
    bigint (if s.head?=some minus then -(digitsValue 0 digits : ℤ) else digitsValue 0 digits)
  else .error .invalidText

def bigintText (n : ℤ) : Bytes := if n<0 then minus::decimal n.natAbs else decimal n.toNat

variable {n : ℕ}
lemma bigint_ofNat (h : n<2^63) : bigint n=.ok (n : ℤ) := by
  refine if_pos ⟨?_,?_⟩
  · omega
  · exact_mod_cast h

lemma ofUnsigned_of_lt (h : n<2^63) : ofUnsigned n=some (n : ℤ) := if_pos h

lemma toUnsigned_ofNat (n : UInt64) : toUnsigned (n.toNat : ℤ)=some n := by
  rw [toUnsigned,if_pos (Int.natCast_nonneg _),Int.toNat_natCast,UInt64.ofNat_toNat]

lemma bigintText_ofNat (n : ℕ) : bigintText (n : ℤ)=decimal n := by
  rw [bigintText,if_neg (by omega),Int.toNat_natCast]

lemma decimal_head (n : ℕ) {b : UInt8} (hb : isDigit b=false) : (decimal n).head?≠some b := by
  intro h
  have hd:=decimal_digits n b (mem_of_head? h)
  rw [hb] at hd
  cases hd

lemma castBigint_decimal (h : n<2^63) : castBigint (decimal n)=.ok (n : ℤ) := by
  have hp : (decimal n).head?≠some plus := decimal_head n (by decide)
  have hm : (decimal n).head?≠some minus := decimal_head n (by decide)
  have hd : (decimal n).all isDigit := all_eq_true.mpr (decimal_digits n)
  simp only [castBigint,hp,hm,or_self,if_false,decimal_value]
  rw [if_pos ⟨decimal_ne_nil n,hd⟩]
  exact bigint_ofNat h

lemma dropWhile_all {p : UInt8 → Bool} {a : Bytes} (ha : ∀ b∈a, p b) (rest : Bytes) :
    (a++rest).dropWhile p=rest.dropWhile p := by
  simp_all

lemma splitPart_second {sep : UInt8} {a b : Bytes} (ha : sep∉a) (hb : sep∉b) :
    splitPart sep (a++sep::b) 1=b := by
  have hall : ∀ {x : Bytes}, sep∉x → ∀ c∈x, decide (c≠sep)=true := by
    intro x hx c hc
    refine decide_eq_true ?_
    rintro rfl
    exact hx hc
  rw [splitPart,dropWhile_all (hall ha),dropWhile_cons_of_neg (by simp),drop_one,tail_cons,
    splitPart]
  exact takeWhile_eq_self_iff.mpr (hall hb)
end NilVpn.Base.Sql
