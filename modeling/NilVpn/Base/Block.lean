import Mathlib.Data.List.Induction
import NilVpn.Base.Text

/-!
# Fixed-size blocks, byte ranges and big-endian integers
-/

namespace NilVpn.Base
open List

abbrev Block (n : ℕ) := {b : Bytes // b.length=n}

def Block.ofBytes (n : ℕ) (b : Bytes) : Option (Block n) :=
  if h : b.length=n then some ⟨b,h⟩ else none

variable {n lo hi : ℕ} {s r : Bytes}
@[simp] lemma Block.length_val (b : Block n) : b.val.length=n := b.property

lemma Block.ofBytes_val (b : Block n) : Block.ofBytes n b.val=some b := by
  rw [Block.ofBytes,dif_pos b.length_val]

lemma Block.ofBytes_eq_some {b : Bytes} {block : Block n} (h : Block.ofBytes n b=some block) : b=block.val := by
  grind [Block.ofBytes]

lemma Block.append_inj {a b : Block n} {x y : Bytes} (h : a.val++x=b.val++y) : a=b ∧ x=y := by
  grind [a.length_val,b.length_val,List.append_inj]

def Block.fill (n : ℕ) (b : UInt8) : Block n := ⟨List.replicate n b,List.length_replicate⟩
def Block.clip (n : ℕ) (b : Bytes) : Block n := ⟨(b++List.replicate n 0).take n,by simp⟩

lemma Block.clip_val {b : Bytes} (h : b.length=n) : (Block.clip n b).val=b := List.take_left' h

/-- The bytes at `lo..hi`; `none` when the range is not inside the string. -/
def slice (s : Bytes) (lo hi : ℕ) : Option Bytes :=
  if lo≤hi ∧ hi ≤ s.length then some ((s.drop lo).take (hi - lo)) else none

lemma slice_eq_some (h : slice s lo hi=some r) : lo≤hi ∧ hi ≤ s.length ∧ r=(s.drop lo).take (hi - lo) := by
  grind [slice]

lemma slice_field {pre field post : Bytes} (hlo : lo=pre.length) (hhi : hi=lo+field.length) :
    slice (pre++(field++post)) lo hi=some field := by
  simp_all [length_append,slice]

lemma slice_flatten (fields : List Bytes) (k : ℕ) (f : Bytes) (hk : fields[k]?=some f)
    (hlo : lo=(fields.take k).flatten.length) (hhi : hi=lo+f.length) :
    slice fields.flatten lo hi=some f := by
  obtain ⟨hlt,hf⟩ := List.getElem?_eq_some_iff.mp hk
  have hs : fields=fields.take k++f::fields.drop (k+1) := by rw [← hf,getElem_cons_drop,take_append_drop]
  have hfl : fields.flatten=(fields.take k).flatten++(f++(fields.drop (k+1)).flatten) := by
    conv_lhs => rw [hs]
    rw [flatten_append,flatten_cons]
  rw [hfl]
  exact slice_field hlo hhi

lemma slice_length (h : slice s lo hi=some r) : r.length=hi - lo := by
  obtain ⟨hle,hhi,hr⟩ := slice_eq_some h
  rw [hr,length_take,length_drop]
  omega

lemma take_slice (h : slice s lo hi=some r) : s.take hi=s.take lo++r := by
  obtain ⟨hle,-,hr⟩ := slice_eq_some h
  have hh : hi=lo+(hi - lo) := by omega
  rw [hr,hh,take_add,← hh]

def beBytes : ℕ → ℕ → Bytes
  | 0,_ => []
  | k+1,n => beBytes k (n / 256)++[UInt8.ofNat n]

def ofBe (b : Bytes) : ℕ := b.foldl (fun n x => 256*n+x.toNat) 0

@[simp] lemma beBytes_length (k n : ℕ) : (beBytes k n).length=k := by
  induction k generalizing n with
  | zero => rfl
  | succ k ih => simp only [beBytes,length_append,ih,length_singleton]

lemma ofBe_concat (b : Bytes) (x : UInt8) : ofBe (b++[x])=256*ofBe b+x.toNat := by
  simp only [ofBe,foldl_append,foldl_cons,foldl_nil]

lemma ofBe_beBytes (k n : ℕ) (h : n<256^k) : ofBe (beBytes k n)=n := by
  induction k generalizing n with
  | zero =>
    have hn : n=0 := by simpa using h
    rw [hn]
    rfl
  | succ k ih =>
    have hh : n / 256<256^k := by
      rw [pow_succ] at h
      exact Nat.div_lt_of_lt_mul (by omega)
    have hl : (UInt8.ofNat n).toNat=n % 256 := UInt8.toNat_ofNat'
    rw [beBytes,ofBe_concat,ih _ hh,hl]
    omega

lemma ofBe_lt (b : Bytes) : ofBe b<256^b.length := by
  induction b using List.reverseRecOn with
  | nil => exact Nat.one_pos
  | append_singleton b x ih =>
    have hx:=x.toNat_lt
    rw [ofBe_concat,length_append,length_singleton,pow_succ]
    omega

lemma beBytes_ofBe (b : Bytes) : beBytes b.length (ofBe b)=b := by
  induction b using List.reverseRecOn with
  | nil => rfl
  | append_singleton b x ih =>
    have hx:=x.toNat_lt
    have hh : (256*ofBe b+x.toNat) / 256=ofBe b := by omega
    have hl : UInt8.ofNat (256*ofBe b+x.toNat)=x := by
      apply UInt8.toNat_inj.mp
      rw [UInt8.toNat_ofNat']
      omega
    rw [length_append,length_singleton,beBytes,ofBe_concat,hh,ih,hl]

def byteAt (s : Bytes) (i : ℕ) : UInt8 := s.getD i 0
def be16At (s : Bytes) (i : ℕ) : UInt16 := UInt16.ofNat (ofBe [byteAt s i,byteAt s (i+1)])

def setBe16 (s : Bytes) (i : ℕ) (v : UInt16) : Bytes :=
  (s.set i (UInt8.ofNat (v.toNat / 256))).set (i+1) (UInt8.ofNat v.toNat)

def checkedAdd (a b : UInt64) : Option UInt64 :=
  if a.toNat+b.toNat<2^64 then some (a+b) else none

lemma checkedAdd_eq_some {a b s : UInt64} : checkedAdd a b=some s ↔ s.toNat=a.toNat+b.toNat := by
  unfold checkedAdd
  constructor
  · grind [Option.some.inj,UInt64.toNat_add,Nat.mod_eq_of_lt]
  · intro h
    have hl : a.toNat+b.toNat<2^64 := h ▸ s.toNat_lt
    rw [if_pos hl]
    congr 1
    apply UInt64.toNat_inj.mp
    rw [UInt64.toNat_add,Nat.mod_eq_of_lt hl,h]

def saturatingAdd (a b : UInt64) : UInt64 := (checkedAdd a b).getD (UInt64.ofNat (2^64 - 1))

lemma saturatingAdd_toNat (a b : UInt64) : (saturatingAdd a b).toNat=min (a.toNat+b.toNat) (2^64 - 1) := by
  unfold saturatingAdd
  cases h : checkedAdd a b with
  | some s => grind [checkedAdd_eq_some.mp,s.toNat_lt]
  | none =>
    have hge : 2^64≤a.toNat+b.toNat := by
      unfold checkedAdd at h
      split at h
      · cases h
      · omega
    rw [Option.getD_none,Nat.min_eq_right (by omega)]
    rfl

def saturatingSub (a b : UInt64) : UInt64 := if a≤b then 0 else a - b

lemma saturatingSub_le_iff (a b c : UInt64) : saturatingSub a b ≤ c ↔ a.toNat≤b.toNat+c.toNat := by
  rw [saturatingSub]
  split
  · rename_i hle
    have := UInt64.le_iff_toNat_le.mp hle
    exact ⟨fun _ => by omega,fun _ => UInt64.zero_le⟩
  · rename_i hlt
    have hs:=UInt64.toNat_sub_of_le a b (UInt64.le_of_lt (UInt64.not_le.mp hlt))
    rw [UInt64.le_iff_toNat_le,hs]
    omega
end NilVpn.Base
