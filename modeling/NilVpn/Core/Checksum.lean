import Mathlib.Tactic.Linarith
import NilVpn.Base.Block

/-!
# Checksum finalization (nil-core/src/checksum.rs)

Sums are natural numbers: over at most 65535 bytes they stay below `2 ^ 32`.
-/

namespace NilVpn.Core
open Base

def wordSum : Bytes → ℕ
  | [] => 0
  | [x] => x.toNat*256
  | x::y::rest => (x.toNat*256+y.toNat)+wordSum rest

/-- `while sum >> 16 != 0`; each turn makes the sum smaller, so the sum itself is enough fuel. -/
def foldCarry : ℕ → ℕ → ℕ
  | 0,sum => sum
  | fuel+1,sum => if sum / 65536=0 then sum else foldCarry fuel (sum % 65536+sum / 65536)

def complement (sum : ℕ) : UInt16 := ~~~ (UInt16.ofNat (foldCarry sum sum))

def checksumOffset4 (proto : UInt8) : Option ℕ :=
  if proto=6 then some 16 else if proto=17 then some 6 else none

def checksumOffset6 (nextHeader : UInt8) : Option ℕ :=
  if nextHeader=6 then some 16 else if nextHeader=17 then some 6
  else if nextHeader=58 then some 2 else none

def get (s : Bytes) (i : ℕ) : Option UInt8 := if i<s.length then some (byteAt s i) else none

def put16 (s : Bytes) (i : ℕ) (v : UInt16) : Option Bytes :=
  if i+2 ≤ s.length then some (setBe16 s i v) else none

def addU32 (a b : ℕ) : Option ℕ := if a+b<0x100000000 then some (a+b) else none

def sumU32 (acc : ℕ) : Bytes → Option ℕ
  | [] => some acc
  | [x] => addU32 acc (x.toNat*256)
  | x::y::rest => do sumU32 (← addU32 acc (x.toNat*256+y.toNat)) rest

def onesComplement (data : Bytes) (initial : ℕ) : Option UInt16 := (sumU32 initial data).map complement

/-- The checksum at `off` of the segment `lo..hi`, over the segment and the pseudo-header `sum`;
a computed 0 is written as `0xffff` where 0 means that there is none. -/
def setChecksum (pkt : Bytes) (lo hi off sum : ℕ) (zeroIsNone : Bool) : Option Bytes := do
  let pkt ← put16 pkt (lo+off) 0
  let csum ← onesComplement (← slice pkt lo hi) sum
  put16 pkt (lo+off) (if zeroIsNone&&csum=0 then 0xffff else csum)

def fixIpv4Checked (pkt : Bytes) : Option Bytes := do
  if pkt.length<20||byteAt pkt 0 >>> 4≠4 then return pkt
  let ihl:=(byteAt pkt 0 &&& 0x0f).toNat*4
  if ihl<20||pkt.length < ihl then return pkt
  let pkt ← setChecksum pkt 0 ihl 10 0 false
  let proto ← get pkt 9
  let last:=min (ofBe [← get pkt 2,← get pkt 3]) pkt.length
  if last ≤ ihl then return pkt
  let some off := checksumOffset4 proto | return pkt
  if last - ihl<off+2 then return pkt
  let sum ← addU32 (← addU32 (← sumU32 0 (← slice pkt 12 20)) proto.toNat) (last - ihl)
  setChecksum pkt ihl last off sum (proto=17)

def fixIpv6Checked (pkt : Bytes) : Option Bytes := do
  if pkt.length<40||byteAt pkt 0 >>> 4≠6 then return pkt
  let nextHeader ← get pkt 6
  let payloadLen:=ofBe [← get pkt 4,← get pkt 5]
  let some off := checksumOffset6 nextHeader | return pkt
  let last:=min (40+payloadLen) pkt.length
  if last≤40 then return pkt
  if last - 40<off+2 then return pkt
  let sum ← addU32 (← addU32 (← addU32 (← sumU32 0 (← slice pkt 8 40)) ((last - 40) / 65536))
    ((last - 40) % 65536)) nextHeader.toNat
  setChecksum pkt 40 last off sum (nextHeader=17||nextHeader=58)

/-- `fix_l4_checksums` where an index out of range or a `u32` overflow is a `none`. -/
def fixL4Checked (pkt : Bytes) : Option Bytes :=
  match pkt with
  | [] => some pkt
  | first::_ =>
    if first >>> 4=4 then fixIpv4Checked pkt
    else if first >>> 4=6 then fixIpv6Checked pkt
    else some pkt

def fixIpv4Checksums (pkt : Bytes) : Bytes := (fixIpv4Checked pkt).getD pkt
def fixL4Checksums (pkt : Bytes) : Bytes := (fixL4Checked pkt).getD pkt

open Option List
section
variable {s s' : Bytes} {i j : ℕ} {v w : UInt16}
lemma bytes_ext (hl : s.length=s'.length) (h : ∀ j, byteAt s j=byteAt s' j) : s=s' := by
  refine ext_getElem hl fun j hj hj' => ?_
  simpa [byteAt,getD_eq_getElem?_getD,hj,hj'] using h j

@[simp] lemma setBe16_length (s : Bytes) (i : ℕ) (v : UInt16) : (setBe16 s i v).length=s.length := by
  simp [setBe16]

lemma byteAt_setBe16 (h : i+2 ≤ s.length) :
    byteAt (setBe16 s i v) j=if j=i then UInt8.ofNat (v.toNat / 256)
      else if j=i+1 then UInt8.ofNat v.toNat else byteAt s j := by
  simp only [byteAt,setBe16,getD_eq_getElem?_getD,List.getElem?_set,length_set]
  grind

lemma byteAt_setBe16_ne (hi : j≠i) (hi' : j≠i+1) : byteAt (setBe16 s i v) j=byteAt s j := by
  simp only [byteAt,setBe16,getD_eq_getElem?_getD,List.getElem?_set,length_set]
  grind

lemma be16At_setBe16 (h : i+2 ≤ s.length) : be16At (setBe16 s i v) i=v := by
  have hv:=v.toNat_lt
  refine UInt16.toNat_inj.mp ?_
  simp [be16At,byteAt_setBe16 h,ofBe]
  omega

lemma setBe16_be16At (h : i+2 ≤ s.length) : setBe16 s i (be16At s i)=s := by
  refine bytes_ext (setBe16_length ..) fun j => ?_
  have h₁:=(byteAt s i).toNat_lt
  have h₂:=(byteAt s (i+1)).toNat_lt
  rw [byteAt_setBe16 h]
  split
  next hj => exact UInt8.toNat_inj.mp (by simp [be16At,ofBe,hj]; omega)
  split
  next hj => exact UInt8.toNat_inj.mp (by simp [be16At,ofBe,hj])
  · rfl

lemma setBe16_setBe16 : setBe16 (setBe16 s i v) i w=setBe16 s i w := by simp [setBe16,set_comm]

lemma setBe16_segment {lo hi off : ℕ} :
    ((setBe16 s (lo+off) v).take hi).drop lo=setBe16 ((s.take hi).drop lo) off v := by
  simp only [setBe16,take_set,drop_set]
  grind
end

lemma wordSum_append {a : Bytes} (b : Bytes) (h : a.length % 2=0) : wordSum (a++b)=wordSum a+wordSum b := by
  fun_induction wordSum a with
  | case1 => simp
  | case2 x => simp at h
  | case3 x y rest ih =>
    simp only [cons_append,wordSum,ih (by simp at h; omega)]
    omega

/-- The word at an even position enters the sum as it is. -/
lemma wordSum_setBe16 (d : Bytes) (k : ℕ) (v : UInt16) (h : 2*k+2≤d.length) :
    wordSum (setBe16 d (2*k) v)=wordSum (setBe16 d (2*k) 0)+v.toNat := by
  have hv:=v.toNat_lt
  induction k generalizing d with
  | zero =>
    match d,h with
    | x::y::re,_ =>
      simp [setBe16,wordSum]
      omega
  | succ k ih =>
    match d,h with
    | x::y::re,h =>
      have := ih re (by simp at h; omega)
      have hc : ∀ u, setBe16 (x::y::re) (2*(k+1)) u=x::y::setBe16 re (2*k) u := by
        intro u
        simp [setBe16,Nat.mul_add]
      rw [hc,hc,wordSum,wordSum,this]
      omega

lemma wordSum_le (d : Bytes) : wordSum d≤65535*((d.length+1) / 2) := by
  fun_induction wordSum d with
  | case1 => simp
  | case2 x =>
    have := x.toNat_lt
    simp
    omega
  | case3 x y rest ih =>
    have := x.toNat_lt
    have := y.toNat_lt
    simp only [length_cons]
    omega

/-- The one's complement sum of RFC 1071: the residue modulo 65535, where only 0 gives 0. -/
def rfc1071 (sum : ℕ) : ℕ := if sum=0 then 0 else (sum - 1) % 65535+1

lemma foldCarry_eq (n : ℕ) : foldCarry n n=rfc1071 n := by
  have hf : ∀ f n, n≤f → foldCarry f n=rfc1071 n := by
    intro f
    induction f with
    | zero => intro n hn; simp [foldCarry,rfc1071,Nat.le_zero.mp hn]
    | succ f ih =>
      intro n hn
      rw [foldCarry,rfc1071]
      split
      next h => split <;> omega
      next h => rw [ih _ (by omega),rfc1071]; split <;> split <;> omega
  exact hf n n le_rfl

lemma complement_toNat (sum : ℕ) : (complement sum).toNat=65535 - rfc1071 sum := by
  have hle : rfc1071 sum≤65535 := by
    rw [rfc1071]
    split <;> omega
  simp only [complement,UInt16.toNat_not,UInt16.toNat_ofNat',foldCarry_eq]
  rw [Nat.mod_eq_of_lt (by omega)]
  rfl

/-- A checksum at `lo + off` over the bytes `lo..hi` and a pseudo-header. -/
structure Field where
  (lo hi off : ℕ)
  pseudo : Bytes
  zeroIsNone : Bool

namespace Field
/-- What is written: it does not depend on what the field held. -/
def value (g : Field) (p : Bytes) : UInt16 :=
  let csum:=complement (wordSum g.pseudo+wordSum (setBe16 ((p.take g.hi).drop g.lo) g.off 0))
  if g.zeroIsNone&&csum=0 then 0xffff else csum

def finish (p : Bytes) (g : Field) : Bytes := setBe16 p (g.lo+g.off) (g.value p)

def Holds (g : Field) (j : ℕ) : Prop := j=g.lo+g.off ∨ j=g.lo+g.off+1

structure Fits (p : Bytes) (g : Field) : Prop where
  hi_le : g.hi≤p.length
  off_lt : g.lo+g.off+2≤g.hi
  even : g.off % 2=0

variable {p q r : Bytes} {g : Field} {gs : List Field}
lemma byteAt_segment (s : Bytes) (lo hi j : ℕ) :
    byteAt ((s.take hi).drop lo) j=if lo+j<hi then byteAt s (lo+j) else 0 := by
  simp only [byteAt,getD_eq_getElem?_getD,List.getElem?_drop,List.getElem?_take]
  split <;> rfl

lemma value_congr (hl : p.length=q.length) (hg : g.Fits p)
    (h : ∀ j, g.lo≤j → j<g.hi → ¬g.Holds j → byteAt p j=byteAt q j) : g.value p=g.value q := by
  obtain ⟨hhi,ho,-⟩ := hg
  have hs : setBe16 ((p.take g.hi).drop g.lo) g.off 0=setBe16 ((q.take g.hi).drop g.lo) g.off 0 := by
    refine bytes_ext (by simp [hl]) fun j => ?_
    rw [byteAt_setBe16 (by simp; omega),byteAt_setBe16 (by simp; omega),byteAt_segment,byteAt_segment]
    grind [Holds]
  simp only [value,hs]

/-- With the field's value in place the sum is all ones. -/
lemma sum_of_value (hg : g.Fits p) :
    rfc1071 (wordSum g.pseudo+wordSum (((finish p g).take g.hi).drop g.lo))=65535 ∧
      (g.zeroIsNone → g.value p≠0) := by
  obtain ⟨hhi,ho,he⟩ := hg
  have hl : 2*(g.off / 2)+2≤((p.take g.hi).drop g.lo).length := by simp; omega
  have hw:=wordSum_setBe16 _ _ (g.value p) hl
  rw [show 2*(g.off / 2)=g.off by omega] at hw
  have hcs:=complement_toNat (wordSum g.pseudo+wordSum (setBe16 ((p.take g.hi).drop g.lo) g.off 0))
  rw [finish,setBe16_segment,hw]
  simp only [value] at hcs ⊢
  clear hw
  generalize complement _=c at hcs ⊢
  generalize wordSum (setBe16 _ _ _)=n at hcs ⊢
  rw [rfc1071] at hcs
  have hs : ∀ m, m=c.toNat ∨ m=65535 ∧ c.toNat=0 → rfc1071 (wordSum g.pseudo+(n+m))=65535 := by
    intro m hm
    rw [rfc1071]
    split at hcs <;> split <;> omega
  split
  next hz =>
    simp only [Bool.and_eq_true,decide_eq_true_eq] at hz
    exact ⟨hs _ (.inr ⟨rfl,by rw [hz.2]; rfl⟩),fun _ => by decide⟩
  next hz => exact ⟨hs _ (.inl rfl),fun h hc => hz (by simp [h,hc])⟩

/-- `r` is `p` with each of the fields `gs` finished, and nothing else changed. -/
structure Finished (gs : List Field) (p r : Bytes) : Prop where
  length : r.length=p.length
  part : ∀ g∈gs, ∀ j, g.lo≤j → j<g.hi → byteAt r j=byteAt (finish p g) j
  frame : ∀ j, (∀ g∈gs, ¬g.Holds j) → byteAt r j=byteAt p j

def Apart (g g' : Field) : Prop := g.hi≤g'.lo

lemma finish_byteAt_ne {j : ℕ} (h : ¬g.Holds j) : byteAt (finish p g) j=byteAt p j := by
  rw [finish]
  exact byteAt_setBe16_ne (fun hj => h (.inl hj)) fun hj => h (.inr hj)

lemma finish_congr (hl : p.length=q.length) (hg : g.Fits p)
    (h : ∀ j, g.lo≤j → j<g.hi → ¬g.Holds j → byteAt p j=byteAt q j) {j : ℕ} (hlo : g.lo≤j)
    (hhi : j<g.hi) : byteAt (finish p g) j=byteAt (finish q g) j := by
  have ho:=hg.off_lt
  have hle:=hg.hi_le
  rw [finish,finish,value_congr hl hg h,byteAt_setBe16 (by omega),byteAt_setBe16 (by omega)]
  grind [Holds]

lemma finished_foldl (hf : ∀ g∈gs, g.Fits p) (ha : gs.Pairwise Apart) :
    Finished gs p (gs.foldl finish p) := by
  induction gs generalizing p with
  | nil => exact ⟨rfl,by simp,fun _ _ => rfl⟩
  | cons g gs ih =>
    obtain ⟨hg,hs⟩ := forall_mem_cons.mp hf
    obtain ⟨hfa,hr⟩ := pairwise_cons.mp ha
    have hl : (finish p g).length=p.length := by rw [finish,setBe16_length]
    have h:=ih (fun g' hg' => ⟨hl ▸ (hs g' hg').1,(hs g' hg').2,(hs g' hg').3⟩) hr
    refine ⟨h.length.trans hl,forall_mem_cons.mpr ⟨?_,?_⟩,?_⟩
    · -- the later fields lie behind this one
      intro j _ hj
      refine h.frame j fun g' hg' ho => ?_
      have := hfa g' hg'
      simp only [Apart,Holds] at this ho
      omega
    · intro g' hg' j hlo hh
      refine (h.part g' hg' j hlo hh).trans (finish_congr hl.symm (hs g' hg') ?_ hlo hh).symm
      intro i hi _ _
      refine (finish_byteAt_ne fun ho => ?_).symm
      have := hfa g' hg'
      have := hg.off_lt
      simp only [Holds] at ho
      grind [Apart]
    · intro j hj
      obtain ⟨hj,hjs⟩ := forall_mem_cons.mp hj
      exact (h.frame j hjs).trans (finish_byteAt_ne hj)

/-- Finishing the same fields again changes nothing. -/
lemma Finished.again (h : Finished gs p q) (h' : Finished gs q r) (hf : ∀ g∈gs, g.Fits p) : r=q := by
  refine bytes_ext h'.length fun j => ?_
  by_cases hj : ∃ g∈gs, g.Holds j
  · obtain ⟨g,hg,ho⟩ := hj
    have hoff:=(hf g hg).off_lt
    have hn : g.lo≤j ∧ j<g.hi := by
      simp only [Holds] at ho
      omega
    rw [h'.part g hg j hn.1 hn.2,h.part g hg j hn.1 hn.2]
    refine (finish_congr h.length.symm (hf g hg) ?_ hn.1 hn.2).symm
    intro i hlo hhi hi
    exact ((h.part g hg i hlo hhi).trans (finish_byteAt_ne hi)).symm
  · exact h'.frame j (by grind)
end Field

def ihl (p : Bytes) : ℕ := (byteAt p 0 &&& 0x0f).toNat*4
def last4 (p : Bytes) : ℕ := min (be16At p 2).toNat p.length
def last6 (p : Bytes) : ℕ := min (40+(be16At p 4).toNat) p.length
def Header4 (p : Bytes) : Prop := byteAt p 0 >>> 4=4 ∧ 20 ≤ ihl p ∧ ihl p≤p.length
def Header6 (p : Bytes) : Prop := byteAt p 0 >>> 4=6 ∧ 40≤p.length

instance (p : Bytes) : Decidable (Header4 p) := inferInstanceAs (Decidable (_ ∧ _))
instance (p : Bytes) : Decidable (Header6 p) := inferInstanceAs (Decidable (_ ∧ _))

def pseudo4 (p : Bytes) : Bytes := (p.take 20).drop 12++([0,byteAt p 9]++beBytes 2 (last4 p - ihl p))
def pseudo6 (p : Bytes) : Bytes := (p.take 40).drop 8++(beBytes 4 (last6 p - 40)++[0,0,0,byteAt p 6])

def headerField (p : Bytes) : List Field :=
  if Header4 p then [⟨0,ihl p,10,[],false⟩] else []

/-- The transport checksum, if the packet is long enough to contain it. -/
def transportField (p : Bytes) : List Field :=
  if Header4 p then
    match checksumOffset4 (byteAt p 9) with
    | some off => if ihl p+off+2≤last4 p then
        [⟨ihl p,last4 p,off,pseudo4 p,byteAt p 9=17⟩] else []
    | none => []
  else if Header6 p then
    match checksumOffset6 (byteAt p 6) with
    | some off => if 40+off+2≤last6 p then
        [⟨40,last6 p,off,pseudo6 p,byteAt p 6=17||byteAt p 6=58⟩] else []
    | none => []
  else []

def fields (p : Bytes) : List Field := headerField p++transportField p

lemma segment_before {s : Bytes} {i lo hi : ℕ} {v : UInt16} (h : i+2≤lo) :
    ((setBe16 s i v).take hi).drop lo=(s.take hi).drop lo := by
  simp only [setBe16,take_set,drop_set]
  grind

lemma wordSum_pseudo4 {p : Bytes} (h : 20≤p.length) : wordSum (pseudo4 p) =
    wordSum ((p.take 20).drop 12)+(byteAt p 9).toNat+(last4 p - ihl p) := by
  have hl : last4 p - ihl p<65536 := by
    have := (be16At p 2).toNat_lt
    simp only [last4]
    omega
  rw [pseudo4,wordSum_append _ (by simp; omega),wordSum_append _ (by simp)]
  generalize last4 p - ihl p=n at hl ⊢
  simp [beBytes,wordSum]
  omega

lemma wordSum_pseudo6 {p : Bytes} (h : 40≤p.length) : wordSum (pseudo6 p) =
    wordSum ((p.take 40).drop 8)+(last6 p - 40) / 65536+(last6 p - 40) % 65536+(byteAt p 6).toNat := by
  have hl : last6 p - 40<65536 := by
    have := (be16At p 4).toNat_lt
    simp only [last6]
    omega
  rw [pseudo6,wordSum_append _ (by simp; omega),wordSum_append _ (by simp)]
  generalize last6 p - 40=n at hl ⊢
  simp [beBytes,wordSum]
  omega

lemma offset4_cases {b : UInt8} {off : ℕ} (h : checksumOffset4 b=some off) : off=16 ∨ off=6 := by
  grind [checksumOffset4]

lemma offset6_cases {b : UInt8} {off : ℕ} (h : checksumOffset6 b=some off) : off=16 ∨ off=6 ∨ off=2 := by
  grind [checksumOffset6]

lemma fields_fit (p : Bytes) : (∀ g∈fields p, g.Fits p) ∧ (fields p).Pairwise Field.Apart := by
  have h4 : last4 p≤p.length := Nat.min_le_right _ _
  have h6 : last6 p≤p.length := Nat.min_le_right _ _
  have hf : ∀ g∈fields p, g.Fits p := by
    intro g hg
    simp only [fields,headerField,transportField,Header4] at hg
    have := @offset4_cases (byteAt p 9)
    have := @offset6_cases (byteAt p 6)
    constructor <;> grind
  refine ⟨hf,?_⟩
  simp only [fields,headerField,transportField]
  grind [Field.Apart]

section
variable {p q d : Bytes} {acc i lo hi : ℕ} {g : Field}
lemma addU32_eq {a b : ℕ} (h : a+b<0x100000000) : addU32 a b=some (a+b) := if_pos h

lemma sumU32_eq (h : acc+wordSum d<0x100000000) : sumU32 acc d=some (acc+wordSum d) := by
  induction d using wordSum.induct generalizing acc with
  | case1 => rfl
  | case2 x => exact addU32_eq h
  | case3 x y rest ih =>
    rw [wordSum,← Nat.add_assoc] at h ⊢
    have hlt : acc+(x.toNat*256+y.toNat)<0x100000000 := Nat.lt_of_le_of_lt (Nat.le_add_right ..) h
    rw [sumU32,addU32_eq hlt]
    exact ih h

lemma slice_eq (hlo : lo≤hi) (hhi : hi≤p.length) : slice p lo hi=some ((p.take hi).drop lo) := by
  rw [slice,if_pos ⟨hlo,hhi⟩,drop_take]

lemma get_eq (h : i<p.length) : get p i=some (byteAt p i) := if_pos h

lemma be16At_toNat (s : Bytes) (i : ℕ) : (be16At s i).toNat=ofBe [byteAt s i,byteAt s (i+1)] := by
  have h₁:=(byteAt s i).toNat_lt
  have h₂:=(byteAt s (i+1)).toNat_lt
  simp [be16At,ofBe]
  omega

/-- No index is out of range and no sum overflows: a field is finished. -/
lemma setChecksum_eq (hg : g.Fits p) (hl : g.hi - g.lo≤65535) (hs : wordSum g.pseudo≤2^22) :
    setChecksum p g.lo g.hi g.off (wordSum g.pseudo) g.zeroIsNone=some (Field.finish p g) := by
  obtain ⟨hhi,ho,-⟩ := hg
  have hle:=wordSum_le (((setBe16 p (g.lo+g.off) 0).take g.hi).drop g.lo)
  simp only [length_drop,length_take,setBe16_length] at hle
  rw [setChecksum,put16,if_pos (by omega),bind_eq_bind,bind_some,
    slice_eq (by omega) (by simpa using hhi),bind_eq_bind,bind_some,onesComplement,
    sumU32_eq (by omega),Option.map_some,bind_some,put16,if_pos (by simp; omega)]
  simp only [setBe16_segment,setBe16_setBe16,Field.finish,Field.value]

lemma fields_small (hg : g∈fields p) : g.hi - g.lo≤65535 ∧ wordSum g.pseudo≤2^22 := by
  have h0 : (byteAt p 0 &&& 0x0f).toNat≤15 := by
    rw [UInt8.toNat_and]
    exact Nat.and_le_right
  have h2:=(be16At p 2).toNat_lt
  have h4:=(be16At p 4).toNat_lt
  have hs4 : wordSum (pseudo4 p)≤2^22 := (wordSum_le _).trans (by simp [pseudo4]; omega)
  have hs6 : wordSum (pseudo6 p)≤2^22 := (wordSum_le _).trans (by simp [pseudo6]; omega)
  simp only [fields,headerField,transportField] at hg
  grind [ihl,last4,last6,wordSum]

lemma setChecksum_field (hg : g∈fields p) (hn : q.length=p.length) :
    setChecksum q g.lo g.hi g.off (wordSum g.pseudo) g.zeroIsNone=some (Field.finish q g) := by
  obtain ⟨hhi,ho,he⟩ := (fields_fit p).1 g hg
  exact setChecksum_eq ⟨hn ▸ hhi,ho,he⟩ (fields_small hg).1 (fields_small hg).2

lemma fixIpv4Checked_eq (h : Header4 p) : fixIpv4Checked p=some ((fields p).foldl Field.finish p) := by
  obtain ⟨hv,hge,hle⟩ := id h
  have hn : ¬(p.length<20||byteAt p 0 >>> 4≠4) := by simp [hv]; omega
  have hn' : ¬(ihl p<20||p.length < ihl p) := by simp; omega
  have hh:=setChecksum_field (g := ⟨0,ihl p,10,[],false⟩) (p := p) (by simp [fields,headerField,h]) rfl
  rw [fixIpv4Checked,if_neg hn]
  simp only [← ihl.eq_1 p,if_neg hn',wordSum,bind_eq_bind] at hh ⊢
  rw [hh,bind_some]
  simp only [fields,headerField,transportField,if_pos h,cons_append,nil_append,foldl_cons]
  have hl : (Field.finish p ⟨0,ihl p,10,[],false⟩).length=p.length := setBe16_length ..
  have hb : ∀ j, j≠10 → j≠11 → byteAt (Field.finish p ⟨0,ihl p,10,[],false⟩) j=byteAt p j :=
    fun j h₁ h₂ => byteAt_setBe16_ne h₁ h₂
  have ha : ((Field.finish p ⟨0,ihl p,10,[],false⟩).take 20).drop 12=(p.take 20).drop 12 :=
    segment_before (by simp)
  generalize Field.finish p ⟨0,ihl p,10,[],false⟩=q at hl hb ha ⊢
  simp only [bind_some,get_eq (show 9<q.length by omega),get_eq (show 2<q.length by omega),
    get_eq (show 3<q.length by omega),hb 9 (by decide) (by decide),hb 2 (by decide) (by decide),
    hb 3 (by decide) (by decide),← be16At_toNat p 2,hl,← last4.eq_1 p,
    slice_eq (show 12≤20 by decide) (show 20≤q.length by omega),ha]
  cases ho : checksumOffset4 (byteAt p 9) with
  | none => simp
  | some off =>
    by_cases hf : ihl p+off+2≤last4 p
    · have hm : ⟨ihl p,last4 p,off,pseudo4 p,byteAt p 9=17⟩∈fields p := by
        simp [fields,transportField,h,ho,hf]
      have hs:=wordSum_pseudo4 (p := p) (by omega)
      have hle : wordSum (pseudo4 p)≤2^22 := (fields_small hm).2
      simp only
      rw [if_neg (by omega),if_neg (by omega),sumU32_eq (by omega),bind_some,addU32_eq (by omega),bind_some,
        addU32_eq (by omega),bind_some,Nat.zero_add,← hs,if_pos hf]
      exact setChecksum_field hm hl
    · grind

lemma fixIpv6Checked_eq (h : Header6 p) : fixIpv6Checked p=some ((fields p).foldl Field.finish p) := by
  obtain ⟨hv,hle⟩ := id h
  have h4 : ¬Header4 p := fun h => absurd (hv.symm.trans h.1) (by decide)
  have hn : ¬(p.length<40||byteAt p 0 >>> 4≠6) := by simp [hv]; omega
  rw [fixIpv6Checked,if_neg hn]
  simp only [get_eq (show 6<p.length by omega),get_eq (show 4<p.length by omega),
    get_eq (show 5<p.length by omega),bind_eq_bind,bind_some,← be16At_toNat p 4,← last6.eq_1 p,
    slice_eq (show 8≤40 by decide) hle]
  cases ho : checksumOffset6 (byteAt p 6) with
  | none => simp [fields,headerField,transportField,h4,h,ho]
  | some off =>
    by_cases hf : 40+off+2≤last6 p
    · have hm : fields p=[⟨40,last6 p,off,pseudo6 p,byteAt p 6=17||byteAt p 6=58⟩] := by
        simp [fields,headerField,transportField,h4,h,ho,hf]
      have hs:=wordSum_pseudo6 hle
      have hg:=hm ▸ mem_singleton_self _
      have hle : wordSum (pseudo6 p)≤2^22 := (fields_small hg).2
      simp only
      rw [if_neg (by omega),if_neg (by omega),sumU32_eq (by omega),bind_some,addU32_eq (by omega),bind_some,
        addU32_eq (by omega),bind_some,addU32_eq (by omega),bind_some,Nat.zero_add,← hs,hm]
      exact setChecksum_field hg rfl
    · grind [fields,headerField,transportField]

lemma fixL4Checked_eq (p : Bytes) : fixL4Checked p=some ((fields p).foldl Field.finish p) := by
  have hv : fixL4Checked p=if byteAt p 0 >>> 4=4 then fixIpv4Checked p
      else if byteAt p 0 >>> 4=6 then fixIpv6Checked p else some p := by
    cases p <;> rfl
  rw [hv]
  by_cases h4 : Header4 p
  · rw [if_pos h4.1,fixIpv4Checked_eq h4]
  by_cases h6 : Header6 p
  · rw [if_neg (fun hv => absurd (h6.1.symm.trans hv) (by decide)),if_pos h6.1,fixIpv6Checked_eq h6]
  have hn : fields p=[] := by simp [fields,headerField,transportField,h4,h6]
  rw [hn,foldl_nil]
  grind [fixIpv4Checked,fixIpv6Checked,Header4,Header6,ihl]
end

lemma holds_cases {p : Bytes} {g : Field} {j : ℕ} (hg : g∈fields p) (h : g.Holds j) :
    Header4 p ∧ (j=10 ∨ j=11 ∨ 20≤j) ∨ 40≤j := by
  simp only [fields,headerField,transportField,Field.Holds] at hg h
  grind [Header4]

/-- Where the fields are and what they cover is read outside of them. -/
lemma fields_congr {p q : Bytes} (hn : q.length=p.length)
    (h : ∀ j, (∀ g∈fields p, ¬g.Holds j) → byteAt q j=byteAt p j) : fields q=fields p := by
  have ho : ∀ j<20, j≠10 → j≠11 → byteAt q j=byteAt p j := fun j hj h₁ h₂ =>
    h j fun g hg hd => by grind [holds_cases hg hd]
  have hl : ¬Header4 p → ∀ j<40, byteAt q j=byteAt p j := fun h4 j hj =>
    h j fun g hg hd => by grind [holds_cases hg hd]
  have hih : ihl q=ihl p := by simp [ihl,ho]
  have hhd : Header4 q ↔ Header4 p := by simp [Header4,hih,ho,hn]
  by_cases h4 : Header4 p
  · have ha : (q.take 20).drop 12=(p.take 20).drop 12 := by
      refine bytes_ext (by simp [hn]) fun j => ?_
      rw [Field.byteAt_segment,Field.byteAt_segment]
      grind
    simp [fields,headerField,transportField,h4,hhd.mpr h4,hih,last4,pseudo4,be16At,ho,hn,ha]
  · have ha : (q.take 40).drop 8=(p.take 40).drop 8 := by
      refine bytes_ext (by simp [hn]) fun j => ?_
      rw [Field.byteAt_segment,Field.byteAt_segment]
      grind
    have hh : Header6 q ↔ Header6 p := by simp [Header6,ho,hn]
    simp [fields,headerField,transportField,h4,mt hhd.mp h4,hh,last6,pseudo6,be16At,hl h4,hn,ha]

lemma fix_finished (p : Bytes) : Field.Finished (fields p) p (fixL4Checksums p) := by
  rw [fixL4Checksums,fixL4Checked_eq]
  exact Field.finished_foldl (fields_fit p).1 (fields_fit p).2

lemma fix_fields (p : Bytes) : fields (fixL4Checksums p)=fields p :=
  fields_congr (fix_finished p).length (fix_finished p).frame

lemma fix_idempotent (p : Bytes) : fixL4Checksums (fixL4Checksums p)=fixL4Checksums p := by
  have h:=fix_finished (fixL4Checksums p)
  rw [fix_fields] at h
  exact (fix_finished p).again h (fields_fit p).1

lemma fix_sum {p : Bytes} {g : Field} (hg : g∈fields p) :
    rfc1071 (wordSum g.pseudo+wordSum (((fixL4Checksums p).take g.hi).drop g.lo))=65535 ∧
      (g.zeroIsNone → be16At (fixL4Checksums p) (g.lo+g.off)≠0) := by
  have hf:=(fields_fit p).1 g hg
  have hp:=(fix_finished p).part g hg
  have hl:=(fix_finished p).length
  obtain ⟨hs,hzr⟩ := Field.sum_of_value hf
  have hse : ((fixL4Checksums p).take g.hi).drop g.lo=((Field.finish p g).take g.hi).drop g.lo := by
    refine bytes_ext (by simp [hl,Field.finish]) fun j => ?_
    rw [Field.byteAt_segment,Field.byteAt_segment]
    grind
  have ho:=hf.off_lt
  have hhi:=hf.hi_le
  refine ⟨hse ▸ hs,fun hz => ?_⟩
  rw [be16At,hp _ (by omega) (by omega),hp _ (by omega) (by omega),← be16At,Field.finish,
    be16At_setBe16 (by omega)]
  exact hzr hz

/-- Finalization over every byte string: the code does not panic, is idempotent and writes
checksum fields only, and afterwards the sums of RFC 1071 are all ones. -/
theorem checksums_finalized : (∀ p, fixL4Checked p=some (fixL4Checksums p)) ∧
    (∀ p, fixL4Checksums (fixL4Checksums p)=fixL4Checksums p) ∧
    (∀ p, (fixL4Checksums p).length=p.length ∧ ∀ j, byteAt (fixL4Checksums p) j≠byteAt p j →
      Header4 p ∧ (j=10 ∨ j=11 ∨ ∃ off, checksumOffset4 (byteAt p 9)=some off ∧
        (j=ihl p+off ∨ j=ihl p+off+1)) ∨
      Header6 p ∧ ∃ off, checksumOffset6 (byteAt p 6)=some off ∧ (j=40+off ∨ j=40+off+1)) ∧
    (∀ p off, Header4 p → checksumOffset4 (byteAt p 9)=some off → ihl p+off+2≤last4 p →
      let q:=fixL4Checksums p
      rfc1071 (wordSum (pseudo4 p++(q.take (last4 p)).drop (ihl p)))=0xffff ∧
      rfc1071 (wordSum (q.take (ihl p)))=0xffff ∧
      (byteAt p 9=17 → be16At q (ihl p+off)≠0)) ∧
    (∀ p off, Header6 p → checksumOffset6 (byteAt p 6)=some off → 40+off+2≤last6 p →
      let q:=fixL4Checksums p
      rfc1071 (wordSum (pseudo6 p++(q.take (last6 p)).drop 40))=0xffff ∧
      (byteAt p 6=17 ∨ byteAt p 6=58 → be16At q (40+off)≠0)) := by
  refine ⟨fun p => by rw [fixL4Checksums,fixL4Checked_eq]; rfl,fix_idempotent,?_,?_,?_⟩
  · intro p
    refine ⟨(fix_finished p).length,fun j hj => ?_⟩
    by_contra hnot
    refine hj ((fix_finished p).frame j fun g hg hd => hnot ?_)
    simp only [fields,headerField,transportField,Field.Holds] at hg hd
    grind
  · intro p off h4 ho hf q
    have hl : 20≤p.length := h4.2.1.trans h4.2.2
    have hh : ⟨0,ihl p,10,[],false⟩∈fields p := by simp [fields,headerField,h4]
    have hs : ⟨ihl p,last4 p,off,pseudo4 p,byteAt p 9=17⟩∈fields p := by
      simp [fields,transportField,h4,ho,hf]
    obtain ⟨hu,hz⟩ := fix_sum hs
    refine ⟨?_,by simpa [wordSum] using (fix_sum hh).1,fun h => hz (decide_eq_true h)⟩
    rw [wordSum_append _ (by simp [pseudo4]; omega)]
    exact hu
  · intro p off h6 ho hf q
    have h4 : ¬Header4 p := fun h => absurd (h6.1.symm.trans h.1) (by decide)
    have hl : 40≤p.length := h6.2
    have hs : ⟨40,last6 p,off,pseudo6 p,byteAt p 6=17||byteAt p 6=58⟩∈fields p := by
      simp [fields,transportField,h4,h6,ho,hf]
    obtain ⟨hu,hz⟩ := fix_sum hs
    refine ⟨?_,fun h => hz (by simpa using h)⟩
    rw [wordSum_append _ (by simp [pseudo6]; omega)]
    exact hu

def IsFragment (p : Bytes) : Prop := byteAt p 0 >>> 4=4 ∧ be16At p 6 &&& 0x3fff≠0

/-- A fragment keeps its bytes outside the header checksum exactly when it has no transport
checksum field, or that field holds the checksum over the fragment alone. -/
theorem fragment_intact_iff (p : Bytes) (_ : IsFragment p) :
    (∀ j, j≠10 → j≠11 → byteAt (fixL4Checksums p) j=byteAt p j) ↔
      ∀ g∈transportField p, be16At p (g.lo+g.off)=g.value p := by
  have h:=fix_finished p
  have hn : ∀ g∈transportField p, g∈fields p := fun g hg => mem_append_right _ hg
  constructor
  · intro hs g hg
    obtain ⟨-,hoff,-⟩ := (fields_fit p).1 g (hn g hg)
    have hbehind : 20≤g.lo+g.off := by grind [transportField,Header4]
    have hpart:=h.part g (hn g hg)
    rw [be16At,← hs _ (by omega) (by omega),← hs (_+1) (by omega) (by omega),
      hpart _ (by omega) (by omega),hpart _ (by omega) (by omega),← be16At,Field.finish,
      be16At_setBe16 (by have := ((fields_fit p).1 g (hn g hg)).hi_le; omega)]
  · intro hvalue j h₁ h₂
    by_cases hj : ∃ g∈transportField p, g.Holds j
    · obtain ⟨g,hg,ho⟩ := hj
      obtain ⟨hhi,hoff,-⟩ := (fields_fit p).1 g (hn g hg)
      have hrange : g.lo≤j ∧ j<g.hi := by
        simp only [Field.Holds] at ho
        omega
      rw [h.part g (hn g hg) j hrange.1 hrange.2,Field.finish,← hvalue g hg,
        setBe16_be16At (by omega)]
    · refine h.frame j fun g hg ho => ?_
      rcases mem_append.mp hg with hg | hg
      · grind [headerField,Field.Holds]
      · exact hj ⟨g,hg,ho⟩

/-- The first fragment of a UDP datagram of `10.0.0.1`; with another protocol number it has no
transport checksum. -/
def firstFragment (proto : UInt8) : Bytes :=
  [0x45,0,0,28,0,0,0x20,0,64,proto,0,0,10,0,0,1,10,0,0,2,0,53,0,53,5,0,0xab,0xcd]

theorem fragment_intact_icmp : IsFragment (firstFragment 1) ∧
    ∀ j, j≠10 → j≠11 → byteAt (fixL4Checksums (firstFragment 1)) j=byteAt (firstFragment 1) j := by
  have hn : transportField (firstFragment 1)=[] := rfl
  have hf : IsFragment (firstFragment 1) := ⟨rfl,by decide⟩
  exact ⟨hf,(fragment_intact_iff (firstFragment 1) hf).mpr (by simp [hn])⟩

theorem udp_fragment_rewritten : IsFragment (firstFragment 17) ∧
      byteAt (fixL4Checksums (firstFragment 17)) 26≠byteAt (firstFragment 17) 26 :=
  ⟨⟨rfl,by decide⟩,by decide +kernel⟩
end NilVpn.Core
