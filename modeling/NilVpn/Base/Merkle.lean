import Mathlib.Data.Nat.Size
import Mathlib.Data.Nat.Bitwise
import Mathlib.Data.Finset.Card
import Mathlib.Data.Set.Function

/-!
# Merkle trees of RFC 6962

`sides n i` says, from the leaf up, whether the node is the right child of its parent; `sides_eq` reads it
off the bits of `i` and `n - 1`.
-/

namespace NilVpn.Base.Merkle
open List

inductive Input (A D : Type)
  | leaf (a : A)
  | node (left right : D)

def splitPoint (n : ℕ) : ℕ := 2^Nat.log2 (n - 1)

lemma splitPoint_pos (n : ℕ) : 0<splitPoint n := Nat.two_pow_pos _

lemma splitPoint_lt {n : ℕ} (h : 2≤n) : splitPoint n<n := by grind [splitPoint,Nat.log2_self_le]

lemma le_two_mul_splitPoint (n : ℕ) : n≤2*splitPoint n := by
  have hlt : n - 1<2^(Nat.log2 (n - 1)+1) := Nat.lt_log2_self
  rw [Nat.pow_succ] at hlt
  unfold splitPoint
  omega

lemma splitPoint_two_pow (p : ℕ) : splitPoint (2^(p+1))=2^p := by
  have hp : 0<2^p := Nat.two_pow_pos p
  have hl : Nat.log2 (2^(p+1) - 1)=p := by
    rw [Nat.log2_eq_iff (by rw [Nat.pow_succ]; omega),Nat.pow_succ]
    omega
  rw [splitPoint,hl]

section
variable {A D : Type} (hash : Input A D → D) (empty : D)
/-- `MTH` of RFC 6962, section 2.1. -/
def treeHash (xs : List A) : D :=
  if _h : 2≤xs.length then
    hash (.node (treeHash (xs.take (splitPoint xs.length))) (treeHash (xs.drop (splitPoint xs.length))))
  else match xs with
    | [] => empty
    | a::_ => hash (.leaf a)
termination_by xs.length
decreasing_by
  · rw [List.length_take]
    exact Nat.lt_of_le_of_lt (Nat.min_le_left _ _) (splitPoint_lt _h)
  · rw [List.length_drop]
    exact Nat.sub_lt (by omega) (splitPoint_pos _)

/-- `PATH` of RFC 6962, section 2.1.1. -/
def auditPath (xs : List A) (i : ℕ) : List D :=
  if _h : 2≤xs.length then
    if i<splitPoint xs.length then
      auditPath (xs.take (splitPoint xs.length)) i++[treeHash hash empty (xs.drop (splitPoint xs.length))]
    else
      auditPath (xs.drop (splitPoint xs.length)) (i - splitPoint xs.length) ++
        [treeHash hash empty (xs.take (splitPoint xs.length))]
  else []
termination_by xs.length
decreasing_by
  · rw [List.length_take]
    exact Nat.lt_of_le_of_lt (Nat.min_le_left _ _) (splitPoint_lt _h)
  · rw [List.length_drop]
    exact Nat.sub_lt (by omega) (splitPoint_pos _)

def treeInputs (xs : List A) : List (Input A D) :=
  if _h : 2≤xs.length then
    .node (treeHash hash empty (xs.take (splitPoint xs.length)))
        (treeHash hash empty (xs.drop (splitPoint xs.length))) ::
      (treeInputs (xs.take (splitPoint xs.length))++treeInputs (xs.drop (splitPoint xs.length)))
  else xs.map .leaf
termination_by xs.length
decreasing_by
  · rw [List.length_take]
    exact Nat.lt_of_le_of_lt (Nat.min_le_left _ _) (splitPoint_lt _h)
  · rw [List.length_drop]
    exact Nat.sub_lt (by omega) (splitPoint_pos _)

def parent (right : Bool) (node sibling : D) : Input A D :=
  if right then .node sibling node else .node node sibling

def climb (node : D) : List Bool → List D → D
  | right::sides,sibling::path => climb (hash (parent right node sibling)) sides path
  | _,_ => node

def climbInputs (node : D) : List Bool → List D → List (Input A D)
  | right::sides,sibling::path =>
    parent right node sibling::climbInputs (hash (parent right node sibling)) sides path
  | _,_ => []
end

/-- Whether the node is a right child, from leaf `i` of `n` up to the root. -/
def sides (n i : ℕ) : List Bool :=
  if _h : 2≤n then
    if i<splitPoint n then sides (splitPoint n) i++[false]
    else sides (n - splitPoint n) (i - splitPoint n)++[true]
  else []
termination_by n
decreasing_by
  · exact splitPoint_lt _h
  · exact Nat.sub_lt (by omega) (splitPoint_pos _)

lemma sides_left {n i : ℕ} (h : 2≤n) (hi : i<splitPoint n) : sides n i=sides (splitPoint n) i++[false] := by
  rw [sides,dif_pos h,if_pos hi]

lemma sides_right {n i : ℕ} (h : 2≤n) (hi : ¬i<splitPoint n) :
    sides n i=sides (n - splitPoint n) (i - splitPoint n)++[true] := by
  rw [sides,dif_pos h,if_neg hi]

lemma sides_small {n : ℕ} (h : ¬2≤n) (i : ℕ) : sides n i=[] := by rw [sides,dif_neg h]

section
variable {A D : Type} (hash : Input A D → D) (empty : D) {xs : List A} {n i : ℕ}
structure Split (xs : List A) (n : ℕ) (l r : List A) : Prop where
  append : l++r=xs
  left : l.length=splitPoint n
  right : r.length=n - splitPoint n

lemma exists_split (hn : xs.length=n) (h : 2≤n) : ∃ l r, Split xs n l r := by
  have hlt:=splitPoint_lt h
  refine ⟨xs.take (splitPoint n),xs.drop (splitPoint n),take_append_drop _ _,?_,?_⟩
  · rw [length_take]
    omega
  · rw [length_drop,hn]

variable {hash empty} {l r : List A}
section
variable (h : Split xs n l r)
include h
lemma Split.take : xs.take (splitPoint n)=l := by rw [← h.append,← h.left,take_left]

lemma Split.drop : xs.drop (splitPoint n)=r := by rw [← h.append,← h.left,drop_left]

section
variable (hn : xs.length=n)
include hn
lemma Split.treeHash_eq (h2 : 2≤n) :
    treeHash hash empty xs=hash (.node (treeHash hash empty l) (treeHash hash empty r)) := by
  rw [treeHash,dif_pos (hn ▸ h2),hn,h.take,h.drop]

lemma Split.treeInputs_eq (h2 : 2≤n) :
    treeInputs hash empty xs=.node (treeHash hash empty l) (treeHash hash empty r) ::
      (treeInputs hash empty l++treeInputs hash empty r) := by
  rw [treeInputs,dif_pos (hn ▸ h2),hn,h.take,h.drop]

lemma Split.auditPath_left (h2 : 2≤n) (hi : i<splitPoint n) :
    auditPath hash empty xs i=auditPath hash empty l i++[treeHash hash empty r] := by
  rw [auditPath,dif_pos (hn ▸ h2),hn,if_pos hi,h.take,h.drop]

lemma Split.auditPath_right (h2 : 2≤n) (hi : ¬i<splitPoint n) :
    auditPath hash empty xs i=auditPath hash empty r (i - splitPoint n)++[treeHash hash empty l] := by
  rw [auditPath,dif_pos (hn ▸ h2),hn,if_neg hi,h.take,h.drop]
end

lemma Split.get_left (hi : i<splitPoint n) : xs[i]?=l[i]? := by
  rw [← h.append,getElem?_append_left (h.left ▸ hi)]

lemma Split.get_right (hi : ¬i<splitPoint n) : xs[i]?=r[i - splitPoint n]? := by
  rw [← h.append,← h.left,getElem?_append_right (by rw [h.left]; omega)]
end

lemma treeHash_one (a : A) : treeHash hash empty [a]=hash (.leaf a) := by
  rw [treeHash,dif_neg (by simp)]
end
section
variable {A D : Type} (hash : Input A D → D)
lemma climb_append (n : D) (ss ts : List Bool) (d rest : List D) (h : ss.length=d.length) :
    climb hash n (ss++ts) (d++rest)=climb hash (climb hash n ss d) ts rest := by
  induction ss generalizing n d with
  | nil =>
    rw [eq_nil_of_length_eq_zero h.symm]
    rfl
  | cons s ss ih =>
    cases d with
    | nil => cases h
    | cons p d => exact ih _ d (Nat.succ.inj h)

lemma climb_concat (n s : D) (r : Bool) (ss : List Bool) (p : List D) (h : ss.length=p.length) :
    climb hash n (ss++[r]) (p++[s])=hash (parent r (climb hash n ss p) s) :=
  climb_append hash n ss [r] p [s] h

lemma climbInputs_concat (n d : D) (r : Bool) (ss : List Bool) (path : List D)
    (h : ss.length=path.length) :
    climbInputs hash n (ss++[r]) (path++[d]) =
      climbInputs hash n ss path++[parent r (climb hash n ss path) d] := by
  induction ss generalizing n path with
  | nil =>
    rw [eq_nil_of_length_eq_zero h.symm]
    rfl
  | cons s ss ih =>
    cases path with
    | nil => cases h
    | cons p path =>
      simp only [cons_append,climbInputs,climb]
      rw [ih _ path (Nat.succ.inj h)]

lemma climb_replicate (node : D) (d : List D) : climb hash node (replicate d.length true) d =
      d.foldl (fun node sibling => hash (.node sibling node)) node := by
  induction d generalizing node with
  | nil => rfl
  | cons p d ih => exact ih _
end
section
variable {A D : Type} {hash : Input A D → D} {empty : D}
lemma auditPath_length (hash : Input A D → D) (empty : D) (xs : List A) (i : ℕ) :
    (auditPath hash empty xs i).length=(sides xs.length i).length := by
  induction hn : xs.length using Nat.strong_induction_on generalizing xs i with
  | _ n ih =>
    by_cases h2 : 2≤n
    · have hlt:=splitPoint_lt h2
      have hp:=splitPoint_pos n
      obtain ⟨l,r,hs⟩ := exists_split hn h2
      by_cases hi : i<splitPoint n
      · rw [hs.auditPath_left hn h2 hi,sides_left h2 hi,length_append,length_append,
          ih _ hlt _ i hs.left]
        rfl
      · rw [hs.auditPath_right hn h2 hi,sides_right h2 hi,length_append,length_append,
          ih (n - splitPoint n) (by omega) _ _ hs.right]
        rfl
    · rw [auditPath,dif_neg (hn ▸ h2),sides_small h2]
      rfl

lemma climb_auditPath {xs : List A} {i : ℕ} {a : A} (ha : xs[i]?=some a) :
    climb hash (hash (.leaf a)) (sides xs.length i) (auditPath hash empty xs i) =
      treeHash hash empty xs := by
  induction hn : xs.length using Nat.strong_induction_on generalizing xs i with
  | _ n ih =>
    obtain ⟨hi,-⟩ := List.getElem?_eq_some_iff.mp ha
    by_cases h2 : 2≤n
    · have hlt:=splitPoint_lt h2
      have hpos:=splitPoint_pos n
      obtain ⟨l,r,hs⟩ := exists_split hn h2
      by_cases hk : i<splitPoint n
      · have hp:=auditPath_length hash empty l i
        rw [hs.left] at hp
        rw [hs.auditPath_left hn h2 hk,sides_left h2 hk,climb_concat hash _ _ _ _ _ hp.symm,
          ih _ hlt (hs.get_left hk ▸ ha) hs.left,hs.treeHash_eq hn h2]
        rfl
      · have hp:=auditPath_length hash empty r (i - splitPoint n)
        rw [hs.right] at hp
        rw [hs.auditPath_right hn h2 hk,sides_right h2 hk,climb_concat hash _ _ _ _ _ hp.symm,
          ih (n - splitPoint n) (by omega) (hs.get_right hk ▸ ha) hs.right,hs.treeHash_eq hn h2]
        rfl
    · obtain ⟨b,rfl⟩ := length_eq_one_iff.mp (show xs.length=1 by omega)
      have hz : i=0 := by simpa using hi
      rw [hz] at ha
      rw [sides_small h2,treeHash_one,← Option.some.inj ha]
      rfl

lemma climb_peel {S : Set (Input A D)} (hS : Set.InjOn hash S) {right : Bool} {ss : List Bool}
    {p : List D} {n l r : D} (hl : p.length=(ss++[right]).length)
    (hn : .node l r∈S) (hp : ∀ x∈climbInputs hash n (ss++[right]) p, x∈S)
    (h : climb hash n (ss++[right]) p=hash (.node l r)) :
    ∃ be : List D, be.length=ss.length ∧ (∀ x∈climbInputs hash n ss be, x∈S) ∧
      climb hash n ss be=if right then r else l := by
  have hne : p≠[] := by
    intro hnil
    simp [hnil] at hl
  obtain ⟨be,si,rfl⟩ := eq_nil_or_concat p |>.resolve_left hne
  have hb : ss.length=be.length := by simpa using hl.symm
  rw [concat_eq_append] at hp h
  rw [climb_concat hash _ _ _ _ _ hb] at h
  rw [climbInputs_concat hash _ _ _ _ _ hb] at hp
  have heq:=hS (hp _ (by simp)) hn h
  refine ⟨be,hb.symm,fun x hx => hp x (mem_append_left _ hx),?_⟩
  cases right with
  | false => exact (Input.node.inj heq).1
  | true => exact (Input.node.inj heq).2

/-- A collision-free set of inputs that has those of the tree and of the path: only the
leaf itself leads to the tree hash, whatever the siblings. -/
lemma leaf_of_climb {S : Set (Input A D)} (hS : Set.InjOn hash S) {xs : List A} {i : ℕ}
    (hi : i<xs.length) {a : A} {p : List D} (hle : p.length=(sides xs.length i).length)
    (ht : ∀ x∈treeInputs hash empty xs, x∈S) (hl : .leaf a∈S)
    (ha : ∀ x∈climbInputs hash (hash (.leaf a)) (sides xs.length i) p, x∈S)
    (h : climb hash (hash (.leaf a)) (sides xs.length i) p=treeHash hash empty xs) :
    xs[i]?=some a := by
  induction hn : xs.length using Nat.strong_induction_on generalizing xs i p with
  | _ n ih =>
    rw [hn] at hi hle ha h
    by_cases h2 : 2≤n
    · have hlt:=splitPoint_lt h2
      have hp:=splitPoint_pos n
      obtain ⟨l,r,hs⟩ := exists_split hn h2
      rw [hs.treeInputs_eq hn h2] at ht
      rw [hs.treeHash_eq hn h2] at h
      have hnd:=ht _ (mem_cons_self ..)
      by_cases hk : i<splitPoint n
      · rw [sides_left h2 hk] at hle ha h
        obtain ⟨be,hle',ha',h'⟩ := climb_peel hS hle hnd ha h
        rw [hs.get_left hk]
        rw [← hs.left] at hle' ha' h'
        apply ih _ hlt _ hle' _ ha' h' hs.left
        · rw [hs.left]
          exact hk
        · grind
      · rw [sides_right h2 hk] at hle ha h
        obtain ⟨be,hle',ha',h'⟩ := climb_peel hS hle hnd ha h
        rw [hs.get_right hk]
        rw [← hs.right] at hle' ha' h'
        apply ih (n - splitPoint n) (by omega) _ hle' _ ha' h' hs.right
        · rw [hs.right]
          omega
        · grind
    · obtain ⟨b,rfl⟩ := length_eq_one_iff.mp (show xs.length=1 by omega)
      have hz : i=0 := by omega
      rw [treeHash_one,sides_small h2] at h
      rw [treeInputs,dif_neg (by simp)] at ht
      have hb:=hS hl (ht (.leaf b) (by simp)) h
      rw [hz,Input.leaf.inj hb]
      rfl
end

def ones (w x : ℕ) : ℕ := ((Finset.range w).filter fun j => x.testBit j).card

lemma ones_zero (w : ℕ) : ones w 0=0 := by simp [ones]

lemma ones_two_pow_add {w q y : ℕ} (hq : q<w) (hy : y<2^q) : ones w (2^q+y)=ones w y+1 := by
  have hs : (Finset.range w).filter (fun j => (2^q+y).testBit j) =
      insert q ((Finset.range w).filter fun j => y.testBit j) := by
    ext j
    simp only [Finset.mem_filter,Finset.mem_range,Finset.mem_insert]
    rcases lt_trichotomy j q with hj | hj | hj
    · simp [Nat.testBit_two_pow_add_gt hj,hj.ne]
    · rw [hj,Nat.testBit_two_pow_add_eq,Nat.testBit_lt_two_pow hy]
      simp [hq]
    · have hl : 2^q+y<2^j := by
        have hle : 2^(q+1)≤2^j := Nat.pow_le_pow_right (by omega) hj
        rw [Nat.pow_succ] at hle
        omega
      have hl' : y<2^j := by omega
      rw [Nat.testBit_lt_two_pow hl,Nat.testBit_lt_two_pow hl']
      simp [hj.ne']
  have hn : q∉(Finset.range w).filter fun j => y.testBit j := by simp [Nat.testBit_lt_two_pow hy]
  rw [ones,hs,Finset.card_insert_of_notMem hn,ones]

lemma sides_two_pow (p i : ℕ) (hi : i<2^p) : sides (2^p) i=(range p).map i.testBit := by
  induction p generalizing i with
  | zero => exact sides_small (by omega) i
  | succ p ih =>
    have hpow : 2^(p+1)=2^p+2^p := by rw [Nat.pow_succ]; omega
    have hp : 0<2^p := Nat.two_pow_pos p
    have h2 : 2≤2^(p+1) := by omega
    rw [range_succ,map_append,map_singleton]
    by_cases ho : i<2^p
    · rw [sides_left h2 (by rw [splitPoint_two_pow]; exact ho),splitPoint_two_pow,ih i ho,
        Nat.testBit_lt_two_pow ho]
    · obtain ⟨y,rfl⟩ := Nat.exists_eq_add_of_le (Nat.le_of_not_lt ho)
      have hy : y<2^p := by omega
      have hl : (range p).map (2^p+y).testBit=(range p).map y.testBit := by
        grind [map_congr_left,Nat.testBit_two_pow_add_gt]
      rw [sides_right h2 (by rw [splitPoint_two_pow]; exact ho),splitPoint_two_pow,hl,
        Nat.testBit_two_pow_add_eq,Nat.testBit_lt_two_pow hy,Nat.add_sub_cancel_left,
        show 2^(p+1) - 2^p=2^p by omega,ih y hy]
      rfl

lemma xor_two_pow_add {p y z : ℕ} (hy : y<2^p) (hz : z<2^p) : (2^p+y) ^^^ (2^p+z)=y ^^^ z := by
  apply Nat.eq_of_testBit_eq
  intro j
  rw [Nat.testBit_xor,Nat.testBit_xor]
  rcases lt_trichotomy j p with hj | hj | hj
  · rw [Nat.testBit_two_pow_add_gt hj,Nat.testBit_two_pow_add_gt hj]
  · rw [hj,Nat.testBit_two_pow_add_eq,Nat.testBit_two_pow_add_eq,Bool.not_xor_not]
  · have hle : 2^(p+1)≤2^j := Nat.pow_le_pow_right (by omega) hj
    rw [Nat.pow_succ] at hle
    rw [Nat.testBit_lt_two_pow (show 2^p+y<2^j by omega),Nat.testBit_lt_two_pow (show 2^p+z<2^j by omega),
      Nat.testBit_lt_two_pow (show y<2^j by omega),
      Nat.testBit_lt_two_pow (show z<2^j by omega)]

lemma size_xor_of_split {p y z : ℕ} (hy : y<2^p) (hz : z<2^p) : Nat.size (y ^^^ (2^p+z))=p+1 := by
  have hp : 2^(p+1)=2^p+2^p := by rw [Nat.pow_succ]; omega
  apply Nat.le_antisymm
  · rw [Nat.size_le]
    exact Nat.xor_lt_two_pow (by omega) (by omega)
  · rw [Nat.succ_le_iff,Nat.lt_size]
    apply Nat.ge_two_pow_of_testBit
    rw [Nat.testBit_xor,Nat.testBit_lt_two_pow hy,Nat.testBit_two_pow_add_eq,Nat.testBit_lt_two_pow hz]
    rfl

lemma shiftRight_two_pow_add {p q : ℕ} (hq : q≤p) (y : ℕ) : (2^p+y) >>> q=2^(p - q)+y >>> q := by
  rw [Nat.shiftRight_eq_div_pow,Nat.shiftRight_eq_div_pow,
    show 2^p=2^q*2^(p - q) by rw [← Nat.pow_add,Nat.add_sub_cancel' hq],
    Nat.mul_add_div (Nat.two_pow_pos q)]

/-- The inner and border steps of leaf `i` of `n`: below the highest bit in which `i` and
the last index differ the sides are bits of `i`; above it, only its ones count. -/
lemma sides_eq {w n i : ℕ} (hn : n≤2^w) (hi : i<n) :
    sides n i=(range (Nat.size (i ^^^ (n - 1)))).map i.testBit ++
      replicate (ones w (i >>> Nat.size (i ^^^ (n - 1)))) true := by
  induction n using Nat.strong_induction_on generalizing i with
  | _ n ih =>
    by_cases h2 : 2≤n
    · have hlt:=splitPoint_lt h2
      have hle:=le_two_mul_splitPoint n
      obtain ⟨p,hp⟩ : ∃ p, splitPoint n=2^p := ⟨_,rfl⟩
      have hpw : p<w := (Nat.pow_lt_pow_iff_right (by omega)).mp (show 2^p<2^w by omega)
      obtain ⟨m,rfl⟩ := Nat.exists_eq_add_of_le (show 2^p≤n by omega)
      rw [hp] at hlt hle
      by_cases hk : i<2^p
      · -- the left subtree is full, and `i` and the last index first differ at bit `p`
        have hsz : Nat.size (i ^^^ (2^p+m - 1))=p+1 := by
          rw [Nat.add_sub_assoc (by omega)]
          exact size_xor_of_split hk (by omega)
        have hz : i >>> (p+1)=0 := by
          rw [Nat.shiftRight_eq_div_pow]
          exact Nat.div_eq_of_lt (by rw [Nat.pow_succ]; omega)
        rw [sides_left h2 (by rw [hp]; exact hk),hp,sides_two_pow p i hk,hsz,hz,ones_zero,
          range_succ,map_append,map_singleton,Nat.testBit_lt_two_pow hk,
          replicate_zero,append_nil]
      · obtain ⟨y,rfl⟩ := Nat.exists_eq_add_of_le (Nat.le_of_not_lt hk)
        have hy : y<2^p := by omega
        have hm : m - 1<2^p := by omega
        have hx : (2^p+y) ^^^ (2^p+m - 1)=y ^^^ (m - 1) := by
          rw [Nat.add_sub_assoc (by omega)]
          exact xor_two_pow_add hy hm
        have hq : Nat.size (y ^^^ (m - 1))≤p := Nat.size_le.mpr (Nat.xor_lt_two_pow hy hm)
        have hs : y >>> Nat.size (y ^^^ (m - 1))<2^(p - Nat.size (y ^^^ (m - 1))) := by
          rw [Nat.shiftRight_eq_div_pow,Nat.div_lt_iff_lt_mul (Nat.two_pow_pos _),← Nat.pow_add,
            Nat.sub_add_cancel hq]
          exact hy
        have hb : (range (Nat.size (y ^^^ (m - 1)))).map (2^p+y).testBit =
            (range (Nat.size (y ^^^ (m - 1)))).map y.testBit := by
          apply map_congr_left
          intro j hj
          exact Nat.testBit_two_pow_add_gt (Nat.lt_of_lt_of_le (mem_range.mp hj) hq) y
        rw [sides_right h2 (by rw [hp]; exact hk),hp,Nat.add_sub_cancel_left,Nat.add_sub_cancel_left,
          ih m (by omega) (by omega) (by omega),hx,hb,shiftRight_two_pow_add hq,
          ones_two_pow_add (by omega) hs,replicate_succ',append_assoc]
    · have ho : n=1 := by omega
      have hz : i=0 := by omega
      rw [sides_small h2,ho,hz]
      simp [ones_zero]
end NilVpn.Base.Merkle
