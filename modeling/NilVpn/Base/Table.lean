import Mathlib.Data.List.Nodup
import Mathlib.Data.List.Perm.Basic

/-!
# Finite tables

A hash map as its users see it: a finite list of entries with pairwise distinct keys.
The order of the entries is the iteration order, which no result below depends on.
-/

namespace NilVpn.Base
open Option List

variable {K V W : Type}
/-- A finite map: entries with pairwise distinct keys. -/
structure Table (K V : Type) where
  entries : List (K × V)
  nodup : (entries.map Prod.fst).Nodup

namespace Table
def empty : Table K V := ⟨[],List.nodup_nil⟩

instance : Inhabited (Table K V) := ⟨empty⟩

def len (t : Table K V) : ℕ := t.entries.length

section
variable [DecidableEq K]
def lookup (k : K) : List (K × V) → Option V
  | [] => none
  | e::es => if e.1=k then some e.2 else lookup k es

def get (t : Table K V) (k : K) : Option V := lookup k t.entries
def contains (t : Table K V) (k : K) : Bool := (t.get k).isSome

lemma lookup_mem (k : K) (v : V) (es : List (K × V)) (h : lookup k es=some v) : (k,v)∈es := by
  induction es with
  | nil => simp [lookup] at h
  | cons e es ih => grind [lookup,mem_cons_self,mem_cons_of_mem]

lemma lookup_of_mem (k : K) (v : V) (es : List (K × V)) (hn : (es.map Prod.fst).Nodup)
    (h : (k,v)∈es) : lookup k es=some v := by
  induction es with
  | nil => simp at h
  | cons e es ih =>
    simp only [map_cons,nodup_cons] at hn
    simp only [lookup]
    rcases mem_cons.mp h with h | h
    · rw [← h]
      simp
    · grind

lemma lookup_eq_none (k : K) (es : List (K × V)) : lookup k es=none ↔ k∉es.map Prod.fst := by
  induction es with
  | nil => simp [lookup]
  | cons e es ih =>
    by_cases hk : e.1=k
    · simp [lookup,hk]
    · simp only [lookup,hk,if_false,ih,map_cons,mem_cons,not_or]
      exact ⟨fun h => ⟨fun he => hk he.symm,h⟩,fun h => h.2⟩

lemma get_eq_some (t : Table K V) (k : K) (v : V) : t.get k=some v ↔ (k,v)∈t.entries :=
  ⟨lookup_mem k v t.entries,lookup_of_mem k v t.entries t.nodup⟩

lemma get_eq_none (t : Table K V) (k : K) : t.get k=none ↔ k∉t.entries.map Prod.fst :=
  lookup_eq_none k t.entries

@[simp] lemma get_empty (k : K) : (empty : Table K V).get k=none := rfl

lemma option_eq_of_some_iff {a b : Option V} (h : ∀ v, a=some v ↔ b=some v) : a=b :=
  Option.ext fun v => by simpa using h v
end
section
variable [DecidableEq K]
def erase (t : Table K V) (k : K) : Table K V :=
  ⟨t.entries.filter fun e => e.1≠k,t.nodup.sublist (List.filter_sublist.map Prod.fst)⟩

variable (t : Table K V)
lemma get_erase (k j : K) : (t.erase k).get j=if j=k then none else t.get j := by
  apply option_eq_of_some_iff
  intro v
  rw [get_eq_some]
  by_cases hj : j=k
  · simp [erase,hj]
  · simp [erase,hj,← get_eq_some]

def insert (t : Table K V) (k : K) (v : V) : Table K V :=
  ⟨(k,v)::(t.erase k).entries,by
    simp only [List.map_cons,List.nodup_cons]
    exact ⟨by simp [erase],(t.erase k).nodup⟩⟩

lemma get_insert (k j : K) (v : V) : (t.insert k v).get j=if j=k then some v else t.get j := by
  by_cases hj : j=k
  · simp [insert,get,lookup,hj]
  · have hkj : k≠j := fun h => hj h.symm
    have h:=get_erase t k j
    rw [if_neg hj] at h
    simp only [insert,get,lookup,if_neg hkj,if_neg hj]
    exact h

variable (k : K)
@[simp] lemma get_insert_self (v : V) : (t.insert k v).get k=some v := by
  rw [get_insert,if_pos rfl]

lemma get_insert_ne (k j : K) (v : V) (h : j≠k) : (t.insert k v).get j=t.get j := by
  rw [get_insert,if_neg h]

lemma forall_insert {P : K → V → Prop} {t : Table K V} (h : ∀ k v, t.get k=some v → P k v) {k : K}
    {v : V} (hv : P k v) : ∀ j w, (t.insert k v).get j=some w → P j w := by
  intro j w hw
  by_cases hj : j=k
  · simp_all
  · rw [get_insert_ne _ _ _ _ hj] at hw
    exact h j w hw

lemma exists_insert {P : V → Prop} {t : Table K V} {j : K} {w : V} (hj : t.get j=some w) (hw : P w)
    {k : K} {v : V} (hv : j=k → P v) : ∃ x, (t.insert k v).get j=some x ∧ P x := by
  by_cases hk : j=k
  · exact ⟨v,hk ▸ get_insert_self ..,hv hk⟩
  · exact ⟨w,(get_insert_ne _ _ _ _ hk).trans hj,hw⟩

lemma get_insert_ne_none {t : Table K V} {j : K} (hj : t.get j≠none) (k : K) (v : V) :
    (t.insert k v).get j≠none := by
  rw [get_insert]
  split
  · exact some_ne_none v
  · exact hj

lemma erase_entries_of_absent (h : t.get k=none) : (t.erase k).entries=t.entries := by
  simp only [erase,filter_eq_self,decide_eq_true_eq]
  intro e he hk
  exact (get_eq_none t k).mp h (hk ▸ List.mem_map_of_mem (f := Prod.fst) he)

lemma len_insert_of_absent (v : V) (h : t.get k=none) : (t.insert k v).len=t.len+1 := by
  simp only [len,insert,length_cons,erase_entries_of_absent t k h]

lemma len_erase_of_present (h : t.get k≠none) : (t.erase k).len+1=t.len := by
  have hm : k∈t.entries.map Prod.fst := by
    by_contra hk
    exact h ((get_eq_none t k).mpr hk)
  have hks : (t.erase k).entries.map Prod.fst=(t.entries.map Prod.fst).erase k := by
    rw [t.nodup.erase_eq_filter,List.filter_map]
    simp only [erase,ne_eq,decide_not,Function.comp_def]
    rfl
  have hl:=congrArg List.length hks
  have hp:=length_pos_of_mem hm
  rw [length_erase_of_mem hm,length_map] at hl
  rw [length_map] at hl hp
  simp only [len]
  omega

lemma len_insert_of_present (v : V) (h : t.get k≠none) : (t.insert k v).len=t.len :=
  len_erase_of_present t k h

/-- `HashMap::entry(k).or_insert(v)`: keep what is there. -/
def orInsert (t : Table K V) (k : K) (v : V) : Table K V :=
  match t.get k with
  | some _ => t
  | none => t.insert k v

lemma get_orInsert (k j : K) (v : V) :
    (t.orInsert k v).get j=if j=k then some ((t.get k).getD v) else t.get j := by
  unfold orInsert
  cases hk : t.get k with
  | some w =>
    by_cases hj : j=k
    · simp [hj,hk]
    · simp [hj]
  | none => simp [get_insert]

lemma get_orInsert_of_some (k j : K) (v w : V) (h : t.get j=some w) : (t.orInsert k v).get j=some w := by
  grind [get_orInsert]
end

def mapVal (t : Table K V) (f : V → W) : Table K W :=
  ⟨t.entries.map fun e => (e.1,f e.2),by
    rw [List.map_map]
    exact t.nodup⟩

def retain (t : Table K V) (p : K → V → Bool) : Table K V :=
  ⟨t.entries.filter fun e => p e.1 e.2,t.nodup.sublist (List.filter_sublist.map Prod.fst)⟩

lemma retain_eq_self {t : Table K V} {p : K → V → Bool} (h : t.len - (t.retain p).len=0) :
    t.retain p=t := by
  have hle:=length_filter_le (fun e : K × V => p e.1 e.2) t.entries
  have hl : (t.entries.filter fun e => p e.1 e.2).length=t.entries.length := by
    simp only [len,retain] at h
    omega
  obtain ⟨entries,nodup⟩ := t
  simp only [retain,mk.injEq]
  exact filter_eq_self.mpr (length_filter_eq_length_iff.mp hl)

def countVal [DecidableEq V] (t : Table K V) (v : V) : ℕ := t.entries.countP fun e => e.2=v

lemma countVal_retain_le [DecidableEq V] (t : Table K V) (p : K → V → Bool) (v : V) :
    (t.retain p).countVal v≤t.countVal v :=
  filter_sublist.countP_le

section
variable [DecidableEq K]
lemma lookup_map (f : V → W) (k : K) (es : List (K × V)) :
    lookup k (es.map fun e => (e.1,f e.2))=(lookup k es).map f := by
  induction es with
  | nil => rfl
  | cons e es ih =>
    by_cases hk : e.1=k
    · simp [lookup,hk]
    · simpa [lookup,hk] using ih

variable (t : Table K V)
lemma get_mapVal (f : V → W) (k : K) : (t.mapVal f).get k=(t.get k).map f :=
  lookup_map f k t.entries

lemma get_retain (p : K → V → Bool) (k : K) : (t.retain p).get k=(t.get k).filter (p k) := by
  apply option_eq_of_some_iff
  intro v
  rw [get_eq_some,filter_eq_some_iff,get_eq_some]
  simp [retain]

lemma countVal_eq_zero [DecidableEq V] {t : Table K V} {v : V} (h : ∀ k, t.get k≠some v) :
    t.countVal v=0 := by
  rw [countVal,countP_eq_zero]
  intro e he hv
  exact h e.1 ((get_eq_some t e.1 v).mpr (of_decide_eq_true hv ▸ he))

lemma countVal_insert_le [DecidableEq V] (k : K) (v w : V) :
    (t.insert k v).countVal w≤t.countVal w+if v=w then 1 else 0 := by
  have hs : (t.erase k).entries.countP (fun e => e.2=w)≤t.entries.countP fun e => e.2=w :=
    filter_sublist.countP_le
  simp only [countVal,insert,countP_cons,decide_eq_true_eq]
  omega

def modify (t : Table K V) (k : K) (f : V → V) : Table K V :=
  ⟨t.entries.map fun e => (e.1,if e.1=k then f e.2 else e.2),by
    rw [List.map_map]
    exact t.nodup⟩

lemma lookup_modify (k j : K) (f : V → V) (es : List (K × V)) :
    lookup j (es.map fun e => (e.1,if e.1=k then f e.2 else e.2)) =
      if j=k then (lookup j es).map f else lookup j es := by
  induction es with
  | nil => simp [lookup]
  | cons e es ih => grind [lookup]

lemma get_modify (k j : K) (f : V → V) : (t.modify k f).get j=if j=k then (t.get j).map f else t.get j :=
  lookup_modify k j f t.entries

lemma modify_eq_self (k : K) (f : V → V) (v : V) (hv : t.get k=some v) (hf : f v=v) : t.modify k f=t := by
  obtain ⟨es,hn⟩ := t
  have hm : es.map (fun e => (e.1,if e.1=k then f e.2 else e.2))=es := by
    refine (map_congr_left ?_).trans (List.map_id es)
    intro e he
    by_cases hk : e.1=k
    · have hev : e.2=v := by
        have := lookup_of_mem e.1 e.2 es hn he
        rw [hk] at this
        exact Option.some.inj (this.symm.trans hv)
      rw [if_pos hk,hev,hf,← hev]
      rfl
    · rw [if_neg hk]
      rfl
  simp only [modify,hm]

def orInsertAll (t : Table K V) (es : List (K × V)) : Table K V :=
  es.foldl (fun t e => t.orInsert e.1 e.2) t

variable (es : List (K × V))
lemma get_orInsertAll_of_some (k : K) (v : V) (h : t.get k=some v) : (t.orInsertAll es).get k=some v := by
  induction es generalizing t with
  | nil => exact h
  | cons e es ih => exact ih (t.orInsert e.1 e.2) (get_orInsert_of_some t e.1 k e.2 v h)

lemma get_orInsertAll (k : K) : (t.orInsertAll es).get k=(t.get k).or (lookup k es) := by
  induction es generalizing t with
  | nil => simp [orInsertAll,lookup]
  | cons e es ih =>
    show ((t.orInsert e.1 e.2).orInsertAll es).get k=_
    rw [ih,get_orInsert]
    by_cases hk : k=e.1
    · rw [if_pos hk,hk]
      cases t.get e.1 <;> simp [lookup]
    · grind [lookup]

def insertAll (t : Table K V) (es : List (K × V)) : Table K V :=
  es.foldl (fun t e => t.insert e.1 e.2) t

lemma get_insertAll (hn : (es.map Prod.fst).Nodup) (k : K) :
    (t.insertAll es).get k=(lookup k es).or (t.get k) := by
  induction es generalizing t with
  | nil => rfl
  | cons e es ih =>
    obtain ⟨hnot,hn⟩ := nodup_cons.mp hn
    show ((t.insert e.1 e.2).insertAll es).get k=_
    rw [ih _ hn]
    by_cases hk : e.1=k
    · rw [← hk,(lookup_eq_none e.1 es).mpr hnot,get_insert_self]
      simp [lookup]
    · rw [get_insert_ne _ _ _ _ (Ne.symm hk)]
      simp [lookup,hk]

lemma lookup_perm {es : List (K × V)} (h : es.Perm t.entries) (k : K) : lookup k es=t.get k := by
  have hn : (es.map Prod.fst).Nodup := (h.map Prod.fst).nodup_iff.mpr t.nodup
  apply option_eq_of_some_iff
  intro v
  rw [get_eq_some]
  constructor
  · intro hv
    exact h.mem_iff.mp (lookup_mem k v _ hv)
  · intro hv
    exact lookup_of_mem k v _ hn (h.mem_iff.mpr hv)

lemma get_insertAll_perm {es : List (K × V)} (h : es.Perm t.entries) (k : K) :
    ((empty : Table K V).insertAll es).get k=t.get k := by
  have hn : (es.map Prod.fst).Nodup := (h.map Prod.fst).nodup_iff.mpr t.nodup
  rw [get_insertAll _ _ hn,lookup_perm t h,get_empty,or_none]

def keysAdded (t t' : Table K V) : List K := (t'.entries.map Prod.fst).filter fun k => (t.get k).isNone

lemma keysAdded_self : t.keysAdded t=[] := by
  simp [keysAdded,filter_eq_nil_iff,get_eq_none]

lemma mem_keysAdded {t t' : Table K V} {k : K} : k∈t.keysAdded t' ↔ t'.get k≠none ∧ t.get k=none := by
  rw [keysAdded,mem_filter,ne_eq,get_eq_none t' k,not_not,isNone_iff_eq_none]

lemma mem_keysAdded_insert {t : Table K V} {k j : K} {v : V} (h : j∈t.keysAdded (t.insert k v)) : j=k := by
  obtain ⟨hm,hn⟩ := mem_keysAdded.mp h
  by_contra hne
  rw [get_insert_ne _ _ _ _ hne] at hm
  exact hm hn
end
end Table
end NilVpn.Base
