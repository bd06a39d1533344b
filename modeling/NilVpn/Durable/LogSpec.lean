import NilVpn.Base.Replace
import NilVpn.Durable.Log

/-!
# Record formats, and what a durable set keeps at every call

`K` is a set of entries that must not be lost. `Retains K` says it of a file: the
complete lines load, if they load at all, into a table with the entries of `K`.
-/

namespace NilVpn.Durable
open Base List Table
open Program (sys Safe)

section
variable {N V : Type}
structure Format.Lawful (F : Format V) : Prop where
  record_line : ∀ k x, F.accepts k=true → newline∉F.record k x
  record_utf8 : ∀ k x, F.accepts k=true → isUtf8 k=true → isUtf8 (F.record k x)=true
  parse_record : ∀ k x, F.accepts k=true → F.parse (F.record k x)=.ok (k,x)
  parse_accepts : ∀ line k x, newline∉line → isUtf8 line=true → F.parse line=.ok (k,x) →
    F.accepts k=true ∧ isUtf8 k=true

lemma setFormat_accepts (k : Bytes) :
    setFormat.accepts k=true ↔ k≠[] ∧ newline∉k := by
  simp [setFormat]

lemma setFormat_lawful : setFormat.Lawful := by
  refine ⟨?_,fun _ _ _ hu => hu,?_,?_⟩
  · intro k _ hk
    exact ((setFormat_accepts k).mp hk).2
  · intro k _ hk
    have hne:=((setFormat_accepts k).mp hk).1
    simp [setFormat,hne]
  · grind [setFormat]

lemma timedFormat_accepts (k : Bytes) : timedFormat.accepts k=true ↔ k≠[] ∧ newline∉k ∧ space∉k := by
  simp [timedFormat,and_assoc]

lemma decimal_noByte (n : ℕ) {b : UInt8} (hb : isDigit b=false) : b∉decimal n := by
  intro hm
  have hd:=decimal_digits n b hm
  rw [hb] at hd
  cases hd

lemma isUtf8_decimal (n : ℕ) : isUtf8 (decimal n) := by
  refine isUtf8_ascii _ (isAscii_lowerHex _ ?_)
  intro b hb
  exact isLowerHex_of_isDigit b (decimal_digits n b hb)

lemma timedFormat_lawful : timedFormat.Lawful := by
  refine ⟨?_,?_,?_,?_⟩
  · intro k x hk hmem
    obtain ⟨-,hnl,-⟩ := (timedFormat_accepts k).mp hk
    rcases mem_append.mp hmem with hmem | hmem
    · exact hnl hmem
    · rcases mem_cons.mp hmem with he | hmem
      · exact absurd he (by decide)
      · exact decimal_noByte _ (by decide) hmem
  · intro k x _ hu
    have hsc : isUtf8 [space] := by decide
    have ht:=isUtf8_append [space] _ hsc (isUtf8_decimal x.toNat)
    exact isUtf8_append k _ hu ht
  · intro k x hk
    obtain ⟨hne,-,hsp⟩ := (timedFormat_accepts k).mp hk
    have hs:=splitOnce_append space k (decimal x.toNat) hsp
    have hd : space∉decimal x.toNat := decimal_noByte _ (by decide)
    have hp:=parseUnsigned_decimal (2^64) x.toNat x.toNat_lt
    simp only [timedFormat,hs]
    simp [hne,hd,hp]
  · intro line k x hl hu h
    simp only [timedFormat] at h
    split at h
    · cases h
    next key te hs =>
      obtain ⟨hsh,hsp⟩ := splitOnce_eq_some _ _ _ _ hs
      split at h
      · cases h
      next hne =>
        split at h
        · cases h
        · cases h
          rw [hsh] at hl hu
          have hn : k≠[] := by
            intro hk
            simp [hk] at hne
          have hnl : newline∉k := fun hm => hl (mem_append_left _ hm)
          exact ⟨(timedFormat_accepts k).mpr ⟨hn,hnl,hsp⟩,(isUtf8_cut k te (by decide) hu).1⟩

lemma completeRecords_eq_ok {display : String} {c : Bytes} {ls : List Bytes} :
    completeRecords display c=.ok ls ↔ isUtf8 c=true ∧ Terminated c ∧ ls=(splitLines c).1 := by
  unfold completeRecords
  cases hu : isUtf8 c with
  | false => simp
  | true =>
    by_cases hn : c=[]
    · subst hn
      simp [terminated_nil,splitLines,eq_comm]
    · by_cases hl : c.getLast?=some newline
      · simp [hn,hl,splitOn_dropLast,eq_comm,terminated_iff]
      · grind [terminated_iff]

def AllAccepted (F : Format V) (t : Table Bytes V) : Prop :=
  ∀ k x, t.get k=some x → F.accepts k=true ∧ isUtf8 k=true

section
variable [DecidableEq V] {F : Format V} {display : String}
variable {ix : ℕ} {t t' : Table Bytes V} {ls : List Bytes}
lemma loadRecords_cons {line : Bytes} {records : List Bytes}
    (h : loadRecords F display ix (line::records) t=.ok t') :
    ∃ k x, F.parse line=.ok (k,x) ∧ (∀ y, t.get k=some y → y=x) ∧
      loadRecords F display (ix+1) records (t.insert k x)=.ok t' := by
  simp only [loadRecords] at h
  split at h
  · cases h
  next k x hp => grind

lemma loadRecords_append (ix : ℕ) (xs ys : List Bytes) (t : Table Bytes V) :
    loadRecords F display ix (xs++ys) t =
      (loadRecords F display ix xs t).bind (loadRecords F display (ix+xs.length) ys) := by
  induction xs generalizing ix t with
  | nil => rfl
  | cons l xs ih =>
    have hl : ix+1+xs.length=ix+(l::xs).length := by
      simp only [length_cons]
      omega
    simp only [cons_append,loadRecords,ih,hl]
    split
    · rfl
    · split
      · rfl
      · split <;> rfl

lemma loadRecords_keeps (h : loadRecords F display ix ls t=.ok t') {k : Bytes} {x : V}
    (hk : t.get k=some x) :
    t'.get k=some x := by
  induction ls generalizing ix t with
  | nil =>
    cases h
    exact hk
  | cons l ls ih =>
    obtain ⟨j,y,-,hs,hr⟩ := loadRecords_cons h
    refine ih hr ?_
    rw [get_insert]
    split
    next hj =>
      rw [hj] at hk
      rw [hs x hk]
    · exact hk

lemma loadRecords_accepted (hF : F.Lawful) (hl : ∀ l∈ls, newline∉l ∧ isUtf8 l)
    (ht : AllAccepted F t) (h : loadRecords F display ix ls t=.ok t') : AllAccepted F t' := by
  induction ls generalizing ix t with
  | nil =>
    cases h
    exact ht
  | cons l ls ih =>
    obtain ⟨j,y,hp,-,hr⟩ := loadRecords_cons h
    obtain ⟨hnl,hu⟩ := hl l (mem_cons_self ..)
    have hj:=hF.parse_accepts l j y hnl hu hp
    refine ih (fun m hm => hl m (mem_cons_of_mem _ hm)) ?_ hr
    intro k x hk
    rw [get_insert] at hk
    split at hk
    next hkj =>
      rw [hkj]
      exact hj
    · exact ht k x hk

lemma loadRecords_snoc (hF : F.Lawful) {k : Bytes} {x : V} (hk : F.accepts k)
    (h : loadRecords F display ix (ls++[F.record k x]) t=.ok t') : t'.get k=some x := by
  rw [loadRecords_append] at h
  obtain ⟨t1,-,h1⟩ := except_bind_ok h
  obtain ⟨j,y,hp,-,hr⟩ := loadRecords_cons h1
  rw [hF.parse_record k x hk] at hp
  cases hp
  exact loadRecords_keeps hr (get_insert_self ..)

lemma loadRecords_records (hF : F.Lawful) (display : String) (ix : ℕ) (es : List (Bytes × V))
    (t : Table Bytes V)
    (hs : ∀ e∈es, F.accepts e.1) (hn : (es.map Prod.fst).Nodup)
    (hw : ∀ e∈es, t.get e.1=none) :
    ∃ t', loadRecords F display ix (es.map fun e => F.record e.1 e.2) t=.ok t' ∧
      ∀ k, t'.get k=(Table.lookup k es).or (t.get k) := by
  induction es generalizing ix t with
  | nil => exact ⟨t,rfl,fun _ => rfl⟩
  | cons e es ih =>
    have hp:=hF.parse_record e.1 e.2 (hs e (mem_cons_self ..))
    have ha:=hw e (mem_cons_self ..)
    obtain ⟨hh,ht⟩ := nodup_cons.mp hn
    have hw' : ∀ e'∈es, (t.insert e.1 e.2).get e'.1=none := by grind [get_insert_ne]
    obtain ⟨t',hl,hg⟩ := ih (ix+1) (t.insert e.1 e.2)
      (fun e' he' => hs e' (mem_cons_of_mem _ he')) ht hw'
    refine ⟨t',?_,?_⟩
    · simp only [map_cons,loadRecords,hp,ha]
      exact hl
    · grind [get_insert,Table.lookup,lookup_eq_none]
end
end

section
variable {N V : Type} [DecidableEq V] (F : Format V) (path : LogPath N)
def loadLog (c : Bytes) : Except IoError (Table Bytes V) :=
  loadRecords F path.display 0 (splitLines c).1 Table.empty

def Retains (K : Bytes → V → Prop) (o : Option Bytes) : Prop :=
  ∀ k x, K k x → ∃ c, o=some c ∧ ∀ t, loadLog F path c=.ok t → t.get k=some x

structure Mirrors (c : Bytes) (seen : Table Bytes V) : Prop where
  utf8 : isUtf8 c=true
  terminated : Terminated c
  loads : ∃ t, loadLog F path c=.ok t ∧ ∀ k, t.get k=seen.get k

def Extended (K : Bytes → V → Prop) (key : Bytes) (value : V) (k : Bytes) (x : V) : Prop :=
  K k x ∨ (k=key ∧ x=value)

def image (es : List (Bytes × V)) : Bytes := joinLines (es.map fun e => F.record e.1 e.2)

variable {F path} {K : Bytes → V → Prop}
lemma Retains.mono {K' : Bytes → V → Prop} {o : Option Bytes} (h : Retains F path K o)
    (hK : ∀ k x, K' k x → K k x) : Retains F path K' o :=
  fun k x hk => h k x (hK k x hk)

lemma Retains.of_none (h : Retains F path K none) (o : Option Bytes) : Retains F path K o := by
  intro k x hk
  obtain ⟨c,hc,-⟩ := h k x hk
  cases hc

variable {c : Bytes} {seen : Table Bytes V}
lemma Retains.loaded (h : Retains F path K (some c)) {t : Table Bytes V}
    (ht : loadLog F path c=.ok t) {k : Bytes} {x : V} (hk : K k x) : t.get k=some x := by
  obtain ⟨c',hc',hg⟩ := h k x hk
  cases hc'
  exact hg t ht

lemma Retains.append (h : Retains F path K (some c)) (hc : Terminated c) (x : Bytes) :
    Retains F path K (some (c++x)) := by
  intro k y hk
  refine ⟨c++x,rfl,?_⟩
  intro t ht
  rw [loadLog,splitLines_append c x hc,loadRecords_append] at ht
  obtain ⟨t0,h0,ht⟩ := except_bind_ok ht
  exact loadRecords_keeps ht (h.loaded h0 hk)

lemma splitLines_snoc {line : Bytes} (hc : Terminated c) (hl : newline∉line) :
    splitLines (c++(line++[newline]))=((splitLines c).1++[line],[]) := by
  rw [splitLines_append c _ hc,splitLines_line line [] hl]
  rfl

lemma terminated_snoc {line : Bytes} (hc : Terminated c) (hl : newline∉line) :
    Terminated (c++(line++[newline])) := by
  rw [Terminated,splitLines_snoc hc hl]

lemma Retains.snoc (hF : F.Lawful) (h : Retains F path K (some c)) (hc : Terminated c)
    {key : Bytes} (v : V) (hy : F.accepts key) :
    Retains F path (Extended K key v) (some (c++(F.record key v++[newline]))) := by
  rintro k x (hk | ⟨rfl,rfl⟩)
  · exact h.append hc _ k x hk
  · refine ⟨_,rfl,?_⟩
    intro t ht
    rw [loadLog,splitLines_snoc hc (hF.record_line k x hy)] at ht
    exact loadRecords_snoc hF hy ht

lemma Mirrors.snoc (hF : F.Lawful) (h : Mirrors F path c seen) {key : Bytes} (v : V)
    (hk : F.accepts key) (hu : isUtf8 key) (hw : seen.get key=none) :
    Mirrors F path (c++(F.record key v++[newline])) (seen.insert key v) := by
  obtain ⟨t,ht,hg⟩ := h.loads
  have hl:=hF.record_line key v hk
  have hr : isUtf8 (F.record key v++[newline]) :=
    isUtf8_append _ _ (hF.record_utf8 key v hk hu) (by decide)
  refine ⟨isUtf8_append _ _ h.utf8 hr,terminated_snoc h.terminated hl,t.insert key v,?_,?_⟩
  · have hn : t.get key=none := (hg key).trans hw
    rw [loadLog] at ht
    rw [loadLog,splitLines_snoc h.terminated hl,loadRecords_append,ht]
    simp only [Except.bind,loadRecords,hF.parse_record key v hk,hn]
  · intro k
    rw [get_insert,get_insert,hg]

omit [DecidableEq V] in
lemma splitLines_image (hF : F.Lawful) {es : List (Bytes × V)} (hes : ∀ e∈es, F.accepts e.1) :
    splitLines (image F es)=(es.map fun e => F.record e.1 e.2,[]) := by
  have hl : ∀ l∈es.map (fun e => F.record e.1 e.2), newline∉l := by grind [mem_map.mp,hF.record_line]
  have h:=splitLines_joinLines _ [] hl not_mem_nil
  rw [append_nil] at h
  exact h

omit [DecidableEq V] in
lemma isUtf8_image (hF : F.Lawful) {es : List (Bytes × V)}
    (hs : ∀ e∈es, F.accepts e.1 ∧ isUtf8 e.1) : isUtf8 (image F es) := by
  induction es with
  | nil => rfl
  | cons e es ih =>
    obtain ⟨ha,hu⟩ := hs e (mem_cons_self ..)
    have hr:=ih fun e' he' => hs e' (mem_cons_of_mem _ he')
    have hl:=isUtf8_append _ _ (hF.record_utf8 e.1 e.2 ha hu) (show isUtf8 [newline]=true by decide)
    have hc : image F (e::es)=(F.record e.1 e.2++[newline])++image F es := by simp [image,joinLines]
    rw [hc]
    exact isUtf8_append _ _ hl hr

lemma mirrors_image (hF : F.Lawful) (ha : AllAccepted F seen) :
    Mirrors F path (image F seen.entries) seen := by
  have hes : ∀ e∈seen.entries, F.accepts e.1 ∧ isUtf8 e.1 := by
    intro e he
    exact ha e.1 e.2 ((get_eq_some ..).mpr he)
  have hs:=splitLines_image hF fun e he => (hes e he).1
  refine ⟨isUtf8_image hF hes,by rw [Terminated,hs],?_⟩
  obtain ⟨t,hl,hg⟩ := loadRecords_records hF path.display 0 seen.entries empty
    (fun e he => (hes e he).1) seen.nodup (fun _ _ => rfl)
  refine ⟨t,by rw [loadLog,hs,hl],?_⟩
  intro k
  rw [hg,get_empty,Option.or_none]
  rfl

lemma Mirrors.retains (h : Mirrors F path c seen) (hK : ∀ k x, K k x → seen.get k=some x) :
    Retains F path K (some c) := by
  obtain ⟨t,ht,hg⟩ := h.loads
  intro k x hk
  refine ⟨c,rfl,?_⟩
  intro t' ht'
  rw [ht] at ht'
  cases ht'
  rw [hg]
  exact hK k x hk
end
section
variable {N V : Type} (F : Format V) (path : LogPath N)
/-- What a set in memory has in common with the volume. A handle is only ever held on
an inode whose name no crash can take back. -/
structure Live (K : Bytes → V → Prop) (s : KeySet N V) (v : Volume N) : Prop where
  path_eq : s.path=some path
  accepted : AllAccepted F s.seen
  retains : ∀ k x, K k x → s.seen.get k=some x
  handle : ∀ fd, s.file=some fd → v.Settled path.file fd ∧ Terminated (v.file fd).current

variable {F path} {K : Bytes → V → Prop} {v : Volume N}
lemma settled_current {n : N} {i : ℕ} (h : v.Settled n i) : v.dir.current n=some i :=
  h _ v.dir.current_mem

variable {s : KeySet N V} {key : Bytes}
lemma Live.mono {K' : Bytes → V → Prop} (h : Live F path K s v) (hK : ∀ k x, K' k x → K k x) :
    Live F path K' s v :=
  ⟨h.path_eq,h.accepted,fun k x hk => h.retains k x (hK k x hk),h.handle⟩

lemma Live.close (h : Live F path K s v) (v' : Volume N) : Live F path K {s with file := none} v' :=
  ⟨h.path_eq,h.accepted,h.retains,nofun⟩

lemma AllAccepted.insert {t : Table Bytes V} (h : AllAccepted F t) (v : V)
    (hy : F.accepts key) (hu : isUtf8 key) :
    AllAccepted F (t.insert key v) := by
  intro k x hk
  rw [get_insert] at hk
  split at hk
  next he =>
    rw [he]
    exact ⟨hy,hu⟩
  · exact h k x hk

lemma AllAccepted.retain {t : Table Bytes V} (h : AllAccepted F t) (p : Bytes → V → Bool) :
    AllAccepted F (t.retain p) := by
  intro k x hk
  rw [get_retain,Option.filter_eq_some_iff] at hk
  exact h k x hk.1

variable [DecidableEq V]
variable (F path) in
abbrev Inv (K : Bytes → V → Prop) (v : Volume N) : Prop :=
  Guarded path.file path.compactTmp (Retains F path K) v

lemma inv_of_scratch (h : v.Scratch path.compactTmp path.file) (hK : ∀ k x, ¬K k x) : Inv F path K v := by
  refine ⟨?_,h⟩
  intro d _
  cases hd : d path.file with
  | none => exact fun k x hk => absurd hk (hK k x)
  | some i => exact fun _ _ k x hk => absurd hk (hK k x)

variable (F path) in
def Exact (s : KeySet N V) (v : Volume N) : Prop :=
  ∃ fd, s.file=some fd ∧ v.dir.current path.file=some fd ∧ Mirrors F path (v.file fd).current s.seen

def grown (K : Bytes → V → Prop) (key : Bytes) (value : V) : Except IoError TimedInsert → Bytes → V → Prop
  | .ok .inserted => Extended K key value
  | _ => K

omit [DecidableEq V] in
lemma grown_of_ne (K : Bytes → V → Prop) (key : Bytes) (v : V) {r : Except IoError TimedInsert}
    (hr : r≠.ok .inserted) : grown K key v r=K := by
  unfold grown
  split
  · exact absurd rfl hr
  · rfl

omit [DecidableEq V] in
lemma grown_of_kept {K : Bytes → V → Prop} (key : Bytes) (v : V) (r : Except IoError TimedInsert)
    {k : Bytes} {x : V} (h : K k x) : grown K key v r k x := by
  by_cases hr : r=.ok .inserted
  · rw [hr]
    exact .inl h
  · rw [grown_of_ne K key v hr]
    exact h

structure Inserted (F : Format V) (path : LogPath N) (K : Bytes → V → Prop) (faults : Prop)
    (key : Bytes) (value : V) (s : KeySet N V) (v : Volume N)
    (out : KeySet N V × Except IoError TimedInsert) (v' : Volume N) : Prop where
  inv : Inv F path (grown K key value out.2) v'
  live : Live F path (grown K key value out.2) out.1 v'
  fresh : out.2=.ok .inserted → s.seen.get key=none
  exact : ¬faults → Exact F path s v → Exact F path out.1 v'

variable {faults : Prop}
lemma Inserted.unchanged (h : Inv F path K v) (hs : Live F path K s v) {value : V}
    {r : Except IoError TimedInsert} (hr : r≠.ok .inserted) :
    Inserted F path K faults key value s v (s,r) v := by
  refine ⟨?_,?_,fun he => absurd he hr,fun _ => id⟩
  · rw [grown_of_ne K key value hr]
    exact h
  · rw [grown_of_ne K key value hr]
    exact hs

lemma Inserted.written (hF : F.Lawful) (h : Inv F path K v) (hs : Live F path K s v) (value : V)
    (hy : F.accepts key) (hu : isUtf8 key) (hn : s.seen.get key=none) {fd : ℕ}
    (hfd : s.file=some fd) {v' : Volume N} (h' : Inv F path K v') (hd : v'.dir=v.dir)
    (him : (v'.file fd).images=[(v.file fd).current++(F.record key value++[newline])]) :
    Inserted F path K faults key value s v
      ({s with seen := s.seen.insert key value,file := some fd},.ok .inserted) v' := by
  obtain ⟨hse,ht⟩ := hs.handle fd hfd
  have hr : (v'.file fd).current=(v.file fd).current++(F.record key value++[newline]) :=
    mem_singleton.mp (him ▸ (v'.file fd).current_mem)
  have hse' : v'.Settled path.file fd := by
    unfold Volume.Settled
    rw [hd]
    exact hse
  have hkp:=(h.visible (settled_current hse)).snoc hF ht value hy
  refine ⟨⟨Volume.holds_of_settled hse' (forall_of_singleton him hkp),h'.scratch⟩,
    ⟨hs.path_eq,hs.accepted.insert value hy hu,?_,?_⟩,fun _ => hn,?_⟩
  · rintro k x (hk | ⟨rfl,rfl⟩)
    · grind [get_insert_ne,hs.retains]
    · exact get_insert_self ..
  · intro i hi
    cases hi
    refine ⟨hse',?_⟩
    rw [hr]
    exact terminated_snoc ht (hF.record_line key value hy)
  · rintro - ⟨i,hi,-,hm⟩
    have hf : i=fd := Option.some.inj (hi.symm.trans hfd)
    rw [hf] at hm
    refine ⟨fd,rfl,settled_current hse',?_⟩
    rw [hr]
    exact hm.snoc hF value hy hu hn
end
section
variable {N V : Type} [DecidableEq N] [DecidableEq V] {F : Format V} {path : LogPath N}
  {K : Bytes → V → Prop} {faults : Prop} {v : Volume N}
inductive Appended (F : Format V) (path : LogPath N) (K : Bytes → V → Prop) (faults : Prop) (fd : ℕ)
    (record : Bytes) (v : Volume N) : Option ℕ × Except IoError Unit → Volume N → Prop
  | written (v' : Volume N) (inv : Inv F path K v') (dir : v'.dir=v.dir)
      (images : (v'.file fd).images=[(v.file fd).current++record]) :
      Appended F path K faults fd record v (some fd,.ok ()) v'
  | lost (v' : Volume N) (e : IoError) (inv : Inv F path K v') (hf : faults) :
      Appended F path K faults fd record v (none,.error e) v'

lemma appendRecord_safe (h : Inv F path K v) {fd : ℕ} (hs : v.Settled path.file fd)
    (ht : Terminated (v.file fd).current) (r : Bytes) :
    Safe faults (Inv F path K) (Appended F path K faults fd r v) (fun _ _ => False)
      (appendRecord (some fd) r) v := by
  have hk:=h.visible (settled_current hs)
  have ha : ∀ bs, Inv F path K (v.append fd bs) := fun bs => h.append fd bs fun p _ => hk.append ht p
  refine Safe.bind (Safe.attempt (Safe.bind ?_))
  refine Safe.sys_ok rfl (fun n => ha _) (fun hf n => .lost _ _ (ha _) hf) ?_
  refine Safe.sys_ok rfl (fun _ => ha r) (fun hf _ => .lost _ _ (ha r) hf) ?_
  have him : (((v.append fd r).fsync fd).file fd).images=[(v.file fd).current++r] := by
    rw [Volume.fsync_file,Cached.images_flush,append_file_current]
  exact .written _ ((ha r).fsync fd) rfl him

lemma insertWithCapacity_safe (hF : F.Lawful) (h : Inv F path K v) {s : KeySet N V}
    (hs : Live F path K s v) {key : Bytes} (hu : isUtf8 key) (value : V) (cap : Option ℕ) :
    Safe faults (Inv F path K) (Inserted F path K faults key value s v) (fun _ _ => False)
      (insertWithCapacity F key value cap s) v := by
  unfold insertWithCapacity
  split
  · exact Inserted.unchanged h hs (by simp)
  next hk =>
    have hk : F.accepts key := by simpa using hk
    split
    · exact Inserted.unchanged h hs (by simp)
    next hw =>
      have hw : s.seen.get key=none := by simpa [Table.contains] using hw
      split
      · exact Inserted.unchanged h hs (by simp)
      · rw [if_pos (by rw [hs.path_eq]; rfl)]
        refine Safe.bind ?_
        cases hl : s.file with
        | none =>
          -- the handle is gone: the error comes before any call
          refine ⟨h,hs.close v,fun he => (by cases he),?_⟩
          rintro - ⟨fd,hd,-⟩
          rw [hl] at hd
          cases hd
        | some fd =>
          obtain ⟨hse,ht⟩ := hs.handle fd hl
          refine (appendRecord_safe h hse ht _).mono (fun _ => id) ?_ (fun _ _ hv => hv)
          intro out v' ho
          cases ho with
          | written _ inv dir im => exact Inserted.written hF h hs value hk hu hw hl inv dir im
          | lost _ e inv hf => exact ⟨inv,hs.close v',fun he => (by cases he),fun hn => absurd hf hn⟩

omit [DecidableEq V] in
lemma insertWithCapacity_len (F : Format V) (key : Bytes) (value : V) (maxEntries : ℕ)
    (s : KeySet N V) (v : Volume N) :
    Safe True (fun _ => True) (fun out _ => out.1.len ≤ s.len ∨ out.1.len ≤ maxEntries)
      (fun _ _ => True) (insertWithCapacity F key value (some maxEntries) s) v := by
  unfold insertWithCapacity
  split
  · exact .inl (Nat.le_refl _)
  split
  · exact .inl (Nat.le_refl _)
  next hn =>
    have hn : s.seen.get key=none := by simpa [Table.contains] using hn
    split
    · exact .inl (Nat.le_refl _)
    next hc =>
      have hc : s.seen.len < maxEntries := by simpa using hc
      have hg : (s.seen.insert key value).len ≤ maxEntries := by
        rw [len_insert_of_absent _ _ _ hn]
        omega
      split
      · refine Safe.andThen (Safe.any _ v) ?_
        rintro ⟨f,r⟩ v' -
        cases r with
        | error e => exact .inl (Nat.le_refl _)
        | ok u => exact .inr hg
      · exact .inr hg

omit [DecidableEq V] in
lemma insertWithCapacity_seen (F : Format V) (key : Bytes) (value : V) (m : Option ℕ)
    (s : KeySet N V) (v : Volume N) :
    Safe True (fun _ => True)
      (fun out _ => (out.2=.ok .inserted ∧ out.1.seen=s.seen.insert key value) ∨
        (out.2≠.ok .inserted ∧ out.1.seen=s.seen))
      (fun _ _ => True) (insertWithCapacity F key value m s) v := by
  unfold insertWithCapacity
  split
  · exact .inr ⟨by simp,rfl⟩
  split
  · exact .inr ⟨by simp,rfl⟩
  split
  · exact .inr ⟨by simp,rfl⟩
  split
  · refine Safe.andThen (Safe.any _ v) ?_
    rintro ⟨f,r⟩ v' -
    cases r with
    | error e => exact .inr ⟨by simp,rfl⟩
    | ok u => exact .inl ⟨rfl,rfl⟩
  · exact .inl ⟨rfl,rfl⟩

omit [DecidableEq V] in
lemma image_cons (e : Bytes × V) (es : List (Bytes × V)) :
    image F (e::es)=(F.record e.1 e.2++[newline])++image F es := by
  simp [image,joinLines]

lemma writeSurvivors_safe (h : Inv F path K v) {i : ℕ} (hi : Unbound path.file v i)
    (es : List (Bytes × V)) :
    Safe faults (Inv F path K)
      (fun _ v' => Scribbled path.file path.compactTmp (Retains F path K) v v' ∧
        (v'.file i).current=(v.file i).current++image F es)
      (fun _ v' => Inv F path K v' ∧ faults) (writeSurvivors F i es) v := by
  induction es generalizing v with
  | nil =>
    refine ⟨Scribbled.refl h,?_⟩
    simp [image,joinLines]
  | cons e es ih =>
    refine Safe.bind ((write_safe h hi _).mono (fun _ => id) ?_ (fun _ _ hv => ⟨hv.1.guarded,hv.2⟩))
    rintro _ v1 ⟨hw,hu⟩
    refine (ih hw.guarded (hi.of_dir hw.dir)).mono (fun _ => id) ?_ (fun _ _ hv => hv)
    rintro _ v2 ⟨hw2,hc⟩
    refine ⟨hw.trans hw2,?_⟩
    rw [hc,hu,image_cons,append_assoc]

lemma compact_safe (h : Inv F path K v) (es : List (Bytes × V))
    (hes : Retains F path K (some (image F es))) :
    Safe faults (Inv F path K)
      (fun fd v' => Inv F path K v' ∧ v'.Settled path.file fd ∧ (v'.file fd).images=[image F es])
      (fun _ v' => Inv F path K v' ∧ faults) (compact F path es) v := by
  refine Safe.andThen (openTrunc_safe path.apart h fun hf _ => ⟨h,hf⟩) ?_
  rintro i v1 ⟨h1,-,hi1,hm,he⟩
  refine Safe.andThen (writeSurvivors_safe h1 hi1 es) ?_
  rintro _ v2 ⟨hw,hu⟩
  have hi2 : Unbound path.file v2 i := hi1.of_dir hw.dir
  refine Safe.andThen (fsync_safe hw.guarded hi2 fun hf _ => ⟨hw.guarded,hf⟩) ?_
  rintro _ v3 ⟨hw3,him⟩
  rw [hu,he,nil_append] at him
  have ht : v3.dir.current path.compactTmp=some i := by
    rw [hw3.dir,hw.dir]
    exact hm
  refine Safe.andThen (rename_safe path.apart hw3.guarded ht (forall_of_singleton him hes)
    fun hf _ => ⟨hw3.guarded,hf⟩) ?_
  rintro _ v4 ⟨h4,hb,hl⟩
  refine Safe.andThen (syncDir_safe h4 fun hf _ => ⟨h4,hf⟩) ?_
  rintro _ v5 ⟨h5,hfl,hd⟩
  have hs : v5.Settled path.file i := forall_of_singleton hd hb
  have hec : (Call.openExisting path.file).exec v5=(.ok i,v5) := by
    simp only [Call.exec,settled_current hs]
  refine Safe.sys_ok hec (fun _ => h5) (fun hf _ => ⟨h5,hf⟩) ⟨h5,hs,?_⟩
  rw [hfl,hl]
  exact him

structure Pruned (F : Format V) (path : LogPath N) (K : Bytes → V → Prop) (faults : Prop)
    (s : KeySet N V) (v : Volume N) (s' : KeySet N V) (v' : Volume N) : Prop where
  inv : Inv F path K v'
  live : Live F path K s' v'
  exact : ¬faults → Exact F path s v → Exact F path s' v'

lemma retainValues_safe (hF : F.Lawful) (h : Inv F path K v) {s : KeySet N V}
    (hs : Live F path K s v) (b : V → Bool) (hkp : ∀ k x, K k x → b x) :
    Safe faults (Inv F path K) (fun out v' => Pruned F path K faults s v out.1 v')
      (fun _ _ => False) (retainValues F b s) v := by
  obtain ⟨seen,f,sp⟩ := s
  obtain rfl : sp=some path := hs.path_eq
  simp only [retainValues]
  split
  · exact ⟨h,hs,fun _ => id⟩
  -- the table after the prune, whose entries are the survivors
  have ha:=hs.accepted.retain fun _ => b
  have hr : ∀ k x, K k x → (seen.retain fun _ => b).get k=some x := by
    intro k x hk
    rw [get_retain,hs.retains k x hk]
    simp [hkp k x hk]
  have hm : Mirrors F path (image F (seen.retain fun _ => b).entries)
      (seen.retain fun _ => b) := mirrors_image hF ha
  refine Safe.bind (Safe.attempt ((compact_safe h _ (hm.retains hr)).mono (fun _ => id) ?_ ?_))
  · rintro fd v' ⟨h',ht,him⟩
    have hc : (v'.file fd).current=image F (seen.retain fun _ => b).entries :=
      mem_singleton.mp (him ▸ (v'.file fd).current_mem)
    refine ⟨h',⟨rfl,ha,hr,?_⟩,?_⟩
    · grind [hm.terminated]
    · intro _ _
      refine ⟨fd,rfl,settled_current ht,?_⟩
      rw [hc]
      exact hm
  · rintro e v' ⟨h',hf⟩
    refine Safe.andThen (remove_safe path.apart h') ?_
    rintro _ v2 ⟨h2,-⟩
    exact ⟨h2,hs.close v2,fun hn => absurd hf hn⟩

omit [DecidableEq V] in
lemma retainValues_seen (F : Format V) (b : V → Bool) (s : KeySet N V) (v : Volume N) :
    Safe True (fun _ => True)
      (fun out _ => ∀ k x, out.1.seen.get k=some x → s.seen.get k=some x)
      (fun _ _ => True) (retainValues F b s) v := by
  have hr : ∀ k x, (s.seen.retain fun _ => b).get k=some x → s.seen.get k=some x := by
    simp_all [get_retain]
  simp only [retainValues]
  split
  · exact fun _ _ hx => hx
  split
  · refine Safe.andThen (Safe.any _ v) ?_
    rintro r v1 -
    cases r with
    | error e => exact Safe.andThen (Safe.any _ v1) fun _ _ _ _ _ hx => hx
    | ok fd => exact hr
  · exact hr

lemma openOrCreatePrivateAppend_safe (h : Inv F path K v) : Safe faults (Inv F path K)
      (fun out v' => Inv F path K v' ∧ v'.dir.current path.file=some out.1 ∧
        ∀ i, v.dir.current path.file=some i → v'=v)
      (fun _ v' => Inv F path K v' ∧ faults) (openOrCreatePrivateAppend path.file) v := by
  refine Safe.bind (Safe.attempt ?_)
  cases hn : v.dir.current path.file with
  | some i =>
    have he:=Call.exec_openExisting hn
    exact Safe.sys_ok he (fun _ => h) (fun hf _ => ⟨h,hf⟩) ⟨h,hn,fun _ _ => rfl⟩
  | none =>
    have he:=Call.exec_missing hn
    have hc : (Call.createNew path.file).exec v=(.ok v.next,v.create path.file) := by
      simp only [Call.exec,hn]
    refine Safe.sys_error he (fun _ => h) (fun hf _ => ⟨h,hf⟩) ?_
    refine Safe.bind (Safe.attempt (Safe.sys_ok hc (fun _ => h) (fun hf _ => ⟨h,hf⟩) ?_))
    -- an absent file retains everything only if there is nothing to retain
    refine ⟨h.create_self path.apart ((h.absent hn).of_none _),?_,fun _ hi => (by cases hi)⟩
    rw [Volume.create_current,Function.update_self]

variable {ls : List Bytes} {c : Bytes} {seen : Table Bytes V}
lemma isUtf8_lines (h : isUtf8 (joinLines ls)) : ∀ l∈ls, isUtf8 l := by
  induction ls with
  | nil => exact fun _ hl => absurd hl not_mem_nil
  | cons m ls ih =>
    have hs : joinLines (m::ls)=m++newline::joinLines ls := by simp [joinLines]
    rw [hs] at h
    obtain ⟨hm,hr⟩ := isUtf8_cut m _ (by decide) h
    intro l hl
    rcases mem_cons.mp hl with rfl | hl
    · exact hm
    · exact ih hr l hl

omit [DecidableEq N] in
lemma Mirrors.of_load (hF : F.Lawful) (hr : completeRecords path.display c=.ok ls)
    (hd : loadRecords F path.display 0 ls empty=.ok seen) :
    Mirrors F path c seen ∧ loadLog F path c=.ok seen ∧ AllAccepted F seen := by
  obtain ⟨hu,ht,rfl⟩ := completeRecords_eq_ok.mp hr
  have hj:=joinLines_splitLines c
  rw [Terminated] at ht
  rw [ht,append_nil] at hj
  have hln : ∀ l∈(splitLines c).1, newline∉l ∧ isUtf8 l := by
    intro l hl
    rw [← hj] at hu
    exact ⟨(splitLines_no_newline_mem c).1 l hl,isUtf8_lines hu l hl⟩
  have he : AllAccepted F (empty : Table Bytes V) := fun _ _ hk => (by cases hk)
  exact ⟨⟨hu,ht,seen,hd,fun _ => rfl⟩,hd,loadRecords_accepted hF hln he hd⟩

omit [DecidableEq N] in
lemma Mirrors.records (h : Mirrors F path c seen) : completeRecords path.display c=.ok (splitLines c).1 :=
  completeRecords_eq_ok.mpr ⟨h.utf8,h.terminated,rfl⟩

omit [DecidableEq N] in
lemma Mirrors.load_ne_error (h : Mirrors F path c seen)
    (hls : completeRecords path.display c=.ok ls) (e : IoError) :
    loadRecords F path.display 0 ls empty≠.error e := by
  obtain ⟨t,ht,-⟩ := h.loads
  have hl : loadRecords F path.display 0 (splitLines c).1 empty=.ok t := ht
  rw [← Except.ok.inj (h.records.symm.trans hls),hl]
  intro he
  cases he

structure Opened (F : Format V) (path : LogPath N) (K : Bytes → V → Prop) (v : Volume N)
    (s : KeySet N V) (v' : Volume N) : Prop where
  inv : Inv F path K v'
  live : Live F path K s v'
  exact : Exact F path s v'
  loaded : ∀ fd, v.dir.current path.file=some fd → loadLog F path (v.file fd).current=.ok s.seen

def Readable (F : Format V) (path : LogPath N) (v : Volume N) : Prop :=
  ∃ fd seen, v.dir.current path.file=some fd ∧ Mirrors F path (v.file fd).current seen

lemma syncCreated_safe (h : Inv F path K v) (fd : ℕ) (c : Bool) : Safe faults (Inv F path K)
      (fun _ v' => Inv F path K v' ∧ v'.dir=v.dir ∧ (v'.file fd).current=(v.file fd).current)
      (fun _ v' => Inv F path K v' ∧ faults)
      (if c then sys (.fsync fd) else pure () : Prog N Unit) v := by
  split
  · refine Safe.sys_ok rfl (fun _ => h) (fun hf _ => ⟨h,hf⟩) ⟨h.fsync fd,rfl,?_⟩
    rw [Volume.fsync_file,Cached.current_flush]
  · exact ⟨h,rfl,rfl⟩

lemma openSet_safe (hF : F.Lawful) (h : Inv F path K v) : Safe faults (Inv F path K) (Opened F path K v)
      (fun _ v' => Inv F path K v' ∧ (faults ∨ ¬Readable F path v)) (openSet F path) v := by
  have hdi : Safe faults (Inv F path K) (fun _ v' => v=v') (fun _ v' => v=v' ∧ faults)
      (if path.nested then sys .createDirAll else pure () : Prog N Unit) v := by
    split
    · exact Safe.sys_ok rfl (fun _ => h) (fun hf _ => ⟨rfl,hf⟩) rfl
    · rfl
  refine Safe.bind (hdi.mono (fun _ => id) ?_ ?_)
  swap
  · rintro _ _ ⟨rfl,hf⟩
    exact ⟨h,.inl hf⟩
  rintro _ _ rfl
  refine Safe.bind ((openOrCreatePrivateAppend_safe h).mono (fun _ => id) ?_
    (fun _ _ hv => ⟨hv.1,.inl hv.2⟩))
  rintro ⟨fd,cr⟩ v1 ⟨h1,hb,hsm⟩
  -- without the file there is nothing readable; with it, `v1` is the volume itself
  have ht : ∀ i, v.dir.current path.file=some i → (v.file i).current=(v1.file fd).current := by grind
  have hrd : Readable F path v → ∃ seen, Mirrors F path (v1.file fd).current seen := by
    rintro ⟨i,seen,hi,hm⟩
    rw [ht i hi] at hm
    exact ⟨seen,hm⟩
  refine Safe.bind (Safe.bind (Safe.sys_ok rfl (fun _ => h1) (fun hf _ => ⟨h1,.inl hf⟩) ?_))
  refine Safe.ofExcept ?_ ?_
  swap
  · intro e he
    refine ⟨h1,.inr ?_⟩
    intro hr
    obtain ⟨seen,hm⟩ := hrd hr
    rw [hm.records] at he
    cases he
  intro ls hls
  refine Safe.bind (Safe.ofExcept ?_ ?_)
  swap
  · intro e he
    refine ⟨h1,.inr ?_⟩
    intro hr
    obtain ⟨seen,hm⟩ := hrd hr
    exact hm.load_ne_error hls e he
  intro seen hs
  obtain ⟨hmi,hl,ha⟩ := Mirrors.of_load hF hls hs
  refine Safe.bind ((syncCreated_safe h1 fd cr).mono (fun _ => id) ?_
    (fun _ _ hv => ⟨hv.1,.inl hv.2⟩))
  rintro _ v2 ⟨h2,hdr,hc⟩
  refine Safe.andThen (syncDir_safe h2 fun hf _ => ⟨h2,.inl hf⟩) ?_
  rintro _ v3 ⟨h3,hfl,hd⟩
  have hse : v3.Settled path.file fd := forall_of_singleton hd (by rw [hdr]; exact hb)
  have hu : (v3.file fd).current=(v1.file fd).current := by rw [hfl,hc]
  refine ⟨h3,⟨rfl,ha,?_,?_⟩,?_,?_⟩
  · intro k x hk
    exact (h1.visible hb).loaded hl hk
  · intro i hi
    cases hi
    refine ⟨hse,?_⟩
    rw [hu]
    exact hmi.terminated
  · refine ⟨fd,rfl,settled_current hse,?_⟩
    rw [hu]
    exact hmi
  · intro i hi
    rw [ht i hi]
    exact hl
end
end NilVpn.Durable
