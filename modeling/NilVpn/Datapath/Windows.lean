import NilVpn.Base.Runs
import NilVpn.Base.Utf8
import NilVpn.Datapath.Linux

/-!
# Routing on Windows (nil-datapath/src/windows.rs:35-325)

What the commands do to the host is arbitrary. The three steps of the kill-switch are one command each,
and a listing is the text that `from_utf8_lossy` makes of the output.
-/

namespace NilVpn.Datapath.Windows
open Option Base List
open Linux (CleanupErrors)

section
/-- `str::lines` -/
def textLines (s : Bytes) : List Bytes :=
  ((splitLines s).1.map fun l => if l.getLast?=some carriageReturn then l.dropLast else l) ++
    if (splitLines s).2=[] then [] else [(splitLines s).2]

def characters (line : Bytes) : List Scalar := (scalars line).getD []
def trimEnd (ss : List Scalar) : List Scalar := (ss.reverse.dropWhile fun s => isWhitespace s.1).reverse

/-- The number that a trimmed line begins with. -/
def firstIndex (t : List Scalar) : Option ℕ := (splitWhitespace t).head?.bind (parseUnsigned (2^32))

def rowIndex (name line : Bytes) : Option ℕ :=
  let t:=trimScalars (characters line)
  match firstIndex t with
  | none => none
  | some idx => if name <:+ (trimEnd t).flatMap Prod.snd then some idx else none

def ifIndexForName (name out : Bytes) : Option ℕ := (textLines out).findSome? (rowIndex name)

def defaultRoute (out : Bytes) : Option (ℕ × Bytes) := do
  let all : Bytes := ascii "0.0.0.0/0"
  let toks ← ((textLines out).map fun l => splitWhitespace (characters l)).find? (·.contains all)
  let rest:=toks.dropWhile (·≠all)
  let idx ← rest[1]?.bind (parseUnsigned (2^32))
  let gw ← rest[2]?
  some (idx,gw)

variable {s t : Bytes} {ss ts : List Scalar} {c : Scalar}
lemma scalars_blanks (n : ℕ) : scalars (replicate n space)=some (replicate n (32,[space])) := by
  rw [scalars_ascii _ fun b hb => by rw [eq_of_mem_replicate hb]; decide]
  simp [asciiScalars,space]

lemma trimEnd_solid (hc : isWhitespace c.1=false) : trimEnd (ss++[c])=ss++[c] := by simp [trimEnd,hc]

lemma trimScalars_padded {a : Scalar} (n k : ℕ) (ha : isWhitespace a.1=false) (hc : isWhitespace c.1=false)
    (he : a::ts=ss++[c]) :
    trimScalars (replicate n (32,[space])++(ss++[c])++replicate k (32,[space]))=ss++[c] := by
  have hb (n : ℕ) : ∀ x∈replicate n ((32,[space]) : Scalar), isWhitespace x.1 := by
    intro x hx
    rw [eq_of_mem_replicate hx]
    rfl
  rw [trimScalars,append_assoc,dropWhile_append_of_pos (hb n),← he,cons_append,
    dropWhile_cons_of_neg (by simp [ha]),← cons_append,he,reverse_append,reverse_replicate,dropWhile_append_of_pos (hb k)]
  simp [hc]

/-- A data row `Idx Met MTU State Name`; `columns` stands for the three in the middle. -/
structure Adapter where
  (lead idx : ℕ)
  (columns name : Str)
  trail : ℕ
  idx_lt : idx<2^32
  solid : (characters name.1).getLast?.any (!isWhitespace ·.1)=true

namespace Adapter
def text (a : Adapter) : Bytes := decimal a.idx++space::(a.columns.1++space::a.name.1)
def row (a : Adapter) : Bytes := replicate a.lead space++a.text++replicate a.trail space

variable (a : Adapter)
lemma name_suffix : a.name.1 <:+ a.text :=
  ⟨decimal a.idx++space::(a.columns.1++[space]),by simp [text]⟩

lemma name_scalars : ∃ ss c, scalars a.name.1=some (ss++[c]) ∧ isWhitespace c.1=false := by
  obtain ⟨ns,hn⟩ := isSome_iff_exists.mp a.name.2
  have hs:=a.solid
  rw [characters,hn,getD_some] at hs
  cases hl : ns.getLast? with
  | none => simp [hl] at hs
  | some c =>
    obtain ⟨ss,rfl⟩ := getLast?_eq_some_iff.mp hl
    exact ⟨ss,c,hn,by simpa using hs⟩

/-- A trimmed row is the index, a blank, and text that ends in a character of the name. -/
lemma text_scalars : ∃ rest ss c,
    scalars a.text=some (asciiScalars (decimal a.idx)++(0x20,[space])::rest) ∧
    asciiScalars (decimal a.idx)++(0x20,[space])::rest=ss++[c] ∧ isWhitespace c.1=false := by
  obtain ⟨cs,hcs⟩ := isSome_iff_exists.mp a.columns.2
  obtain ⟨ss,c,hn,hw⟩ := a.name_scalars
  have hd : IsAscii (decimal a.idx) :=
    isAscii_lowerHex _ fun b hb => isLowerHex_of_isDigit b (decimal_digits _ b hb)
  have hsp (t : Bytes) : scalars (space::t)=(scalars t).map ((0x20,[space])::·) := scalars_one _ _ (by decide)
  refine ⟨cs++(0x20,[space])::(ss++[c]),
    asciiScalars (decimal a.idx)++(0x20,[space])::(cs++(0x20,[space])::ss),c,?_,by simp,hw⟩
  rw [text,scalars_append _ _ _ (scalars_ascii _ hd),hsp,scalars_append _ _ _ hcs,hsp,hn]
  rfl

lemma trim_row : ∃ ss, scalars a.text=some ss ∧ trimScalars (characters a.row)=ss ∧
    trimEnd ss=ss ∧ firstIndex ss=some a.idx := by
  obtain ⟨rest,ss,c,ht,he,hw⟩ := a.text_scalars
  have hd : IsWord (decimal a.idx) :=
    isWord_lowerHex _ fun b hb => isLowerHex_of_isDigit b (decimal_digits _ b hb)
  refine ⟨_,ht,?_,?_,?_⟩
  · have hr : characters a.row=replicate a.lead (32,[space])++(ss++[c])++replicate a.trail (32,[space]) := by
      rw [characters,row,scalars_concat (scalars_concat (scalars_blanks _) ht) (scalars_blanks _),he]
      rfl
    obtain ⟨d,ds,hds⟩ := exists_cons_of_ne_nil (decimal_ne_nil a.idx)
    have hc : (d.toNat,[d])::(asciiScalars ds++(0x20,[space])::rest)=ss++[c] := by
      rw [← he,hds]
      rfl
    rw [hr,he]
    have hm : d∈decimal a.idx := by
      rw [hds]
      exact mem_cons_self ..
    exact trimScalars_padded (a := (d.toNat,[d])) _ _ (hd d hm).2 hw hc
  · rw [he]
    exact trimEnd_solid hw
  · rw [firstIndex,splitWhitespace_cons _ _ hd (decimal_ne_nil _),head?_cons,bind_some]
    exact parseUnsigned_decimal _ _ a.idx_lt

lemma rowIndex_row (name : Bytes) : rowIndex name a.row=if name <:+ a.text then some a.idx else none := by
  obtain ⟨ss,hs,ht,he,hf⟩ := a.trim_row
  simp only [rowIndex,ht,hf,he,scalars_flatten hs]
end Adapter

inductive Line
  | other (line : Bytes) (h : firstIndex (trimScalars (characters line))=none)
  | adapter (a : Adapter)

namespace Line
def bytes : Line → Bytes
  | other line _ => line
  | adapter a => a.row

def idx? : Line → Option ℕ
  | other .. => none
  | adapter a => some a.idx
end Line

/-- No row above ends in `name`. -/
def Unshadowed (before : List Line) (name : Bytes) : Prop := ∀ b, .adapter b∈before → ¬name <:+ b.text

lemma rowIndex_line {name : Bytes} {l : Line} {i : ℕ} :
    rowIndex name l.bytes=some i ↔ ∃ b, l=.adapter b ∧ name <:+ b.text ∧ b.idx=i := by
  cases l with
  | other line h => simp [Line.bytes,rowIndex,h]
  | adapter b => simp [Line.bytes,b.rowIndex_row]

/-- Every match above the row has another index. -/
lemma ifIndexForName_iff {out : Bytes} {before after : List Line} {a : Adapter}
    (ho : textLines out=(before++.adapter a::after).map Line.bytes)
    (hd : ((before++.adapter a::after).filterMap Line.idx?).Nodup) :
    ifIndexForName a.name.1 out=some a.idx ↔ Unshadowed before a.name.1 := by
  have hr : rowIndex a.name.1 a.row=some a.idx := by rw [a.rowIndex_row,if_pos a.name_suffix]
  rw [ifIndexForName,ho,map_append,findSome?_append,map_cons,Line.bytes,findSome?_cons,hr]
  cases hb : (before.map Line.bytes).findSome? (rowIndex a.name.1) with
  | none =>
    refine iff_of_true rfl fun b hm hs => ?_
    have hn:=findSome?_eq_none_iff.mp hb _ (mem_map_of_mem hm)
    rw [Line.bytes,b.rowIndex_row,if_pos hs] at hn
    contradiction
  | some i =>
    obtain ⟨t,hm,ht⟩ := exists_of_findSome?_eq_some hb
    obtain ⟨l,hl,rfl⟩ := List.mem_map.mp hm
    obtain ⟨b,rfl,hs,rfl⟩ := rowIndex_line.mp ht
    refine iff_of_false (fun h => ?_) fun hu => hu b hl hs
    have he : b.idx=a.idx := some.inj h
    rw [filterMap_append,nodup_append] at hd
    exact hd.2.2 _ (mem_filterMap.mpr ⟨_,hl,rfl⟩) _ (mem_filterMap.mpr ⟨_,mem_cons_self ..,rfl⟩) he
end

/-- The routes `0.0.0.0/1` and `128.0.0.0/1`. -/
inductive Half
  | low | high
  deriving DecidableEq

inductive Cmd
  | captureDefaultOutbound
  | applyKillSwitch (nodeIp : IpAddr) (alsoExcept : List IpAddr) (tun : String)
  | disarmKillSwitch (saved : Option Bytes)
  | showInterfaces
  | showRoute
  | addPin (ip : IpAddr) (interface : ℕ) (nexthop : Bytes)
  | deletePin (ip : IpAddr) (interface : ℕ)
  | addHalf (half : Half) (interface : ℕ)
  | deleteHalf (half : Half) (interface : ℕ)
  | setDns (tun : String) (ip : IpAddr)
  | addDns (tun : String) (ip : IpAddr) (index : ℕ)
  deriving DecidableEq

abbrev Cmd.Out : Cmd → Type
  | captureDefaultOutbound | showInterfaces | showRoute => Bytes
  | _ => Unit

structure PinnedRoute where
  ip : IpAddr
  interface : ℕ

structure WinNet where
  armed : Bool
  tunIdx : Option ℕ
  firewallTouched : Bool
  ksSaved : Option Bytes
  (lowDefaultAdded highDefaultAdded : Bool)
  pinnedRoutes : List PinnedRoute

namespace WinNet
def default : WinNet := ⟨false,none,false,none,false,false,[]⟩

def added (n : WinNet) : Half → Bool
  | .low => n.lowDefaultAdded
  | .high => n.highDefaultAdded

def mark (n : WinNet) (b : Bool) : Half → WinNet
  | .low => {n with lowDefaultAdded := b}
  | .high => {n with highDefaultAdded := b}
end WinNet

abbrev Moment (H : Type) := Base.Moment Cmd H WinNet
abbrev Shell (H α : Type) := Script (Moment H) String α

section
variable {H : Type} (sys : System Cmd Cmd.Out H String)
def net : Shell H WinNet := Script.view (·.self)
def setNet (f : WinNet → WinNet) : Shell H Unit := Script.update fun m => {m with self := f m.self}

/-- A command whose failure is only logged. -/
def tryRun (c : Cmd) : Shell H (Option c.Out) := do
  match ← Script.attempt (sys.run c) with
  | .ok a => pure (some a)
  | .error _ => pure none

def armKillSwitch (p : ArmParams) : Shell H Unit :=
  if p.killSwitch then do
    let saved ← sys.run .captureDefaultOutbound
    setNet fun n => {n with ksSaved := some saved,firewallTouched := true}
    sys.run (.applyKillSwitch p.nodeIp p.alsoExcept p.tunName)
  else pure ()

def pin (idx : ℕ) (gw : Bytes) (ip : IpAddr) : Shell H Unit := do
  match ← tryRun sys (.addPin ip idx gw) with
  | some _ => setNet fun n => {n with pinnedRoutes := n.pinnedRoutes++[⟨ip,idx⟩]}
  | none => pure ()

def pinRoutes (p : ArmParams) : Shell H Unit := do
  match (← tryRun sys .showRoute).bind defaultRoute with
  | some (idx,gw) => Script.each (pin sys idx gw) (p.nodeIp::p.alsoExcept)
  | none => pure ()

def addRoute (idx : ℕ) (half : Half) : Shell H Unit := do
  sys.run (.addHalf half idx)
  setNet (·.mark true half)

def setDnsServers (p : ArmParams) : Shell H Unit :=
  Script.each (fun (ip,i) => do
    let _ ← tryRun sys (if i=0 then .setDns p.tunName ip else .addDns p.tunName ip (i+1))
    pure ()) p.dns.zipIdx

def utf8 (s : String) : Bytes := s.toUTF8.data.toList

def arm (p : ArmParams) : Shell H Unit := do
  if (← net).armed then
    Script.throw "Windows datapath is already armed or still requires rollback"
  else
    setNet fun n => {n with armed := true}
    armKillSwitch sys p
    match (← tryRun sys .showInterfaces).bind (ifIndexForName (utf8 p.tunName)) with
    | none => Script.throw s!"could not find interface index for TUN {p.tunName}"
    | some idx =>
      setNet fun n => {n with tunIdx := some idx}
      pinRoutes sys p
      addRoute sys idx .low
      addRoute sys idx .high
      setDnsServers sys p

def attemptStep (errors : CleanupErrors) (step : String) (c : Cmd) : Shell H (Bool × CleanupErrors) := do
  match ← Script.attempt (sys.run c) with
  | .ok _ => pure (true,errors)
  | .error e => pure (CleanupErrors.attempt errors step (.error e))

def removeHalf (half : Half) (step : String) (errors : CleanupErrors) : Shell H CleanupErrors := do
  let n ← net
  match n.tunIdx with
  | some idx =>
    if n.added half then
      let r ← attemptStep sys errors step (.deleteHalf half idx)
      setNet fun n => if r.1 then n.mark false half else n
      pure r.2
    else pure errors
  | none => pure errors

def removePins : (todo failed : List PinnedRoute) → CleanupErrors → Shell H CleanupErrors
  | [],failed,errors => do
    setNet fun n => {n with pinnedRoutes := failed}
    pure errors
  | r::todo,failed,errors => do
    let out ← attemptStep sys errors "remove pinned node route" (.deletePin r.ip r.interface)
    removePins todo (if out.1 then failed else failed++[r]) out.2

def releaseFirewall (errors : CleanupErrors) : Shell H CleanupErrors := do
  let n ← net
  if errors.isEmpty&&n.firewallTouched then
    let r ← attemptStep sys errors "restore Windows Firewall profiles" (.disarmKillSwitch n.ksSaved)
    setNet fun n => if r.1 then {n with firewallTouched := false} else n
    pure r.2
  else pure errors

def teardown : Shell H Unit := do
  let n ← net
  if n.armed then
    let errors ← removeHalf sys .high "remove upper tunnel route" []
    let errors ← removeHalf sys .low "remove lower tunnel route" errors
    let errors ← removePins sys n.pinnedRoutes [] errors
    let errors ← releaseFirewall sys errors
    setNet fun n => {n with armed := n.lowDefaultAdded||n.highDefaultAdded||!n.pinnedRoutes.isEmpty ||
      n.firewallTouched}
    if errors.isEmpty then pure ()
    else Script.throw ("network rollback incomplete: " ++ String.intercalate "; " errors)
  else pure ()
end

def Cmd.isHalf : Cmd → Bool
  | addHalf .. | deleteHalf .. => true
  | _ => false

def Cmd.OnlyOn (idx : ℕ) : Cmd → Prop
  | addHalf _ i | deleteHalf _ i => i=idx
  | _ => True

lemma onlyOn_other (idx : ℕ) (c : Cmd) (h : c.isHalf=false) : c.OnlyOn idx := by cases c <;> trivial

/-- A property of what the half routes depend on: `armed`, `tunIdx` and the two marks. -/
abbrev Routing := Bool → Option ℕ → (Half → Bool) → Prop

namespace WinNet
variable (n : WinNet) (b : Bool) (half h : Half)
def Is (N : Routing) : Prop := N n.armed n.tunIdx n.added

lemma added_mark : (n.mark b half).added h=if h=half then b else n.added h := by
  cases half <;> cases h <;> rfl

lemma mark_tunIdx : (n.mark b half).tunIdx=n.tunIdx := by cases half <;> rfl

lemma mark_armed : (n.mark b half).armed=n.armed := by cases half <;> rfl
end WinNet

/-- A route that is marked is on `idx`, and the next teardown acts on it. -/
def OnTun (idx : ℕ) : Routing := fun armed tun added => ∀ half, added half=true → armed=true ∧ tun=some idx

def Marked (idx : ℕ) (halves : List Half) : Routing := fun armed tun added =>
  armed=true ∧ tun=some idx ∧ ∀ half∈halves, added half=true

def Bare : Routing := fun armed _ added => armed=true ∧ ∀ half, added half=false

section
open Script
variable {H α : Type} {sys : System Cmd Cmd.Out H String} {N M : Routing} {P : Cmd → Prop}
  {old done : List Cmd} {m : Moment H} {c : Cmd} {idx : ℕ} {half : Half} {Q : α → Moment H → Prop}
  {E : String → Moment H → Prop} {errors : CleanupErrors} {step : String} {p : ArmParams}
/-- The WinNet is in `N`, every command issued after `old` is in `P`, and those in `done` are among them. -/
def Since (N : Routing) (P : Cmd → Prop) (old done : List Cmd) (m : Moment H) : Prop :=
  m.self.Is N ∧ ∃ new, m.issued=new++old ∧ (∀ c∈new, P c) ∧ done ⊆ new

abbrev Ends (Q : α → Moment H → Prop) (E : String → Moment H → Prop) (x : Shell H α) (m : Moment H) : Prop :=
  Safe (fun _ => True) Q E x m

abbrev Stays (B : Moment H → Prop) (x : Shell H α) (m : Moment H) : Prop := Ends (fun _ => B) (fun _ => B) x m

lemma Since.start (h : m.self.Is N) : Since N P m.issued [] m := ⟨h,[],rfl,nofun,nil_subset _⟩

lemma Since.mono {R : Cmd → Prop} {ls : List Cmd} (h : Since N P old done m) (hN : m.self.Is N → m.self.Is M)
    (hR : ∀ c, P c → R c) (hl : ls ⊆ done) : Since M R old ls m := by
  obtain ⟨hn,new,hi,hp,hd⟩ := h
  exact ⟨hN hn,new,hi,fun c hc => hR c (hp c hc),fun c hc => hd (hl hc)⟩

lemma Since.issue (h : Since N P old done m) (hc : P c) (x : H) :
    Since N P old (c::done) ((m.issue c).settle x) := by
  obtain ⟨hn,new,hi,hp,hd⟩ := h
  exact ⟨hn,c::new,congrArg (c::·) hi,forall_mem_cons.mpr ⟨hc,hp⟩,cons_subset_cons c hd⟩

lemma Since.drop (h : Since N P old (c::done) m) : Since N P old done m :=
  h.mono id (fun _ => id) (subset_cons_self ..)

lemma Since.forget {ha : List Half} (h : Since (Marked idx ha) P old done m) :
    Since (Marked idx []) P old [] m :=
  h.mono (fun hn => ⟨hn.1,hn.2.1,nofun⟩) (fun _ => id) (nil_subset _)

lemma setNet_since {f : WinNet → WinNet} (hm : Since N P old done m) (hf : m.self.Is N → (f m.self).Is M) :
    Ends (fun _ => Since M P old done) E (setNet f) m :=
  Safe.update trivial ⟨hf hm.1,hm.2⟩

lemma net_ends {f : WinNet → Shell H α} (h : Ends Q E (f m.self) m) : Ends Q E (net >>= f) m := by
  refine Safe.bind (Safe.view (Q := fun n m' => m.self=n ∧ m=m') ⟨rfl,rfl⟩) ?_
  rintro _ _ ⟨rfl,rfl⟩
  exact h

section
variable (hm : Since N P old done m)
include hm
lemma run_since (hc : P c) : Stays (Since N P old (c::done)) (sys.run c) m :=
  System.run_safe (fun _ _ => trivial) (fun _ _ => hm.issue hc _) fun _ x _ => hm.issue hc x

lemma run_stays (hc : P c) : Stays (Since N P old done) (sys.run c) m :=
  (run_since hm hc).imp (fun _ _ hn => hn.drop) fun _ _ hn => hn.drop

lemma tryRun_since (hc : P c) : Ends (fun r m => Since N P old done m ∧
    ∀ a, r=some a → ∃ x, (sys.exec c x).1=.success a) E (tryRun sys c) m := by
  refine Safe.bind (Safe.attempt (Q := fun r m => Since N P old done m ∧
    ∀ a, r=.ok a → ∃ x, (sys.exec c x).1=.success a) (System.run_safe (fun _ _ => trivial)
      (fun a ha => ⟨(hm.issue hc _).drop,?_⟩) fun _ x _ => ⟨(hm.issue hc x).drop,nofun⟩)) fun r m hm => ?_
  · rintro _ ⟨⟩
    exact ⟨_,ha⟩
  cases r with
  | ok a =>
    refine Safe.pure ⟨hm.1,?_⟩
    rintro _ ⟨⟩
    exact hm.2 a rfl
  | error e => exact Safe.pure ⟨hm.1,nofun⟩

lemma attemptStep_since (hc : P c) :
    Ends (fun _ => Since N P old (c::done)) E (attemptStep sys errors step c) m := by
  refine Safe.bind (Safe.attempt (Q := fun _ => Since N P old (c::done)) (run_since hm hc)) fun r n hn => ?_
  cases r with
  | ok | error => exact Safe.pure hn
end

lemma state_of_stays {B : Moment H → Prop} {x : Shell H α} (h : Stays B x m) : B (x m).state := by
  cases hx : (x m).result with
  | ok a => exact h.ok hx
  | error e => exact h.error hx

section
variable (hP : ∀ c, c.isHalf=false → P c) (hm : Since N P old done m)
include hP hm
lemma armKillSwitch_stays : Stays (Since N P old done) (armKillSwitch sys p) m := by
  unfold armKillSwitch
  split
  · refine Safe.bind (run_stays hm (hP _ rfl)) fun sa m hm => ?_
    exact Safe.bind (setNet_since hm id) fun _ m hm =>
      run_stays (c := .applyKillSwitch p.nodeIp p.alsoExcept p.tunName) hm (hP _ rfl)
  · exact Safe.pure hm

lemma pinRoutes_stays : Stays (Since N P old done) (pinRoutes sys p) m := by
  refine Safe.bind (tryRun_since hm (hP _ rfl)) fun r m hm => ?_
  cases r.bind defaultRoute with
  | none => exact Safe.pure hm.1
  | some g =>
    refine Safe.each (K := fun _ => Since N P old done) (fun ip _ m hm => ?_) _ hm.1
    refine Safe.bind (tryRun_since hm (hP _ rfl)) fun r m hm => ?_
    cases r with
    | none => exact Safe.pure hm.1
    | some _ => exact setNet_since hm.1 id

lemma setDnsServers_stays : Stays (Since N P old done) (setDnsServers sys p) m := by
  refine Safe.each (K := fun _ => Since N P old done) (fun x _ m hm => ?_) _ hm
  refine Safe.bind (tryRun_since hm (hP _ ?_)) fun _ _ hm => Safe.pure hm.1
  split
  · rfl
  · rfl

lemma removePins_stays (t f : List PinnedRoute) :
    Ends (fun _ => Since N P old done) E (removePins sys t f errors) m := by
  induction t generalizing f errors m with
  | nil => exact Safe.bind (setNet_since hm id) fun _ _ hn => Safe.pure hn
  | cons r t ih => exact Safe.bind (attemptStep_since hm (hP _ rfl)) fun _ _ hn => ih hn.drop _

lemma releaseFirewall_stays : Ends (fun _ => Since N P old done) E (releaseFirewall sys errors) m := by
  refine net_ends ?_
  split
  · refine Safe.bind (attemptStep_since hm (hP _ rfl)) fun out m hm => ?_
    refine Safe.bind (setNet_since hm.drop fun hn => ?_) fun _ _ hn => Safe.pure hn
    split
    · exact hn
    · exact hn
  · exact Safe.pure hm
end

lemma addRoute_since {ha : List Half} (hm : Since (Marked idx ha) (·.OnlyOn idx) old done m) (half : Half) :
    Ends (fun _ => Since (Marked idx (half::ha)) (·.OnlyOn idx) old (.addHalf half idx::done))
      (fun _ => Since (Marked idx []) (·.OnlyOn idx) old []) (addRoute sys idx half) m := by
  refine Safe.bind ((run_since hm (show Cmd.OnlyOn idx (.addHalf half idx) from rfl)).imp_right
    fun _ _ => Since.forget) fun _ n hn => setNet_since hn fun hk => ?_
  refine ⟨(n.self.mark_armed ..).trans hk.1,(n.self.mark_tunIdx ..).trans hk.2.1,fun h hh => ?_⟩
  rw [n.self.added_mark]
  split
  · rfl
  · next hne => exact hk.2.2 h ((mem_cons.mp hh).resolve_left hne)

/-- An index that a listing shown by the system gives for the tunnel. -/
def Found (sys : System Cmd Cmd.Out H String) (p : ArmParams) (i : ℕ) : Prop :=
  ∃ x out, (sys.exec .showInterfaces x).1=.success out ∧ ifIndexForName (utf8 p.tunName) out=some i

lemma Bare.onTun (h : Since Bare (·.isHalf=false) old done m) (i : ℕ) :
    Since (OnTun i) (·.OnlyOn i) old [] m :=
  h.mono (fun hn half hf => absurd hf (by simp [hn.2 half])) (onlyOn_other i) (nil_subset _)

/-- The routes are on the index that was found; without one there are none. -/
lemma arm_ends (ha : m.self.armed=false) (hs : m.self.Is (OnTun idx)) :
    Ends (fun _ n => ∃ i, Found sys p i ∧ Since (Marked i [.high,.low]) (·.OnlyOn i) m.issued
        [.addHalf .high i,.addHalf .low i] n)
      (fun _ n => (∀ i, Since (OnTun i) (·.OnlyOn i) m.issued [] n) ∨
        ∃ i, Found sys p i ∧ Since (Marked i []) (·.OnlyOn i) m.issued [] n) (arm sys p) m := by
  have hb : Since Bare (·.isHalf=false) m.issued [] {m with self := {m.self with armed := true}} := by
    refine ⟨⟨rfl,fun half => Bool.eq_false_iff.mpr fun hh => ?_⟩,[],rfl,nofun,nil_subset _⟩
    have hf:=(hs half hh).1
    rw [ha] at hf
    contradiction
  refine net_ends ?_
  rw [ha,if_neg Bool.false_ne_true]
  refine Safe.bind (Safe.update (Q := fun _ => Since Bare (·.isHalf=false) m.issued []) trivial hb)
    fun _ n hn => ?_
  refine Safe.bind ((armKillSwitch_stays (fun _ => id) hn).imp_right fun _ _ hn => .inl (Bare.onTun hn))
    fun _ n hn => ?_
  refine Safe.bind (tryRun_since hn rfl) fun r n hn => ?_
  cases hr : r.bind (ifIndexForName (utf8 p.tunName)) with
  | none => exact Safe.throw (.inl (Bare.onTun hn.1))
  | some i =>
    obtain ⟨out,rfl,hi⟩ := bind_eq_some_iff.mp hr
    obtain ⟨x,hx⟩ := hn.2 out rfl
    have hf : Found sys p i := ⟨x,out,hx,hi⟩
    have hn : Since Bare (·.OnlyOn i) m.issued [] n := hn.1.mono id (onlyOn_other i) (nil_subset _)
    have hw {n : Moment H} (h : Since (Marked i []) (·.OnlyOn i) m.issued [] n) :
        ∃ i, Found sys p i ∧ Since (Marked i []) (·.OnlyOn i) m.issued [] n := ⟨i,hf,h⟩
    refine Safe.bind (setNet_since (M := Marked i []) hn fun hk => ⟨hk.1,rfl,nofun⟩) fun _ n hn => ?_
    refine Safe.bind ((pinRoutes_stays (onlyOn_other i) hn).imp_right fun _ _ h => .inr (hw h)) fun _ n hn => ?_
    refine Safe.bind ((addRoute_since hn .low).imp_right fun _ _ h => .inr (hw h)) fun _ n hn => ?_
    refine Safe.bind ((addRoute_since hn .high).imp_right fun _ _ h => .inr (hw h)) fun _ n hn => ?_
    exact (setDnsServers_stays (onlyOn_other i) hn).imp (fun _ _ h => ⟨i,hf,h⟩) fun _ _ h => .inr (hw h.forget)

/-- The commands that a teardown owes to the marks it starts from. -/
def deletions (idx : ℕ) (n : WinNet) (half : Half) : List Cmd :=
  if n.added half=true then [.deleteHalf half idx] else []

lemma removeHalf_since (hN : m.self.Is N → m.self.Is (OnTun idx))
    (hk : ∀ n : WinNet, n.Is N → (n.mark false half).Is N) (hm : Since N (·.OnlyOn idx) old done m) :
    Ends (fun _ => Since N (·.OnlyOn idx) old (deletions idx m.self half++done)) E
      (removeHalf sys half step errors) m := by
  unfold deletions
  refine net_ends ?_
  by_cases ha : m.self.added half
  · rw [(hN hm.1 half ha).2]
    simp only [ha,if_true]
    refine Safe.bind (attemptStep_since hm rfl) fun r n hn => ?_
    refine Safe.bind (setNet_since hn fun hn => ?_) fun _ _ hn => Safe.pure hn
    split
    · exact hk _ hn
    · exact hn
  · simp only [ha,if_false,Bool.false_eq_true]
    cases m.self.tunIdx with
    | none | some => exact Safe.pure hm

lemma mark_onTun (n : WinNet) (h : n.Is (OnTun idx)) : (n.mark false half).Is (OnTun idx) := by
  intro k hk
  rw [n.added_mark] at hk
  split at hk
  · contradiction
  · exact ⟨(n.mark_armed ..).trans (h k hk).1,(n.mark_tunIdx ..).trans (h k hk).2⟩

lemma teardown_stays (hm : m.self.Is (OnTun idx)) :
    Stays (Since (OnTun idx) (·.OnlyOn idx) m.issued (deletions idx m.self .low++deletions idx m.self .high))
      (teardown sys) m := by
  refine net_ends ?_
  split
  · -- the lower mark is the one at the start until its own turn
    let L : Routing := fun a i f => OnTun idx a i f ∧ f .low=m.self.added .low
    refine Safe.bind (removeHalf_since (N := L) (fun hn => hn.1) (fun n hn => ⟨mark_onTun n hn.1,hn.2⟩)
      (Since.start ⟨hm,rfl⟩)) fun errors n hn => ?_
    have hd : deletions idx n.self .low=deletions idx m.self .low := by rw [deletions,hn.1.2,deletions]
    have hn : Since (OnTun idx) (·.OnlyOn idx) m.issued (deletions idx m.self .high) n :=
      hn.mono (fun hn => hn.1) (fun _ => id) (by simp)
    rw [← hd]
    refine Safe.bind (removeHalf_since id (fun n => mark_onTun n) hn) fun errors n hn => ?_
    refine Safe.bind (removePins_stays (onlyOn_other idx) hn _ []) fun errors n hn => ?_
    refine Safe.bind (releaseFirewall_stays (onlyOn_other idx) hn) fun errors n hn => ?_
    refine Safe.bind (setNet_since (M := OnTun idx) hn fun hk half h => ⟨?_,(hk half h).2⟩) fun _ n hn => ?_
    · cases half with
      | low => simp [show n.self.lowDefaultAdded=true from h]
      | high => simp [show n.self.highDefaultAdded=true from h]
    · split
      · exact Safe.pure hn
      · exact Safe.throw hn
  · next ha =>
    have hn (half : Half) : deletions idx m.self half=[] := if_neg fun h => ha (hm half h).1
    rw [hn,hn]
    exact Safe.pure (Since.start hm)
end

inductive Call (H : Type)
  | arm (sys : System Cmd Cmd.Out H String) (p : ArmParams)
  | teardown (sys : System Cmd Cmd.Out H String)

def Call.step {H : Type} (m : Moment H) : Call H → Moment H
  | .arm sys p => (Windows.arm sys p m).state
  | .teardown sys => (Windows.teardown sys m).state

section
variable {H : Type} {sys : System Cmd Cmd.Out H String} {p : ArmParams} {m : Moment H} {idx : ℕ}
lemma arm_found {j : ℕ} (ha : m.self.armed=false) (hm : m.self.Is (OnTun j))
    (hf : ∀ i, Found sys p i → i=idx) :
    Ends (fun _ => Since (Marked idx [.high,.low]) (·.OnlyOn idx) m.issued
        [.addHalf .high idx,.addHalf .low idx])
      (fun _ => Since (OnTun idx) (·.OnlyOn idx) m.issued []) (arm sys p) m := by
  refine (arm_ends ha hm).imp ?_ ?_
  · rintro _ n ⟨i,h,hn⟩
    rwa [hf i h] at hn
  · rintro _ n (h | ⟨i,h,hn⟩)
    · exact h idx
    · rw [hf i h] at hn
      exact hn.mono (fun hn _ _ => ⟨hn.1,hn.2.1⟩) (fun _ => id) (nil_subset _)

lemma arm_onTun (hm : m.self.Is (OnTun idx)) : ∃ i, (arm sys p m).state.self.Is (OnTun i) := by
  cases ha : m.self.armed with
  | true =>
    refine ⟨idx,state_of_stays (B := fun n => n.self.Is (OnTun idx)) (net_ends ?_)⟩
    rw [ha,if_pos rfl]
    exact Script.Safe.throw hm
  | false =>
    refine state_of_stays (B := fun n => ∃ i, n.self.Is (OnTun i)) ((arm_ends ha hm).imp ?_ ?_)
    · rintro _ n ⟨i,-,h⟩
      exact ⟨i,fun _ _ => ⟨h.1.1,h.1.2.1⟩⟩
    · rintro _ n (h | ⟨i,-,h⟩)
      · exact ⟨idx,(h idx).1⟩
      · exact ⟨i,fun _ _ => ⟨h.1.1,h.1.2.1⟩⟩

lemma onTun_run (st : H) (hs : List (Call H)) :
    ∃ i, (runFrom Call.step ⟨st,.default,[]⟩ hs).self.Is (OnTun i) := by
  refine run_invariant (I := fun m : Moment H => ∃ i, m.self.Is (OnTun i)) ?_
    ⟨0,fun half h => by cases half <;> contradiction⟩ hs
  rintro m (_ | _) ⟨i,hi⟩
  · exact arm_onTun hi
  · exact ⟨i,(state_of_stays (teardown_stays hi)).1⟩

lemma onTun_teardowns (hm : m.self.Is (OnTun idx)) (l : List (System Cmd Cmd.Out H String)) :
    (runFrom Call.step m (l.map .teardown)).self.Is (OnTun idx) := by
  have ha : ∀ e∈l.map Call.teardown, ∃ sys, Call.teardown sys=e := by simp
  refine run_invariant_of_mem (I := fun m : Moment H => m.self.Is (OnTun idx)) ?_ hm _ ha
  rintro m _ ⟨sys,rfl⟩ hm
  exact (state_of_stays (teardown_stays hm)).1
end

theorem windows_routes_on_tunnel {H : Type} (start : H) (history : List (Call H))
    (sys : System Cmd Cmd.Out H String) (p : ArmParams) (out : Bytes) (before after : List Line) (a : Adapter)
    (hout : textLines out=(before++.adapter a::after).map Line.bytes)
    (hidx : ((before++.adapter a::after).filterMap Line.idx?).Nodup)
    (hname : utf8 p.tunName=a.name.1)
    (hshow : ∀ x o, (sys.exec .showInterfaces x).1=.success o → o=out)
    (hidle : (runFrom Call.step ⟨start,.default,[]⟩ history).self.armed=false) :
    (ifIndexForName (utf8 p.tunName) out=some a.idx ↔ Unshadowed before a.name.1) ∧
    (Unshadowed before a.name.1 →
      let m:=runFrom Call.step ⟨start,.default,[]⟩ history
      let r:=arm sys p m
      (∃ new, r.state.issued=new++m.issued ∧ (∀ c∈new, c.OnlyOn a.idx) ∧
        (r.result=.ok () → ∀ half, .addHalf half a.idx∈new ∧ r.state.self.added half=true)) ∧
      ∀ (later : List (System Cmd Cmd.Out H String)) (last : System Cmd Cmd.Out H String),
        let n:=runFrom Call.step r.state (later.map .teardown)
        ∃ new, (teardown last n).state.issued=new++n.issued ∧ (∀ c∈new, c.OnlyOn a.idx) ∧
          ∀ half, n.self.added half=true → .deleteHalf half a.idx∈new) := by
  have hi:=ifIndexForName_iff hout hidx
  refine ⟨hname ▸ hi,fun hu => ?_⟩
  have hf (i : ℕ) (h : Found sys p i) : i=a.idx := by
    obtain ⟨x,o,ho,he⟩ := h
    rw [hshow x o ho,hname,hi.mpr hu] at he
    exact (some.inj he).symm
  obtain ⟨j,hj⟩ := onTun_run start history
  have hs:=arm_found hidle hj hf
  refine ⟨?_,fun later last => ?_⟩
  · cases h : (arm sys p (runFrom Call.step ⟨start,.default,[]⟩ history)).result with
    | error e =>
      obtain ⟨-,new,hn,ho,-⟩ := hs.error h
      exact ⟨new,hn,ho,nofun⟩
    | ok u =>
      obtain ⟨hm,new,hn,ho,hd⟩ := hs.ok h
      refine ⟨new,hn,ho,fun _ half => ⟨hd ?_,hm.2.2 half ?_⟩⟩
      · cases half <;> simp
      · cases half <;> simp
  · have ht:=(state_of_stays (hs.imp_left fun _ _ hn => hn.mono (M := OnTun a.idx)
      (fun hn _ _ => ⟨hn.1,hn.2.1⟩) (fun _ => id) (nil_subset _))).1
    obtain ⟨-,new,hn,ho,hd⟩ := state_of_stays (x := teardown last) (teardown_stays (onTun_teardowns ht later))
    refine ⟨new,hn,ho,fun half hh => hd ?_⟩
    cases half <;> simp [deletions,hh]

/-- A row ` idx 25 1 up name`. -/
def netshRow (idx : ℕ) (name : Str) (hi : idx<2^32)
    (hs : (characters name.1).getLast?.any (!isWhitespace ·.1)=true) : Adapter :=
  ⟨1,idx,⟨[50,53,32,49,32,117,112],by decide⟩,name,0,hi,hs⟩

/-- `Idx Name`, then the rows `LAN 2`, `Old nil0` and `nil0`. -/
def heading : Line := .other ([73,100,120,32,78,97,109,101]) (by decide)
def ethernet : Adapter := netshRow 7 ⟨[76,65,78,32,50],by decide⟩ (by norm_num) (by decide)
def oldTunnel : Adapter := netshRow 7 ⟨[79,108,100,32,110,105,108,48],by decide⟩ (by norm_num) (by decide)
def tunnel : Adapter := netshRow 12 ⟨[110,105,108,48],by decide⟩ (by norm_num) (by decide)
def listing (above : Adapter) : Bytes := joinLines ([heading,.adapter above,.adapter tunnel].map Line.bytes)

/-- Every command succeeds, and `out` lists the interfaces. -/
def showing (out : Bytes) : System Cmd Cmd.Out Unit String where
  exec c x := match c with
    | .showInterfaces => (.success out,x)
    | .captureDefaultOutbound | .showRoute => (.success [],x)
    | .applyKillSwitch .. | .disarmKillSwitch _ | .addPin .. | .deletePin .. | .addHalf .. | .deleteHalf ..
    | .setDns .. | .addDns .. => (.success (),x)
  fate _ := .ok
  complaint _ := ""

def nil0 : ArmParams := ⟨.v4 ⟨192,0,2,7⟩,"nil0",[],false,[]⟩

theorem tunnel_below_ethernet :
    textLines (listing ethernet)=[heading,.adapter ethernet,.adapter tunnel].map Line.bytes ∧
    ifIndexForName (utf8 nil0.tunName) (listing ethernet)=some 12 := by
  have hl : textLines (listing ethernet)=[heading,.adapter ethernet,.adapter tunnel].map Line.bytes := by decide
  refine ⟨hl,(windows_routes_on_tunnel () [] (showing (listing ethernet)) nil0 (listing ethernet)
    [heading,.adapter ethernet] [] tunnel hl (by decide) (by decide) ?_ rfl).1.mpr ?_⟩
  · exact fun _ _ h => (Exit.success.inj h).symm
  · intro b hb
    simp only [mem_cons,not_mem_nil,or_false,heading,reduceCtorEq,Line.adapter.injEq,false_or] at hb
    rw [hb]
    decide

/-- A row above whose name ends in the tunnel's name gets the routes. -/
theorem routes_on_old_tunnel :
    textLines (listing oldTunnel)=[heading,.adapter oldTunnel,.adapter tunnel].map Line.bytes ∧
    utf8 nil0.tunName=tunnel.name.1 ∧ ifIndexForName (utf8 nil0.tunName) (listing oldTunnel)=some 7 ∧
    tunnel.idx=12 ∧ (arm (showing (listing oldTunnel)) nil0 ⟨(),.default,[]⟩).state.issued =
      [.addHalf .high 7,.addHalf .low 7,.showRoute,.showInterfaces] := by
  exact ⟨by decide,by decide,by decide,rfl,by decide +kernel⟩
end NilVpn.Datapath.Windows
