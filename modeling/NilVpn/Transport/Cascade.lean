import NilVpn.Core.Attestation

/-!
# The cascade of transports (nil-transport/src/cascade.rs:94-140)
-/

namespace NilVpn.Transport
open List
open NilVpn.Core (Error Grant NodeEndpoint Session TransportKind)

/-- How a `connect` under the timeout ends; only a session that it returns is open. -/
inductive Outcome
  | connected (session : Session)
  | failed (e : Error)
  | timedOut

/-- A transport, with what the probe finds out about a session on it. -/
structure Rung where
  kind : TransportKind
  connect : NodeEndpoint → Grant → Outcome
  isAlive : Session → Bool

inductive CascadeStep
  | tried (rung : ℕ)
  | opened (rung : ℕ) (session : Session)
  | closed (rung : ℕ) (session : Session)
  deriving DecidableEq

def kindDebug : TransportKind → String
  | .masque => "Masque"
  | .amneziaWg => "AmneziaWg"
  | .wstunnel => "Wstunnel"
  | .reality => "Reality"
  | .loopback => "Loopback"

section
variable (probe : Bool) (target : NodeEndpoint) (creds : Grant)
/-- The loop, from the rung with index `i` on: the steps it takes and its result. -/
def cascadeFrom (i : ℕ) (last : Option Error) : List Rung → List CascadeStep × Except Error (ℕ × Session)
  | [] => ([],.error (last.getD (.transport "cascade has no rungs")))
  | rung::rungs =>
    match rung.connect target creds with
    | .failed e =>
      let (steps,result) := cascadeFrom (i+1) (some e) rungs
      (.tried i::steps,result)
    | .timedOut =>
      let timeout:=.transport s!"{kindDebug rung.kind} connect timed out"
      let (steps,result) := cascadeFrom (i+1) (some timeout) rungs
      (.tried i::steps,result)
    | .connected session =>
      if probe&&!rung.isAlive session then
        let dead:=.transport s!"{kindDebug rung.kind} connected but failed the liveness probe"
        let (steps,result) := cascadeFrom (i+1) (some dead) rungs
        (.tried i::.opened i session::.closed i session::steps,result)
      else ([.tried i,.opened i session],.ok (i,session))

def cascadeConnect (rungs : List Rung) : List CascadeStep × Except Error (ℕ × Session) :=
  cascadeFrom probe target creds 0 none rungs

/-- The session of a rung that connects in time and passes the probe, if there is one. -/
def working (rung : Rung) : Option Session :=
  match rung.connect target creds with
  | .connected session => if probe&&!rung.isAlive session then none else some session
  | _ => none

/-- All that is done on a rung that does not work. -/
def declined (rung : Rung × ℕ) : List CascadeStep :=
  match rung.1.connect target creds with
  | .connected session => [.tried rung.2,.opened rung.2 session,.closed rung.2 session]
  | _ => [.tried rung.2]

variable {probe target creds}
lemma cascadeFrom_declined {rung : Rung} (h : working probe target creds rung=none) (i : ℕ)
    (l : Option Error) (r : List Rung) :
    ∃ e, cascadeFrom probe target creds i l (rung::r) =
      (declined target creds (rung,i)++(cascadeFrom probe target creds (i+1) (some e) r).1,
        (cascadeFrom probe target creds (i+1) (some e) r).2) := by
  rw [cascadeFrom]
  cases hc : rung.connect target creds with
  | failed e => exact ⟨e,by simp [declined,hc]⟩
  | timedOut => exact ⟨_,by simp [declined,hc]; exact ⟨rfl,rfl⟩⟩
  | connected se =>
    simp only [working,hc,ite_eq_left_iff,reduceCtorEq,imp_false,not_not] at h
    simp only [h,if_true,declined,hc]
    exact ⟨_,rfl⟩

lemma cascadeFrom_working {rung : Rung} {s : Session}
    (h : working probe target creds rung=some s) (i : ℕ) (l : Option Error)
    (r : List Rung) : cascadeFrom probe target creds i l (rung::r) =
      ([.tried i,.opened i s],.ok (i,s)) := by
  rw [cascadeFrom]
  cases hc : rung.connect target creds with
  | failed | timedOut => simp [working,hc] at h
  | connected se' =>
    simp only [working,hc] at h
    obtain ⟨hp,hs⟩ := Option.ite_none_left_eq_some.mp h
    obtain rfl:=Option.some.inj hs
    simp only [if_neg hp]

/-- The first working rung, or all rungs declined. -/
lemma cascadeFrom_ends (rungs : List Rung) (i : ℕ) (l : Option Error) :
    (∃ k rung se, rungs[k]?=some rung ∧ working probe target creds rung=some se ∧
      (∀ r∈rungs.take k, working probe target creds r=none) ∧
      cascadeFrom probe target creds i l rungs=(((rungs.take k).zipIdx i).flatMap (declined target creds)++
          [.tried (i+k),.opened (i+k) se],.ok (i+k,se))) ∨
    (∀ r∈rungs, working probe target creds r=none) ∧ ∃ e, cascadeFrom probe target creds i l rungs =
        ((rungs.zipIdx i).flatMap (declined target creds),.error e) := by
  induction rungs generalizing i l with
  | nil => exact .inr ⟨fun _ h => absurd h not_mem_nil,_,rfl⟩
  | cons rung rungs ih =>
    cases hw : working probe target creds rung with
    | some se =>
      exact .inl ⟨0,rung,se,rfl,hw,fun _ h => absurd h not_mem_nil,cascadeFrom_working hw i l rungs⟩
    | none =>
      obtain ⟨e,hs⟩ := cascadeFrom_declined hw i l rungs
      rcases ih (i+1) (some e) with ⟨k,found,se,hk,hf,hb,he⟩ | ⟨ha,e',he⟩
      · refine .inl ⟨k+1,found,se,hk,hf,forall_mem_cons.mpr ⟨hw,hb⟩,?_⟩
        rw [hs,he]
        simp [zipIdx_cons,Nat.add_assoc,Nat.add_comm 1 k]
      · refine .inr ⟨forall_mem_cons.mpr ⟨hw,ha⟩,e',?_⟩
        rw [hs,he]
        simp [zipIdx_cons]

lemma declined_balanced (r : Rung × ℕ) (i : ℕ) (session : Session) :
    (declined target creds r).count (.opened i session) =
      (declined target creds r).count (.closed i session) := by
  rw [declined]
  cases r.1.connect target creds with
  | failed | timedOut => simp
  | connected s => simp [count_cons]
end

theorem cascade_first_working (probe : Bool) (target : NodeEndpoint) (creds : Grant) (rungs : List Rung) :
    (∀ i session, (cascadeConnect probe target creds rungs).2=.ok (i,session) ↔
      (∃ rung, rungs[i]?=some rung ∧ working probe target creds rung=some session) ∧
        ∀ rung∈rungs.take i, working probe target creds rung=none) ∧
    (∀ i session, (cascadeConnect probe target creds rungs).2=.ok (i,session) →
      (cascadeConnect probe target creds rungs).1 =
        (rungs.take i).zipIdx.flatMap (declined target creds)++[.tried i,.opened i session]) ∧
    ∀ e, (cascadeConnect probe target creds rungs).2=.error e →
      (cascadeConnect probe target creds rungs).1=rungs.zipIdx.flatMap (declined target creds) ∧
        ∀ i session, (cascadeConnect probe target creds rungs).1.count (.opened i session) =
          (cascadeConnect probe target creds rungs).1.count (.closed i session) := by
  rw [cascadeConnect]
  rcases cascadeFrom_ends rungs 0 none with ⟨k,found,session,hk,hf,hb,he⟩ | ⟨ha,e,he⟩
  · rw [Nat.zero_add] at he
    rw [he]
    refine ⟨fun i session' => ⟨fun h => ?_,?_⟩,fun i session' h => ?_,fun e => nofun⟩
    · obtain ⟨rfl,rfl⟩ := Prod.mk.inj (Except.ok.inj h)
      exact ⟨⟨found,hk,hf⟩,hb⟩
    · rintro ⟨⟨rung,hi,hr⟩,hfi⟩
      rcases Nat.lt_trichotomy i k with hlt | rfl | hgt
      · have:=hb rung (mem_of_getElem? ((List.getElem?_take_of_lt hlt).trans hi))
        rw [hr] at this
        cases this
      · obtain rfl:=Option.some.inj (hk.symm.trans hi)
        rw [Option.some.inj (hf.symm.trans hr)]
      · have:=hfi found (mem_of_getElem? ((List.getElem?_take_of_lt hgt).trans hk))
        rw [hf] at this
        cases this
    · obtain ⟨rfl,rfl⟩ := Prod.mk.inj (Except.ok.inj h)
      rfl
  · rw [he]
    refine ⟨fun i session => ⟨nofun,?_⟩,fun i session => nofun,fun e' _ => ⟨rfl,fun i session => ?_⟩⟩
    · rintro ⟨⟨rung,hi,hr⟩,-⟩
      rw [ha rung (mem_of_getElem? hi)] at hr
      cases hr
    · simp only [count_flatMap,Function.comp_def,declined_balanced]
end NilVpn.Transport
