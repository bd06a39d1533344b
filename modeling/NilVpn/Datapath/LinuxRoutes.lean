import NilVpn.Datapath.Linux

/-!
# Commands and routes of the Linux OS layer (nil-datapath/src/linux.rs:163-280)
-/

namespace NilVpn.Datapath.Linux
open Function Base List Script

variable {env : Env} {α : Type} {h : Host} {n : LinuxNet} {m : Moment}
structure Is (h : Host) (n : LinuxNet) (m : Moment) : Prop where
  host : m.host=h
  self : m.self=n

lemma Is.apply {P : Host → LinuxNet → Prop} (hm : Is h n m) (hp : P h n) : P m.host m.self := by
  rw [hm.host,hm.self]
  exact hp

abbrev Ends (Q : α → Moment → Prop) (E : String → Moment → Prop) (x : Shell α) (m : Moment) : Prop :=
  Safe (fun _ => True) Q E x m

variable {E : String → Moment → Prop}
lemma setNet_ends {f : LinuxNet → LinuxNet} (hm : Is h n m) : Ends (fun _ => Is h (f n)) E (setNet f) m :=
  Safe.update trivial ⟨hm.host,congrArg f hm.self⟩

lemma net_ends (hm : Is h n m) : Ends (fun self m' => self=n ∧ Is h n m') E net m :=
  Safe.view ⟨hm.self,hm⟩

lemma sh_done {c : Cmd} {a : c.Out} {h' : Host} (hc : exec env.lookup c h=(.success a,h')) (hm : Is h n m) :
    Ends (fun b m' => b=a ∧ Is h' n m')
      (fun _ m' => env.system.Faulty ∧ (Is h n m' ∨ Is h' n m')) (sh env c) m := by
  obtain ⟨rfl,rfl⟩ := hm
  have he : env.system.exec c m.host=(.success a,h') := hc
  refine System.run_safe (fun _ _ => trivial) ?_ ?_
  · intro b hb
    rw [he] at hb ⊢
    cases hb
    exact ⟨rfl,rfl,rfl⟩
  · intro hcs h'' hl
    refine ⟨hcs.resolve_right fun hn => hn a (by rw [he]),?_⟩
    rcases hl with hl | hl
    · exact .inl ⟨hl,rfl⟩
    · rw [he] at hl
      exact .inr ⟨hl,rfl⟩

lemma sh_query {c : Cmd} {a : c.Out} (hc : exec env.lookup c h=(.success a,h)) (hm : Is h n m) :
    Ends (fun b m' => b=a ∧ Is h n m') (fun _ m' => env.system.Faulty ∧ Is h n m') (sh env c) m :=
  (sh_done hc hm).imp_right fun _ _ hE => ⟨hE.1,hE.2.elim id id⟩

lemma sh_refused {c : Cmd} {r : Exit c.Out} (hc : exec env.lookup c h=(r,h))
    (hr : ∀ a, r≠.success a) (hm : Is h n m) :
    Ends (fun _ _ => False) (fun _ m' => Is h n m') (sh env c) m := by
  obtain ⟨rfl,rfl⟩ := hm
  have he : env.system.exec c m.host=(r,m.host) := hc
  refine System.run_safe (fun _ _ => trivial) ?_ ?_
  · intro a ha
    rw [he] at ha
    exact hr a ha
  · intro _ h' hl
    refine ⟨?_,rfl⟩
    rcases hl with hl | hl
    · exact hl
    · exact hl.trans (congrArg Prod.snd he)

lemma captureDefaultRoutes_ends (hm : Is h n m) :
    Ends (fun ro m' => ro=h.defaults.entries ∧ ro.length≤64 ∧ Is h n m')
      (fun _ m' => Is h n m' ∧ (env.system.Faulty ∨ 64<h.defaults.entries.length))
      (captureDefaultRoutes env) m := by
  have hs : exec env.lookup .showDefaults h=(.success h.defaults.entries,h) := rfl
  refine ((sh_query hs hm).imp_right fun _ _ hE => ⟨hE.2,.inl hE.1⟩).bind ?_
  intro ro m' hr
  obtain ⟨rfl,hm'⟩ := hr
  split
  next hmn => exact Safe.throw ⟨hm',.inr hmn⟩
  next hf => exact Safe.pure ⟨rfl,by omega,hm'⟩

def Replaying (h : Host) (n : LinuxNet) (original rest : List (ℕ × List String)) (m : Moment) :
    Prop :=
  ∃ s, Is {h with defaults := s} n m ∧
    ∀ t : MetricTable (List String), original=t.entries → t.entries=s.entries++rest

/-- The replay stopped at an error; the entries of a table are never refused. -/
def ReplayFailed (env : Env) (h : Host) (n : LinuxNet) (original : List (ℕ × List String))
    (m : Moment) : Prop :=
  ∃ s, Is {h with defaults := s} n m ∧ ∀ t : MetricTable (List String), original=t.entries →
      env.system.Faulty ∧ s.entries.length≤t.entries.length

lemma addDefault_ends {o rest : List (ℕ × List String)} (r : ℕ × List String)
    (hm : Replaying h n o (r::rest) m) :
    Ends (fun _ => Replaying h n o rest) (fun _ => ReplayFailed env h n o)
      (sh env (.addDefault r.1 r.2)) m := by
  obtain ⟨s,hm,hs⟩ := hm
  have he : exec env.lookup (.addDefault r.1 r.2) {h with defaults := s} =
      orRefuse {h with defaults := s} ((s.add r.1 r.2).map fun t => {h with defaults := t}) := rfl
  cases hd : s.add r.1 r.2 with
  | none =>
    rw [hd] at he
    refine (sh_refused he nofun hm).imp (fun _ _ hQ => hQ.elim) ?_
    intro _ m' hm'
    refine ⟨s,hm',fun t ht => ?_⟩
    obtain ⟨s',hs',-⟩ := MetricTable.add_next (hs t ht) rfl
    rw [hd] at hs'
    cases hs'
  | some s' =>
    have hn (t : MetricTable (List String)) (ht : o=t.entries) : s'.entries=s.entries++[r] := by
      obtain ⟨s'',hs'',hen⟩ := MetricTable.add_next (hs t ht) rfl
      rw [hd] at hs''
      cases hs''
      exact hen
    rw [hd] at he
    refine (sh_done he hm).imp ?_ ?_
    · intro _ m' hQ
      refine ⟨s',hQ.2,fun t ht => ?_⟩
      rw [hn t ht,hs t ht,append_assoc]
      rfl
    · intro _ m' hE
      obtain ⟨hf,hm' | hm'⟩ := hE
      · refine ⟨s,hm',fun t ht => ⟨hf,?_⟩⟩
        rw [hs t ht,length_append]
        omega
      · refine ⟨s',hm',fun t ht => ⟨hf,?_⟩⟩
        rw [hs t ht,hn t ht]
        simp

variable (o : List (ℕ × List String))
lemma replayDefaults_ends (he : h.defaults.entries=[]) (hm : Is h n m) :
    Ends (fun _ => Replaying h n o []) (fun _ => ReplayFailed env h n o) (replayDefaults env o) m := by
  refine Safe.each (K := Replaying h n o) (fun ro _ _ hm => addDefault_ends ro hm) o
    ⟨h.defaults,hm,fun t ht => ?_⟩
  rw [he,← ht]
  rfl

/-- With `turns` turns left and fewer routes than that, only a failing command stops the loop. -/
def TurnsFailed (env : Env) (h : Host) (n : LinuxNet) (original : List (ℕ × List String))
    (turns : ℕ) (m : Moment) : Prop :=
  ∃ s, Is {h with defaults := s} n m ∧
    ∀ t : MetricTable (List String), original=t.entries → t.entries.length≤64 → h.defaults.entries.length≤64 →
      s.entries.length≤64 ∧ (h.defaults.entries.length<turns → env.system.Faulty)

lemma restoreTurns_ends (turns : ℕ) (hm : Is h n m) :
    Ends (fun _ => Replaying h n o []) (fun _ => TurnsFailed env h n o turns)
      (restoreTurns env o turns) m := by
  induction turns generalizing h m with
  | zero => exact Safe.throw ⟨h.defaults,hm,fun _ _ _ hw => ⟨hw,fun hlt => by omega⟩⟩
  | succ turns ih =>
    refine ((captureDefaultRoutes_ends hm).imp_right ?_).bind ?_
    · intro _ m' hE
      refine ⟨h.defaults,hE.1,fun _ _ _ hw => ⟨hw,fun _ => hE.2.resolve_right ?_⟩⟩
      omega
    intro ro m' hr
    obtain ⟨rfl,-,hm'⟩ := hr
    split
    next he =>
      refine (replayDefaults_ends o (List.isEmpty_iff.mp he) hm').imp_right ?_
      intro _ m' hE
      obtain ⟨s,hm',hs⟩ := hE
      refine ⟨s,hm',fun t ht hl _ => ⟨?_,fun _ => (hs t ht).1⟩⟩
      exact le_trans (hs t ht).2 hl
    next hsm =>
      obtain ⟨⟨es,hso⟩,ro,re,f⟩ := h
      cases es with
      | nil => exact absurd rfl hsm
      | cons e es =>
        have hd : exec env.lookup .delDefault ⟨⟨e::es,hso⟩,ro,re,f⟩ =
            (.success (),⟨⟨es,(pairwise_cons.mp hso).2⟩,ro,re,f⟩) := rfl
        refine ((sh_done hd hm').imp_right ?_).bind ?_
        · intro _ m' hE
          obtain ⟨hf,hm' | hm'⟩ := hE
          · exact ⟨_,hm',fun _ _ _ hw => ⟨hw,fun _ => hf⟩⟩
          · exact ⟨_,hm',fun _ _ _ hw => ⟨le_trans (Nat.le_succ _) hw,fun _ => hf⟩⟩
        · intro _ m' hQ
          refine (ih hQ.2).imp_right ?_
          intro _ m' hE
          obtain ⟨s,hm',hs⟩ := hE
          refine ⟨s,hm',fun t ht hl hw => ?_⟩
          simp only [length_cons] at hw ⊢
          obtain ⟨hs,hf⟩ := hs t ht hl (le_trans (Nat.le_succ _) hw)
          exact ⟨hs,fun hlt => hf (Nat.lt_of_succ_lt_succ hlt)⟩

def Rerouted (h : Host) (n : LinuxNet) (ip : IpAddr) (m : Moment) : Prop :=
  ∃ routes, (∀ a, a≠ip → routes a=h.routes a) ∧ Is {h with routes := routes} n m

variable (ip : IpAddr)
lemma rerouted_same (hm : Is h n m) : Rerouted h n ip m := ⟨h.routes,fun _ _ => rfl,hm⟩

lemma rerouted_update {r : Option (List String)} (hm : Is {h with routes := update h.routes ip r} n m) :
    Rerouted h n ip m :=
  ⟨_,fun _ ha => update_of_ne ha ..,hm⟩

lemma prepareNodeRoute_ends (hm : Is h n m) :
    Ends (fun route m' => route=⟨ip,h.routes ip⟩ ∧ Is h n m') (fun _ => Is h n)
      (prepareNodeRoute env ip) m := by
  have hs : exec env.lookup (.showExact ip) h=(.success (h.routes ip).toList,h) := rfl
  refine ((sh_query hs hm).imp_right fun _ _ hE => hE.2).bind ?_
  intro li m' hl
  obtain ⟨rfl,hm'⟩ := hl
  cases hr : h.routes ip with
  | none | some => exact Safe.pure ⟨rfl,hm'⟩

lemma replaceRoute_ends (spec : List String) (hm : Is h n m) :
    Ends (fun _ => Is {h with routes := update h.routes ip (some spec)} n)
      (fun _ m' => env.system.Faulty ∧ Rerouted h n ip m') (sh env (.replaceRoute ip spec)) m := by
  have hr : exec env.lookup (.replaceRoute ip spec) h =
    (.success (),{h with routes := update h.routes ip (some spec)}) := rfl
  exact (sh_done hr hm).imp (fun _ _ hQ => hQ.2)
    fun _ _ hE => ⟨hE.1,hE.2.elim (rerouted_same ip) (rerouted_update ip)⟩

lemma applyNodeRoute_ends (hm : Is h n m) :
    Ends (fun _ => Rerouted h n ip) (fun _ => Rerouted h n ip) (applyNodeRoute env ip) m := by
  have hg : Ends (fun _ => Is h n) (fun _ => Rerouted h n ip) (sh env (.routeGet ip)) m := by
    cases hl : env.lookup h ip with
    | none =>
      have he : exec env.lookup (.routeGet ip) h=(.failure,h) := by simp only [exec,hl]
      exact (sh_refused he nofun hm).imp (fun _ _ hQ => hQ.elim)
        fun _ _ hE => rerouted_same ip hE
    | some toks =>
      have he : exec env.lookup (.routeGet ip) h=(.success toks,h) := by simp only [exec,hl]
      exact (sh_query he hm).imp (fun _ _ hQ => hQ.2) fun _ _ hE => rerouted_same ip hE.2
  have hs (spec : List String) (m : Moment) (hm : Is h n m) :
      Ends (fun _ => Rerouted h n ip) (fun _ => Rerouted h n ip) (sh env (.replaceRoute ip spec)) m :=
    (replaceRoute_ends ip spec hm).imp (fun _ _ hQ => rerouted_update ip hQ) fun _ _ hE => hE.2
  refine hg.bind fun toks m' hm' => ?_
  split
  · exact Safe.throw (rerouted_same ip hm')
  · exact hs _ m' hm'
  · exact hs _ m' hm'

lemma restorePin_ends (r : PinnedRoute) (hm : Is h n m) :
    Ends (fun _ => Is {h with routes := update h.routes r.ip r.previous} n)
      (fun _ m' => env.system.Faulty ∧ Rerouted h n r.ip m') (restorePin env r) m := by
  obtain ⟨ip,pr⟩ := r
  cases pr with
  | some pr => exact replaceRoute_ends ip pr hm
  | none =>
    have hsh : exec env.lookup (.showExact ip) h=(.success (h.routes ip).toList,h) := rfl
    refine ((sh_query hsh hm).imp_right fun _ _ hE => ⟨hE.1,rerouted_same ip hE.2⟩).bind ?_
    intro li m' hl
    obtain ⟨rfl,hm'⟩ := hl
    cases hr : h.routes ip with
    | none =>
      have hs : update h.routes ip none=h.routes := hr ▸ update_eq_self ip h.routes
      refine Safe.pure ?_
      simp only [hs]
      exact hm'
    | some spec =>
      have hd : exec env.lookup (.delRoute ip) h =
          (.success (),{h with routes := update h.routes ip none}) := by
        simp [exec,hr,orRefuse]
      exact (sh_done hd hm').imp (fun _ _ hQ => hQ.2)
        fun _ _ hE => ⟨hE.1,hE.2.elim (rerouted_same ip) (rerouted_update ip)⟩
end NilVpn.Datapath.Linux
