import NilVpn.Datapath.Rollback

/-!
# The kill-switch leaves no leak window (nil-datapath/src/linux.rs:34-160, 286-379)
-/

namespace NilVpn.Datapath.Linux
open Or Base List Script

/-- DNS, the default routes and the pinned routes of the host are as they were before `arm`. -/
structure Restored (p : ArmParams) (h₀ h : Host) : Prop where
  resolv : h.resolv=h₀.resolv
  defaults : h.defaults=h₀.defaults
  routes : ∀ ip∈p.nodeIp::p.alsoExcept, h.routes ip=h₀.routes ip

instance (p : ArmParams) (h₀ h : Host) : Decidable (Restored p h₀ h) :=
  decidable_of_iff (h.resolv=h₀.resolv ∧ h.defaults.entries=h₀.defaults.entries ∧
      ∀ ip∈p.nodeIp::p.alsoExcept, h.routes ip=h₀.routes ip)
    ⟨fun hr => ⟨hr.1,MetricTable.ext hr.2.1,hr.2.2⟩,fun hr => ⟨hr.resolv,congrArg _ hr.defaults,hr.routes⟩⟩

/-- No step of the rollback before the firewall has anything to do. -/
def LinuxNet.Settled (n : LinuxNet) : Prop :=
  n.dnsTouched=false ∧ n.defaultChanged=false ∧ n.pinnedRoutes=[]

def Done (p : ArmParams) (h₀ : Host) (m : Moment) : Prop := Restored p h₀ m.host ∧ m.self.Settled

/-- The replacement of the default route has been issued, and the host is not restored or the
rollback has still something to restore. -/
def Exposed (p : ArmParams) (h₀ : Host) (m : Moment) : Prop :=
  .replaceDefault p.tunName∈m.issued ∧ ¬Done p h₀ m

def NoLeak (p : ArmParams) (h₀ : Host) (m : Moment) : Prop := Covered p m ∨ Done p h₀ m

variable {p : ArmParams} {h₀ : Host} {m : Moment} {env : Env} {errors : CleanupErrors}
lemma NoLeak.guarded (hm : NoLeak p h₀ m) (he : Exposed p h₀ m) : Guarded p m.host.filters := by
  rcases hm with (hu | hg) | hd
  · exact absurd he.1 hu
  · exact hg
  · exact absurd hd he.2

lemma Backed.done (hd : Distinct p) (hb : Backed p h₀ m.host m.self) (hs : m.self.Settled) :
    Done p h₀ m := by
  refine ⟨⟨hb.resolv hs.1,hb.defaults hs.2.1,fun ip _ => ?_⟩,hs⟩
  refine (hb.pins hd).others ip ?_
  rw [hs.2.2]
  exact not_mem_nil

/-- A step that only restores finds nothing to do once all is done. -/
lemma noLeak_keeps {x : Shell CleanupErrors} (hx : Keeps (Covered p) x)
    (hidle : ∀ m : Moment, m.self.Settled → x m=⟨.ok errors,m,[]⟩) : Keeps (NoLeak p h₀) x := by
  intro m hm
  rcases hm with hc | hd
  · exact (hx m hc).weaken fun _ => inl
  · rw [Safe,hidle m hd.2]
    exact ⟨fun _ hn => (by cases hn),inr hd⟩

lemma restoreDns_idle (hs : m.self.Settled) : restoreDns env errors m=⟨.ok errors,m,[]⟩ := by
  simp [restoreDns,net,view,Bind.bind,Script.bind,hs.1,Pure.pure]

lemma restoreDefaults_idle (hs : m.self.Settled) :
    restoreDefaults env errors m=⟨.ok errors,m,[]⟩ := by
  simp [restoreDefaults,net,view,Bind.bind,Script.bind,hs.2.1,Pure.pure]

lemma restoreRoutes_idle (hs : m.self.Settled) : restoreRoutes env errors m=⟨.ok errors,m,[]⟩ := by
  simp [restoreRoutes,restorePins,net,view,Bind.bind,Script.bind,hs.2.2,Pure.pure]

lemma covered_journalFree (p : ArmParams) : JournalFree (Covered p) := fun _ _ _ hm => hm

lemma done_lasting (env : Env) (p : ArmParams) (h₀ : Host) : Lasting env (Done p h₀) := by
  intro c hc m hm h hl
  suffices hr : h.resolv=m.host.resolv ∧ h.defaults=m.host.defaults ∧ h.routes=m.host.routes by
    obtain ⟨⟨hre,hde,hro⟩,hs⟩ := hm
    exact ⟨⟨hr.1.trans hre,hr.2.1.trans hde,fun ip hip => (congrFun hr.2.2 ip).trans (hro ip hip)⟩,hs⟩
  rcases hl with rfl | rfl
  · exact ⟨rfl,rfl,rfl⟩
  · cases c with
    | filter family op =>
      cases hn : (if op.fits family then ((m.host.filters family).apply op).map (m.host.setFilter family)
          else none) with
      | none => simp [Env.system,exec,hn,orRefuse]
      | some h' =>
        obtain ⟨t,-,rfl⟩ : ∃ t, (m.host.filters family).apply op=some t ∧ m.host.setFilter family t=h' := by
          split at hn
          · exact Option.map_eq_some_iff.mp hn
          · cases hn
        simp [Env.system,exec,hn,orRefuse,Host.setFilter]
    | checkOutput | listChain => exact ⟨rfl,rfl,rfl⟩
    | _ => exact hc.elim

lemma releaseFirewall_noLeak (hm : NoLeak p h₀ m) (hd : errors=[] → Done p h₀ m) :
    Safe (NoLeak p h₀) (fun _ => NoLeak p h₀) (fun _ => NoLeak p h₀) (releaseFirewall env errors) m := by
  refine Safe.bind (R := fun _ m' => m'=m) (Safe.view rfl) fun self m' hm' => ?_
  subst hm'
  split
  next hn =>
    rw [Bool.and_eq_true,List.isEmpty_iff] at hn
    suffices hk : Keeps (Done p h₀) _ from (hk m' (hd hn.1)).weaken fun _ => inr
    refine (attemptStep_keeps (disarmKillSwitch_keeps (done_lasting env p h₀)) _ _).bind fun r => ?_
    exact Keeps.ite (Keeps.bind (Keeps.update fun _ hm => hm) fun _ => Keeps.pure _) (Keeps.pure _)
  next => exact Safe.pure hm

lemma rollback_noLeak (hdi : Distinct p) (hb : Backed p h₀ m.host m.self) (hm : NoLeak p h₀ m) :
    Safe (NoLeak p h₀) (fun _ => NoLeak p h₀) (fun _ => NoLeak p h₀) (rollback env) m := by
  have hs:=covered_sees p
  have hj:=covered_journalFree p
  have hdn : Ends (DnsStage env m.host m.self []) (fun _ _ => True) (restoreDns env []) m :=
    restoreDns_ends [] ⟨rfl,rfl⟩
  refine ((noLeak_keeps (restoreDns_keeps hs hj []) fun _ => restoreDns_idle).and hm hdn).bind
    fun errors₁ m₁ h₁ => ?_
  have hde : Ends (DefaultsStage env m₁.host m₁.self errors₁) (fun _ _ => True)
      (restoreDefaults env errors₁) m₁ := restoreDefaults_ends errors₁ ⟨rfl,rfl⟩
  refine ((noLeak_keeps (restoreDefaults_keeps hs hj errors₁) fun _ => restoreDefaults_idle).and
    h₁.1 hde).bind fun errors₂ m₂ h₂ => ?_
  have hro : Ends (RoutesStage env m₂.host m₂.self errors₂ []) (fun _ _ => True)
      (restoreRoutes env errors₂) m₂ := restoreRoutes_ends errors₂ ⟨rfl,rfl⟩
  refine ((noLeak_keeps (restoreRoutes_keeps hs hj errors₂) fun _ => restoreRoutes_idle).and
    h₂.1 hro).bind fun errors₃ m₃ h₃ => ?_
  have hd : errors₃=[] → Done p h₀ m₃ := by
    intro ho
    obtain ⟨ho₂,hl₃⟩ := h₃.2.settled ho
    obtain ⟨ho₁,hl₂⟩ := h₂.2.settled ho₂
    obtain ⟨-,hl₁⟩ := h₁.2.settled ho₁
    have hb₃:=(h₃.2.backed (h₂.2.backed (h₁.2.backed hb).1).1).1
    refine hb₃.done hdi ?_
    rw [hl₃,hl₂,hl₁]
    exact ⟨rfl,rfl,rfl⟩
  refine (releaseFirewall_noLeak h₃.1 hd).bind fun errors₄ m₄ h₄ => ?_
  have hu : Keeps (NoLeak p h₀) (setNet fun self => {self with armed := self.pending}) :=
    Keeps.update fun _ hm => hm
  exact hu.bind (fun _ => finish_keeps errors₄) m₄ h₄

lemma teardown_noLeak (hdi : Distinct p) (hb : Backed p h₀ m.host m.self) (hm : NoLeak p h₀ m) :
    Safe (NoLeak p h₀) (fun _ => NoLeak p h₀) (fun _ => NoLeak p h₀) (teardown env) m := by
  refine Safe.bind (R := fun _ m' => m'=m) (Safe.view rfl) fun self m' hm' => ?_
  subst hm'
  split
  · exact rollback_noLeak hdi hb hm
  · exact Safe.pure hm

/-- What holds between two calls on an instance. -/
def Between (p : ArmParams) (h₀ : Host) (m : Moment) : Prop := NoLeak p h₀ m ∧ Held p h₀ m

lemma Between.attempt {α : Type} {x : Shell α}
    (hn : Safe (NoLeak p h₀) (fun _ => NoLeak p h₀) (fun _ => NoLeak p h₀) x m)
    (hh : Ends (fun _ => Held p h₀) (fun _ => Held p h₀) x m) :
    Safe (NoLeak p h₀) (fun _ => Between p h₀) (fun _ => Between p h₀) (Script.attempt x) m :=
  Safe.attempt ((hn.and hh).mono (fun _ hm => hm.1) (fun _ _ hm => hm) fun _ _ hm => hm)

lemma teardown_between (hc : h₀.Pristine) (hd : Distinct p) (hm : Between p h₀ m) :
    Safe (NoLeak p h₀) (fun _ => Between p h₀) (fun _ => Between p h₀)
      (do let _ ← Script.attempt (teardown env)) m := by
  have hh : Ends (fun _ => Held p h₀) (fun _ => Held p h₀) (teardown env) m :=
    (teardown_ends hc hm.2).imp (fun _ _ hm => hm.1) fun _ _ hm => hm.1
  exact (Between.attempt (teardown_noLeak hd hm.2.backed hm.1) hh).bind fun _ _ hm => Safe.pure hm

/-- In every moment of `arm` and of any number of `teardown` calls, whatever fails, the window
between the replaced default route and the restored host is guarded, if no address is pinned twice
and the name of the tunnel stands for one device. -/
theorem kill_switch_leaves_no_window (env : Env) (p : ArmParams) (hkill : p.killSwitch=true)
    (hdistinct : Distinct p) (hplain : Plain p.tunName) (h : Host) (hclean : h.Pristine)
    (later : List Env) :
    ∀ m∈(lifetime env p later (fresh h)).entered, Exposed p h m → Guarded p m.host.filters := by
  have hf : Before p h.filters (fresh h) := ⟨nofun,rfl⟩
  have hn : Safe (NoLeak p h) (fun _ => NoLeak p h) (fun _ => NoLeak p h) (arm env p) (fresh h) :=
    (arm_covered hclean hplain hkill hf).weaken fun _ => inl
  have hl : Safe (NoLeak p h) (fun _ => Between p h) (fun _ => Between p h) (lifetime env p later) (fresh h) :=
    (Between.attempt hn (arm_held hclean)).bind fun _ m hm =>
      Safe.each (K := fun _ => Between p h) (fun _ _ _ => teardown_between hclean hdistinct) later hm
  exact fun m hm => (hl.entered m hm).guarded

theorem kill_switch_leaves_no_window_sample :
    ∃ m∈(lifetime sampleEnv sampleParams [failsAt 30,sampleEnv] (fresh sampleHost)).entered,
      Exposed sampleParams sampleHost m ∧ Guarded sampleParams m.host.filters := by
  have ho : (lifetime sampleEnv sampleParams [failsAt 30,sampleEnv] (fresh sampleHost)).entered.any
      (fun m => decide (.replaceDefault sampleParams.tunName∈m.issued ∧
        ¬Restored sampleParams sampleHost m.host))=true := by
    decide +kernel
  obtain ⟨m,hm,hw⟩ := any_eq_true.mp ho
  rw [decide_eq_true_iff] at hw
  have hx : Exposed sampleParams sampleHost m := ⟨hw.1,fun hd => hw.2 hd.1⟩
  exact ⟨m,hm,hx,kill_switch_leaves_no_window sampleEnv sampleParams rfl (by decide +kernel)
    (by decide) sampleHost (by decide +kernel) [failsAt 30,sampleEnv] m hm hx⟩

def repinned : ArmParams :=
  {sampleParams with alsoExcept := sampleParams.alsoExcept++[sampleParams.nodeIp]}

def failsTwice : Env :=
  {sampleEnv with fate := fun j => if j=36 ∨ j=37 then .failed false else .ok}

def repinnedStates : List Moment :=
  (lifetime sampleEnv repinned [failsTwice,sampleEnv] (fresh sampleHost)).entered

def wildcard : ArmParams := {sampleParams with tunName := "nil+"}

/-- The node is pinned twice and the first `teardown` restores neither its second entry nor the other
address: the host is never restored, and yet the second one takes the jump away. Behind a tunnel
named `nil+` the chain also accepts what leaves on `nil7`. -/
theorem kill_switch_windows : sampleHost.Pristine ∧ repinned.killSwitch=true ∧ wildcard.killSwitch=true ∧
    (∀ m∈repinnedStates,
      .replaceDefault repinned.tunName∈m.issued → ¬Restored repinned sampleHost m.host) ∧
    (∃ m∈repinnedStates,
      Exposed repinned sampleHost m ∧ ¬Guarded repinned m.host.filters) ∧
    ∃ m∈(lifetime sampleEnv wildcard [] (fresh sampleHost)).entered,
      Exposed wildcard sampleHost m ∧ ¬Guarded wildcard m.host.filters := by
  have ho : repinnedStates.any
      (fun m => decide (.replaceDefault repinned.tunName∈m.issued ∧
        ¬Restored repinned sampleHost m.host ∧ (m.host.filters .v4).output.head?≠some (jump .v4)))=true := by
    decide +kernel
  have hw : (lifetime sampleEnv wildcard [] (fresh sampleHost)).entered.any
      (fun m => decide (.replaceDefault wildcard.tunName∈m.issued ∧
        ¬Restored wildcard sampleHost m.host ∧
        ((m.host.filters .v4).chain (nilChain .v4)).map (firstMatch · ⟨"nil7",.udp,.v4 ⟨8,8,8,8⟩,some 53⟩) =
          some (some .accept)))=true := by
    decide +kernel
  refine ⟨by decide +kernel,rfl,rfl,by decide +kernel,?_,?_⟩
  · obtain ⟨m,hm,hd⟩ := any_eq_true.mp ho
    obtain ⟨hi,hr,hj⟩ := decide_eq_true_iff.mp hd
    exact ⟨m,hm,⟨hi,fun hd => hr hd.1⟩,fun hg => hj (hg.jumpsFirst .v4)⟩
  · obtain ⟨m,hm,hd⟩ := any_eq_true.mp hw
    obtain ⟨hi,hr,ha⟩ := decide_eq_true_iff.mp hd
    refine ⟨m,hm,⟨hi,fun hd => hr hd.1⟩,fun hg => ?_⟩
    obtain ⟨rules,hc,hf⟩ := Option.map_eq_some_iff.mp ha
    have hk:=(hg.v4Accepts rules _ hc).mp hf
    revert hk
    decide
end NilVpn.Datapath.Linux
