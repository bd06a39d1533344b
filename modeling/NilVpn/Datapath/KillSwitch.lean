import NilVpn.Datapath.LinuxStages

/-!
# The kill-switch is up before the default route is replaced (nil-datapath/src/linux.rs:34-93, 286-379)
-/

namespace NilVpn.Datapath.Linux
open Or Base List Script

structure Guarded (p : ArmParams) (filters : Family → FilterTable) : Prop where
  jumpsFirst : ∀ family, (filters family).output.head?=some (jump family)
  dropsLast : ∀ family, ∃ rules, (filters family).chain (nilChain family)=some (rules++[.always .drop])
  v4Accepts : ∀ rules k, (filters .v4).chain (nilChain .v4)=some rules →
    (firstMatch rules k=some .accept ↔ k.out = "lo" ∨ k.out=p.tunName ∨
      ((k.proto=.udp ∨ k.proto=.tcp) ∧ k.dst=p.nodeIp ∧ k.dport=some 443) ∨
      k.dst∈p.alsoExcept)
  v6Accepts : ∀ rules k, (filters .v6).chain (nilChain .v6)=some rules →
    firstMatch rules k=some .accept → k.out = "lo" ∨ k.out=p.tunName

lemma lo_plain : Plain "lo" := by decide

lemma exceptions_hit {p : ArmParams} (hp : Plain p.tunName) (k : Packet) :
    (∃ r∈exceptions p.nodeIp p.alsoExcept p.tunName, r.hits k) ↔ k.out = "lo" ∨ k.out=p.tunName ∨
        ((k.proto=.udp ∨ k.proto=.tcp) ∧ k.dst=p.nodeIp ∧ k.dport=some 443) ∨
        k.dst∈p.alsoExcept := by
  simp only [exceptions,mem_append,mem_cons,not_mem_nil,or_false,mem_map]
  constructor
  · intro h
    obtain ⟨r,(rfl | rfl | rfl | rfl) | ⟨ip,hip,rfl⟩,hh⟩ := h
    · exact inl ((lo_plain.hits_iff _).mp ((Rule.hits_outOf ..).mp hh))
    · exact inr (inl ((hp.hits_iff _).mp ((Rule.hits_outOf ..).mp hh)))
    · simp_all [Rule.hits_service,inr]
    · simp_all [Rule.hits_service,inr]
    · exact inr (inr (inr ((Rule.hits_toward .. |>.mp hh) ▸ hip)))
  · intro h
    rcases h with h | h | ⟨hu | ht,hr⟩ | h
    · exact ⟨_,inl (inl rfl),(Rule.hits_outOf ..).mpr ((lo_plain.hits_iff _).mpr h)⟩
    · exact ⟨_,inl (inr (inl rfl)),(Rule.hits_outOf ..).mpr ((hp.hits_iff _).mpr h)⟩
    · exact ⟨_,inl (inr (inr (inl rfl))),(Rule.hits_service ..).mpr ⟨hu,hr⟩⟩
    · exact ⟨_,inl (inr (inr (inr rfl))),(Rule.hits_service ..).mpr ⟨ht,hr⟩⟩
    · exact ⟨_,inr ⟨_,h,rfl⟩,(Rule.hits_toward ..).mpr rfl⟩

variable {p : ArmParams} {orig : Family → FilterTable} {st : Family → ChainState}
lemma Sealed.guarded (hs : Sealed p st) (hp : Plain p.tunName)
    (ho : ∀ f, (orig f).Lacks (nilChain f)) : Guarded p (owned orig st) := by
  obtain ⟨ac,ha,hv⟩ := hs.v6
  have hch : (owned orig st .v4).chain (nilChain .v4) =
      some (exceptions p.nodeIp p.alsoExcept p.tunName++[.always .drop]) := by
    rw [owned,ChainState.chain_within (ho .v4),hs.v4]
    rfl
  have hc : (owned orig st .v6).chain (nilChain .v6)=some (ac++[.always .drop]) := by
    rw [owned,ChainState.chain_within (ho .v6),hv]
    rfl
  constructor
  · intro f
    cases f with
    | v4 => rw [owned,hs.v4]; rfl
    | v6 => rw [owned,hv]; rfl
  · intro f
    cases f with
    | v4 => exact ⟨_,hch⟩
    | v6 => exact ⟨_,hc⟩
  · intro ru k hl
    rw [hch] at hl
    cases hl
    rw [firstMatch_then_drop fun r hr => exceptions_accept hr]
    exact exceptions_hit hp k
  · intro ru k hl hac
    rw [hc] at hl
    cases hl
    have ht : ∀ r∈ac, r.target=.accept := by
      intro r hr
      rcases mem_pair.mp (ha hr) with rfl | rfl <;> rfl
    obtain ⟨r,hr,hh⟩ := (firstMatch_then_drop ht k).mp hac
    rcases mem_pair.mp (ha hr) with rfl | rfl
    · exact .inl ((lo_plain.hits_iff _).mp ((Rule.hits_outOf ..).mp hh))
    · exact .inr ((hp.hits_iff _).mp ((Rule.hits_outOf ..).mp hh))

def Cmd.Quiet : Cmd → Prop
  | .filter .. | .replaceDefault _ => False
  | _ => True

lemma orRefuse_filters {h : Host} {n : Option Host} (hn : ∀ h', n=some h' → h'.filters=h.filters) :
    (orRefuse h n).2.filters=h.filters := by
  cases n with
  | none => rfl
  | some h' => exact hn h' rfl

lemma exec_filters (lo : Host → IpAddr → Option (List String)) {c : Cmd} (hc : c.Quiet)
    (h : Host) : (exec lo c h).2.filters=h.filters := by
  cases c with
  | filter | replaceDefault => exact hc.elim
  | addDefault k spec =>
    refine orRefuse_filters fun h' hh' => ?_
    obtain ⟨t,-,rfl⟩ := Option.map_eq_some_iff.mp hh'
    rfl
  | delDefault =>
    refine orRefuse_filters fun h' hh' => ?_
    obtain ⟨t,-,rfl⟩ := Option.map_eq_some_iff.mp hh'
    rfl
  | delRoute ip =>
    refine orRefuse_filters fun h' hh' => ?_
    split at hh'
    · cases hh'
      rfl
    · cases hh'
  | routeGet | readResolv => simp only [exec]; split <;> rfl
  | _ => rfl

/-- `B` looks at the filter tables, at the data of the OS layer, and at whether the replacement of
the default route has been issued. -/
def Sees (p : ArmParams) (B : Moment → Prop) : Prop :=
  ∀ m m' : Moment, m'.host.filters=m.host.filters → m'.self=m.self →
    (.replaceDefault p.tunName∈m'.issued → .replaceDefault p.tunName∈m.issued) → B m → B m'

variable {B : Moment → Prop} {env : Env}
section
variable (hB : Sees p B)
include hB
lemma sh_keeps (c : Cmd) (hc : c.Quiet) : Keeps B (sh env c) := by
  refine System.run_keeps fun m hm h hl => hB m _ ?_ rfl ?_ hm
  · rcases hl with rfl | rfl
    · rfl
    · exact exec_filters env.lookup hc m.host
  · intro his
    rcases mem_cons.mp his with rfl | his
    · exact hc.elim
    · exact his

lemma captureDefaultRoutes_keeps : Keeps B (captureDefaultRoutes env) :=
  (sh_keeps hB .showDefaults trivial).bind fun _ => Keeps.ite (Keeps.throw _) (Keeps.pure _)

lemma restoreTurns_keeps (o : List (ℕ × List String)) (t : ℕ) : Keeps B (restoreTurns env o t) := by
  induction t with
  | zero => exact Keeps.throw _
  | succ t ih =>
    refine (captureDefaultRoutes_keeps hB).bind fun _ => Keeps.ite ?_ ?_
    · exact Keeps.each (fun ro => sh_keeps hB (.addDefault ro.1 ro.2) trivial) o
    · exact (sh_keeps hB .delDefault trivial).bind fun _ => ih

lemma prepareNodeRoute_keeps (ip : IpAddr) : Keeps B (prepareNodeRoute env ip) := by
  refine (sh_keeps hB (.showExact ip) trivial).bind fun li => ?_
  split
  · exact Keeps.pure _
  · exact Keeps.pure _
  · exact Keeps.throw _

lemma applyNodeRoute_keeps (ip : IpAddr) : Keeps B (applyNodeRoute env ip) := by
  refine (sh_keeps hB (.routeGet ip) trivial).bind fun t => ?_
  split
  · exact Keeps.throw _
  · exact sh_keeps hB _ trivial
  · exact sh_keeps hB _ trivial

lemma restorePin_keeps (r : PinnedRoute) : Keeps B (restorePin env r) := by
  unfold restorePin
  split
  · exact sh_keeps hB _ trivial
  · exact (sh_keeps hB (.showExact r.ip) trivial).bind fun _ =>
      Keeps.ite (Keeps.pure _) (sh_keeps hB (.delRoute r.ip) trivial)
end

def Unflipped (p : ArmParams) (m : Moment) : Prop := .replaceDefault p.tunName∉m.issued

/-- Whoever replaces the default route finds the chains in place. -/
def Covered (p : ArmParams) (m : Moment) : Prop := Unflipped p m ∨ Guarded p m.host.filters

lemma unflipped_lasting (env : Env) (p : ArmParams) : Lasting env (Unflipped p) := by
  intro c hc m hm h _ his
  rcases mem_cons.mp his with rfl | his
  · exact hc.elim
  · exact hm his

def Before (p : ArmParams) (orig : Family → FilterTable) (m : Moment) : Prop :=
  Unflipped p m ∧ m.host.filters=orig

lemma before_sees (p : ArmParams) (orig : Family → FilterTable) : Sees p (Before p orig) :=
  fun _ _ hf _ his hm => ⟨fun hfl => hm.1 (his hfl),hf.trans hm.2⟩

lemma guarded_sees (p : ArmParams) : Sees p fun m => Guarded p m.host.filters := by
  intro m m' hf _ _ hm
  rw [hf]
  exact hm

lemma covered_sees (p : ArmParams) : Sees p (Covered p) := by
  intro m m' hf _ his hm
  refine hm.imp (fun hu hi => hu (his hi)) fun hg => ?_
  rw [hf]
  exact hg

def JournalFree (B : Moment → Prop) : Prop := ∀ m n, n.armed=m.self.armed → B m → B {m with self := n}

lemma setNet_keeps (hs : JournalFree B) {f : LinuxNet → LinuxNet}
    (hf : ∀ n, (f n).armed=n.armed) : Keeps B (setNet f) :=
  Keeps.update fun m hm => hs m _ (hf m.self) hm

lemma pinNode_keeps (hB : Sees p B) (hs : JournalFree B) (ip : IpAddr) : Keeps B (pinNode env ip) := by
  refine (prepareNodeRoute_keeps hB ip).bind fun ro => ?_
  exact Keeps.bind (setNet_keeps hs fun _ => rfl) fun _ => applyNodeRoute_keeps hB ip

lemma begin_before (p : ArmParams) (orig : Family → FilterTable) : Keeps (Before p orig) begin :=
  (Keeps.view _).bind fun _ => Keeps.ite (Keeps.throw _) (Keeps.update fun _ hm => hm)

lemma pinRoutes_keeps (hB : Sees p B) (hs : JournalFree B) : Keeps B (pinRoutes env p) := by
  have hsv : Keeps B (saveDefaults env) :=
    (captureDefaultRoutes_keeps hB).bind fun _ => setNet_keeps hs fun _ => rfl
  have hp (ip : IpAddr) : Keeps B (pinFallback env ip) :=
    (pinNode_keeps hB hs ip).attempt.bind fun _ => Keeps.pure _
  refine (sh_keeps hB (.ethtool p.tunName) trivial).attempt.bind fun _ => ?_
  refine hsv.bind fun _ => ?_
  refine (pinNode_keeps hB hs p.nodeIp).bind fun _ => ?_
  exact Keeps.each hp p.alsoExcept

lemma armFirewall_covered (ho : ∀ family, (orig family).Lacks (nilChain family))
    (hp : Plain p.tunName) (hk : p.killSwitch) {m : Moment} (hm : Before p orig m) :
    Safe (Covered p) (fun _ m' => Unflipped p m' ∧ Guarded p m'.host.filters) (fun _ => Covered p)
      (armFirewall env p) m := by
  unfold armFirewall
  rw [if_pos hk]
  refine Safe.bind (R := fun _ m' => Before p orig m')
    (Safe.update (inl hm.1) hm) fun _ m hm => ?_
  have hs : Owns orig m.host m.self (fun _ => .absent) m := by
    refine ⟨?_,rfl⟩
    have hsm : owned orig (fun _ => .absent)=m.host.filters := hm.2.symm
    rw [hsm]
  have he : Ends (fun _ m' => ∃ st, Sealed p st ∧ Owns orig m.host m.self st m')
      (fun _ m' => ∃ st, Owns orig m.host m.self st m')
      (armKillSwitch env p.nodeIp p.alsoExcept p.tunName) m := armKillSwitch_ends ho p hs
  have hb:=(armKillSwitch_keeps (unflipped_lasting env p) p.nodeIp p.alsoExcept p.tunName m hm.1).and he
  refine hb.mono (fun m hm => inl hm.1) ?_ fun _ m hm => inl hm.1
  intro _ m' hm'
  obtain ⟨hu,st,hsl,how⟩ := hm'
  refine ⟨hu,?_⟩
  rw [how.host]
  exact hsl.guarded hp ho

lemma flipDefault_covered {m : Moment} (hm : Unflipped p m ∧ Guarded p m.host.filters) :
    Safe (Covered p) (fun _ m' => Guarded p m'.host.filters) (fun _ m' => Guarded p m'.host.filters)
      (flipDefault env p.tunName) m := by
  refine Safe.bind (R := fun _ m' => Guarded p m'.host.filters)
    (Safe.update (inl hm.1) hm.2) fun _ m hm => ?_
  have hs (h : Host) (hl : env.system.Leaves (.replaceDefault p.tunName) m.host h) :
      Guarded p h.filters := by
    rcases hl with rfl | rfl
    · exact hm
    · exact hm
  exact System.run_safe (fun h hl => inr (hs h hl)) (fun _ _ => hs _ (.inr rfl))
    fun _ h hl => hs h hl

lemma setDns_keeps (hB : Sees p B) (dns : List IpAddr) : Keeps B (setDns env dns) :=
  (sh_keeps hB (.writeResolv _) trivial).mapError

lemma redirectDns_keeps (hB : Sees p B) (hs : JournalFree B)
    (dns : List IpAddr) : Keeps B (redirectDns env dns) := by
  refine Keeps.ite (Keeps.pure _) ?_
  refine (sh_keeps hB .readResolv trivial).mapError.bind fun c => ?_
  refine Keeps.bind (setNet_keeps hs fun _ => rfl) fun _ => ?_
  exact Keeps.bind (setNet_keeps hs fun _ => rfl) fun _ => setDns_keeps hB dns

lemma arm_covered (ho : ∀ family, (orig family).Lacks (nilChain family))
    (hp : Plain p.tunName) (hk : p.killSwitch) {m : Moment} (hm : Before p orig m) :
    Safe (Covered p) (fun _ => Covered p) (fun _ => Covered p) (arm env p) m := by
  have hg (m : Moment) (hm : Guarded p m.host.filters) : Covered p m := inr hm
  have hb {x : Shell Unit} (hx : Keeps (Before p orig) x) (m : Moment) (hm : Before p orig m) :
      Safe (Covered p) (fun _ => Before p orig) (fun _ => Covered p) x m :=
    (hx m hm).mono (fun _ hm => inl hm.1) (fun _ _ hm => hm) fun _ _ hm => inl hm.1
  refine (hb (begin_before p orig) m hm).bind fun _ m hm => ?_
  refine (hb (pinRoutes_keeps (before_sees p orig) fun _ _ _ hm => hm) m hm).bind
    fun _ m hm => ?_
  refine (armFirewall_covered ho hp hk hm).bind fun _ m hm => ?_
  refine ((flipDefault_covered hm).imp (fun _ _ hm => hm) fun _ => hg).bind fun _ m hm => ?_
  exact (redirectDns_keeps (guarded_sees p) (fun _ _ _ hm => hm) p.dns m hm).mono hg
    (fun _ => hg) fun _ => hg

section
variable (hB : Sees p B) (hs : JournalFree B) (errors : CleanupErrors)
include hB hs
lemma restoreDns_keeps : Keeps B (restoreDns env errors) := by
  refine (Keeps.view _).bind fun self => Keeps.ite ?_ (Keeps.pure _)
  have hw : Keeps B (writeBackup env self.resolvBackup) := by
    unfold writeBackup
    split
    · exact sh_keeps hB _ trivial
    · exact Keeps.throw _
  refine (attemptStep_keeps hw errors _).bind fun r => Keeps.ite ?_ (Keeps.pure _)
  exact Keeps.bind (setNet_keeps hs fun _ => rfl) fun _ => Keeps.pure _

lemma restoreDefaults_keeps : Keeps B (restoreDefaults env errors) := by
  refine (Keeps.view _).bind fun self => Keeps.ite ?_ (Keeps.pure _)
  have hr : Keeps B (restoreDefaultRoutes env self.origDefaults) :=
    restoreTurns_keeps hB self.origDefaults 65
  refine (attemptStep_keeps hr errors _).bind fun r => Keeps.ite ?_ (Keeps.pure _)
  exact Keeps.bind (setNet_keeps hs fun _ => rfl) fun _ => Keeps.pure _

lemma restorePins_keeps (todo failed : List PinnedRoute) :
    Keeps B (restorePins env todo failed errors) := by
  induction todo generalizing failed errors with
  | nil => exact Keeps.pure _
  | cons route todo ih =>
    refine (attemptStep_keeps (restorePin_keeps hB route) errors _).bind fun r => ?_
    exact Keeps.bind (setNet_keeps hs fun _ => rfl) fun _ => ih _ _

lemma restoreRoutes_keeps : Keeps B (restoreRoutes env errors) :=
  (Keeps.view _).bind fun _ => restorePins_keeps hB hs errors _ _
end

def Host.Pristine (h : Host) : Prop := ∀ family, (h.filters family).Lacks (nilChain family)

instance (h : Host) : Decidable h.Pristine :=
  decidable_of_iff ((h.filters .v4).Lacks (nilChain .v4) ∧ (h.filters .v6).Lacks (nilChain .v6))
    ⟨fun hl family => by cases family; exacts [hl.1,hl.2],fun hl => ⟨hl .v4,hl .v6⟩⟩

def sampleEnv : Env where
  lookup := fun _ _ => some ["via","192.0.2.1","dev","eth0"]
  fate := fun _ => .ok
  complaint := fun _ => "exited with an error"
  display := fun _ => ""

def sampleParams : ArmParams where
  nodeIp := .v4 ⟨203,0,113,5⟩
  tunName := "nil0"
  dns := []
  killSwitch := true
  alsoExcept := [.v4 ⟨198,51,100,7⟩]

def sampleHost : Host where
  defaults := ⟨[(100,["via","192.0.2.1","dev","eth0"])],by simp⟩
  routes := fun _ => none
  resolv := none
  filters := fun _ => ⟨[.always .accept],[]⟩

end NilVpn.Datapath.Linux
