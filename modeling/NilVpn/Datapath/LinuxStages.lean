import NilVpn.Datapath.LinuxFilters

/-!
# The steps of a rollback (nil-datapath/src/linux.rs:95-160)
-/

namespace NilVpn.Datapath.Linux
open Base List Script

variable {env : Env} {h : Host} {n : LinuxNet} {m : Moment}
inductive DnsStage (env : Env) (h : Host) (n : LinuxNet) (errors : CleanupErrors) :
    CleanupErrors → Moment → Prop
  | untouched {m : Moment} (hn : n.dnsTouched=false) (hm : Is h n m) :
    DnsStage env h n errors errors m
  | restored {m : Moment} (hn : n.dnsTouched=true)
    (hm : Is {h with resolv := n.resolvBackup} {n with dnsTouched := false} m) :
    DnsStage env h n errors errors m
  | failed {m : Moment} (e : String) (resolv : Option Bytes) (hn : n.dnsTouched=true)
    (hcause : n.resolvBackup≠none → env.system.Faulty) (hm : Is {h with resolv := resolv} n m) :
    DnsStage env h n errors (errors++[e]) m

lemma DnsStage.settled {errors errors' : CleanupErrors} (h' : DnsStage env h n errors errors' m)
    (hnn : errors'=[]) : errors=[] ∧ m.self={n with dnsTouched := false} := by
  cases h' with
  | untouched hn hm => exact ⟨hnn,by rw [hm.self,← hn]⟩
  | restored hn hm => exact ⟨hnn,hm.self⟩
  | failed e re hn hc hm => simp at hnn

lemma writeBackup_ends (hm : Is h n m) : Ends (fun _ => Is {h with resolv := n.resolvBackup} n)
      (fun _ m' => (n.resolvBackup≠none → env.system.Faulty) ∧ ∃ resolv, Is {h with resolv := resolv} n m')
      (writeBackup env n.resolvBackup) m := by
  cases hb : n.resolvBackup with
  | none => exact Safe.throw ⟨fun hs => absurd rfl hs,h.resolv,hm⟩
  | some c =>
    have hw : exec env.lookup (.writeResolv c) h=(.success (),{h with resolv := some c}) := rfl
    exact (sh_done hw hm).imp (fun _ _ hQ => hQ.2)
      fun _ _ hE => ⟨fun _ => hE.1,hE.2.elim (fun hm => ⟨h.resolv,hm⟩) fun hm => ⟨_,hm⟩⟩

lemma restoreDns_ends (errors : CleanupErrors) (hm : Is h n m) {E : String → Moment → Prop} :
    Ends (DnsStage env h n errors) E (restoreDns env errors) m := by
  apply Safe.bind (net_ends hm)
  intro self m hs
  obtain ⟨rfl,hm⟩ := hs
  split
  next hn =>
    apply Safe.bind (attemptStep_ends errors "restore /etc/resolv.conf" (writeBackup_ends hm))
    intro r m hr
    rcases hr with ⟨rfl,hm⟩ | ⟨e,rfl,hc,resolv,hm⟩
    · exact Safe.bind (setNet_ends hm) fun _ _ hm => Safe.pure (.restored hn hm)
    · exact Safe.pure (.failed e resolv hn hc hm)
  next hn => exact Safe.pure (.untouched (Bool.eq_false_iff.mpr hn) hm)

inductive DefaultsStage (env : Env) (h : Host) (n : LinuxNet) (errors : CleanupErrors) :
    CleanupErrors → Moment → Prop
  | untouched {m : Moment} (hn : n.defaultChanged=false) (hm : Is h n m) :
    DefaultsStage env h n errors errors m
  | restored {m : Moment} (s : MetricTable (List String)) (hn : n.defaultChanged=true)
    (hs : ∀ t : MetricTable (List String), n.origDefaults=t.entries → s=t)
    (hm : Is {h with defaults := s} {n with defaultChanged := false} m) :
    DefaultsStage env h n errors errors m
  | failed {m : Moment} (e : String) (s : MetricTable (List String)) (hn : n.defaultChanged=true)
    (hs : ∀ t : MetricTable (List String), n.origDefaults=t.entries → t.entries.length≤64 →
      h.defaults.entries.length≤64 → s.entries.length≤64 ∧ env.system.Faulty)
    (hm : Is {h with defaults := s} n m) :
    DefaultsStage env h n errors (errors++[e]) m

lemma DefaultsStage.settled {errors errors' : CleanupErrors}
    (h' : DefaultsStage env h n errors errors' m) (hnn : errors'=[]) :
    errors=[] ∧ m.self={n with defaultChanged := false} := by
  cases h' with
  | untouched hn hm => exact ⟨hnn,by rw [hm.self,← hn]⟩
  | restored s hn hs hm => exact ⟨hnn,hm.self⟩
  | failed e s hn hs hm => simp at hnn

lemma restoreDefaults_ends (errors : CleanupErrors) (hm : Is h n m) {E : String → Moment → Prop} :
    Ends (DefaultsStage env h n errors) E (restoreDefaults env errors) m := by
  apply Safe.bind (net_ends hm)
  intro se m hsl
  obtain ⟨rfl,hm⟩ := hsl
  split
  next hn =>
    apply Safe.bind (attemptStep_ends errors "restore default route"
      (restoreTurns_ends se.origDefaults 65 hm))
    intro r m hr
    rcases hr with ⟨rfl,s,hm,hs⟩ | ⟨e,rfl,s,hm,hs⟩
    · apply Safe.bind (setNet_ends hm)
      intro _ m hm
      refine Safe.pure (.restored s hn (fun t ht => MetricTable.ext ?_) hm)
      rw [hs t ht,append_nil]
    · refine Safe.pure (.failed e s hn (fun t ht hl hw => ?_) hm)
      obtain ⟨hs,hf⟩ := hs t ht hl hw
      exact ⟨hs,hf (by omega)⟩
  next hn => exact Safe.pure (.untouched (Bool.eq_false_iff.mpr hn) hm)

/-- The journal `pinned` leads from `routes` back to `orig`. -/
structure PinsOk (orig : IpAddr → Option (List String)) (pinned : List PinnedRoute)
    (routes : IpAddr → Option (List String)) : Prop where
  distinct : (pinned.map (·.ip)).Nodup
  previous : ∀ route∈pinned, route.previous=orig route.ip
  others : ∀ ip, ip∉pinned.map (·.ip) → routes ip=orig ip

section
variable {before routes routes' : IpAddr → Option (List String)} {pinned : List PinnedRoute}
lemma PinsOk.push (hp : PinsOk before pinned routes) {ip : IpAddr}
    (hn : ip∉pinned.map (·.ip)) (ho : ∀ a, a≠ip → routes' a=routes a) :
    PinsOk before (pinned++[⟨ip,routes ip⟩]) routes' where
  distinct := by
    rw [map_append,nodup_append]
    refine ⟨hp.distinct,by simp,?_⟩
    intro a ha b hb hab
    have hip : b=ip := by simpa using hb
    exact hn (hip ▸ hab ▸ ha)
  previous := by grind [hp.previous,hp.others]
  others := by simp_all [map_append,mem_append,not_or,hp.others]

lemma PinsOk.retry (hp : PinsOk before pinned routes) {r : PinnedRoute}
    (hr : r∈pinned) (ho : ∀ a, a≠r.ip → routes' a=routes a) :
    PinsOk before pinned routes' where
  distinct := hp.distinct
  previous := hp.previous
  others := by
    intro a ha
    have hne : a≠r.ip := fun heq => ha (heq ▸ mem_map_of_mem hr)
    rw [ho a hne]
    exact hp.others a ha

lemma PinsOk.pop {t d : List PinnedRoute} {r : PinnedRoute} (hp : PinsOk before (t++r::d) routes) :
    PinsOk before (t++d) (Function.update routes r.ip r.previous) where
  distinct := by
    refine hp.distinct.sublist (List.Sublist.map _ ?_)
    exact List.Sublist.append_left (sublist_cons_self ..) t
  previous := by grind [hp.previous]
  others := by
    intro a ha
    by_cases hip : a=r.ip
    · rw [hip,Function.update_self]
      exact hp.previous r (by simp)
    · rw [Function.update_of_ne hip]
      refine hp.others a fun hm => ha ?_
      simp only [map_append,map_cons,mem_append,mem_cons] at hm ⊢
      rcases hm with hm | hm | hm
      · exact .inl hm
      · exact absurd hm hip
      · exact .inr hm
end

inductive RoutesStage (env : Env) (h : Host) (n : LinuxNet) (errors : CleanupErrors)
    (failed : List PinnedRoute) : CleanupErrors → Moment → Prop
  | restored {m : Moment} (routes : IpAddr → Option (List String))
    (hpins : ∀ before, PinsOk before n.pinnedRoutes h.routes → PinsOk before failed routes)
    (hm : Is {h with routes := routes} {n with pinnedRoutes := failed} m) :
    RoutesStage env h n errors failed errors m
  | failed {m : Moment} (errors' : CleanupErrors) (routes : IpAddr → Option (List String))
    (kept : List PinnedRoute) (herrors : errors'≠[]) (hkept : kept≠[])
    (hfaulty : env.system.Faulty)
    (hpins : ∀ before, PinsOk before n.pinnedRoutes h.routes → PinsOk before kept routes)
    (hm : Is {h with routes := routes} {n with pinnedRoutes := kept} m) :
    RoutesStage env h n errors failed errors' m

variable {errors errors' : CleanupErrors} {failed : List PinnedRoute} {E : String → Moment → Prop}
lemma RoutesStage.settled (h' : RoutesStage env h n errors failed errors' m) (hn : errors'=[]) :
    errors=[] ∧ m.self={n with pinnedRoutes := failed} := by
  cases h' with
  | restored rt hp hm => exact ⟨hn,hm.self⟩
  | failed errors' rt kept he hk hf hp hm => exact absurd hn he

lemma RoutesStage.after {p : List PinnedRoute} {r' : IpAddr → Option (List String)}
    (h' : RoutesStage env {h with routes := r'} {n with pinnedRoutes := p} errors failed errors' m)
    (hp : ∀ before, PinsOk before n.pinnedRoutes h.routes → PinsOk before p r') :
    RoutesStage env h n errors failed errors' m := by
  cases h' with
  | restored r' hr hm => exact .restored r' (fun b hb => hr b (hp b hb)) hm
  | failed errors' r' ke he hk hf hr hm =>
    exact .failed errors' r' ke he hk hf (fun b hb => hr b (hp b hb)) hm

lemma RoutesStage.keep {failed' : List PinnedRoute} {e : String}
    (h' : RoutesStage env h n (errors++[e]) failed' errors' m) (hk : failed'≠[])
    (hf : env.system.Faulty) : RoutesStage env h n errors failed errors' m := by
  cases h' with
  | restored rt hp hm => exact .failed _ rt failed' (by simp) hk hf hp hm
  | failed errors' rt ke he hk _ hp hm => exact .failed errors' rt ke he hk hf hp hm

lemma restorePins_ends {t : List PinnedRoute} (failed : List PinnedRoute)
    (errors : CleanupErrors) (hn : n.pinnedRoutes=t.reverse++failed.reverse) (hm : Is h n m) :
    Ends (RoutesStage env h n errors failed.reverse) E (restorePins env t failed errors) m := by
  induction t generalizing h n failed errors m with
  | nil =>
    have hsm : n={n with pinnedRoutes := failed.reverse} := by
      rw [reverse_nil,nil_append] at hn
      rw [← hn]
    refine Safe.pure (.restored h.routes (fun bf hp => ?_) (hsm ▸ hm))
    rwa [hn,reverse_nil,nil_append] at hp
  | cons rt t ih =>
    rw [reverse_cons,append_assoc] at hn
    apply Safe.bind (attemptStep_ends errors "restore pinned node route" (restorePin_ends rt hm))
    intro r m hr
    rcases hr with ⟨rfl,hm⟩ | ⟨e,rfl,hf,routes,ho,hm⟩
    · apply Safe.bind (setNet_ends hm)
      intro _ m hm
      refine (ih failed errors rfl hm).imp_left fun _ _ hs => hs.after ?_
      intro bf hp
      rw [hn] at hp
      exact hp.pop
    · apply Safe.bind (setNet_ends hm)
      intro _ m hm
      have hj : t.reverse++(failed++[rt]).reverse=n.pinnedRoutes := by
        rw [hn,reverse_append]
        rfl
      refine (ih (failed++[rt]) (errors++[e]) rfl hm).imp_left fun _ _ hs => ?_
      refine RoutesStage.keep (hs.after ?_) (by simp) hf
      intro bf hp
      show PinsOk bf (t.reverse++(failed++[rt]).reverse) routes
      rw [hj]
      exact hp.retry (by rw [hn]; simp) ho

lemma restoreRoutes_ends (errors : CleanupErrors) (hm : Is h n m) :
    Ends (RoutesStage env h n errors []) E (restoreRoutes env errors) m := by
  apply Safe.bind (net_ends hm)
  intro self m hs
  obtain ⟨rfl,hm⟩ := hs
  exact restorePins_ends [] errors (by simp) hm

lemma disarmKillSwitch_any (hm : Is h n m) :
    Ends (fun _ m' => m'.self=n ∧ ∀ o st, (∀ family, (o family).Lacks (nilChain family)) →
        h.filters=owned o st → m'.host={h with filters := o})
      (fun _ m' => m'.self=n ∧ ∀ o st, (∀ family, (o family).Lacks (nilChain family)) →
        h.filters=owned o st →
        env.system.Faulty ∧ ∃ st', m'.host={h with filters := owned o st'})
      (disarmKillSwitch env) m := by
  have hs:=disarmKillSwitch_keeps (self_lasting env (·=n)) m hm.self
  have hw (o : Family → FilterTable) (st : Family → ChainState)
      (ho : ∀ family, (o family).Lacks (nilChain family)) (ht : h.filters=owned o st) :
      Ends (fun _ => Is {h with filters := o} n)
        (fun _ m' => env.system.Faulty ∧ ∃ st', Owns o h n st' m') (disarmKillSwitch env) m := by
    have hsr : Owns o h n st m := ⟨by rw [hm.host,← ht],hm.self⟩
    exact disarmKillSwitch_ends ho hsr
  refine Safe.of_result (fun _ _ => trivial) (fun _ hok => ⟨hs.ok hok,?_⟩)
    fun e he => ⟨hs.error he,?_⟩
  · intro o st ho ht
    exact ((hw o st ho ht).ok hok).host
  · intro o st ho ht
    obtain ⟨hf,st',hm'⟩ := (hw o st ho ht).error he
    exact ⟨hf,st',hm'.host⟩

inductive FirewallStage (env : Env) (h : Host) (n : LinuxNet) (errors : CleanupErrors) :
    CleanupErrors → Moment → Prop
  | untouched {m : Moment} (hn : errors≠[] ∨ n.firewallTouched=false) (hm : Is h n m) :
    FirewallStage env h n errors errors m
  | released {m : Moment} (herrors : errors=[]) (hn : n.firewallTouched=true)
    (hhost : ∀ orig st, (∀ family, (orig family).Lacks (nilChain family)) →
      h.filters=owned orig st → m.host={h with filters := orig})
    (hself : m.self={n with firewallTouched := false}) :
    FirewallStage env h n errors [] m
  | failed {m : Moment} (e : String) (herrors : errors=[]) (hn : n.firewallTouched=true)
    (hhost : ∀ orig st, (∀ family, (orig family).Lacks (nilChain family)) → h.filters=owned orig st →
      env.system.Faulty ∧ ∃ st', m.host={h with filters := owned orig st'})
    (hself : m.self=n) :
    FirewallStage env h n errors [e] m

lemma FirewallStage.settled (h' : FirewallStage env h n errors errors' m) (hnn : errors'=[]) :
    errors=[] ∧ m.self={n with firewallTouched := false} := by
  cases h' with
  | untouched hn hm =>
    have hf:=hn.resolve_left fun hsm => hsm hnn
    exact ⟨hnn,by rw [hm.self,← hf]⟩
  | released he hn hh hs => exact ⟨he,hs⟩
  | failed e he hn hh hs => simp at hnn

lemma releaseFirewall_ends (errors : CleanupErrors) (hm : Is h n m) :
    Ends (FirewallStage env h n errors) E (releaseFirewall env errors) m := by
  apply Safe.bind (net_ends hm)
  intro self m hs
  obtain ⟨rfl,hm⟩ := hs
  split
  next hn =>
    rw [Bool.and_eq_true,List.isEmpty_iff] at hn
    obtain ⟨rfl,hn⟩ := hn
    apply Safe.bind (attemptStep_ends [] "remove NIL firewall chains" (disarmKillSwitch_any hm))
    intro r m' hr
    rcases hr with ⟨rfl,hs,hh⟩ | ⟨e,rfl,hs,hh⟩
    · apply Safe.bind (setNet_ends ⟨rfl,hs⟩)
      intro _ m'' hm''
      exact Safe.pure (.released rfl hn (hm''.host ▸ hh) hm''.self)
    · exact Safe.pure (.failed e rfl hn hh hs)
  next hn =>
    refine Safe.pure (.untouched ?_ hm)
    rw [Bool.and_eq_true,List.isEmpty_iff,not_and_or,Bool.not_eq_true] at hn
    exact hn

/-- The four steps one after the other; then `armed` says whether anything is left to do. -/
def RolledBack (env : Env) (m : Moment) (errors : CleanupErrors) (m' : Moment) : Prop :=
  ∃ errors₁ m₁ errors₂ m₂ errors₃ m₃ m₄, DnsStage env m.host m.self [] errors₁ m₁ ∧
    DefaultsStage env m₁.host m₁.self errors₁ errors₂ m₂ ∧
    RoutesStage env m₂.host m₂.self errors₂ [] errors₃ m₃ ∧
    FirewallStage env m₃.host m₃.self errors₃ errors m₄ ∧
    Is m₄.host {m₄.self with armed := m₄.self.pending} m'

lemma rollback_ends (m : Moment) :
    Ends (fun _ => RolledBack env m []) (fun _ m' => ∃ errors, errors≠[] ∧ RolledBack env m errors m')
      (rollback env) m := by
  refine (restoreDns_ends [] ⟨rfl,rfl⟩).bind fun errors₁ m₁ h₁ => ?_
  refine (restoreDefaults_ends errors₁ ⟨rfl,rfl⟩).bind fun errors₂ m₂ h₂ => ?_
  refine (restoreRoutes_ends errors₂ ⟨rfl,rfl⟩).bind fun errors₃ m₃ h₃ => ?_
  refine (releaseFirewall_ends errors₃ ⟨rfl,rfl⟩).bind fun errors m₄ h₄ => ?_
  refine (setNet_ends ⟨rfl,rfl⟩).bind fun _ m' hm' => ?_
  have ha : RolledBack env m errors m' := ⟨errors₁,m₁,errors₂,m₂,errors₃,m₃,m₄,h₁,h₂,h₃,h₄,hm'⟩
  exact finish_ends (fun hn => hn ▸ ha) fun hs _ => ⟨errors,hs,ha⟩

lemma pending_eq_false : n.pending=false ↔ n.dnsTouched=false ∧ n.defaultChanged=false ∧
    n.pinnedRoutes=[] ∧ n.firewallTouched=false := by
  simp [LinuxNet.pending,and_assoc]

lemma RolledBack.settled {m' : Moment} (hr : RolledBack env m [] m') :
    m'.self.armed=false ∧ m'.self.pending=false := by
  obtain ⟨errors₁,m₁,errors₂,m₂,errors₃,m₃,m₄,h₁,h₂,h₃,h₄,hm'⟩ := hr
  obtain ⟨hn₃,hs₄⟩ := h₄.settled rfl
  obtain ⟨hn₂,hs₃⟩ := h₃.settled hn₃
  obtain ⟨hn₁,hs₂⟩ := h₂.settled hn₂
  obtain ⟨-,hs₁⟩ := h₁.settled hn₁
  have hc : m₄.self.pending=false := by
    rw [hs₄,hs₃,hs₂,hs₁,pending_eq_false]
    exact ⟨rfl,rfl,rfl,rfl⟩
  rw [hm'.self]
  exact ⟨hc,hc⟩

lemma RolledBack.unsettled {m' : Moment} (hso : errors≠[])
    (hr : RolledBack env m errors m') : m'.self.armed := by
  obtain ⟨errors₁,m₁,errors₂,m₂,errors₃,m₃,m₄,h₁,h₂,h₃,h₄,hm'⟩ := hr
  have hdn : errors₁≠[] → m₁.self.dnsTouched := by
    intro hso
    cases h₁ with
    | untouched | restored => exact absurd rfl hso
    | failed e re hn hc hm => rw [hm.self,hn]
  have hd : errors₂≠[] → m₂.self.dnsTouched ∨ m₂.self.defaultChanged := by
    intro hso
    cases h₂ with
    | untouched hn hm => exact .inl (by rw [hm.self,hdn hso])
    | restored s hn hs hm => exact .inl (by rw [hm.self,hdn hso])
    | failed e s hn hs hm => exact .inr (by rw [hm.self,hn])
  have hro : errors₃≠[] → m₃.self.dnsTouched ∨ m₃.self.defaultChanged ∨
      m₃.self.pinnedRoutes≠[] := by
    intro hso
    cases h₃ with
    | restored rt hpn hm =>
      rw [hm.self]
      exact (hd hso).imp id .inl
    | failed errors' rt kept he hk hf hpn hm => exact .inr (.inr (by rw [hm.self]; exact hk))
  have hp : m₄.self.pending≠false := by
    intro ho
    obtain ⟨hdn₄,ha₄,hpi₄,hw₄⟩ := pending_eq_false.mp ho
    have hk : errors₃=[] → m₄.self.firewallTouched := by
      intro ho₃
      cases h₄ with
      | untouched hn hm => exact absurd ho₃ hso
      | released he hn hh hl => exact absurd rfl hso
      | failed e he hn hh hl => rw [hl,hn]
    have hso₃ : errors₃≠[] := fun ho₃ => by
      rw [hk ho₃] at hw₄
      cases hw₄
    cases h₄ with
    | untouched hn hm => grind [hm.self]
    | released he hn hh hl => exact hso₃ he
    | failed e he hn hh hl => exact hso₃ he
  rw [hm'.self]
  exact Bool.of_not_eq_false hp
end NilVpn.Datapath.Linux
