import NilVpn.Datapath.KillSwitch

/-!
# Teardown restores the host (nil-datapath/src/linux.rs:34-198, lib.rs:106-113)
-/

namespace NilVpn.Datapath.Linux
open Base List Script

def Distinct (p : ArmParams) : Prop := (p.nodeIp::p.alsoExcept).Nodup

instance (p : ArmParams) : Decidable (Distinct p) :=
  inferInstanceAs (Decidable (p.nodeIp::p.alsoExcept).Nodup)

def Fits (h : Host) : Prop :=
  h.defaults.entries.length<64 ∨ h.defaults.entries.length=64 ∧ ∃ e∈h.defaults.entries, e.1=0

structure Backed (p : ArmParams) (h₀ h : Host) (n : LinuxNet) : Prop where
  backup : n.dnsTouched=true → n.resolvBackup=h₀.resolv ∧ h₀.resolv≠none
  resolv : n.dnsTouched=false → h.resolv=h₀.resolv
  original : n.defaultChanged=true → n.origDefaults=h₀.defaults.entries
  defaults : n.defaultChanged=false → h.defaults=h₀.defaults
  few : Fits h₀ → h.defaults.entries.length≤64
  pins : Distinct p → PinsOk h₀.routes n.pinnedRoutes h.routes
  chains : ∃ st, h.filters=owned h₀.filters st
  filters : n.firewallTouched=false → h.filters=h₀.filters

abbrev At (P : Host → LinuxNet → Prop) (m : Moment) : Prop := P m.host m.self

variable {p : ArmParams} {h₀ h : Host} {n : LinuxNet} {m : Moment} {env : Env}
lemma Fits.length_le (hf : Fits h) : h.defaults.entries.length≤64 := by
  rcases hf with hlt | ⟨heq,-⟩
  · omega
  · omega

lemma Fits.set (hf : Fits h) (spec : List String) : (h.defaults.set 0 spec).entries.length≤64 := by
  rcases hf with hlt | ⟨heq,e,he,hz⟩
  · grind [MetricTable.set,MetricTable.length_setEntry_le]
  · have hm : (0,e.2)∈h.defaults.entries := hz ▸ he
    simp only [MetricTable.set]
    rw [MetricTable.length_setEntry_zero hm h.defaults.sorted]
    omega

lemma Backed.fresh (p : ArmParams) (h : Host) : Backed p h h .default where
  backup := fun hn => by cases hn
  resolv := fun _ => rfl
  original := fun hn => by cases hn
  defaults := fun _ => rfl
  few := Fits.length_le
  pins := fun _ => ⟨List.nodup_nil,fun _ hr => (by cases hr),fun _ _ => rfl⟩
  chains := ⟨fun _ => .absent,rfl⟩
  filters := fun _ => rfl

lemma Backed.clear (hb : Backed p h₀ h n) (hn : n.pending=false) :
    h.defaults=h₀.defaults ∧ h.resolv=h₀.resolv ∧ h.filters=h₀.filters ∧
      (Distinct p → h.routes=h₀.routes) := by
  obtain ⟨hs,hde,hp,hf⟩ := pending_eq_false.mp hn
  refine ⟨hb.defaults hde,hb.resolv hs,hb.filters hf,fun hd => ?_⟩
  funext ip
  refine (hb.pins hd).others ip ?_
  rw [hp]
  exact not_mem_nil

def Pinned (h : Host) (n : LinuxNet) (ip : IpAddr) (m : Moment) : Prop :=
  ∃ routes, (∀ a, a≠ip → routes a=h.routes a) ∧ Is {h with routes := routes}
      {n with pinnedRoutes := n.pinnedRoutes++[⟨ip,h.routes ip⟩]} m

lemma pinNode_ends (ip : IpAddr) (hm : Is h n m) :
    Ends (fun _ => Pinned h n ip) (fun _ m' => Pinned h n ip m' ∨ Is h n m') (pinNode env ip) m := by
  refine ((prepareNodeRoute_ends ip hm).imp_right fun _ _ hE => .inr hE).bind ?_
  intro ro m hr
  obtain ⟨rfl,hm⟩ := hr
  refine (setNet_ends hm).bind fun _ m hm => ?_
  exact (applyNodeRoute_ends ip hm).imp_right fun _ _ hE => .inl hE

/-- While the routes are pinned, with the addresses `todo` still to come. -/
structure Pinning (p : ArmParams) (h₀ : Host) (todo : List IpAddr) (h : Host) (n : LinuxNet) :
    Prop where
  host : ∃ routes, h={h₀ with routes := routes}
  self : ∃ pinned, n=⟨true,h₀.defaults.entries,false,none,false,false,pinned⟩
  pins : Distinct p → PinsOk h₀.routes n.pinnedRoutes h.routes
  todo : Distinct p → todo.Nodup ∧ ∀ ip∈todo, ip∉n.pinnedRoutes.map (·.ip)

variable {t : List IpAddr}
lemma Pinning.backed (hp : Pinning p h₀ t h n) : Backed p h₀ h n := by
  obtain ⟨⟨ro,rfl⟩,⟨pn,rfl⟩,hpn,-⟩ := hp
  exact ⟨nofun,fun _ => rfl,nofun,fun _ => rfl,Fits.length_le,hpn,⟨fun _ => .absent,rfl⟩,fun _ => rfl⟩

variable {ip : IpAddr}
lemma Pinning.skip (hp : Pinning p h₀ (ip::t) h n) : Pinning p h₀ t h n where
  host := hp.host
  self := hp.self
  pins := hp.pins
  todo := fun hd => ⟨(List.nodup_cons.mp (hp.todo hd).1).2,
    fun a ha => (hp.todo hd).2 a (List.mem_cons_of_mem _ ha)⟩

lemma Pinning.pin (hp : Pinning p h₀ (ip::t) h n) (hm : Pinned h n ip m) :
    Pinning p h₀ t m.host m.self := by
  obtain ⟨ro,ho,hm⟩ := hm
  obtain ⟨⟨ro₀,hh⟩,⟨pn,hs⟩,hpn,ht⟩ := hp
  rw [hm.host,hm.self]
  constructor
  · exact ⟨ro,by rw [hh]⟩
  · exact ⟨n.pinnedRoutes++[⟨ip,h.routes ip⟩],by rw [hs]⟩
  · intro hd
    exact (hpn hd).push ((ht hd).2 ip (mem_cons_self ..)) ho
  · grind [nodup_cons.mp]

lemma saveDefaults_ends (hm : Is h₀ {LinuxNet.default with armed := true} m) :
    Ends (fun _ => At (Pinning p h₀ (p.nodeIp::p.alsoExcept)))
      (fun _ => At (Backed p h₀)) (saveDefaults env) m := by
  have hb:=Backed.fresh p h₀
  refine ((captureDefaultRoutes_ends hm).imp_right ?_).bind ?_
  · intro _ m' hE
    exact hE.1.apply ⟨hb.backup,hb.resolv,hb.original,hb.defaults,hb.few,hb.pins,hb.chains,hb.filters⟩
  · intro ro m hr
    obtain ⟨rfl,-,hm⟩ := hr
    refine (setNet_ends hm).imp_left ?_
    intro _ m' hm'
    exact hm'.apply ⟨⟨h₀.routes,rfl⟩,⟨[],rfl⟩,hb.pins,
      fun hd => ⟨hd,fun _ _ hme => by cases hme⟩⟩

lemma pinFallback_ends (hm : Pinning p h₀ (ip::t) m.host m.self) :
    Ends (fun _ => At (Pinning p h₀ t))
      (fun _ => At (Backed p h₀)) (pinFallback env ip) m := by
  have ht : Ends (fun _ => At (Pinning p h₀ t))
      (fun _ => At (Backed p h₀)) (Script.attempt (pinNode env ip)) m := by
    refine Safe.attempt ((pinNode_ends ip ⟨rfl,rfl⟩).imp (fun _ _ hQ => hm.pin hQ) ?_)
    intro _ m' hE
    exact hE.elim hm.pin fun hs => hs.apply hm.skip
  exact ht.bind fun _ _ hm => Safe.pure hm

lemma pinRoutes_ends (hm : Is h₀ {LinuxNet.default with armed := true} m) :
    Ends (fun _ => At (Pinning p h₀ [])) (fun _ => At (Backed p h₀))
      (pinRoutes env p) m := by
  have he : exec env.lookup (.ethtool p.tunName) h₀=(.success (),h₀) := rfl
  have ho : Ends (fun _ => Is h₀ {LinuxNet.default with armed := true})
      (fun _ => At (Backed p h₀))
      (Script.attempt (sh env (.ethtool p.tunName))) m :=
    Safe.attempt ((sh_query he hm).imp (fun _ _ hQ => hQ.2) fun _ _ hE => hE.2)
  refine ho.bind fun _ m hm => (saveDefaults_ends hm).bind fun _ m hm => ?_
  refine ((pinNode_ends p.nodeIp ⟨rfl,rfl⟩).imp (fun _ _ hQ => hm.pin hQ) ?_).bind fun _ m hm => ?_
  · intro _ m' hE
    exact hE.elim (fun hp => (hm.pin hp).backed) fun hs => hs.apply hm.backed
  · exact Safe.each (K := fun t => At (Pinning p h₀ t))
      (fun _ _ _ hm => pinFallback_ends hm) p.alsoExcept hm

structure Saved (p : ArmParams) (h₀ h : Host) (n : LinuxNet) : Prop where
  backed : Backed p h₀ h n
  saved : n.origDefaults=h₀.defaults.entries
  unchanged : n.defaultChanged=false
  untouched : n.dnsTouched=false

lemma armFirewall_ends (hc : h₀.Pristine) (hp : Pinning p h₀ [] m.host m.self) :
    Ends (fun _ => At (Saved p h₀)) (fun _ => At (Backed p h₀))
      (armFirewall env p) m := by
  have hb:=hp.backed
  obtain ⟨⟨ro,hh⟩,⟨pn,hs⟩,-,-⟩ := hp
  rw [hh,hs] at hb
  unfold armFirewall
  split
  · refine (setNet_ends ⟨hh,hs⟩).bind fun _ m hm => ?_
    have hl (m' : Moment) (st : Family → ChainState) (hm' : Owns h₀.filters {h₀ with routes := ro}
          ⟨true,h₀.defaults.entries,false,none,false,true,pn⟩ st m') :
        Backed p h₀ m'.host m'.self := by
      rw [hm'.host,hm'.self]
      exact {hb with chains := ⟨st,rfl⟩,filters := fun hn => by cases hn}
    have hst : Owns h₀.filters {h₀ with routes := ro}
        ⟨true,h₀.defaults.entries,false,none,false,true,pn⟩ (fun _ => .absent) m := hm
    refine (armKillSwitch_ends hc p hst).imp ?_ ?_
    · intro _ m' hQ
      obtain ⟨st,-,hm'⟩ := hQ
      exact ⟨hl m' st hm',by rw [hm'.self],by rw [hm'.self],by rw [hm'.self]⟩
    · intro _ m' hE
      obtain ⟨st,hm'⟩ := hE
      exact hl m' st hm'
  · refine Safe.pure ?_
    rw [At,hh,hs]
    exact ⟨hb,rfl,rfl,rfl⟩

lemma flipDefault_ends (hs : Saved p h₀ m.host m.self) :
    Ends (fun _ m' => Backed p h₀ m'.host m'.self ∧ m'.self.dnsTouched=false)
      (fun _ => At (Backed p h₀)) (flipDefault env p.tunName) m := by
  obtain ⟨hb,hsv,hun,hu⟩ := hs
  have hd:=hb.defaults hun
  refine (setNet_ends ⟨rfl,rfl⟩).bind fun _ m' hm' => ?_
  have hm : Backed p h₀ m.host {m.self with defaultChanged := true} :=
    {hb with original := fun _ => hsv,defaults := fun hn => by cases hn}
  have hf : Backed p h₀ { m.host with defaults := m.host.defaults.set 0 ["dev",p.tunName] }
      {m.self with defaultChanged := true} := by
    refine {hm with defaults := nofun,few := fun hft => ?_}
    rw [hd]
    exact hft.set _
  have hr : exec env.lookup (.replaceDefault p.tunName) m.host =
      (.success (),{ m.host with defaults := m.host.defaults.set 0 ["dev",p.tunName] }) := rfl
  refine (sh_done hr hm').imp ?_ ?_
  · intro _ m'' hQ
    rw [hQ.2.host,hQ.2.self]
    exact ⟨hf,hu⟩
  · intro _ m'' hE
    exact hE.2.elim (fun hm'' => hm''.apply hm) fun hm'' => hm''.apply hf

lemma redirectDns_ends (dns : List IpAddr) (hb : Backed p h₀ m.host m.self)
    (hu : m.self.dnsTouched=false) :
    Ends (fun _ => At (Backed p h₀)) (fun _ => At (Backed p h₀))
      (redirectDns env dns) m := by
  have hs:=hb.resolv hu
  unfold redirectDns
  split
  · exact Safe.pure hb
  · cases hr : m.host.resolv with
    | none =>
      have hd : exec env.lookup .readResolv m.host=(.failure,m.host) := by simp only [exec,hr]
      have hre : Ends (fun _ _ => False) (fun _ => At (Backed p h₀)) (sh env .readResolv) m :=
        (sh_refused hd (by simp) ⟨rfl,rfl⟩).imp_right fun _ _ hm' => hm'.apply hb
      exact (Safe.mapError hre).bind fun _ _ hQ => hQ.elim
    | some c =>
      have hd : exec env.lookup .readResolv m.host=(.success c,m.host) := by simp only [exec,hr]
      have hg : Ends (fun a m' => a=c ∧ Is m.host m.self m')
          (fun _ => At (Backed p h₀)) (sh env .readResolv) m :=
        (sh_query hd ⟨rfl,rfl⟩).imp_right fun _ _ hE => hE.2.apply hb
      refine (Safe.mapError hg).bind fun a m' hm' => ?_
      obtain ⟨rfl,hm'⟩ := hm'
      refine (setNet_ends hm').bind fun _ m' hm' => (setNet_ends hm').bind fun _ m' hm' => ?_
      have hm (resolv : Option Bytes) : Backed p h₀ {m.host with resolv := resolv}
          {m.self with resolvBackup := some a,dnsTouched := true} := by
        refine {hb with backup := fun _ => ⟨?_,?_⟩,resolv := fun hn => by cases hn}
        · rw [← hs,hr]
        · rw [← hs,hr]
          exact Option.some_ne_none a
      have hw (c : Bytes) : exec env.lookup (.writeResolv c) m.host =
          (.success (),{m.host with resolv := some c}) := rfl
      refine Safe.mapError ((sh_done (hw _) hm').imp ?_ ?_)
      · intro _ m'' hQ
        exact hQ.2.apply (hm _)
      · intro _ m'' hE
        exact hE.2.elim (fun hm'' => hm''.apply (hm m.host.resolv))
          fun hm'' => hm''.apply (hm _)

lemma begin_ends {E : String → Moment → Prop} :
    Ends (fun _ => Is h₀ {LinuxNet.default with armed := true}) E begin (fresh h₀) :=
  ⟨fun _ _ => trivial,rfl,rfl⟩

lemma arm_ends (hc : h₀.Pristine) :
    Ends (fun _ => At (Backed p h₀)) (fun _ => At (Backed p h₀))
      (arm env p) (fresh h₀) := by
  refine begin_ends.bind fun _ m hm => ?_
  refine (pinRoutes_ends hm).bind fun _ m hm => ?_
  refine (armFirewall_ends hc hm).bind fun _ m hm => ?_
  refine (flipDefault_ends hm).bind fun _ m hm => ?_
  exact redirectDns_ends p.dns hm.1 hm.2

def Armed (m : Moment) : Prop := m.self.armed=true

lemma arm_armed : Ends (fun _ => Armed) (fun _ => Armed) (arm env p) (fresh h₀) := by
  have hs : Sees p Armed := by
    intro m m' _ hsl _ hm
    rw [Armed,hsl]
    exact hm
  have hf : JournalFree Armed := fun _ _ ha hm => ha.trans hm
  have hl : Lasting env Armed := self_lasting env (·.armed)
  have hfi : Keeps Armed (armFirewall env p) :=
    Keeps.ite (Keeps.bind (setNet_keeps hf fun _ => rfl)
      fun _ => armKillSwitch_keeps hl _ _ _) (Keeps.pure _)
  have hfl : Keeps Armed (flipDefault env p.tunName) :=
    Keeps.bind (setNet_keeps hf fun _ => rfl)
      fun _ => System.run_keeps fun _ hm _ _ => hm
  refine begin_ends.bind fun _ m hm => ?_
  suffices hr : Keeps Armed _ from
    (hr m (by rw [Armed,hm.self])).mono (fun _ _ => trivial) (fun _ _ hm => hm) fun _ _ hm => hm
  refine (pinRoutes_keeps hs hf).bind fun _ => hfi.bind fun _ => hfl.bind fun _ => ?_
  exact redirectDns_keeps hs hf p.dns

variable {m' : Moment} {errs errors' : CleanupErrors}
section
variable (hb : Backed p h₀ h n)
include hb
lemma DnsStage.backed (hs : DnsStage env h n errs errors' m') :
    Backed p h₀ m'.host m'.self ∧ (errors'=errs ∨ env.system.Faulty) := by
  cases hs with
  | untouched hn hm =>
    rw [hm.host,hm.self]
    exact ⟨hb,.inl rfl⟩
  | restored hn hm =>
    rw [hm.host,hm.self]
    exact ⟨{hb with backup := nofun,resolv := fun _ => (hb.backup hn).1},.inl rfl⟩
  | failed e re hn hc hm =>
    rw [hm.host,hm.self]
    have hba:=hb.backup hn
    refine ⟨{hb with resolv := fun hf => ?_},.inr (hc (hba.1 ▸ hba.2))⟩
    rw [hn] at hf
    cases hf

lemma DefaultsStage.backed (hst : DefaultsStage env h n errs errors' m') :
    Backed p h₀ m'.host m'.self ∧ (errors'=errs ∨ (Fits h₀ → env.system.Faulty)) := by
  cases hst with
  | untouched hn hm =>
    rw [hm.host,hm.self]
    exact ⟨hb,.inl rfl⟩
  | restored s hn hs hm =>
    have hsm : s=h₀.defaults := hs h₀.defaults (hb.original hn)
    rw [hm.host,hm.self]
    refine ⟨{hb with original := nofun,defaults := fun _ => hsm,few := ?_},.inl rfl⟩
    rw [hsm]
    exact Fits.length_le
  | failed e s hn hs hm =>
    rw [hm.host,hm.self]
    have hl (hf : Fits h₀) := hs h₀.defaults (hb.original hn) hf.length_le (hb.few hf)
    refine ⟨{hb with defaults := fun hfl => ?_,few := fun hf => (hl hf).1},.inr fun hf => (hl hf).2⟩
    rw [hn] at hfl
    cases hfl

lemma RoutesStage.backed (hs : RoutesStage env h n errs [] errors' m') :
    Backed p h₀ m'.host m'.self ∧ (errors'=errs ∨ env.system.Faulty) := by
  cases hs with
  | restored ro hp hm =>
    rw [hm.host,hm.self]
    exact ⟨{hb with pins := fun hd => hp h₀.routes (hb.pins hd)},.inl rfl⟩
  | failed errors' ro kept he hk hf hp hm =>
    rw [hm.host,hm.self]
    exact ⟨{hb with pins := fun hd => hp h₀.routes (hb.pins hd)},.inr hf⟩
end

lemma FirewallStage.backed (hc : h₀.Pristine) (hb : Backed p h₀ h n)
    (hsg : FirewallStage env h n errs errors' m') :
    Backed p h₀ m'.host m'.self ∧ (errors'=errs ∨ env.system.Faulty) := by
  obtain ⟨st,ht⟩ := hb.chains
  cases hsg with
  | untouched hn hm =>
    rw [hm.host,hm.self]
    exact ⟨hb,.inl rfl⟩
  | released he hn hh hs =>
    rw [hh h₀.filters st hc ht,hs]
    exact ⟨{hb with chains := ⟨fun _ => .absent,rfl⟩,filters := fun _ => rfl},.inl he.symm⟩
  | failed e he hn hh hs =>
    obtain ⟨hfa,st',hh⟩ := hh h₀.filters st hc ht
    rw [hh,hs]
    refine ⟨{hb with chains := ⟨st',rfl⟩,filters := fun hf => ?_},.inr hfa⟩
    rw [hn] at hf
    cases hf

lemma RolledBack.backed (hc : h₀.Pristine) (hb : Backed p h₀ m.host m.self)
    (hr : RolledBack env m errs m') :
    Backed p h₀ m'.host m'.self ∧ (errs=[] ∨ (Fits h₀ → env.system.Faulty)) := by
  obtain ⟨er₁,m₁,er₂,m₂,er₃,m₃,m₄,h₁,h₂,h₃,h₄,hm'⟩ := hr
  obtain ⟨hb₁,ha₁⟩ := h₁.backed hb
  obtain ⟨hb₂,ha₂⟩ := h₂.backed hb₁
  obtain ⟨hb₃,ha₃⟩ := h₃.backed hb₂
  obtain ⟨hb₄,ha₄⟩ := h₄.backed hc hb₃
  rw [hm'.host,hm'.self]
  refine ⟨{hb₄ with},?_⟩
  -- the errors are those of the first step that noted one
  rcases ha₄ with rfl | hf
  · grind
  · exact .inr fun _ => hf

/-- Between the calls: an instance that is not armed has nothing left to do. -/
structure Held (p : ArmParams) (h₀ : Host) (m : Moment) : Prop where
  backed : Backed p h₀ m.host m.self
  idle : m.self.armed=false → m.self.pending=false

lemma teardown_ends (hc : h₀.Pristine) (hm : Held p h₀ m) :
    Ends (fun _ m' => Held p h₀ m' ∧ m'.self.pending=false)
      (fun _ m' => Held p h₀ m' ∧ (Fits h₀ → env.system.Faulty)) (teardown env) m := by
  refine Safe.bind (R := fun se m' => se=m.self ∧ m'=m) (Safe.view ⟨rfl,rfl⟩) fun se m' hsl => ?_
  obtain ⟨rfl,rfl⟩ := hsl
  split
  next ha =>
    refine (rollback_ends m').imp ?_ ?_
    · intro _ m'' hr
      have hs:=hr.settled
      exact ⟨⟨(hr.backed hc hm.backed).1,fun _ => hs.2⟩,hs.2⟩
    · intro _ m'' hr
      obtain ⟨er,hsm,hr⟩ := hr
      obtain ⟨hb,hcs⟩ := hr.backed hc hm.backed
      refine ⟨⟨hb,fun hd => ?_⟩,hcs.resolve_left hsm⟩
      rw [hr.unsettled hsm] at hd
      cases hd
  next ha => exact Safe.pure ⟨hm,hm.idle (Bool.eq_false_iff.mpr ha)⟩

lemma arm_held (hc : h₀.Pristine) :
    Ends (fun _ => Held p h₀) (fun _ => Held p h₀) (arm env p) (fresh h₀) := by
  have hh (m : Moment) (hm : Backed p h₀ m.host m.self ∧ Armed m) : Held p h₀ m := by
    refine ⟨hm.1,fun hid => ?_⟩
    have ha : m.self.armed := hm.2
    rw [hid] at ha
    cases ha
  exact ((arm_ends hc).and arm_armed).mono (fun _ _ => trivial) (fun _ => hh) fun _ => hh

lemma lifetime_held (hc : h₀.Pristine) (env : Env) (later : List Env) :
    Held p h₀ (lifetime env p later (fresh h₀)).state := by
  have har : Ends (fun _ => Held p h₀) (fun _ => Held p h₀) (Script.attempt (arm env p)) (fresh h₀) :=
    Safe.attempt (arm_held hc)
  have ht (env : Env) (m : Moment) (hm : Held p h₀ m) :
      Ends (fun _ => Held p h₀) (fun _ => Held p h₀) (do let _ ← Script.attempt (teardown env)) m := by
    have htr : Ends (fun _ => Held p h₀) (fun _ => Held p h₀) (Script.attempt (teardown env)) m :=
      Safe.attempt ((teardown_ends hc hm).imp (fun _ _ hQ => hQ.1) fun _ _ hE => hE.1)
    exact htr.bind fun _ _ hm => Safe.pure hm
  have hl : Ends (fun _ => Held p h₀) (fun _ => Held p h₀) (lifetime env p later) (fresh h₀) :=
    har.bind fun _ _ hm => Safe.each (K := fun _ => Held p h₀) (fun env _ m hm => ht env m hm) later hm
  exact hl.state

def lastTeardown (env : Env) (p : ArmParams) (later : List Env) (last : Env) (h : Host) :
    Outcome Moment String Unit :=
  teardown last (lifetime env p later (fresh h)).state

/-- A `teardown` that returns leaves the default routes, DNS and the filter tables as they were, and
the host routes too if no address was pinned twice. One in which no command fails returns if the
default routes and the tunnel's are at most 64. -/
theorem teardown_restores_exactly (env : Env) (p : ArmParams) (h : Host) (hclean : h.Pristine)
    (later : List Env) (last : Env) :
    ((lastTeardown env p later last h).result=.ok () →
      (lastTeardown env p later last h).state.host.defaults=h.defaults ∧
      (lastTeardown env p later last h).state.host.resolv=h.resolv ∧
      (lastTeardown env p later last h).state.host.filters=h.filters ∧
      (Distinct p → (lastTeardown env p later last h).state.host.routes=h.routes)) ∧
    (Fits h → (∀ i, last.fate i=.ok) → (lastTeardown env p later last h).result=.ok ()) := by
  have hh : Held p h (lifetime env p later (fresh h)).state := lifetime_held hclean env later
  have hn : Ends (fun _ m' => Held p h m' ∧ m'.self.pending=false)
      (fun _ m' => Held p h m' ∧ (Fits h → last.system.Faulty)) (teardown last)
      (lifetime env p later (fresh h)).state := teardown_ends hclean hh
  constructor
  · intro hok
    obtain ⟨hh,ho⟩ := hn.ok hok
    exact hh.backed.clear ho
  · intro ht hv
    cases hr : (lastTeardown env p later last h).result with
    | ok u => rfl
    | error e =>
      obtain ⟨i,applied,hi⟩ := (hn.error hr).2 ht
      have hf : last.fate i=.failed applied := hi
      rw [hv i] at hf
      cases hf

def failsAt (i : ℕ) : Env := {sampleEnv with fate := fun j => if j=i then .failed false else .ok}

theorem teardown_restores_exactly_retried :
    (lastTeardown (failsAt 9) sampleParams [failsAt 11] sampleEnv sampleHost).state.host.routes =
      sampleHost.routes := by
  refine ((teardown_restores_exactly (failsAt 9) sampleParams sampleHost (by decide +kernel)
    [failsAt 11] sampleEnv).1 ?_).2.2.2 (by decide +kernel)
  exact (teardown_restores_exactly (failsAt 9) sampleParams sampleHost (by decide +kernel)
    [failsAt 11] sampleEnv).2 (.inl (by decide +kernel)) fun _ => rfl

def overlapping : ArmParams := {sampleParams with alsoExcept := [sampleParams.nodeIp]}

def crowdedHost : Host :=
  { sampleHost with
    defaults := ⟨(List.range 64).map fun k => (k+1,["dev","eth0"]),by
      rw [List.pairwise_map]
      exact List.pairwise_lt_range.imp fun h => Nat.succ_lt_succ h⟩ }

/-- The node's second entry is not restored at first and then puts back what the first entry had
removed. With 64 default routes of other metrics than the tunnel's, `teardown` never gets past its
own limit, although no command fails. -/
theorem rollback_gaps : (sampleHost.Pristine ∧
      (lastTeardown sampleEnv overlapping [] (failsAt 32) sampleHost).result≠.ok () ∧
      (lastTeardown sampleEnv overlapping [failsAt 32] sampleEnv sampleHost).result=.ok () ∧
      (lastTeardown sampleEnv overlapping [failsAt 32] sampleEnv sampleHost).state.host.routes
        overlapping.nodeIp=some ["via","192.0.2.1","dev","eth0"] ∧
      sampleHost.routes overlapping.nodeIp=none) ∧
    (crowdedHost.Pristine ∧ crowdedHost.defaults.entries.length=64 ∧
      (lastTeardown sampleEnv sampleParams [] sampleEnv crowdedHost).result=.error
        "network rollback incomplete: restore default route: more than 64 IPv4 default routes; refusing an unbounded snapshot") := by
  decide +kernel
end NilVpn.Datapath.Linux
