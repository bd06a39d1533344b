import NilVpn.Datapath.LinuxRoutes

/-!
# The kill-switch of the Linux OS layer (nil-datapath/src/linux.rs:286-379)

`owned orig st` are the filter tables `orig` of the host with our two chains in the states `st`.
-/

namespace NilVpn.Datapath.Linux
open CleanupErrors Base List Function Script

variable {env : Env} {h : Host} {n : LinuxNet} {m : Moment}
/-- The tables `orig` with our two chains in the states `st`. -/
def owned (orig : Family → FilterTable) (st : Family → ChainState) : Family → FilterTable :=
  fun family => (st family).within (orig family) (nilChain family)

abbrev Owns (orig : Family → FilterTable) (h : Host) (n : LinuxNet) (st : Family → ChainState)
    (m : Moment) : Prop :=
  Is {h with filters := owned orig st} n m

lemma update_owned (orig : Family → FilterTable) (st : Family → ChainState) (family : Family)
    (s : ChainState) :
    update (owned orig st) family (s.within (orig family) (nilChain family)) =
      owned orig (update st family s) := by
  funext g
  by_cases hg : g=family
  · subst hg
    simp [owned]
  · simp [owned,hg]

variable {orig : Family → FilterTable} {st : Family → ChainState} {family : Family}
def Moved (orig : Family → FilterTable) (h : Host) (n : LinuxNet) (st : Family → ChainState)
    (family : Family) (m : Moment) : Prop :=
  ∃ s, Owns orig h n (Function.update st family s) m

lemma moved_same (family : Family) (hm : Owns orig h n st m) : Moved orig h n st family m :=
  ⟨st family,(update_eq_self family st).symm ▸ hm⟩

lemma moved_either {s : ChainState} (hm : Owns orig h n st m ∨ Owns orig h n (update st family s) m) :
    Moved orig h n st family m :=
  hm.elim (moved_same family) fun hm => ⟨s,hm⟩

lemma moved_update {s : ChainState}
    (hm : Moved orig h n (update st family s) family m) : Moved orig h n st family m := by
  obtain ⟨s',hm⟩ := hm
  rw [update_idem] at hm
  exact ⟨s',hm⟩

lemma filter_done {op : FilterOp} {s : ChainState} (hf : op.fits family)
    (hop : (owned orig st family).apply op=some (s.within (orig family) (nilChain family)))
    (hm : Owns orig h n st m) :
    Ends (fun _ => Owns orig h n (update st family s))
      (fun _ m' => env.system.Faulty ∧ (Owns orig h n st m' ∨ Owns orig h n (update st family s) m'))
      (sh env (.filter family op)) m := by
  have he : exec env.lookup (.filter family op) {h with filters := owned orig st} =
      (.success (),{h with filters := owned orig (update st family s)}) := by
    simp only [exec,hf,if_true,hop,Option.map_some,orRefuse,Host.setFilter]
    rw [update_owned]
  exact (sh_done he hm).imp_left (fun _ _ hQ => hQ.2)

lemma filter_refused {op : FilterOp} (hop : op.fits family=false ∨ (owned orig st family).apply op=none)
    (hm : Owns orig h n st m) :
    Ends (fun _ _ => False) (fun _ => Owns orig h n st) (sh env (.filter family op)) m := by
  have he : exec env.lookup (.filter family op) {h with filters := owned orig st} =
      (.failure,{h with filters := owned orig st}) := by
    rcases hop with hop | hop
    · simp [exec,hop,orRefuse]
    · cases hf : op.fits family <;> simp [exec,hop,hf,orRefuse]
  exact sh_refused he (fun _ ha => by cases ha) hm

lemma commandPresent_ends {c : Cmd} {f : Bool} {a : c.Out}
    (hc : exec env.lookup c h=(if f then .success a else .absent,h)) (hm : Is h n m) :
    Ends (fun b m' => b=f ∧ Is h n m') (fun _ m' => env.system.Faulty ∧ Is h n m')
      (commandPresent env c) m := by
  obtain ⟨rfl,rfl⟩ := hm
  have he : env.system.exec c m.host=_ := hc
  refine System.present_safe (fun _ _ => trivial) ?_ ?_ ?_
  · intro b hb
    rw [he] at hb ⊢
    cases f with
    | true => exact ⟨rfl,rfl,rfl⟩
    | false => cases hb
  · intro hb
    rw [he] at hb ⊢
    cases f with
    | true => cases hb
    | false => exact ⟨rfl,rfl,rfl⟩
  · intro hcs h' hl
    refine ⟨hcs.resolve_right ?_,?_,rfl⟩
    · rw [he]
      cases f <;> simp
    · exact hl.elim id fun hl => hl.trans (congrArg Prod.snd he)

structure Sealed (p : ArmParams) (st : Family → ChainState) : Prop where
  v4 : st .v4=.linked (exceptions p.nodeIp p.alsoExcept p.tunName++[.always .drop])
  v6 : ∃ accepts, accepts ⊆ [Rule.outOf "lo" .accept,.outOf p.tunName .accept] ∧
    st .v6=.linked (accepts++[.always .drop])

lemma exceptions_accept {nodeIp : IpAddr} {alsoExcept : List IpAddr} {tun : String} {r : Rule}
    (hr : r∈exceptions nodeIp alsoExcept tun) : r.target=.accept := by
  simp only [exceptions,mem_append,mem_cons,not_mem_nil,or_false,mem_map] at hr
  rcases hr with (hr | hr | hr | hr) | ⟨ip,-,hr⟩ <;> (subst hr; rfl)

section
variable (horig : ∀ family, (orig family).Lacks (nilChain family))
include horig
lemma newChain_ends (hst : st family=.absent) (hm : Owns orig h n st m) :
    Ends (fun _ => Owns orig h n (update st family (.unlinked [])))
      (fun _ m' => Owns orig h n st m' ∨ Owns orig h n (update st family (.unlinked [])) m')
      (sh env (.filter family (.newChain (nilChain family)))) m := by
  refine (filter_done rfl ?_ hm).imp_right fun _ _ hE => hE.2
  rw [owned,ChainState.create_within (horig family),hst]
  rfl

lemma flush_ends (family : Family) (hm : Owns orig h n st m) :
    Ends (fun _ m' => ∃ s, (st family).edit (fun _ => [])=some s ∧
        Owns orig h n (update st family s) m')
      (fun _ m' => ((st family).rules≠none → env.system.Faulty) ∧ Moved orig h n st family m')
      (sh env (.filter family (.flush (nilChain family)))) m := by
  have hop:=ChainState.flush_within (horig family) (st family)
  cases he : (st family).edit fun _ => [] with
  | none =>
    have ha:=ChainState.edit_eq_none he
    rw [he] at hop
    refine (filter_refused (.inr hop) hm).imp (fun _ _ hQ => hQ.elim) fun _ _ hE => ⟨?_,?_⟩
    · intro hs
      exact absurd (by rw [ha]; rfl) hs
    · exact moved_same family hE
  | some s =>
    rw [he] at hop
    exact (filter_done rfl hop hm).imp (fun _ _ hQ => ⟨s,rfl,hQ⟩)
      fun _ _ hE => ⟨fun _ => hE.1,moved_either hE.2⟩

lemma append_ends {rules : List Rule} (r : Rule) (hr : ∀ c, r.target≠.jump c)
    (hst : st family=.linked rules) (hm : Owns orig h n st m) :
    Ends (fun _ => Owns orig h n (update st family (.linked (rules++[r]))))
      (fun _ m' => Owns orig h n st m' ∨ Owns orig h n (update st family (.linked (rules++[r]))) m')
      (append env family r) m := by
  cases hf : (FilterOp.append (nilChain family) r).fits family with
  | false => exact (filter_refused (.inl hf) hm).imp (fun _ _ hQ => hQ.elim) fun _ _ hE => .inl hE
  | true =>
    refine (filter_done hf ?_ hm).imp_right fun _ _ hE => hE.2
    rw [owned,ChainState.append_within (horig family) _ r hr,hst]
    rfl

lemma openChain_ends (family : Family) (ht : st family=.absent) (hm : Owns orig h n st m) :
    Ends (fun _ => Owns orig h n (update st family (.linked [])))
      (fun _ => Moved orig h n st family) (openChain env family) m := by
  -- made or not, the chain is there once it has been flushed
  have hmd : Ends (fun _ m' => Owns orig h n st m' ∨
      Owns orig h n (update st family (.unlinked [])) m') (fun _ => Moved orig h n st family)
      (Script.attempt (sh env (.filter family (.newChain (nilChain family))))) m :=
    Safe.attempt ((newChain_ends horig ht hm).imp_left (fun _ _ hQ => .inr hQ))
  refine hmd.bind fun _ m hm => ?_
  have hf : Ends (fun _ => Owns orig h n (update st family (.unlinked [])))
      (fun _ => Moved orig h n st family)
      (sh env (.filter family (.flush (nilChain family)))) m := by
    rcases hm with hm | hm
    · refine (flush_ends horig family hm).imp ?_ fun _ _ hE => hE.2
      intro _ m' hQ
      obtain ⟨s,hs,-⟩ := hQ
      rw [ht] at hs
      cases hs
    · refine (flush_ends horig family hm).imp ?_ fun _ _ hE => moved_update hE.2
      intro _ m' hQ
      obtain ⟨s,hs,hm'⟩ := hQ
      rw [update_self] at hs
      cases hs
      rwa [update_idem] at hm'
  refine hf.bind fun _ m hm => ?_
  have hu : update st family (.unlinked []) family=.unlinked [] := update_self ..
  have hc : exec env.lookup (.checkOutput family (jump family))
      {h with filters := owned orig (update st family (.unlinked []))} =
        (.absent,{h with filters := owned orig (update st family (.unlinked []))}) := by
    have hn : jump family∉(owned orig (update st family (.unlinked [])) family).output := by
      rw [owned,jump,ChainState.jump_mem_within (horig family),hu]
      exact Bool.false_ne_true
    simp [exec,hn,presence]
  have has : Ends (fun r m' => (∃ e, r=.error e) ∧
      Owns orig h n (update st family (.unlinked [])) m') (fun _ => Moved orig h n st family)
      (Script.attempt (sh env (.checkOutput family (jump family)))) m :=
    Safe.attempt ((sh_refused hc (fun _ ha => by cases ha) hm).imp (fun _ _ hQ => hQ.elim)
      fun _ _ hE => ⟨⟨_,rfl⟩,hE⟩)
  refine has.bind fun r m hr => ?_
  obtain ⟨⟨e,rfl⟩,hm⟩ := hr
  refine (filter_done (s := .linked []) rfl ?_ hm).imp ?_ ?_
  · rw [owned,hu,jump,ChainState.link_within (horig family)]
  · intro _ m' hQ
    rwa [update_idem] at hQ
  · intro _ m' hE
    exact moved_update (moved_either hE.2)

lemma appendAll_ends {p : ArmParams} (hst : st .v4=.linked []) (hm : Owns orig h n st m) :
    Ends (fun _ => Owns orig h n (update st .v4 (.linked (exceptions p.nodeIp p.alsoExcept p.tunName))))
      (fun _ => Moved orig h n st .v4)
      (Script.each (append env .v4) (exceptions p.nodeIp p.alsoExcept p.tunName)) m := by
  let K (re : List Rule) (m : Moment) : Prop :=
    ∃ done, exceptions p.nodeIp p.alsoExcept p.tunName=done++re ∧
      Owns orig h n (update st .v4 (.linked done)) m
  have hl : Ends (fun _ => K []) (fun _ => Moved orig h n st .v4)
      (Script.each (append env .v4) (exceptions p.nodeIp p.alsoExcept p.tunName)) m := by
    refine Safe.each (K := K) ?_ _ ⟨[],rfl,?_⟩
    · intro r re m hK
      obtain ⟨done,hd,hm⟩ := hK
      have hr : r∈exceptions p.nodeIp p.alsoExcept p.tunName := by simp [hd]
      have ha : ∀ c, r.target≠.jump c := by
        intro c hc
        rw [exceptions_accept hr] at hc
        cases hc
      refine (append_ends horig r ha (update_self ..) hm).imp ?_ ?_
      · intro _ m' hQ
        rw [update_idem] at hQ
        exact ⟨done++[r],by simp [hd],hQ⟩
      · intro _ m' hE
        exact moved_update (moved_either hE)
    · rw [← hst,update_eq_self]
      exact hm
  refine hl.imp_left ?_
  intro _ m' hK
  obtain ⟨done,hd,hm'⟩ := hK
  rw [append_nil] at hd
  rw [hd]
  exact hm'

lemma v6Accept_ends {rules : List Rule} {r : Rule} (hr : r.target=.accept)
    (hst : st .v6=.linked rules) (hm : Owns orig h n st m) {E : String → Moment → Prop} :
    Ends (fun _ m' => ∃ more, more ⊆ [r] ∧
        Owns orig h n (update st .v6 (.linked (rules++more))) m') E (v6Accept env r) m := by
  have hj : ∀ c, r.target≠.jump c := by
    intro c hc
    rw [hr] at hc
    cases hc
  have hs (m' : Moment) (hm' : Owns orig h n st m') : ∃ more, more ⊆ [r] ∧
      Owns orig h n (update st .v6 (.linked (rules++more))) m' := by
    refine ⟨[],nil_subset _,?_⟩
    rw [append_nil,← hst,update_eq_self]
    exact hm'
  have ht : Ends (fun _ m' => ∃ more, more ⊆ [r] ∧
      Owns orig h n (update st .v6 (.linked (rules++more))) m') E
      (Script.attempt (append env .v6 r)) m :=
    Safe.attempt ((append_ends horig r hj hst hm).imp (fun _ _ hQ => ⟨[r],fun _ hr => hr,hQ⟩)
      fun _ m' hE => hE.elim (hs m') fun hm' => ⟨[r],fun _ hr => hr,hm'⟩)
  exact ht.bind fun _ _ hm => Safe.pure hm

lemma armKillSwitch_ends (p : ArmParams) (hm : Owns orig h n (fun _ => .absent) m) :
    Ends (fun _ m' => ∃ st, Sealed p st ∧ Owns orig h n st m') (fun _ m' => ∃ st, Owns orig h n st m')
      (armKillSwitch env p.nodeIp p.alsoExcept p.tunName) m := by
  have ha (family : Family) (st : Family → ChainState) (m : Moment)
      (hm : Moved orig h n st family m) : ∃ st, Owns orig h n st m :=
    ⟨_,hm.choose_spec⟩
  have hd : ∀ c, (Rule.always .drop).target≠.jump c := by
    intro c hc
    cases hc
  refine ((openChain_ends horig .v4 rfl hm).imp_right fun _ => ha .v4 _).bind fun _ m hm => ?_
  refine ((appendAll_ends horig (p := p) (update_self ..) hm).imp_right
    fun _ => ha .v4 _).bind fun _ m hm => ?_
  refine ((append_ends horig _ hd (update_self ..) hm).imp_right
    fun _ m' hE => ha .v4 _ m' (moved_either hE)).bind fun _ m hm => ?_
  simp only [update_idem] at hm
  refine ((openChain_ends horig .v6 (by simp) hm).imp_right fun _ => ha .v6 _).bind fun _ m hm => ?_
  refine (v6Accept_ends horig rfl (update_self ..) hm).bind fun _ m hl => ?_
  obtain ⟨lo,hl,hm⟩ := hl
  refine (v6Accept_ends horig rfl (update_self ..) hm).bind fun _ m ht => ?_
  obtain ⟨tun,ht,hm⟩ := ht
  simp only [update_idem,nil_append] at hm
  refine Safe.mapError ((append_ends horig _ hd (update_self ..) hm).imp ?_
    fun _ m' hE => ha .v6 _ m' (moved_either hE))
  intro _ m' hm'
  refine ⟨_,⟨by simp,lo++tun,?_,update_self ..⟩,hm'⟩
  intro r hr
  rcases mem_append.mp hr with hr | hr
  · exact mem_cons.mpr (.inl (mem_singleton.mp (hl hr)))
  · exact mem_cons_of_mem _ (ht hr)
end

lemma attemptStep_ends {x : Shell Unit} {Q E : Moment → Prop} {F : String → Moment → Prop}
    (c : CleanupErrors) (st : String) (hx : Ends (fun _ => Q) (fun _ => E) x m) :
    Ends (fun r m' => (r=(true,c) ∧ Q m') ∨ ∃ e, r=(false,c++[e]) ∧ E m') F
      (attemptStep c st x) m := by
  have ht : Ends (fun r m' => (r=.ok () ∧ Q m') ∨ ∃ e, r=.error e ∧ E m') F (Script.attempt x) m :=
    Safe.attempt (hx.imp (fun _ _ hQ => .inl ⟨rfl,hQ⟩) fun e _ hE => .inr ⟨e,rfl,hE⟩)
  refine ht.bind fun r m' hr => Safe.pure ?_
  rcases hr with ⟨rfl,hQ⟩ | ⟨e,rfl,hE⟩
  · exact .inl ⟨rfl,hQ⟩
  · exact .inr ⟨_,rfl,hE⟩

lemma attemptPresent_ends {x : Shell Bool} {f : Bool} {P : Moment → Prop} {E : String → Moment → Prop}
    (hx : Ends (fun b m' => b=f ∧ P m') (fun _ m' => env.system.Faulty ∧ P m') x m) :
    Ends (fun r m' => P m' ∧ (r=.ok f ∨ ∃ e, r=.error e ∧ env.system.Faulty)) E (Script.attempt x) m :=
  Safe.attempt (hx.imp (fun _ _ hQ => ⟨hQ.2,.inl (by rw [hQ.1])⟩)
    fun e _ hE => ⟨hE.2,.inr ⟨e,rfl,hE.1⟩⟩)

lemma finish_ends {Q : Unit → Moment → Prop} {E : String → Moment → Prop} {c : CleanupErrors}
    (hn : c=[] → Q () m) (hs : c≠[] → ∀ e, E e m) :
    Ends Q E (finish c) m := by
  unfold finish
  split
  next he => exact Safe.pure (hn (List.isEmpty_iff.mp he))
  next he => exact Safe.throw (hs (fun hl => he (List.isEmpty_iff.mpr hl)) _)

section
variable (horig : ∀ family, (orig family).Lacks (nilChain family))
include horig
lemma jumpPresent_ends (hm : Owns orig h n st m) :
    Ends (fun b m' => b=(st family).isLinked ∧ Owns orig h n st m')
      (fun _ m' => env.system.Faulty ∧ Owns orig h n st m')
      (commandPresent env (.checkOutput family (jump family))) m := by
  have hf:=ChainState.jump_mem_within (horig family) (st family)
  have he : exec env.lookup (.checkOutput family (jump family)) {h with filters := owned orig st} =
      (presence (st family).isLinked,{h with filters := owned orig st}) := by
    have hmem : decide (jump family∈(owned orig st family).output)=(st family).isLinked := by
      rw [Bool.eq_iff_iff,decide_eq_true_iff]
      exact hf
    simp only [exec,hmem]
  exact commandPresent_ends he hm

lemma chainPresent_ends (hm : Owns orig h n st m) :
    Ends (fun b m' => b=(st family).rules.isSome ∧ Owns orig h n st m')
      (fun _ m' => env.system.Faulty ∧ Owns orig h n st m')
      (commandPresent env (.listChain family (nilChain family))) m := by
  have he : exec env.lookup (.listChain family (nilChain family)) {h with filters := owned orig st} =
      (presence (st family).rules.isSome,{h with filters := owned orig st}) := by
    simp only [exec,owned,ChainState.chain_within (horig family)]
  exact commandPresent_ends he hm

variable {E : String → Moment → Prop}
lemma removeJump_ends (c : CleanupErrors) (hm : Owns orig h n st m) :
    Ends (fun er' m' => ∃ s, Owns orig h n (update st family s) m' ∧
        ((er'=c ∧ s.isLinked=false) ∨ er'≠[] ∧ env.system.Faulty)) E
      (removeJump env family c) m := by
  refine (attemptPresent_ends (jumpPresent_ends horig hm)).bind fun r m hr => ?_
  obtain ⟨hm,hr⟩ := hr
  have hs : Owns orig h n (update st family (st family)) m := by rwa [update_eq_self]
  rcases hr with rfl | ⟨e,rfl,hf⟩
  · cases ht : st family with
    | linked ru =>
      have hd : Ends (fun _ => Owns orig h n (update st family (.unlinked ru)))
          (fun _ m' => env.system.Faulty ∧ Moved orig h n st family m')
          (sh env (.filter family (.deleteOutput (jump family)))) m := by
        refine (filter_done rfl ?_ hm).imp_right fun _ _ hE => ⟨hE.1,moved_either hE.2⟩
        rw [owned,jump,ChainState.unlink_within (horig family),ht]
        rfl
      refine (attemptStep_ends c _ hd).bind fun r m hr => ?_
      rcases hr with ⟨rfl,hm⟩ | ⟨e,rfl,hf,s,hm⟩
      · exact Safe.pure ⟨_,hm,.inl ⟨rfl,rfl⟩⟩
      · exact Safe.pure ⟨s,hm,.inr ⟨by simp,hf⟩⟩
    | absent | unlinked => exact Safe.pure ⟨_,hs,.inl ⟨rfl,by rw [ht]; rfl⟩⟩
  · exact Safe.pure ⟨_,hs,.inr ⟨by simp [CleanupErrors.attempt],hf⟩⟩

lemma deleteFlushed_ends {s : ChainState} (hs : (st family).edit (fun _ => [])=some s)
    (hm : Owns orig h n (update st family s) m) :
    Ends (fun _ => Owns orig h n (update st family .absent))
      (fun _ m' => ((st family).isLinked=false → env.system.Faulty) ∧ Moved orig h n st family m')
      (sh env (.filter family (.deleteChain (nilChain family)))) m := by
  have hop:=ChainState.remove_within (horig family) (update st family s family)
  cases ht : st family with
  | absent => simp [ht,ChainState.edit] at hs
  | unlinked ru =>
    have hs : s=.unlinked [] := by simpa [ht,ChainState.edit] using hs.symm
    subst hs
    refine (filter_done (s := .absent) rfl ?_ hm).imp ?_ ?_
    · rw [owned,hop,update_self]
      rfl
    · intro _ m' hQ
      rwa [update_idem] at hQ
    · intro _ m' hE
      exact ⟨fun _ => hE.1,moved_update (moved_either hE.2)⟩
  | linked ru =>
    have hs : s=.linked [] := by simpa [ht,ChainState.edit] using hs.symm
    subst hs
    refine (filter_refused (.inr ?_) hm).imp (fun _ _ hQ => hQ.elim)
      fun _ _ hE => ⟨fun hf => (by cases hf),_,hE⟩
    rw [owned,hop,update_self]
    rfl

lemma removeChain_ends (c : CleanupErrors) (hm : Owns orig h n st m) :
    Ends (fun er' m' => ∃ s, Owns orig h n (update st family s) m' ∧
        ((er'=c ∧ s=.absent) ∨ er'≠[] ∧ ((st family).isLinked=false → env.system.Faulty))) E
      (removeChain env family c) m := by
  refine (attemptPresent_ends (chainPresent_ends horig hm)).bind fun r m hr => ?_
  obtain ⟨hm,hr⟩ := hr
  have hsm : Owns orig h n (update st family (st family)) m := by rwa [update_eq_self]
  rcases hr with rfl | ⟨e,rfl,hf⟩
  · cases hl : (st family).rules with
    | none => exact Safe.pure ⟨_,hsm,.inl ⟨rfl,ChainState.rules_eq_none hl⟩⟩
    | some ru =>
      have hfl : Ends (fun _ m' => ∃ s, (st family).edit (fun _ => [])=some s ∧
            Owns orig h n (update st family s) m')
          (fun _ m' => env.system.Faulty ∧ Moved orig h n st family m')
          (sh env (.filter family (.flush (nilChain family)))) m :=
        (flush_ends horig family hm).imp_right
          fun _ _ hE => ⟨hE.1 (by rw [hl]; simp),hE.2⟩
      refine (attemptStep_ends c _ hfl).bind fun r m hr => ?_
      rcases hr with ⟨rfl,s,hs,hm⟩ | ⟨e,rfl,hf,s,hm⟩
      · refine (attemptStep_ends c _ (deleteFlushed_ends horig hs hm)).bind fun r m hr => ?_
        rcases hr with ⟨rfl,hm⟩ | ⟨e,rfl,hc,s,hm⟩
        · exact Safe.pure ⟨_,hm,.inl ⟨rfl,rfl⟩⟩
        · exact Safe.pure ⟨s,hm,.inr ⟨by simp,hc⟩⟩
      · exact Safe.pure ⟨s,hm,.inr ⟨by simp,fun _ => hf⟩⟩
  · exact Safe.pure ⟨_,hsm,.inr ⟨by simp [CleanupErrors.attempt],fun _ => hf⟩⟩

lemma disarmFamily_ends (family : Family) (e : CleanupErrors) (hm : Owns orig h n st m) :
    Ends (fun er' m' => ∃ s, Owns orig h n (update st family s) m' ∧
        ((er'=e ∧ s=.absent) ∨ er'≠[] ∧ env.system.Faulty)) E
      (disarmFamily env family e) m := by
  refine (removeJump_ends horig e hm).bind fun er' m hm => ?_
  obtain ⟨s,hm,hf⟩ := hm
  refine (removeChain_ends horig er' hm).imp_left ?_
  intro er'' m' hQ
  obtain ⟨s',hm',hs⟩ := hQ
  rw [update_idem] at hm'
  rw [update_self] at hs
  refine ⟨s',hm',?_⟩
  rcases hf with ⟨rfl,hfr⟩ | ⟨hn,hfa⟩
  · exact hs.imp id fun h => ⟨h.1,h.2 hfr⟩
  · grind

lemma disarmKillSwitch_ends (hm : Owns orig h n st m) : Ends (fun _ => Is {h with filters := orig} n)
      (fun _ m' => env.system.Faulty ∧ ∃ st, Owns orig h n st m') (disarmKillSwitch env) m := by
  refine (disarmFamily_ends horig .v4 [] hm).bind fun er m hm => ?_
  obtain ⟨s₄,hm,hf⟩ := hm
  refine (disarmFamily_ends horig .v6 er hm).bind fun er' m hm => ?_
  obtain ⟨s₆,hm,hs⟩ := hm
  refine finish_ends ?_ ?_
  · intro hn
    have hc : er=[] ∧ s₆=.absent := by grind [absurd]
    have ha : s₄=.absent := by grind [absurd]
    have ho : owned orig (update (update st .v4 s₄) .v6 s₆)=orig := by
      funext family
      rw [ha,hc.2]
      cases family <;> rfl
    rwa [Owns,ho] at hm
  · grind [hf.resolve_left]
end
section
variable {B : Moment → Prop}
def Cmd.Filters : Cmd → Prop
  | .filter .. | .checkOutput .. | .listChain .. => True
  | _ => False

/-- `B` survives every command about the packet filters. -/
def Lasting (env : Env) (B : Moment → Prop) : Prop := ∀ c : Cmd, c.Filters → env.system.Stable B c

lemma self_lasting (env : Env) (P : LinuxNet → Prop) : Lasting env fun m => P m.self :=
  fun _ _ _ hm _ _ => hm

lemma attemptStep_keeps {x : Shell Unit} (hx : Keeps B x) (e : CleanupErrors) (st : String) :
    Keeps B (attemptStep e st x) :=
  hx.attempt.bind fun _ => Keeps.pure _

lemma finish_keeps (e : CleanupErrors) : Keeps B (finish e) :=
  Keeps.ite (Keeps.pure _) (Keeps.throw _)

section
variable (hB : Lasting env B)
include hB
lemma filter_keeps (family : Family) (op : FilterOp) : Keeps B (sh env (.filter family op)) :=
  System.run_keeps (hB (.filter family op) trivial)

lemma openChain_keeps (family : Family) : Keeps B (openChain env family) := by
  have hc : Keeps B (sh env (.checkOutput family (jump family))) :=
    System.run_keeps (hB (.checkOutput family (jump family)) trivial)
  refine (filter_keeps hB family _).attempt.bind fun _ => (filter_keeps hB family _).bind fun _ => ?_
  refine hc.attempt.bind fun r => ?_
  cases r with
  | ok _ => exact Keeps.pure _
  | error _ => exact filter_keeps hB family _

lemma armKillSwitch_keeps (nodeIp : IpAddr) (alsoExcept : List IpAddr)
    (tun : String) : Keeps B (armKillSwitch env nodeIp alsoExcept tun) := by
  have ha (family : Family) (r : Rule) : Keeps B (append env family r) := filter_keeps hB family _
  have hc (r : Rule) : Keeps B (v6Accept env r) := (ha .v6 r).attempt.bind fun _ => Keeps.pure _
  refine (openChain_keeps hB .v4).bind fun _ => ?_
  refine (Keeps.each (ha .v4) _).bind fun _ => ?_
  refine (ha .v4 _).bind fun _ => ?_
  refine (openChain_keeps hB .v6).bind fun _ => ?_
  refine (hc _).bind fun _ => (hc _).bind fun _ => ?_
  exact (ha .v6 _).mapError

lemma disarmFamily_keeps (family : Family) (e : CleanupErrors) :
    Keeps B (disarmFamily env family e) := by
  have ha (c : Cmd) (hc : c.Filters) : Keeps B (commandPresent env c) := System.present_keeps (hB c hc)
  have hj : Keeps B (removeJump env family e) := by
    refine (ha (.checkOutput family (jump family)) trivial).attempt.bind fun r => ?_
    split
    · exact (attemptStep_keeps (filter_keeps hB family _) _ _).bind fun _ => Keeps.pure _
    · exact Keeps.pure _
    · exact Keeps.pure _
  refine hj.bind fun e => ?_
  refine (ha (.listChain family (nilChain family)) trivial).attempt.bind fun r => ?_
  split
  · refine (attemptStep_keeps (filter_keeps hB family _) _ _).bind fun r => Keeps.ite ?_ (Keeps.pure _)
    exact (attemptStep_keeps (filter_keeps hB family _) _ _).bind fun _ => Keeps.pure _
  · exact Keeps.pure _
  · exact Keeps.pure _

lemma disarmKillSwitch_keeps : Keeps B (disarmKillSwitch env) := by
  refine (disarmFamily_keeps hB .v4 []).bind fun er => ?_
  exact (disarmFamily_keeps hB .v6 er).bind fun er => finish_keeps er
end
end
end NilVpn.Datapath.Linux
