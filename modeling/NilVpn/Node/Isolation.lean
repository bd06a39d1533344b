import NilVpn.Node.Server

/-!
# Isolation of the clients of one node
-/

namespace NilVpn.Node
open AddressPool Server Base Option List Table
open NilVpn.Core (fixL4Checksums)
open Transport (decodeDatagram encodeDatagram)

variable {W : Type} {s : Server W} {config : ServerConfig W} {clientId : Bytes} {client : Client W}
structure Placed (routes : Table IpAddr Bytes) (pool : AddressPool) (clientId : Bytes)
    (client : Client W) : Prop where
  up : client.tunnelUp=true → client.ciStream≠none
  unconnected : client.ciStream=none → client.assignedIp=none ∧ ∀ addr, routes.get addr≠some clientId
  assigned : ∀ ip, client.assignedIp=some ip → (∃ a, pool.byConn.get clientId=some a ∧ ip=.ofUInt32 a) ∧
      routes.get (.v4 ip)=some clientId ∧
      ∀ addr, routes.get addr=some clientId → addr=.v4 ip
  capped : client.assignedIp=none → routes.countVal clientId ≤ maxLearnedRoutesPerClient

structure Isolated (s : Server W) : Prop where
  pool : s.pool.Sound
  held : ∀ k a, s.pool.byConn.get k=some a → ∃ c, s.clients.get k=some c ∧ c.assignedIp=some (.ofUInt32 a)
  clients : ∀ k c, s.clients.get k=some c → Placed s.clientRoutes s.pool k c
  live : ∀ addr k, s.clientRoutes.get addr=some k → s.clients.get k≠none

lemma isolated_new (g : GrantReplayCache) : Isolated (new g : Server W) where
  pool := sound_default
  held := fun _ _ h => by cases h
  clients := fun _ _ h => by cases h
  live := fun _ _ h => by cases h

lemma Placed.mono {r r' : Table IpAddr Bytes} {p a' : AddressPool} (h : Placed r p clientId client)
    (hs : ∀ ad, r'.get ad=some clientId → r.get ad=some clientId)
    (hk : ∀ ip, client.assignedIp=some ip → r'.get (.v4 ip)=some clientId)
    (hc : r'.countVal clientId ≤ r.countVal clientId)
    (hp : a'.byConn.get clientId=p.byConn.get clientId) :
    Placed r' a' clientId client where
  up := h.up
  unconnected := by
    intro hn
    obtain ⟨hip,hr⟩ := h.unconnected hn
    exact ⟨hip,fun ad ha => hr ad (hs ad ha)⟩
  assigned := by grind [h.assigned]
  capped := fun hip => hc.trans (h.capped hip)

lemma Placed.routeOther {r : Table IpAddr Bytes} {p a' : AddressPool}
    (h : Placed r p clientId client) {src : IpAddr} {o : Bytes}
    (ho : clientId≠o) (hf : ∀ ip, client.assignedIp=some ip → IpAddr.v4 ip≠src)
    (hp : a'.byConn.get clientId=p.byConn.get clientId) :
    Placed (r.insert src o) a' clientId client := by
  apply h.mono _ _ _ hp
  · grind [get_insert,absurd]
  · intro ip hip
    exact (get_insert_ne _ _ _ _ (hf ip hip)).trans (h.assigned ip hip).2.1
  · have hle:=countVal_insert_le r src o clientId
    rwa [if_neg (Ne.symm ho),Nat.add_zero] at hle

section
variable (h : Isolated s)
include h
lemma Isolated.put (hg : s.clients.get clientId=some client) {w : Client W}
    (hup : w.tunnelUp → client.tunnelUp)
    (hs : w.ciStream=client.ciStream) (hip : w.assignedIp=client.assignedIp) :
    Isolated (s.put clientId w) := by
  have hp:=h.clients clientId client hg
  constructor
  · exact h.pool
  · intro k a hk
    obtain ⟨c,hc,hci⟩ := h.held k a hk
    apply exists_insert hc hci
    intro hy
    rw [hy,hg] at hc
    rw [hip,some.inj hc,hci]
  · apply forall_insert h.clients
    exact
      { up := fun hu => hs ▸ hp.up (hup hu)
        unconnected := fun hn => hip ▸ hp.unconnected (hs ▸ hn)
        assigned := fun ip hsm => hp.assigned ip (hip ▸ hsm)
        capped := fun hn => hp.capped (hip ▸ hn) }
  · intro ad k hr
    exact get_insert_ne_none (h.live ad k hr) clientId w

lemma Isolated.accept (config : ServerConfig W) (clientId : Bytes)
    (peer : IpAddr) : Isolated (acceptClient config s clientId peer) := by
  unfold acceptClient
  split
  · exact h
  next hkn =>
    have hn : s.clients.get clientId=none := by simpa [Table.contains] using hkn
    have hun : ∀ ad, s.clientRoutes.get ad≠some clientId := fun ad ha => h.live ad clientId ha hn
    simp only
    split
    · constructor
      · exact h.pool
      · intro k a hk
        obtain ⟨c,hc,hp⟩ := h.held k a hk
        apply exists_insert hc hp
        intro hy
        rw [hy,hn] at hc
        cases hc
      · apply forall_insert h.clients
        exact
          { up := fun hu => by cases hu
            unconnected := fun _ => ⟨rfl,hun⟩
            assigned := fun _ hp => by cases hp
            capped := fun _ => by
              rw [countVal_eq_zero hun]
              exact Nat.zero_le _ }
      · intro ad k hr
        exact get_insert_ne_none (h.live ad k hr) clientId _
    · exact h

lemma Isolated.repool {pool : AddressPool} (hpl : pool.Sound)
    (hs : ∀ k, pool.byConn.get k=s.pool.byConn.get k) (grantReplays : GrantReplayCache) :
    Isolated {s with pool,grantReplays} where
  pool := hpl
  held := fun k a hk => h.held k a (hs k ▸ hk)
  clients := by
    intro k c hc
    have hp:=h.clients k c hc
    exact hp.mono (fun _ ha => ha) (fun ip hip => (hp.assigned ip hip).2.1) le_rfl (hs k)
  live := h.live

lemma Isolated.held_ne (hg : s.clients.get clientId=some client)
    (hs : client.ciStream=none) {k : Bytes} {a : UInt32}
    (hk : s.pool.byConn.get k=some a) : k≠clientId := by
  intro hy
  obtain ⟨c,hc,hp⟩ := h.held k a hk
  rw [hy,hg] at hc
  rw [← some.inj hc,((h.clients clientId client hg).unconnected hs).1] at hp
  cases hp

lemma Isolated.openUnassigned (hg : s.clients.get clientId=some client)
    (ht : client.ciStream=none) (streamId : UInt64) (p : PacketPolicy) :
    Isolated (openTunnel s clientId client streamId p s.pool none) := by
  obtain ⟨hip,hu⟩ := (h.clients clientId client hg).unconnected ht
  constructor
  · exact h.pool
  · intro k a hk
    obtain ⟨c,hc,hp⟩ := h.held k a hk
    exact exists_insert hc hp fun hy => absurd hy (h.held_ne hg ht hk)
  · apply forall_insert h.clients
    exact
      { up := fun _ hn => by cases hn
        unconnected := fun hn => by cases hn
        assigned := fun ip hs => by
          have hs : client.assignedIp=some ip := hs
          rw [hip] at hs
          cases hs
        capped := fun _ => by
          show s.clientRoutes.countVal clientId≤_
          rw [countVal_eq_zero hu]
          exact Nat.zero_le _ }
  · intro ad k hr
    exact get_insert_ne_none (h.live ad k hr) clientId _

/-- The address was free, so it was nobody's; a route that someone has learned for it is taken
over. -/
lemma Isolated.openAssigned (hg : s.clients.get clientId=some client)
    (hs : client.ciStream=none) {a : UInt32} (ha : a∉s.pool.inUse) (c : UInt32)
    (streamId : UInt64) (p : PacketPolicy) :
    Isolated (openTunnel s clientId client streamId p { s.pool with
      cursor := c
      inUse := insert a s.pool.inUse
      byConn := s.pool.byConn.insert clientId a } (some (.ofUInt32 a))) := by
  obtain ⟨-,hu⟩ := (h.clients clientId client hg).unconnected hs
  have hr : ∀ ad, (s.clientRoutes.insert (.v4 (.ofUInt32 a)) clientId).get ad =
      some clientId → ad=.v4 (.ofUInt32 a) := by
    intro ad hd
    by_contra hne
    rw [get_insert_ne _ _ _ _ hne] at hd
    exact hu ad hd
  constructor
  · exact h.pool.fresh ha c
  · apply forall_insert
    · intro k b hk
      obtain ⟨c,hc,hci⟩ := h.held k b hk
      exact exists_insert hc hci fun hy => absurd hy (h.held_ne hg hs hk)
    · exact ⟨_,get_insert_self ..,rfl⟩
  · intro k c hc
    by_cases hy : k=clientId
    · have hc : _=some c := (get_insert_self s.clients clientId _).symm.trans (hy ▸ hc)
      rw [hy,← some.inj hc]
      exact
        { up := fun _ hn => by cases hn
          unconnected := fun hn => by cases hn
          assigned := fun ip hsm => by
            cases hsm
            exact ⟨⟨a,get_insert_self ..,rfl⟩,get_insert_self ..,hr⟩
          capped := fun hn => by cases hn }
    · have hc : s.clients.get k=some c := (get_insert_ne _ _ _ _ hy).symm.trans hc
      have hp:=h.clients k c hc
      apply hp.routeOther hy _ (get_insert_ne _ _ _ _ hy)
      intro ip hip heq
      obtain ⟨⟨b,hb,hbi⟩,-⟩ := hp.assigned ip hip
      have hba : b=a := Ipv4.ofUInt32_inj (hbi ▸ IpAddr.v4.inj heq)
      exact ha (hba ▸ h.pool.inUse k b hb)
  · apply forall_insert
    · intro ad k hrt
      exact get_insert_ne_none (h.live ad k hrt) clientId _
    · exact (get_insert_self ..).trans_ne (some_ne_none _)

lemma Isolated.headers (hg : s.clients.get clientId=some client)
    (config : ServerConfig W) (streamId : UInt64) (list : List Header) (now : UInt64) (sent : Bool) :
    Isolated (onHeaders config s clientId client streamId list now sent).1 := by
  unfold onHeaders
  split
  · split
    · exact h
    next hs =>
      have hs : client.ciStream=none := by simpa using hs
      split
      · exact h.repool h.pool (fun _ => rfl) _
      next gr po _ =>
        have has:=assign_assigned s.pool clientId
        have hsn:=assign_sound clientId h.pool
        generalize s.pool.assign clientId=r at has hsn
        cases has with
        | held a ha => exact absurd rfl (h.held_ne hg hs ha)
        | fresh c a hy ha =>
          simp only
          split
          · exact (h.repool h.pool (fun _ => rfl) gr).openAssigned hg hs ha c streamId po
          · apply h.repool (release_sound hsn)
            intro k
            rw [release_byConn]
            split
            next hk => rw [hk,hy]
            next hk => exact get_insert_ne _ _ _ _ hk
        | exhausted c hy =>
          have hp:=h.repool hsn (fun _ => rfl) gr
          simp only
          split
          · exact hp.openUnassigned hg hs streamId po
          · exact hp
  · exact h
end

lemma learnClientRoute_cases (r : Table IpAddr Bytes) (clientId : Bytes)
    (assigned : Option Ipv4) (pkt : Bytes) :
    (∃ learned, learnClientRoute r clientId assigned pkt=(r,learned) ∧
      (learned → ∃ src, packetSrcIp pkt=some src ∧ r.get src=some clientId)) ∨
    ∃ src, packetSrcIp pkt=some src ∧ r.get src=none ∧ (∀ ip, assigned=some ip → src=.v4 ip) ∧
      (assigned=none → r.countVal clientId < maxLearnedRoutesPerClient) ∧
      learnClientRoute r clientId assigned pkt=(r.insert src clientId,true) := by
  unfold learnClientRoute
  cases hs : packetSrcIp pkt with
  | none => exact .inl ⟨false,rfl,fun h => by cases h⟩
  | some src => grind

lemma Isolated.learn (h : Isolated s) (hg : s.clients.get clientId=some client)
    (hup : client.tunnelUp) {src : IpAddr} (hsrc : s.clientRoutes.get src=none)
    (ha : ∀ ip, client.assignedIp=some ip → src=.v4 ip)
    (hcap : client.assignedIp=none → s.clientRoutes.countVal clientId < maxLearnedRoutesPerClient) :
    Isolated {s with clientRoutes := s.clientRoutes.insert src clientId} := by
  constructor
  · exact h.pool
  · exact h.held
  · intro k c hc
    have hp:=h.clients k c hc
    have hf : ∀ ip, c.assignedIp=some ip → IpAddr.v4 ip≠src := by grind [hp.assigned]
    by_cases hk : k=clientId
    · rw [hk,hg] at hc
      have hs:=some.inj hc
      subst hs
      subst hk
      exact
        { up := hp.up
          unconnected := fun hn => absurd hn (hp.up hup)
          assigned := by grind [hp.assigned]
          capped := by
            intro hn
            have hle:=countVal_insert_le s.clientRoutes src k k
            rw [if_pos rfl] at hle
            exact hle.trans (hcap hn) }
    · exact hp.routeOther hk hf rfl
  · apply forall_insert h.live
    rw [hg]
    exact some_ne_none client

lemma Isolated.route (h : Isolated s) (hg : s.clients.get clientId=some client)
    (hup : client.tunnelUp) (pkt : Bytes) :
    Isolated (routePacket s clientId client pkt).1 := by
  unfold routePacket
  split
  · rcases learnClientRoute_cases s.clientRoutes clientId client.assignedIp pkt with
      ⟨learned,heq,-⟩ | ⟨src,-,hs,ha,hc,heq⟩
    · rw [heq]
      exact h
    · rw [heq]
      exact h.learn hg hup hs ha hc
  · exact h

lemma Isolated.datagram (h : Isolated s) (hg : s.clients.get clientId=some client)
    (config : ServerConfig W) (datagram : Bytes) (r : ℕ) :
    Isolated (onDatagram config s clientId client datagram r).1 := by
  unfold onDatagram
  split
  · exact h
  next hu =>
    have hu : client.tunnelUp := by simpa using hu
    split
    next fid py _ =>
      split
      · unfold onPayload
        split
        next t _ =>
          rcases decapsulateLoop config.responder r t py [] with ⟨t,replies,pa⟩
          have hp : Isolated (s.put clientId {client with pqwg := some t}) := h.put hg id rfl rfl
          cases pa with
          | some pa => exact hp.route (get_insert_self ..) hu pa
          | none => exact hp
        · split
          · exact h
          · exact h.route hg hu py
      · exact h
    · exact h
    · exact h

lemma foldl_release_byConn (es : List (Bytes × Client W)) (p : AddressPool) (k : Bytes) (a : UInt32) :
    (es.foldl (fun p e => if e.2.closed then p.release e.1 else p) p).byConn.get k=some a ↔
      p.byConn.get k=some a ∧ ∀ e∈es, e.1=k → e.2.closed=false := by
  induction es generalizing p with
  | nil => simp
  | cons e es ih =>
    rw [foldl_cons,ih,forall_mem_cons]
    cases hc : e.2.closed with
    | false => simp
    | true => grind [release_byConn]

lemma releaseClosed_byConn (w : Table Bytes (Client W)) (p : AddressPool) (k : Bytes) (a : UInt32) :
    (releaseClosed w p).byConn.get k=some a ↔
      p.byConn.get k=some a ∧ ∀ c, w.get k=some c → c.closed=false := by
  rw [releaseClosed,foldl_release_byConn]
  apply and_congr_right
  intro _
  constructor
  · intro h c hc
    exact h (k,c) ((get_eq_some w k c).mp hc) rfl
  · intro h e he hk
    exact h e.2 ((get_eq_some w k e.2).mpr (hk ▸ he))

lemma releaseClosed_sound (c : Table Bytes (Client W)) {p : AddressPool}
    (h : p.Sound) : (releaseClosed c p).Sound := by
  unfold releaseClosed
  induction c.entries generalizing p with
  | nil => exact h
  | cons e es ih =>
    rw [foldl_cons]
    split
    · exact ih (release_sound h)
    · exact ih h

lemma reap_clients (s : Server W) (k : Bytes) (c : Client W) :
    (reap s).clients.get k=some c ↔ s.clients.get k=some c ∧ c.closed=false := by
  simp [Node.reap,get_retain,filter_eq_some_iff]

lemma reap_routes (s : Server W) (addr : IpAddr) (k : Bytes) : (reap s).clientRoutes.get addr=some k ↔
    s.clientRoutes.get addr=some k ∧ (reap s).clients.get k≠none := by
  rw [← isSome_iff_ne_none]
  exact (iff_of_eq (congrArg (·=some k) (get_retain ..))).trans filter_eq_some_iff

lemma Isolated.reap (h : Isolated s) : Isolated (reap s) := by
  have hcl:=reap_clients s
  have hr:=reap_routes s
  constructor
  · exact releaseClosed_sound s.clients h.pool
  · intro k a hk
    obtain ⟨hk,ho⟩ := (releaseClosed_byConn ..).mp hk
    obtain ⟨c,hc,hip⟩ := h.held k a hk
    exact ⟨c,(hcl k c).mpr ⟨hc,ho c hc⟩,hip⟩
  · intro k c hkc
    obtain ⟨hc,hcs⟩ := (hcl k c).mp hkc
    have hp:=h.clients k c hc
    have hl : (Node.reap s).clients.get k≠none := hkc.trans_ne (some_ne_none c)
    apply hp.mono
    · intro ad ha
      exact ((hr ad k).mp ha).1
    · intro ip hip
      exact (hr (.v4 ip) k).mpr ⟨(hp.assigned ip hip).2.1,hl⟩
    · exact countVal_retain_le ..
    · apply option_eq_of_some_iff
      intro a
      refine (releaseClosed_byConn ..).trans (and_iff_left ?_)
      intro c' hc'
      rw [hc] at hc'
      rwa [← some.inj hc']
  · intro ad k ha
    exact ((hr ad k).mp ha).2

lemma withH3_cases (s : Server W) (clientId : Bytes) (f : Client W → Server W × List Output) :
    withH3 s clientId f=(s,[]) ∨
      ∃ client, s.clients.get clientId=some client ∧ withH3 s clientId f=f client := by
  unfold withH3
  split
  next client hg =>
    split
    · exact .inr ⟨client,hg,rfl⟩
    · exact .inl rfl
  · exact .inl rfl

lemma Isolated.withH3 (h : Isolated s) {f : Client W → Server W × List Output}
    (hf : ∀ client, s.clients.get clientId=some client → Isolated (f client).1) :
    Isolated (withH3 s clientId f).1 := by
  rcases withH3_cases s clientId f with heq | ⟨client,hg,heq⟩
  · rw [heq]
    exact h
  · rw [heq]
    exact hf client hg

lemma Isolated.tun (h : Isolated s) (config : ServerConfig W) (pkt : Bytes) :
    Isolated (onTun config s pkt).1 := by
  unfold onTun
  simp only
  split
  · exact h
  next clientId _ => grind [filter_eq_some_iff.mp,h.put]

lemma step_isolated (config : ServerConfig W) (s : Server W) (e : Event) (h : Isolated s) :
    Isolated (s.step config e) := by
  cases e with
  | accept clientId pe => exact h.accept config clientId pe
  | established clientId =>
    simp only [step,handle]
    split
    next client hg => exact h.put hg id rfl rfl
    · exact h
  | headers clientId si li now se => exact h.withH3 fun client hg => h.headers hg config si li now se
  | data clientId si bt =>
    apply h.withH3
    intro client hg
    simp only [onData]
    split
    · exact h.put hg id rfl rfl
    · exact h
  | ended clientId si =>
    apply h.withH3
    intro client hg
    simp only [onEnded]
    split
    · exact h.put hg nofun rfl rfl
    · exact h
  | datagram clientId dg ro => exact h.withH3 fun client hg => h.datagram hg config dg ro
  | tun pa => exact h.tun config pa
  | close clientId =>
    simp only [step,handle]
    split
    next client hg => exact h.put hg id rfl rfl
    · exact h
  | reap => exact h.reap

lemma run_isolated (config : ServerConfig W) (g : GrantReplayCache) (es : List Event) :
    Isolated (runFrom (step config) (new g) es) :=
  run_invariant (step_isolated config) (isolated_new g) es

structure Delivered (s after : Server W) (clientId datagram packet : Bytes) (client : Client W) : Prop where
  present : s.clients.get clientId=some client
  up : client.tunnelUp=true
  flow : ∃ payload, decodeDatagram datagram=.ok (client.flowId,.ip payload)
  admitted : ∃ policy, client.packetPolicy=some policy ∧ policy.admits packet=true
  route : ∃ src, packetSrcIp packet=some src ∧ after.clientRoutes.get src=some clientId

lemma routePacket_toTun {pkt r : Bytes} (h : Output.toTun pkt∈(routePacket s clientId client r).2) :
    (∃ policy, client.packetPolicy=some policy ∧ policy.admits pkt) ∧
      ∃ src, packetSrcIp pkt=some src ∧
        (routePacket s clientId client r).1.clientRoutes.get src=some clientId := by
  unfold routePacket at h ⊢
  split at h
  next hp =>
    rw [if_pos hp]
    rcases learnClientRoute_cases s.clientRoutes clientId client.assignedIp r with
      ⟨learned,heq,hl⟩ | ⟨src,hs,-,-,-,heq⟩
    · rw [heq] at h ⊢
      cases learned with
      | false => cases h
      | true =>
        cases mem_singleton.mp h
        exact ⟨Option.any_eq_true .. |>.mp hp,hl rfl⟩
    · rw [heq] at h ⊢
      cases mem_singleton.mp h
      exact ⟨Option.any_eq_true .. |>.mp hp,src,hs,get_insert_self ..⟩
  · cases h

lemma onPayload_toTun {pkt plain : Bytes} {rounds : ℕ}
    (h : Output.toTun plain∈(onPayload config s clientId client pkt rounds).2) :
    (∃ policy, client.packetPolicy=some policy ∧ policy.admits plain) ∧
      ∃ src, packetSrcIp plain=some src ∧
        (onPayload config s clientId client pkt rounds).1.clientRoutes.get src =
          some clientId := by
  unfold onPayload at h ⊢
  cases ht : client.tunn config with
  | some t =>
    rw [ht] at h
    simp only at h ⊢
    generalize decapsulateLoop config.responder rounds t pkt []=r at h
    obtain ⟨t,re,rt⟩ := r
    cases rt with
    | some rt =>
      rcases mem_append.mp h with h | h
      · exact routePacket_toTun h
      · simp at h
    | none => simp at h
  | none => grind [routePacket_toTun]

lemma onDatagram_toTun {datagram pkt : Bytes} {r : ℕ} (hg : s.clients.get clientId=some client)
    (h : Output.toTun pkt∈(onDatagram config s clientId client datagram r).2) :
    Delivered s (onDatagram config s clientId client datagram r).1 clientId datagram pkt client := by
  unfold onDatagram at h ⊢
  split at h
  · cases h
  next hu =>
    rw [if_neg hu]
    split at h
    next fid py hd =>
      split at h
      next hac =>
        have hf : fid=client.flowId := by simp_all [acceptsClientDatagrams,decide_eq_true_eq]
        obtain ⟨ha,hr⟩ := onPayload_toTun h
        simp only [if_pos hac]
        exact ⟨hg,by simpa using hu,⟨py,hf ▸ hd⟩,ha,hr⟩
      · cases h
    · cases h
    · cases h

lemma onHeaders_toTun {streamId : UInt64} {l : List Header} {now : UInt64} {sent : Bool} {pkt : Bytes} :
    Output.toTun pkt∉(onHeaders config s clientId client streamId l now sent).2 := by
  unfold onHeaders
  split
  · grind
  · simp

lemma handle_toTun {e : Event} {pkt : Bytes} (h : Output.toTun pkt∈(handle config s e).2) :
    ∃ clientId dg ro client, e=.datagram clientId dg ro ∧
      Delivered s (s.step config e) clientId dg pkt client := by
  cases e with
  | accept => cases h
  | established clientId =>
    simp only [handle] at h
    split at h <;> cases h
  | headers clientId si list now sent =>
    simp only [handle] at h
    rcases withH3_cases s clientId _ with heq | ⟨client,-,heq⟩
    · rw [heq] at h
      cases h
    · rw [heq] at h
      exact absurd h onHeaders_toTun
  | data clientId si bt =>
    simp only [handle] at h
    rcases withH3_cases s clientId _ with heq | ⟨client,-,heq⟩ <;> rw [heq] at h <;> cases h
  | ended clientId si =>
    simp only [handle] at h
    rcases withH3_cases s clientId _ with heq | ⟨client,-,heq⟩ <;> rw [heq] at h <;> cases h
  | datagram clientId dg ro =>
    simp only [step,handle] at h ⊢
    rcases withH3_cases s clientId _ with heq | ⟨client,hg,heq⟩
    · rw [heq] at h
      cases h
    · rw [heq] at h ⊢
      exact ⟨clientId,dg,ro,client,rfl,onDatagram_toTun hg h⟩
  | tun pkt =>
    simp only [handle,onTun] at h
    split at h
    · cases h
    · split at h
      · cases h
      · split at h <;> simp at h
  | close clientId =>
    simp only [handle] at h
    split at h <;> cases h
  | reap => cases h

structure Returned (s : Server W) (packet clientId datagram : Bytes) (client : Client W) : Prop where
  present : s.clients.get clientId=some client
  up : client.tunnelUp=true
  route : ∃ dst, packetDstIp (fixL4Checksums packet)=some dst ∧ s.clientRoutes.get dst=some clientId
  flow : ∃ payload, datagram=encodeDatagram client.flowId payload

lemma onTun_sends {pkt : Bytes} {o : Output} (h : o∈(onTun config s pkt).2) :
    ∃ clientId datagram client, o=.toClient clientId datagram ∧
      Returned s pkt clientId datagram client := by
  simp only [onTun] at h
  split at h
  · cases h
  next clientId hr =>
    split at h
    · cases h
    next client hc =>
      obtain ⟨hg,hu⟩ := filter_eq_some_iff.mp hc
      have hr:=bind_eq_some_iff.mp hr
      split at h
      · obtain ⟨py,-,ho⟩ := by simpa using h
        exact ⟨clientId,_,client,ho.symm,hg,hu,hr,py,rfl⟩
      · exact ⟨clientId,_,client,mem_singleton.mp h,hg,hu,hr,_,rfl⟩

structure TunnelIsolation (config : ServerConfig W) (s : Server W) : Prop where
  toTun : ∀ e packet, Output.toTun packet∈(handle config s e).2 →
    ∃ clientId dg rounds client, e=.datagram clientId dg rounds ∧
      Delivered s (handle config s e).1 clientId dg packet client
  assigned : ∀ clientId client ip, s.clients.get clientId=some client →
    client.assignedIp=some ip → ∀ addr, s.clientRoutes.get addr=some clientId ↔ addr=.v4 ip
  distinct : ∀ k j c d ip, s.clients.get k=some c → s.clients.get j=some d →
    c.assignedIp=some ip → d.assignedIp=some ip → k=j
  learned : ∀ clientId client, s.clients.get clientId=some client → client.assignedIp=none →
    s.clientRoutes.countVal clientId≤4
  live : ∀ addr clientId, s.clientRoutes.get addr=some clientId → s.clients.get clientId≠none
  reaped : ∀ addr clientId, (handle config s .reap).1.clientRoutes.get addr=some clientId →
    ∃ client, (handle config s .reap).1.clients.get clientId=some client ∧ client.closed=false
  toClient : ∀ packet o, o∈(handle config s (.tun packet)).2 →
    ∃ clientId datagram client, o=.toClient clientId datagram ∧ Returned s packet clientId datagram client

/-- Tunnel isolation holds in every state a node can reach. -/
theorem node_tunnel_isolation (config : ServerConfig W) (grantReplays : GrantReplayCache) (es : List Event) :
    TunnelIsolation config (runFrom (Server.step config) (Server.new grantReplays) es) := by
  have h:=run_isolated config grantReplays es
  have ha : ∀ clientId client ip,
      (runFrom (step config) (new grantReplays) es).clients.get clientId=some client →
      client.assignedIp=some ip → ∀ ad,
      (runFrom (step config) (new grantReplays) es).clientRoutes.get ad =
        some clientId ↔ ad=.v4 ip := by
    intro clientId client ip hg hip ad
    obtain ⟨-,hroute,honly⟩ := (h.clients clientId client hg).assigned ip hip
    constructor
    · exact honly ad
    · intro haddr
      rw [haddr,hroute]
  exact
    { toTun := fun e pa hm => handle_toTun hm
      assigned := ha
      distinct := by
        intro k j c d ip hk hj hc hd
        have hroute:=(ha k c ip hk hc (.v4 ip)).mpr rfl
        rw [(ha j d ip hj hd (.v4 ip)).mpr rfl] at hroute
        exact (some.inj hroute).symm
      learned := fun clientId client hg hip => (h.clients clientId client hg).capped hip
      live := h.live
      reaped := by
        intro ad clientId hr
        obtain ⟨client,hc⟩ := ne_none_iff_exists.mp ((reap_routes ..).mp hr).2
        exact ⟨client,hc.symm,((reap_clients ..).mp hc.symm).2⟩
      toClient := fun pa o hm => onTun_sends hm }
end NilVpn.Node
