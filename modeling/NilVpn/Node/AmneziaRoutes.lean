import NilVpn.Node.AmneziaWg

/-!
# The routes of the AmneziaWG responder
-/

namespace NilVpn.Node.AmneziaWg
open Responder Base Option List Table
open Transport (Entropy ObfsParams)

variable {Addr W : Type} [DecidableEq Addr] {config : Config W} {r : Responder Addr W}
structure Client.Placed (client : Client W) (addr : Addr) (routes : Table Ipv4 (Addr × ℕ)) : Prop where
  nodup : client.ownedRoutes.Nodup
  capped : client.ownedRoutes.length ≤ maxRoutesPerClient
  silent : client.established=false → client.ownedRoutes=[]
  owned : ∀ ip∈client.ownedRoutes, routes.get ip=some (addr,client.seq)

structure Agreed (r : Responder Addr W) : Prop where
  bounded : r.clients.len ≤ maxClients
  clients : ∀ a c, r.clients.get a=some c → c.Placed a r.routes
  routes : ∀ ip a s, r.routes.get ip=some (a,s) → ∃ c, r.clients.get a=some c ∧ c.seq=s ∧ ip∈c.ownedRoutes

lemma agreed_new : Agreed (new : Responder Addr W) where
  bounded := Nat.zero_le _
  clients := fun _ _ h => by cases h
  routes := fun _ _ _ h => by cases h

lemma Agreed.mem_owned_iff (h : Agreed r) {a : Addr} {c : Client W} (hc : r.clients.get a=some c)
    (ip : Ipv4) : ip∈c.ownedRoutes ↔ r.routes.get ip=some (a,c.seq) := by
  constructor
  · exact (h.clients a c hc).owned ip
  · grind [Option.some.inj,h.routes]

/-- Nothing is routed to an address without a client, or with one that has not been heard from. -/
lemma Agreed.unrouted (h : Agreed r) {a : Addr}
    (ha : ∀ c, r.clients.get a=some c → c.established=false) {ip : Ipv4} {v : Addr × ℕ}
    (hip : r.routes.get ip=some v) : v.1≠a := by
  rintro rfl
  obtain ⟨c,hc,-,hm⟩ := h.routes ip v.1 v.2 hip
  rw [(h.clients _ c hc).silent (ha c hc)] at hm
  cases hm

structure Client.Alike (c c' : Client W) : Prop where
  pubkey : c'.pubkey=c.pubkey
  seq : c'.seq=c.seq
  owned : c'.ownedRoutes=c.ownedRoutes
  established : c.established=true → c'.established=true

omit [DecidableEq Addr] in
lemma Client.Placed.alike {c c' : Client W} {a : Addr} {r : Table Ipv4 (Addr × ℕ)}
    (h : c.Placed a r) (hc : c.Alike c') : c'.Placed a r where
  nodup := by rw [hc.owned]; exact h.nodup
  capped := by rw [hc.owned]; exact h.capped
  silent := by
    intro hn
    rw [hc.owned]
    apply h.silent
    by_contra hy
    rw [hc.established (by simpa using hy)] at hn
    cases hn
  owned := by rw [hc.owned,hc.seq]; exact h.owned

lemma Agreed.alike (h : Agreed r) {clients : Table Addr (Client W)} (hl : clients.len ≤ maxClients)
    (hto : ∀ a c, r.clients.get a=some c → ∃ c', clients.get a=some c' ∧ c.Alike c')
    (hf : ∀ a c', clients.get a=some c' → ∃ c, r.clients.get a=some c ∧ c.Alike c') :
    Agreed {r with clients} where
  bounded := hl
  clients := by
    intro a c' hc'
    obtain ⟨c,hc,ha⟩ := hf a c' hc'
    exact (h.clients a c hc).alike ha
  routes := by
    intro ip a s hip
    obtain ⟨c,hc,hs,hm⟩ := h.routes ip a s hip
    obtain ⟨c',hc',ha⟩ := hto a c hc
    exact ⟨c',hc',ha.seq.trans hs,ha.owned ▸ hm⟩

lemma Client.alike_core (c : Client W) (core : W) : c.Alike {c with core} := ⟨rfl,rfl,rfl,id⟩

lemma Agreed.put (h : Agreed r) {a : Addr} {c c' : Client W} (hc : r.clients.get a=some c)
    (ha : c.Alike c') : Agreed (r.put a c') := by
  have hs : ∀ d : Client W, d.Alike d := fun d => d.alike_core d.core
  refine h.alike ?_ ?_ ?_
  · rw [len_insert_of_present _ _ _ (by simp [hc])]
    exact h.bounded
  · grind [get_insert]
  · grind [get_insert]

lemma Agreed.tick (h : Agreed r) (entropy : ℕ → Entropy) : Agreed (r.tick config entropy).1 := by
  refine h.alike ((length_map _).trans_le h.bounded) ?_ ?_
  · intro a c hc
    exact ⟨_,by rw [get_mapVal,hc]; rfl,c.alike_core _⟩
  · intro a c' hc'
    rw [get_mapVal] at hc'
    obtain ⟨c,hc,rfl⟩ := map_eq_some_iff.mp hc'
    exact ⟨c,hc,c.alike_core _⟩

omit [DecidableEq Addr] in
lemma Responder.minBySeq_mem {entries : List (Addr × Client W)} {l : Addr × Client W}
    (h : minBySeq entries=some l) : l∈entries := by
  induction entries generalizing l with
  | nil => cases h
  | cons en entries ih => grind [minBySeq,mem_cons_self,mem_cons_of_mem]

lemma Responder.victim_eq_some {a : Addr} (h : r.victim=some a) :
    ∃ c, r.clients.get a=some c ∧ c.established=false := by
  obtain ⟨⟨b,c⟩,hm,rfl⟩ := map_eq_some_iff.mp h
  obtain ⟨hme,hno⟩ := mem_filter.mp (minBySeq_mem hm)
  exact ⟨c,(get_eq_some _ _ _).mpr hme,by simpa using hno⟩

lemma Agreed.get_purge (h : Agreed r) {a : Addr}
    (ha : ∀ c, r.clients.get a=some c → c.established=false) (ip : Ipv4) :
    (r.purge a).routes.get ip=r.routes.get ip := by
  simp only [purge,get_retain]
  cases hip : r.routes.get ip with
  | none => rfl
  | some v => rw [filter_some,if_pos (decide_eq_true (h.unrouted ha hip))]

/-- What a preface does: nothing, or the client at `addr` is new, at most one other has made
room, and neither had been heard from. -/
inductive Prefaced (r : Responder Addr W) (addr : Addr) (after : Responder Addr W) : Prop
  | ignored (same : after=r)
  | enrolled (gone : Addr) (fresh : Client W) (silent : fresh.established=false)
      (none_owned : fresh.ownedRoutes=[])
      (replaced : ∀ c, r.clients.get addr=some c → c.established=false)
      (evicted : ∀ c, r.clients.get gone=some c → c.established=false)
      (clients : ∀ b, after.clients.get b =
        if b=addr then some fresh else if b=gone then none else r.clients.get b)
      (routes : ∀ ip, after.routes.get ip=r.routes.get ip) (bounded : after.clients.len ≤ maxClients)

lemma Agreed.admitClient (h : Agreed r) (clientPub : Block 32) (addr : Addr) :
    Prefaced r addr (r.admitClient config clientPub addr) := by
  unfold Responder.admitClient
  cases hc : r.clients.get addr with
  | some ex =>
    dsimp only
    split
    · exact .ignored rfl
    next hno =>
      have hs : ∀ c, r.clients.get addr=some c → c.established=false := by grind
      refine .enrolled addr (.new config clientPub r.nextSeq) rfl rfl hs hs ?_ (h.get_purge hs) ?_
      · grind [Responder.enrol,Responder.put,Responder.purge,get_insert]
      · exact (len_insert_of_present r.clients _ _ (by simp [hc])).trans_le h.bounded
  | none =>
    have ha : ∀ c, r.clients.get addr=some c → c.established=false := by grind
    dsimp only
    split
    · split
      next a hv =>
        obtain ⟨c,hg,hno⟩ := Responder.victim_eq_some hv
        have hs : ∀ c, r.clients.get a=some c → c.established=false := by grind
        have ha' : (r.clients.erase a).get addr=none := by simp [get_erase,hc]
        refine .enrolled a (.new config clientPub r.nextSeq) rfl rfl ha hs ?_ (h.get_purge hs) ?_
        · grind [Responder.enrol,Responder.put,Responder.purge,get_insert,get_erase]
        · calc _=(r.clients.erase a).len+1 := len_insert_of_absent _ _ _ ha'
            _ = r.clients.len := len_erase_of_present _ _ (by simp [hg])
            _ ≤ maxClients := h.bounded
      · exact .ignored rfl
    next hr =>
      refine .enrolled addr (.new config clientPub r.nextSeq) rfl rfl ha ha ?_ (fun _ => rfl) ?_
      · grind [Responder.enrol,Responder.put,get_insert]
      · refine (len_insert_of_absent _ _ _ hc).trans_le ?_
        omega

lemma Prefaced.agreed {addr : Addr} {after : Responder Addr W} (h : Agreed r)
    (hp : Prefaced r addr after) : Agreed after := by
  cases hp with
  | ignored sa => rwa [sa]
  | enrolled gone f si none_owned re ev cl ro bo =>
    refine ⟨bo,?_,?_⟩
    · intro b c hc
      rw [cl] at hc
      split at hc
      · cases hc
        exact ⟨by simp [none_owned],by simp [none_owned],fun _ => none_owned,by simp [none_owned]⟩
      · split at hc
        · cases hc
        · obtain ⟨hn,hca,hs,ho⟩ := h.clients b c hc
          exact ⟨hn,hca,hs,fun ip hip => (ro ip).trans (ho ip hip)⟩
    · intro ip a s hip
      rw [ro] at hip
      obtain ⟨c,hc,hq,hm⟩ := h.routes ip a s hip
      refine ⟨c,?_,hq,hm⟩
      rw [cl,if_neg (h.unrouted re hip),if_neg (h.unrouted ev hip),hc]

/-- What `learn_route` does for the client `c` at `addr`: nothing, or `src` is its newest route
and its oldest one may have gone. -/
inductive Learned (r : Responder Addr W) (src : Ipv4) (addr : Addr) (c : Client W)
    (after : Responder Addr W) : Prop
  | known (same : after=r) (routed : r.routes.get src≠none)
  | taken (kept : List Ipv4) (free : r.routes.get src=none)
      (clients : after.clients=r.clients.insert addr {c with ownedRoutes := kept++[src]})
      (routes : ∀ ip, after.routes.get ip=if ip=src then some (addr,c.seq)
        else if ip∈c.ownedRoutes ∧ ip∉kept then none else r.routes.get ip)
      (oldest : kept=c.ownedRoutes ∧ c.ownedRoutes.length < maxRoutesPerClient ∨
        kept=c.ownedRoutes.tail ∧ c.ownedRoutes.length=maxRoutesPerClient)

lemma Agreed.takeRoute (h : Agreed r) {a : Addr} {c : Client W} (hc : r.clients.get a=some c)
    {src : Ipv4} (hfr : r.routes.get src=none) :
    Learned r src a c (r.takeRoute src a c.seq) := by
  obtain ⟨hn,hca,-,ho⟩ := h.clients a c hc
  unfold Responder.takeRoute
  rw [hc]
  dsimp only
  split
  next hf =>
    cases hl : c.ownedRoutes with
    | nil => rw [hl] at hf; cases hf
    | cons old rest =>
      rw [hl] at hn hca ho hf
      have hd : r.routes.get old=some (a,c.seq) := ho old (mem_cons_self ..)
      have ht : old∉rest := (nodup_cons.mp hn).1
      refine .taken rest hfr rfl ?_ (.inr ⟨by rw [hl]; rfl,by rw [hl]; omega⟩)
      intro ip
      simp only [Responder.put,List.head?_cons,hd,if_true,get_insert,get_erase,hl,mem_cons]
      grind
  next hr =>
    refine .taken c.ownedRoutes hfr rfl ?_ (.inl ⟨rfl,by omega⟩)
    intro ip
    simp [Responder.put,get_insert,and_not_self]

lemma Agreed.learnRoute (h : Agreed r) {addr : Addr} {c : Client W} (hc : r.clients.get addr=some c)
    (src : Ipv4) : Learned r src addr c (r.learnRoute src addr c.seq) := by
  unfold Responder.learnRoute
  cases hs : r.routes.get src with
  | none => exact h.takeRoute hc hs
  | some o =>
    obtain ⟨a,s⟩ := o
    have hk : r.routes.get src≠none := by rw [hs]; exact some_ne_none _
    -- The owner of a route is there, so the branch for stale routes is never taken.
    obtain ⟨d,hd,hq,-⟩ := h.routes src a s hs
    simp only [hd,any_some,hq,decide_true,if_true,ite_self]
    exact .known rfl hk

lemma Learned.agreed (h : Agreed r) {addr : Addr} {c : Client W} (hc : r.clients.get addr=some c)
    (he : c.established) {src : Ipv4} {after : Responder Addr W}
    (hl : Learned r src addr c after) : Agreed after := by
  cases hl with
  | known same => rwa [same]
  | taken kept free cl ro o =>
    obtain ⟨hn,hca,-,ho⟩ := h.clients addr c hc
    have hu : kept.Sublist c.ownedRoutes := by
      rcases o with ⟨rfl,-⟩ | ⟨rfl,-⟩
      · exact List.Sublist.refl _
      · exact tail_sublist _
    have hle : kept.length < maxRoutesPerClient := by
      rcases o with ⟨rfl,hlt⟩ | ⟨rfl,heq⟩
      · exact hlt
      · rw [length_tail,heq]
        decide
    have hw : src∉kept := by grind
    refine ⟨?_,?_,?_⟩
    · rw [cl,len_insert_of_present _ _ _ (by simp [hc])]
      exact h.bounded
    · intro b d hd
      rw [cl,get_insert] at hd
      split at hd
      next hb =>
        cases hd
        refine ⟨?_,?_,?_,?_⟩
        · exact nodup_append.mpr ⟨hu.nodup hn,nodup_singleton _,by grind⟩
        · simpa using Nat.succ_le_of_lt hle
        · grind
        · grind
      next hb =>
        -- A route of another client is not in the list of `c`.
        obtain ⟨dn,dc,ds,dw⟩ := h.clients b d hd
        exact ⟨dn,dc,ds,by grind⟩
    · intro ip a s hp
      rw [cl]
      rw [ro] at hp
      split at hp
      next hs =>
        cases hp
        exact ⟨_,get_insert_self ..,rfl,by simp [hs]⟩
      · split at hp
        · cases hp
        next hk =>
          obtain ⟨d,hd,hq,hm⟩ := h.routes ip a s hp
          exact exists_insert hd ⟨hq,hm⟩ (by grind)

structure Decapsulated (c : Client W) (out : List (Action Addr))
    (result : Client W × List (Action Addr) × Option Bytes) : Prop where
  alike : c.Alike result.1
  heard : result.2.2≠none → result.1.established=true
  toTun : ∀ p, .toTun p∈result.2.1 ↔ .toTun p∈out ∨ result.2.2=some p

omit [DecidableEq Addr] in
lemma decapsulateLoop_spec (config : Config W) (addr : Addr) (e : ℕ → Entropy) (r : ℕ) (c : Client W)
    (item : Bytes) (out : List (Action Addr)) :
    Decapsulated c out (decapsulateLoop config addr e r c item out) := by
  induction r generalizing c item out with
  | zero => exact ⟨⟨rfl,rfl,rfl,id⟩,fun h => absurd rfl h,by simp [decapsulateLoop]⟩
  | succ r ih =>
    unfold decapsulateLoop
    split
    · exact ⟨⟨rfl,rfl,rfl,fun _ => rfl⟩,fun _ => rfl,by simp [eq_comm]⟩
    · next core b _ =>
      obtain ⟨ha,hh,ht⟩ := ih {c with core} [] (out ++
        [.sendTo addr (config.obfs.obfuscate (e out.length) b)])
      exact ⟨⟨ha.pubkey,ha.seq,ha.owned,ha.established⟩,hh,by simpa using ht⟩
    · exact ⟨c.alike_core _,fun h => absurd rfl h,by simp⟩
    · exact ⟨c.alike_core _,fun h => absurd rfl h,by simp⟩

inductive Handled (config : Config W) (r : Responder Addr W) (wire : Bytes) (addr : Addr) :
    Responder Addr W × List (Action Addr) → Prop
  | ignored : config.obfs.tryPreface wire=none → Handled config r wire addr (r,[])
  | preface {after : Responder Addr W} : Prefaced r addr after → Handled config r wire addr (after,[])
  | message {after : Responder Addr W} {out : List (Action Addr)} (c c' : Client W) (packet : Option Bytes) :
      config.obfs.tryPreface wire=none → r.clients.get addr=some c → c.Alike c' →
      (∀ p, .toTun p∈out ↔ packet=some p) →
      (packet.bind ipv4Src=none ∧ after=r.put addr c' ∨ c'.established=true ∧
        ∃ src, packet.bind ipv4Src=some src ∧ Learned (r.put addr c') src addr c' after) →
      Handled config r wire addr (after,out)

lemma Agreed.handleUdp (h : Agreed r) (config : Config W) (wire : Bytes) (a : Addr) (rounds : ℕ)
    (e : ℕ → Entropy) :
    Handled config r wire a (r.handleUdp config wire a rounds e) := by
  unfold Responder.handleUdp
  split
  · exact .preface (h.admitClient _ _)
  next hp =>
    split
    · exact .ignored hp
    next wg _ =>
      cases hc : r.clients.get a with
      | none => exact .ignored hp
      | some c =>
        obtain ⟨ha,hh,ht⟩ := decapsulateLoop_spec config a e rounds c wg []
        dsimp only
        generalize Responder.decapsulateLoop config a e rounds c wg []=result at ha hh ht ⊢
        obtain ⟨c',out,pa⟩ := result
        have ho : ∀ p, .toTun p∈out ↔ pa=some p := by simpa using ht
        have hput:=h.put hc ha
        dsimp only at hput ⊢
        cases hs : pa.bind ipv4Src with
        | none => exact .message c c' pa hp hc ha ho (.inl ⟨hs,rfl⟩)
        | some src =>
          have he : c'.established := by
            apply hh
            rintro rfl
            cases hs
          have hl:=hput.learnRoute (get_insert_self ..) src
          rw [ha.seq] at hl
          exact .message c c' pa hp hc ha ho (.inr ⟨he,src,hs,hl⟩)

variable {result : Responder Addr W × List (Action Addr)}
lemma Handled.agreed (h : Agreed r) {wire : Bytes} {a : Addr} (hh : Handled config r wire a result) :
    Agreed result.1 := by
  cases hh with
  | ignored => exact h
  | preface hp => exact hp.agreed h
  | message c c' pa _ hc ha _ hn =>
    have hput:=h.put hc ha
    rcases hn with ⟨-,rfl⟩ | ⟨he,src,-,hl⟩
    · exact hput
    · exact hl.agreed hput (get_insert_self ..) he

/-- A packet from the TUN goes to the owner of its destination, and changes only its core. -/
lemma Agreed.handleTun (h : Agreed r) (config : Config W) (ip : Bytes) (e : Entropy) :
    r.handleTun config ip e=(r,[]) ∨ ∃ dst ad c, ipv4Dst ip=some dst ∧
      r.clients.get ad=some c ∧ r.routes.get dst=some (ad,c.seq) ∧
      r.handleTun config ip e=(r.put ad {c with core := (config.wg.encapsulate c.core ip).1},
          ((config.wg.encapsulate c.core ip).2.map fun wi =>
            .sendTo ad (config.obfs.obfuscate e wi)).toList) := by
  unfold Responder.handleTun
  cases hd : ipv4Dst ip with
  | none => exact .inl rfl
  | some dst =>
    cases hr : r.routes.get dst with
    | none => exact .inl (by simp only [hr])
    | some o =>
      obtain ⟨ad,seq⟩ := o
      obtain ⟨c,hc,rfl,-⟩ := h.routes dst ad seq hr
      refine .inr ⟨dst,ad,c,rfl,hc,hr,?_⟩
      simp only [hr,hc,filter_some,decide_true,if_true]
      obtain ⟨co,wi⟩ := config.wg.encapsulate c.core ip
      cases wi with
      | none | some => rfl

lemma Agreed.step (h : Agreed r) (e : Event Addr) : Agreed (r.step config e).1 := by
  cases e with
  | udp wi addr ro en => exact (h.handleUdp config wi addr ro en).agreed h
  | tick en => exact h.tick en
  | tun ip en =>
    change Agreed (r.handleTun config ip en).1
    rcases h.handleTun config ip en with heq | ⟨_,_,c,-,hc,-,heq⟩
    · rwa [heq]
    · rw [heq]
      exact h.put hc (c.alike_core _)

lemma agreed_serve (config : Config W) (es : List (Event Addr)) : Agreed (serve config es) :=
  run_invariant (fun _ e h => h.step e) agreed_new es

/-- A client has lost the route to `ip`: it was the oldest of four, and a new one took its place. -/
def Evicts (c : Client W) (ip : Ipv4) (c' : Client W) : Prop :=
  c.ownedRoutes.length=4 ∧ c.ownedRoutes.head?=some ip ∧ c'.seq=c.seq ∧
    ∃ src, c'.ownedRoutes=c.ownedRoutes.tail++[src]

lemma Learned.evicts (h : Agreed r) {addr a : Addr} {c : Client W} (hc : r.clients.get addr=some c)
    {src ip : Ipv4} {s : ℕ} {w : Responder Addr W} (hl : Learned r src addr c w)
    (hp : r.routes.get ip=some (a,s)) (hg : w.routes.get ip≠some (a,s)) :
    a=addr ∧ ∃ c', w.clients.get addr=some c' ∧ Evicts c ip c' := by
  cases hl with
  | known sa => exact absurd hp (sa ▸ hg)
  | taken kept f cl ro o =>
    have hne : ip≠src := by
      rintro rfl
      rw [hp] at f
      cases f
    rw [ro,if_neg hne] at hg
    split at hg
    next ho =>
      obtain ⟨hm,hn⟩ := ho
      rw [(h.clients addr c hc).owned ip hm] at hp
      refine ⟨(congrArg Prod.fst (Option.some.inj hp)).symm,_,cl ▸ get_insert_self ..,?_⟩
      rcases o with ⟨rfl,-⟩ | ⟨rfl,hlen⟩
      · exact absurd hm hn
      · refine ⟨hlen,?_,rfl,src,rfl⟩
        cases hl : c.ownedRoutes with
        | nil => rw [hl] at hm; cases hm
        | cons old rest => grind
    · exact absurd hp hg

lemma Handled.evicts (h : Agreed r) {wire : Bytes} {addr a : Addr} {d : Client W}
    (hh : Handled config r wire addr result) {ip : Ipv4} (hd : r.clients.get a=some d)
    (hip : r.routes.get ip=some (a,d.seq)) (hg : result.1.routes.get ip≠some (a,d.seq)) :
    a=addr ∧ ∃ d', result.1.clients.get a=some d' ∧ Evicts d ip d' := by
  cases hh with
  | ignored => exact absurd hip hg
  | preface hp =>
    cases hp with
    | ignored sa => exact absurd hip (sa ▸ hg)
    | enrolled _ _ _ _ _ _ _ ro => exact absurd ((ro ip).trans hip) hg
  | message c c' pa _ hc ha _ hn =>
    rcases hn with ⟨-,rfl⟩ | ⟨hest,src,-,hl⟩
    · exact absurd hip hg
    · have hput:=h.put hc ha
      obtain ⟨rfl,e,he,hev⟩ := hl.evicts hput (get_insert_self ..) hip hg
      rw [hc] at hd
      cases hd
      refine ⟨rfl,e,he,?_⟩
      simpa only [Evicts,ha.seq,ha.owned] using hev

/-- What the responder guarantees in one state, and for every call in it. -/
structure RouteInvariant (config : Config W) (r : Responder Addr W) : Prop where
  bounded : r.clients.len≤256
  live : ∀ ip a s, r.routes.get ip=some (a,s) → ∃ c, r.clients.get a=some c ∧ c.seq=s
  owned : ∀ a c, r.clients.get a=some c → c.ownedRoutes.Nodup ∧ c.ownedRoutes.length≤4 ∧
    ∀ ip, ip∈c.ownedRoutes ↔ r.routes.get ip=some (a,c.seq)
  prefaces : ∀ wire addr rounds entropy, config.obfs.tryPreface wire≠none → ∀ a c,
    r.clients.get a=some c → c.established=true →
      (r.handleUdp config wire addr rounds entropy).1.clients.get a=some c
  removed : ∀ e ip a c, r.clients.get a=some c → r.routes.get ip=some (a,c.seq) →
    (r.step config e).1.routes.get ip≠some (a,c.seq) → (∃ wire rounds entropy, e=.udp wire a rounds entropy) ∧
        ∃ c', (r.step config e).1.clients.get a=some c' ∧ Evicts c ip c'
  replies : ∀ ip entropy action, action∈(r.handleTun config ip entropy).2 →
    ∃ dst a c wire, ipv4Dst ip=some dst ∧ r.clients.get a=some c ∧ dst∈c.ownedRoutes ∧
      (config.wg.encapsulate c.core ip).2=some wire ∧
      action=.sendTo a (config.obfs.obfuscate entropy wire)

lemma Prefaced.established {addr : Addr} {w : Responder Addr W} (hp : Prefaced r addr w)
    {a : Addr} {c : Client W} (hc : r.clients.get a=some c) (he : c.established) :
    w.clients.get a=some c := by
  cases hp with
  | ignored sa => rwa [sa]
  | enrolled g f si none_owned re ev cl ro bo => grind

/-- The routes of a responder after any calls, with any datagrams, packets and WireGuard. -/
theorem route_invariant (config : Config W) (es : List (Event Addr)) :
    RouteInvariant config (serve config es) := by
  have h:=agreed_serve config es
  generalize serve config es=r at h
  refine ⟨h.bounded,?_,?_,?_,?_,?_⟩
  · grind [h.routes]
  · intro a c hc
    exact ⟨(h.clients a c hc).nodup,(h.clients a c hc).capped,h.mem_owned_iff hc⟩
  · intro wi ad ro en hr a c hc hs
    have hh:=h.handleUdp config wi ad ro en
    generalize r.handleUdp config wi ad ro en=re at hh ⊢
    cases hh with
    | ignored hn => exact absurd hn hr
    | preface hp => exact hp.established hc hs
    | message _ _ _ hn => exact absurd hn hr
  · intro e ip a c hc hip hg
    cases e with
    | udp wi ad ro en =>
      obtain ⟨rfl,hv⟩ := (h.handleUdp config wi ad ro en).evicts h hc hip hg
      exact ⟨⟨wi,ro,en,rfl⟩,hv⟩
    | tick en => exact absurd hip hg
    | tun pa en =>
      change (r.handleTun config pa en).1.routes.get ip≠_ at hg
      rcases h.handleTun config pa en with heq | ⟨_,_,_,-,-,-,heq⟩
      · rw [heq] at hg
        exact absurd hip hg
      · rw [heq] at hg
        exact absurd hip hg
  · intro ip en ac ha
    rcases h.handleTun config ip en with heq | ⟨dst,a,c,hdst,hc,hroute,heq⟩
    · rw [heq] at ha
      cases ha
    · rw [heq,mem_toList] at ha
      obtain ⟨wi,hw,rfl⟩ := map_eq_some_iff.mp ha
      exact ⟨dst,a,c,wi,hdst,hc,(h.mem_owned_iff hc dst).mpr hroute,hw,rfl⟩

def SourceRouted (r : Responder Addr W) (addr : Addr) (p : Bytes) : Prop :=
  ∃ src c, ipv4Src p=some src ∧ r.clients.get addr=some c ∧ r.routes.get src=some (addr,c.seq)

def SourceUnclaimed (r : Responder Addr W) (addr : Addr) (p : Bytes) : Prop :=
  ∃ src, ipv4Src p=some src ∧ ∀ owner s, r.routes.get src=some (owner,s) → owner=addr

/-- A packet that goes to the TUN has a source that is routed to its sender exactly if that
source was no other client's before. -/
theorem toTun_source_routed (config : Config W) (es : List (Event Addr)) (wire : Bytes) (addr : Addr)
    (rounds : ℕ) (entropy : ℕ → Entropy) (p : Bytes)
    (hp : .toTun p∈((serve config es).handleUdp config wire addr rounds entropy).2) :
    SourceRouted ((serve config es).handleUdp config wire addr rounds entropy).1 addr p ↔
      SourceUnclaimed (serve config es) addr p := by
  have h:=agreed_serve config es
  generalize serve config es=r at h hp ⊢
  have hh:=h.handleUdp config wire addr rounds entropy
  generalize r.handleUdp config wire addr rounds entropy=re at hh hp ⊢
  cases hh with
  | ignored | preface => cases hp
  | message c c' pa _ hc ha ht hn =>
    obtain rfl := (ht p).mp hp
    rcases hn with ⟨hnone,rfl⟩ | ⟨hest,src,hr,hlearned⟩
    · -- without an IPv4 source neither side holds
      rw [bind_some] at hnone
      simp [SourceRouted,SourceUnclaimed,hnone,exists_false]
    · rw [bind_some] at hr
      cases hlearned with
      | known sa ro =>
        subst sa
        constructor
        · rintro ⟨src',d,hr',-,ho⟩
          refine ⟨src',hr',fun o s hs => ?_⟩
          rw [show r.routes.get src'=some (addr,d.seq) from ho] at hs
          exact (congrArg Prod.fst (Option.some.inj hs)).symm
        · rintro ⟨src',hr',hw⟩
          rw [hr] at hr'
          cases hr'
          obtain ⟨⟨o,s⟩,ho⟩ := ne_none_iff_exists'.mp ro
          obtain rfl := hw o s ho
          obtain ⟨d,hd,rfl,-⟩ := h.routes src o s ho
          rw [hc] at hd
          cases hd
          exact ⟨src,c',hr,get_insert_self ..,ha.seq ▸ ho⟩
      | taken kept f cl rt ol =>
        refine iff_of_true ⟨src,_,hr,cl ▸ get_insert_self ..,?_⟩ ⟨src,hr,?_⟩
        · rw [rt,if_pos rfl]
        · intro o s hs
          rw [show r.routes.get src=none from f] at hs
          cases hs

def plainConfig : Config Unit where
  wg := ⟨fun _ _ _ => (),fun _ datagram => ((),.ip (datagram.drop 4)),fun _ ip => ((),some ip),
    fun _ => ((),none)⟩
  nodeSecret := .fill 32 0
  obfs := .default

def clientAddr (d : UInt8) : SocketAddrV4 := ⟨⟨203,0,113,d⟩,51820⟩
def zeros : Entropy := ⟨0,fun n => .fill n 0⟩
def sharedPacket : Bytes := 0x45::List.replicate 11 0++[10,74,0,5,1,1,1,1]
def dataWire : Bytes := [0xd4,0x77,0x19,0x5b]++sharedPacket

def prefaceFrom (d : UInt8) : Event SocketAddrV4 :=
  .udp (ObfsParams.default.obfuscatePreface zeros (.fill 32 d)) (clientAddr d) 1 fun _ => zeros

def twoClients : List (Event SocketAddrV4) :=
  [prefaceFrom 10,prefaceFrom 11,.udp dataWire (clientAddr 10) 1 fun _ => zeros]

theorem spoofed_source_reaches_tun : ¬ ∀ (config : Config Unit) (es : List (Event SocketAddrV4))
    (wire : Bytes) (addr : SocketAddrV4) (rounds : ℕ) (entropy : ℕ → Entropy) (p : Bytes),
    .toTun p∈((serve config es).handleUdp config wire addr rounds entropy).2 →
      SourceRouted ((serve config es).handleUdp config wire addr rounds entropy).1 addr p := by
  intro h
  obtain ⟨src,c,hc,-,hr⟩ := h plainConfig twoClients dataWire (clientAddr 11) 1 (fun _ => zeros)
    sharedPacket (by decide +kernel)
  have hs : ipv4Src sharedPacket=some ⟨10,74,0,5⟩ := by decide
  rw [hs] at hc
  cases hc
  have ho : (((serve plainConfig twoClients).handleUdp plainConfig dataWire (clientAddr 11) 1
      fun _ => zeros).1.routes.get ⟨10,74,0,5⟩).map Prod.fst=some (clientAddr 10) := by
    decide +kernel
  rw [hr,map_some] at ho
  have hne : clientAddr 11≠clientAddr 10 := by decide
  exact hne (Option.some.inj ho)

theorem toTun_source_routed_first : SourceRouted ((serve plainConfig [prefaceFrom 10]).handleUdp
    plainConfig dataWire (clientAddr 10) 1 fun _ => zeros).1 (clientAddr 10) sharedPacket := by
  refine (toTun_source_routed _ _ _ _ _ _ _ (by decide +kernel)).mpr ⟨⟨10,74,0,5⟩,by decide,?_⟩
  intro o s hs
  rw [show (serve plainConfig [prefaceFrom 10]).routes.get ⟨10,74,0,5⟩=none by decide +kernel] at hs
  cases hs
end NilVpn.Node.AmneziaWg
