import NilVpn.Base.Runs
import NilVpn.Coordinator.AttachGrants
import NilVpn.Ledger.Memory

/-!
# Redemption (nil-coordinator/src/api.rs:85-240)

`redeem_logic` in two steps, everything up to the commit and the commit on the shared ledger; any number of
calls interleave at these. Serde is a parameter.
-/

namespace NilVpn.Coordinator
open Base Option List Table Function
open Nwg2 (Scheme GrantSigningKey Duration plainScheme)
open Ledger (Records Aead Nonce Commit CommitOutcome commitOrReplay pruneExpiredReplays)
open Proto (PathResponse)

def v2Magic : Bytes := ascii "NTV2"
def v2ValiditySecs : ℕ := 24*60*60
def v2EpochSecs : ℕ := 60*60
def isV2Message (msg : Bytes) : Bool := msg.length=32&&msg.take 4=v2Magic

def v2MessageIsCurrent (msg : Bytes) (now : UInt64) : Bool :=
  let expiry:=ofBe ((msg.drop 4).take 8)
  isV2Message msg&&now.toNat≤expiry&&expiry ≤ min (now.toNat+(v2ValiditySecs+v2EpochSecs)) (2^64 - 1)

structure Verifier where
  keys : List (UInt32 × (Bytes → Bytes → Bool))

def Verifier.verifyWithEpoch (v : Verifier) (tokenSig msg : Bytes) : Option UInt32 :=
  (v.keys.find? fun key => key.2 tokenSig msg).map Prod.fst

/-- The migration cutoff is the text of an environment variable. -/
def legacyTokenAllowed (cutoff : Option Bytes) (now : UInt64) : Bool :=
  ((cutoff.bind (parseUnsigned (2^64))).map fun n => decide (now.toNat≤n)).getD false

structure RedeemRequest where
  (msg token : Bytes)

inductive RedeemError
  | notConfigured
  | malformed
  | badToken
  | alreadyRedeemed
  | unavailable
  | noPath
  deriving DecidableEq,Repr

structure CoordConfig where
  nodes : List RegistryNode
  pathHops : ℕ
  verifier : Option Verifier
  grantSigner : Option GrantSigningKey
  grantRealm : Bytes
  grantTtl : Duration
  legacyTokenCutoff : Option Bytes

structure Json where
  toVec : PathResponse → Option Bytes
  fromSlice : Bytes → Option PathResponse

def Json.RoundTrips (json : Json) : Prop :=
  ∀ path bytes, json.toVec path=some bytes → json.fromSlice bytes=some path

/-- Clocks and entropy one call reads before its commit. -/
structure Draws where
  (now grantNow : UInt64)
  shuffle : Option (ℕ → UInt8)
  nonces : ℕ → Option (Block Nwg2.nonceLen)

structure Proposal where
  commit : Commit
  path : PathResponse

section
variable (scheme : Scheme) (json : Json) (cfg : CoordConfig)
def grantSelected (d : Draws) (selected : List SelectedHop) : Except RedeemError (List SelectedHop) :=
  match cfg.grantSigner with
  | none => .ok selected
  | some signer =>
    match attachGrants scheme signer cfg.grantRealm cfg.grantTtl d.grantNow d.nonces selected with
    | .ok granted => .ok granted
    | .error _ => .error .unavailable

def prepare (dead : List Bytes) (req : RedeemRequest) (d : Draws) : Except RedeemError Proposal := do
  let verifier ← okOr cfg.verifier .notConfigured
  let msg ← okOr (fromHex req.msg) .malformed
  let token ← okOr (fromHex req.token) .malformed
  ensure (!(isV2Message msg&&!v2MessageIsCurrent msg d.now)) .badToken
  ensure (isV2Message msg||(msg.length=32&&legacyTokenAllowed cfg.legacyTokenCutoff d.now)) .badToken
  let epoch ← okOr (verifier.verifyWithEpoch token msg) .badToken
  let selected ← okOr (NodeRegistry.selectPath ⟨cfg.nodes,dead⟩ d.shuffle cfg.pathHops) .noPath
  ensure (d.grantNow≠0) .unavailable
  let replayUntil ← okOr (checkedAdd d.grantNow cfg.grantTtl.secs) .unavailable
  let granted ← grantSelected scheme cfg d selected
  let path : PathResponse := ⟨granted.map SelectedHop.hop⟩
  let response ← okOr (json.toVec path) .unavailable
  .ok ⟨⟨epoch,toHex msg,replayUntil,response,d.grantNow⟩,path⟩

def conclude : Except IoError CommitOutcome → Except RedeemError PathResponse
  | .error _ => .error .unavailable
  | .ok (.granted response _) => okOr (json.fromSlice response) .alreadyRedeemed
  | .ok .alreadySpent => .error .alreadyRedeemed
end

inductive Phase
  | started
  | prepared (p : Proposal)
  /-- the answer, and the `grant_now` the call read if it got that far -/
  | done (grantNow : Option UInt64) (result : Except RedeemError PathResponse)

structure Call where
  request : RedeemRequest
  phase : Phase
  /-- keys the call's own steps put into the spent set -/
  added : List Bytes

structure World where
  dead : List Bytes
  store : Records
  calls : List Call

inductive Event
  | start (request : RedeemRequest)
  | prepare (i : ℕ) (draws : Draws)
  | commit (i : ℕ) (entropy : Option Nonce)
  | markDown (host : Bytes)
  | markUp (host : Bytes)
  | prune (now : UInt64)

section
variable (scheme : Scheme) (json : Json) (cipher : Aead) (cfg : CoordConfig)
def preparedPhase (dead : List Bytes) (req : RedeemRequest) (d : Draws) : Phase :=
  match prepare scheme json cfg dead req d with
  | .ok p => .prepared p
  | .error e => .done none (.error e)

def commitCall (t : Records) (c : Call) (p : Proposal) (entropy : Option Nonce) : Records × Call :=
  let r:=commitOrReplay cipher entropy p.commit t
  (r.1,{ c with
    phase := .done (some p.commit.now) (conclude json r.2)
    added := c.added++Table.keysAdded t r.1 })

def World.step (w : World) : Event → World
  | .start request => {w with calls := w.calls++[⟨request,.started,[]⟩]}
  | .prepare i d =>
    match w.calls[i]? with
    | some ⟨request,.started,added⟩ => { w with
        calls := w.calls.set i ⟨request,preparedPhase scheme json cfg w.dead request d,added⟩ }
    | _ => w
  | .commit i entropy =>
    match w.calls[i]? with
    | some ⟨request,.prepared p,added⟩ =>
      let r:=commitCall json cipher w.store ⟨request,.prepared p,added⟩ p entropy
      {w with store := r.1,calls := w.calls.set i r.2}
    | _ => w
  | .markDown host => {w with dead := host::w.dead}
  | .markUp host => {w with dead := w.dead.filter (·≠host)}
  | .prune now => {w with store := (pruneExpiredReplays now w.store).1}

def World.initial : World := ⟨[],Table.empty,[]⟩

def World.run (events : List Event) : World :=
  runFrom (World.step scheme json cipher cfg) World.initial events
end

def Expires (path : PathResponse) (expiry : UInt64) : Prop :=
  ∀ hop∈path.hops, ∀ text, hop.grant=some text → ∃ token parsed, fromHex text=some token ∧
    Nwg2.parse token=.ok parsed ∧ parsed.expiresAt=expiry

structure Proposal.Sound (json : Json) (req : RedeemRequest) (p : Proposal) : Prop where
  key : ∃ msg, fromHex req.msg=some msg ∧ p.commit.key=toHex msg
  encodes : json.toVec p.path=some p.commit.response
  expires : Expires p.path p.commit.replayUntil

section
variable {scheme : Scheme} {json : Json} {cipher : Aead} {cfg : CoordConfig}
lemma attachGrants_expires {signer : GrantSigningKey} {d : Draws}
    {selected granted : List SelectedHop} {replayUntil : UInt64}
    (hep : replayUntil.toNat=d.grantNow.toNat+cfg.grantTtl.secs.toNat)
    (h : attachGrants scheme signer cfg.grantRealm cfg.grantTtl d.grantNow d.nonces selected =
      .ok granted) : Expires ⟨granted.map SelectedHop.hop⟩ replayUntil := by
  intro hop hh text htx
  obtain ⟨g,hg,rfl⟩ := List.mem_map.mp hh
  obtain ⟨i,hi⟩ := List.getElem?_of_mem hg
  obtain ⟨s,n,-,-,hgr⟩ := (attachGrants_eq_ok h).2 i g hi
  obtain ⟨au,no,gr,-,-,hm,rfl⟩ := grantHop_eq_ok hgr
  obtain ⟨pa,hp,-,-,-,he,-⟩ := Nwg2.parse_minted hm
  have ht : toHex gr.token=text := some.inj htx
  refine ⟨gr.token,pa,?_,hp,?_⟩
  · rw [← ht,fromHex_toHex]
  · apply UInt64.toNat_inj.mp
    rw [he,hep]

lemma selectPath_expires {r : NodeRegistry} {entropy : Option (ℕ → UInt8)} {hops : ℕ}
    {path : List SelectedHop} (h : r.selectPath entropy hops=some path) (expiry : UInt64) :
    Expires ⟨path.map SelectedHop.hop⟩ expiry := by
  intro hop hh text ht
  obtain ⟨s,hs,rfl⟩ := List.mem_map.mp hh
  obtain ⟨i,hi⟩ := List.getElem?_of_mem hs
  obtain ⟨nodes,-,rfl⟩ := NodeRegistry.selectPath_some h
  rw [List.getElem?_mapIdx] at hi
  obtain ⟨node,-,rfl⟩ := map_eq_some_iff.mp hi
  cases ht

variable {p : Proposal} {origin : Bytes → Option Proposal} {t : Records}
lemma prepare_sound {dead : List Bytes} {req : RedeemRequest} {d : Draws}
    (h : prepare scheme json cfg dead req d=.ok p) : p.Sound json req := by
  unfold prepare at h
  obtain ⟨v,-,msg,hm,token,-,_,-,h⟩ := except_bind_ok₄ h
  obtain ⟨_,-,epoch,-,se,hs,_,-,h⟩ := except_bind_ok₄ h
  obtain ⟨replayUntil,hre,g,hg,h⟩ := except_bind_ok₂ h
  obtain ⟨re,hr,h⟩ := except_bind_ok h
  have hep:=checkedAdd_eq_some.mp (okOr_eq_ok hre)
  have he : Expires ⟨g.map SelectedHop.hop⟩ replayUntil := by
    unfold grantSelected at hg
    split at hg
    · rw [← Except.ok.inj hg]
      exact selectPath_expires (okOr_eq_ok hs) replayUntil
    · grind [Except.ok.inj,attachGrants_expires]
  rw [← Except.ok.inj h]
  exact ⟨⟨msg,okOr_eq_ok hm,rfl⟩,okOr_eq_ok hr,he⟩

/-- What a call's phase guarantees when `origin` gives the first proposal of each key. -/
def CallSound (json : Json) (origin : Bytes → Option Proposal) (c : Call) : Prop :=
  match c.phase with
  | .started => c.added=[]
  | .prepared p => c.added=[] ∧ p.Sound json c.request
  | .done _ (.error e) => e≠.alreadyRedeemed → c.added=[]
  | .done grantNow (.ok path) => ∃ msg p now, fromHex c.request.msg=some msg ∧
      origin (toHex msg)=some p ∧ path=p.path ∧ grantNow=some now ∧ now<p.commit.replayUntil

/-- Every record stems from the first proposal of its key. -/
structure StoreSound (json : Json) (cipher : Aead) (origin : Bytes → Option Proposal)
    (t : Records) : Prop where
  records : ∀ k r, t.get k=some r → ∃ p ciphertext, origin k=some p ∧
    Ledger.Descends (p.commit.record ciphertext) r ∧
    Ledger.openReplay cipher p.commit.epoch k p.commit.replayUntil ciphertext=.ok p.commit.response
  present : ∀ k p, origin k=some p → ∃ r, t.get k=some r
  encodes : ∀ k p, origin k=some p → json.toVec p.path=some p.commit.response
  expires : ∀ k p, origin k=some p → Expires p.path p.commit.replayUntil

def Later (origin origin' : Bytes → Option Proposal) : Prop := ∀ k p, origin k=some p → origin' k=some p

lemma CallSound.later {origin' : Bytes → Option Proposal} {c : Call} (hl : Later origin origin')
    (h : CallSound json origin c) : CallSound json origin' c := by
  unfold CallSound at h ⊢
  split at h
  · exact h
  · exact h
  · exact h
  · obtain ⟨msg,p,now,hm,hp,hr⟩ := h
    exact ⟨msg,p,now,hm,hl _ _ hp,hr⟩

section
variable (h : StoreSound json cipher origin t)
include h
lemma StoreSound.descend {t' : Records}
    (hk : ∀ k r, t.get k=some r → ∃ r', t'.get k=some r' ∧ Ledger.Descends r r')
    (hb : ∀ k r', t'.get k=some r' → ∃ r, t.get k=some r) : StoreSound json cipher origin t' := by
  refine ⟨?_,?_,h.encodes,h.expires⟩
  · intro k r' hr'
    obtain ⟨r,hr⟩ := hb k r' hr'
    obtain ⟨r1,hr1,hd⟩ := hk k r hr
    have hs : r1=r' := some.inj (hr1.symm.trans hr')
    obtain ⟨p,c,hp,hd0,ho⟩ := h.records k r hr
    exact ⟨p,c,hp,hd0.trans (hs ▸ hd),ho⟩
  · grind [h.present]

lemma StoreSound.replay {k response : Bytes} {r : Ledger.StoredRecord} {now : UInt64} {b : Bool}
    (hr : t.get k=some r) (ho : Ledger.liveOutcome cipher k r now false=some (.granted response b)) :
    ∃ p, origin k=some p ∧ response=p.commit.response ∧ now<p.commit.replayUntil := by
  obtain ⟨-,replayUntil,ciphertext,hu,ht,hlt,hon⟩ := Ledger.liveOutcome_granted ho
  obtain ⟨p,sealed,hp,hd,hf⟩ := h.records k r hr
  rcases hd with hs | hc
  · rw [hs] at hu ht hon
    have hu' : p.commit.replayUntil=replayUntil := some.inj hu
    have ht' : sealed=ciphertext := some.inj ht
    rw [← hu',← ht'] at hon
    have hre : p.commit.response=response := Except.ok.inj (hf.symm.trans hon)
    exact ⟨p,hp,hre.symm,hu' ▸ hlt⟩
  · rw [hc] at ht
    cases ht

lemma StoreSound.insert {c : Bytes} (hen : json.toVec p.path=some p.commit.response)
    (he : Expires p.path p.commit.replayUntil)
    (ho : Ledger.openReplay cipher p.commit.epoch p.commit.key p.commit.replayUntil c=.ok p.commit.response) :
    StoreSound json cipher (Function.update origin p.commit.key (some p))
      (t.insert p.commit.key (p.commit.record c)) := by
  have hc : ∀ k q, Function.update origin p.commit.key (some p) k=some q →
      (k=p.commit.key ∧ q=p) ∨ (k≠p.commit.key ∧ origin k=some q) := by
    intro k q hq
    by_cases hk : k=p.commit.key
    · grind
    · rw [update_of_ne hk] at hq
      exact .inr ⟨hk,hq⟩
  refine ⟨?_,?_,?_,?_⟩
  · intro k r hr
    by_cases hk : k=p.commit.key
    · rw [hk,get_insert_self] at hr
      rw [hk,update_self]
      exact ⟨p,c,rfl,.inl (some.inj hr).symm,ho⟩
    · grind [get_insert_ne,update_of_ne,h.records]
  · intro k q hq
    rcases hc k q hq with ⟨hk,-⟩ | ⟨hk,hq⟩
    · rw [hk,get_insert_self]
      exact ⟨_,rfl⟩
    · rw [get_insert_ne _ _ _ _ hk]
      exact h.present k q hq
  · grind [h.encodes]
  · grind [h.expires]
end

lemma StoreSound.unseen (ht : StoreSound json cipher origin t) {k : Bytes} (hk : t.get k=none) :
    origin k=none := by
  cases ho : origin k with
  | none => rfl
  | some q =>
    obtain ⟨r,hr⟩ := ht.present _ _ ho
    rw [hk] at hr
    cases hr

lemma StoreSound.clear (ht : StoreSound json cipher origin t) (key : Bytes) :
    StoreSound json cipher origin (t.modify key Ledger.StoredRecord.clear) := by
  apply ht.descend
  · intro k r hr
    rw [get_modify,hr]
    split
    · exact ⟨r.clear,rfl,.inr rfl⟩
    · exact ⟨r,rfl,.inl rfl⟩
  · intro k r hr
    rw [get_modify] at hr
    split at hr
    · obtain ⟨r1,hr1,-⟩ := map_eq_some_iff.mp hr
      exact ⟨r1,hr1⟩
    · exact ⟨r,hr⟩

lemma later_update {key : Bytes} (hn : origin key=none) (p : Proposal) :
    Later origin (Function.update origin key (some p)) := by
  intro k q hq
  have hne : k≠key := by
    intro he
    rw [he,hn] at hq
    cases hq
  rw [update_of_ne hne]
  exact hq

lemma commit_sound (hj : json.RoundTrips) (hc : cipher.Opens)
    (ht : StoreSound json cipher origin t) {req : RedeemRequest} (hp : p.Sound json req)
    (n : Option Nonce) :
    ∃ origin', Later origin origin' ∧
      StoreSound json cipher origin' (commitCall json cipher t ⟨req,.prepared p,[]⟩ p n).1 ∧
      CallSound json origin' (commitCall json cipher t ⟨req,.prepared p,[]⟩ p n).2 := by
  obtain ⟨msg,hm,hk⟩ := hp.key
  have hcs:=Ledger.commitOrReplay_cases hc p.commit n t
  simp only [commitCall,CallSound,nil_append]
  generalize (commitOrReplay cipher n p.commit t).1=t' at hcs ⊢
  generalize (commitOrReplay cipher n p.commit t).2=rp at hcs ⊢
  have hl : Later origin origin := fun _ _ h => h
  cases hcs with
  | rejected e h ht' hrp =>
    rw [ht',hrp]
    exact ⟨origin,hl,ht,fun _ => keysAdded_self t⟩
  | live r o hv hr ho ht' hrp =>
    rw [ht',hrp]
    refine ⟨origin,hl,ht,?_⟩
    cases o with
    | alreadySpent => exact fun hn => absurd rfl hn
    | granted re b =>
      obtain ⟨f,hf,hre,hlt⟩ := ht.replay hr ho
      have hd : json.fromSlice re=some f.path := by
        rw [hre]
        exact hj _ _ (ht.encodes _ _ hf)
      rw [hk] at hf
      simp only [conclude,hd,okOr_some]
      exact ⟨msg,f,p.commit.now,hm,hf,rfl,rfl,hlt⟩
  | spent r hv hr ho ht' hrp =>
    rw [ht',hrp]
    exact ⟨origin,hl,ht.clear _,fun hn => absurd rfl hn⟩
  | first c hv hr hs ht' hrp =>
    rw [ht',hrp]
    -- the new key's first proposal is this one
    refine ⟨Function.update origin p.commit.key (some p),later_update (ht.unseen hr) p,?_,?_⟩
    · exact ht.insert hp.encodes hp.expires (hc _ _ _ _ _ _ hs)
    · have hd:=hj _ _ hp.encodes
      simp only [conclude,hd,okOr_some]
      refine ⟨msg,p,p.commit.now,hm,?_,rfl,rfl,Ledger.validateCommit_lt hv⟩
      rw [← hk,update_self]

structure World.Sound (json : Json) (cipher : Aead) (origin : Bytes → Option Proposal) (w : World) :
    Prop where
  store : StoreSound json cipher origin w.store
  calls : ∀ c∈w.calls, CallSound json origin c

lemma sound_initial : World.initial.Sound json cipher (fun _ => none) := by
  refine ⟨⟨?_,?_,?_,?_⟩,?_⟩
  · intro k r hr
    cases hr
  · intro k p hp
    cases hp
  · intro k p hp
    cases hp
  · intro k p hp
    cases hp
  · intro c hc
    cases hc

lemma prune_sound (h : StoreSound json cipher origin t) (now : UInt64) :
    StoreSound json cipher origin (pruneExpiredReplays now t).1 := by
  have hg : ∀ k, (pruneExpiredReplays now t).1.get k =
      (t.get k).map fun r => (r.prune now).1 := fun k => get_mapVal ..
  apply h.descend
  · intro k r hr
    rw [hg,hr]
    exact ⟨_,rfl,Ledger.prune_descends now r⟩
  · simp_all

lemma step_sound (hj : json.RoundTrips) (hc : cipher.Opens) {w : World}
    (h : w.Sound json cipher origin) (e : Event) :
    ∃ origin', Later origin origin' ∧ (w.step scheme json cipher cfg e).Sound json cipher origin' := by
  have hs : Later origin origin := fun _ _ hp => hp
  cases e with
  | start request =>
    refine ⟨origin,hs,h.store,?_⟩
    intro c hm
    rcases mem_append.mp hm with hm | hm
    · exact h.calls c hm
    · rw [mem_singleton.mp hm]
      exact rfl
  | prepare i d =>
    simp only [World.step]
    split
    next request ad hi =>
      refine ⟨origin,hs,h.store,forall_replaced h.calls ?_⟩
      have ha : ad=[] := h.calls _ (mem_of_getElem? hi)
      unfold preparedPhase
      split
      next p hp => exact ⟨ha,prepare_sound hp⟩
      · exact fun _ => ha
    · exact ⟨origin,hs,h⟩
  | commit i en =>
    simp only [World.step]
    split
    next request p ad hi =>
      have hpr : ad=[] ∧ p.Sound json request := h.calls _ (mem_of_getElem? hi)
      obtain ⟨rfl,hp⟩ := hpr
      obtain ⟨origin',hl,hst,hcl⟩ := commit_sound hj hc h.store hp en
      exact ⟨origin',hl,hst,forall_replaced (fun c hm => (h.calls c hm).later hl) hcl⟩
    · exact ⟨origin,hs,h⟩
  | markDown | markUp => exact ⟨origin,hs,h.store,h.calls⟩
  | prune now => exact ⟨origin,hs,prune_sound h.store now,h.calls⟩

lemma run_sound (scheme : Scheme) (cfg : CoordConfig) (hj : json.RoundTrips)
    (hc : cipher.Opens) (events : List Event) {w : World} (h : w.Sound json cipher origin) :
    ∃ origin', (runFrom (World.step scheme json cipher cfg) w events).Sound json cipher origin' := by
  have hs (w : World) (e : Event) (hw : ∃ origin, w.Sound json cipher origin) :
      ∃ origin, (w.step scheme json cipher cfg e).Sound json cipher origin := by
    obtain ⟨origin,hw⟩ := hw
    obtain ⟨origin',-,hn⟩ := step_sound hj hc hw e
    exact ⟨origin',hn⟩
  exact run_invariant hs ⟨origin,h⟩ events

/-- Redemption is all-or-nothing and idempotent, over every interleaving of calls. -/
theorem redeem_idempotent (scheme : Scheme) (cfg : CoordConfig) (hjson : json.RoundTrips)
    (hc : cipher.Opens) (events : List Event) :
    (∀ c∈(World.run scheme json cipher cfg events).calls, ∀ grantNow e,
      c.phase=.done grantNow (.error e) → e≠.alreadyRedeemed → c.added=[]) ∧
    (∀ c∈(World.run scheme json cipher cfg events).calls,
      ∀ c'∈(World.run scheme json cipher cfg events).calls, ∀ msg grantNow grantNow' path path',
      fromHex c.request.msg=some msg → fromHex c'.request.msg=some msg →
      c.phase=.done grantNow (.ok path) → c'.phase=.done grantNow' (.ok path') → path=path') ∧
    (∀ c∈(World.run scheme json cipher cfg events).calls, ∀ grantNow path,
      c.phase=.done grantNow (.ok path) → ∃ now, grantNow=some now ∧
        ∀ hop∈path.hops, ∀ text, hop.grant=some text → ∃ token parsed,
          fromHex text=some token ∧ Nwg2.parse token=.ok parsed ∧ now<parsed.expiresAt) := by
  obtain ⟨origin,hs⟩ := run_sound scheme cfg hjson hc events sound_initial
  refine ⟨?_,?_,?_⟩
  · intro c hme grantNow e hh
    have hcall:=hs.calls c hme
    rw [CallSound,hh] at hcall
    exact hcall
  · intro c hme c' hme' msg grantNow grantNow' path path' hmsg hmsg' hh hh'
    have hcall:=hs.calls c hme
    have hcall':=hs.calls c' hme'
    rw [CallSound,hh] at hcall
    rw [CallSound,hh'] at hcall'
    obtain ⟨m,p,_,hm,hp,ht,-⟩ := hcall
    obtain ⟨m',p',_,hm',hp',ht',-⟩ := hcall'
    have hmm : m=msg := some.inj (hm.symm.trans hmsg)
    have hmm' : m'=msg := some.inj (hm'.symm.trans hmsg')
    rw [hmm] at hp
    rw [hmm'] at hp'
    have hpp : p=p' := some.inj (hp.symm.trans hp')
    rw [ht,ht',hpp]
  · intro c hme grantNow path hh
    have hcall:=hs.calls c hme
    rw [CallSound,hh] at hcall
    obtain ⟨m,p,now,-,hp,ht,hnow,hlt⟩ := hcall
    refine ⟨now,hnow,?_⟩
    intro hop hhop text htext
    rw [ht] at hhop
    obtain ⟨token,parsed,htoken,hparse,hexpiry⟩ := hs.store.expires _ _ hp hop hhop text htext
    exact ⟨token,parsed,htoken,hparse,hexpiry ▸ hlt⟩
end

def devResponse : PathResponse :=
  match NodeRegistry.devDefault.selectPath none 3 with
  | none => ⟨[]⟩
  | some selected =>
    match attachGrants plainScheme devSigner devRealm devTtl 1800000000 devNonces selected with
    | .ok granted => ⟨granted.map SelectedHop.hop⟩
    | .error _ => ⟨[]⟩

def devJson : Json where
  toVec path := if path=devResponse then some [1] else none
  fromSlice bytes := if bytes=[1] then some devResponse else none

lemma devJson_roundTrips : devJson.RoundTrips := by
  intro path bt h
  simp only [devJson] at h ⊢
  split at h
  next hp =>
    rw [← some.inj h,hp]
    rfl
  · cases h

def devConfig : CoordConfig where
  nodes := NodeRegistry.devDefault.nodes
  pathHops := 3
  verifier := some ⟨[(1,fun tokenSig _ => tokenSig=[7])]⟩
  grantSigner := some devSigner
  grantRealm := devRealm
  grantTtl := devTtl
  legacyTokenCutoff := none

def devMessage : Bytes := v2Magic++beBytes 8 1800003600++List.replicate 20 0xab
def upperHex (s : Bytes) : Bytes := s.map fun b => if isDigit b then b else b - 32
def devDraws : Draws := ⟨1800000000,1800000000,none,devNonces⟩
def devNonce : Nonce := ⟨List.replicate 12 5,rfl⟩

def devEvents : List Event :=
  [.start ⟨toHex devMessage,toHex [7]⟩,.start ⟨upperHex (toHex devMessage),toHex [7]⟩,
    .start ⟨toHex devMessage,toHex [8]⟩,.prepare 1 devDraws,.prepare 0 devDraws,
    .prepare 2 devDraws,.commit 1 (some devNonce),.commit 0 (some devNonce)]

def Phase.path : Phase → Option PathResponse
  | .done _ (.ok path) => some path
  | _ => none

theorem redeem_idempotent_dev :
    ((World.run plainScheme devJson Ledger.plainAead devConfig devEvents).calls.map fun c =>
      (c.phase.path.isSome,c.added.length))=[(true,0),(true,1),(false,0)] ∧
    ∀ c∈(World.run plainScheme devJson Ledger.plainAead devConfig devEvents).calls,
      ∀ grantNow e, c.phase=.done grantNow (.error e) → e≠.alreadyRedeemed → c.added=[] :=
  ⟨by decide +kernel,(redeem_idempotent plainScheme devConfig devJson_roundTrips
    Ledger.plainAead_opens devEvents).1⟩
end NilVpn.Coordinator
