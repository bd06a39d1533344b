import NilVpn.Transport.Path

/-!
# The life of an onion
-/

namespace NilVpn.Transport
open Base List Table
open NilVpn.Core (Error Grant NodeEndpoint Session SessionId)

@[simp] lemma openedIn_append (a b : List Call) : openedIn (a++b)=openedIn a++openedIn b :=
  filterMap_append

@[simp] lemma closedIn_append (a b : List Call) : closedIn (a++b)=closedIn a++closedIn b :=
  filterMap_append

@[simp] lemma openedIn_reverse (a : List Call) : openedIn a.reverse=(openedIn a).reverse :=
  filterMap_reverse

@[simp] lemma closedIn_reverse (a : List Call) : closedIn a.reverse=(closedIn a).reverse :=
  filterMap_reverse

@[simp] lemma openedIn_opened (refs : List SessionRef) : openedIn (refs.map .opened)=refs := by
  induction refs with
  | nil => rfl
  | cons r refs ih => exact congrArg (r::·) ih

@[simp] lemma openedIn_closed (refs : List SessionRef) : openedIn (refs.map .closed)=[] := by
  induction refs with
  | nil => rfl
  | cons r refs ih => exact ih

@[simp] lemma closedIn_opened (refs : List SessionRef) : closedIn (refs.map .opened)=[] := by
  induction refs with
  | nil => rfl
  | cons r refs ih => exact ih

@[simp] lemma closedIn_closed (refs : List SessionRef) : closedIn (refs.map .closed)=refs := by
  induction refs with
  | nil => rfl
  | cons r refs ih => exact congrArg (r::·) ih

namespace PathTransport
variable {st st' after : PathTransport} {hs : List HopHandle} {refs : List SessionRef}
def IsOpen (st : PathTransport) : SessionRef → Prop
  | .masque id => id∈st.inner.sessions
  | .pqwg id => st.pqwg.sessions.get id≠none

/-- From `st` to `after` exactly the sessions `refs` were closed, in this order. -/
structure Closes (st : PathTransport) (refs : List SessionRef) (after : PathTransport) : Prop where
  log : after.log=st.log++refs.map .closed
  isOpen : ∀ r, after.IsOpen r ↔ st.IsOpen r ∧ r∉refs
  wraps : ∀ id, .pqwg id∉refs → after.pqwg.sessions.get id=st.pqwg.sessions.get id

lemma Closes.refl (st : PathTransport) : Closes st [] st where
  log := by simp
  isOpen := by simp
  wraps := fun _ _ => rfl

lemma Closes.trans {refs' : List SessionRef} (h : Closes st refs st') (h' : Closes st' refs' after) :
    Closes st (refs++refs') after where
  log := by rw [h'.log,h.log,List.map_append,List.append_assoc]
  isOpen := by
    intro r
    rw [h'.isOpen,h.isOpen,mem_append,not_or,and_assoc]
  wraps := by
    intro id hd
    rw [mem_append,not_or] at hd
    rw [h'.wraps id hd.2,h.wraps id hd.1]

variable {s m : Session} {hops : List HopHandle} {e : Error} {log : List Call} {rest : List NodeEndpoint}
lemma closeMasque_closes (ho : st.IsOpen (.masque s.id)) :
    ∃ after, st.closeMasque s=(after,.ok ()) ∧ Closes st [.masque s.id] after := by
  refine ⟨_,if_pos ho,rfl,?_,fun _ _ => rfl⟩
  intro r
  cases r with
  | masque id => simp [IsOpen,MasqueTransport.unregister,and_comm]
  | pqwg id => simp [IsOpen]

lemma closePq_closes (hpq : st.pqwg.sessions.get s.id=some m) (ho : st.IsOpen (.masque m.id)) :
    ∃ after, st.closePq s=(after,.ok ()) ∧ Closes st [.pqwg s.id,.masque m.id] after := by
  have hf : Closes st [.pqwg s.id] { st with
      pqwg := st.pqwg.unregister s.id
      log := st.log++[.closed (.pqwg s.id)] } := by
    constructor
    · rfl
    · intro r
      cases r with
      | masque id => simp [IsOpen]
      | pqwg id => simp [IsOpen,PqWgTransport.unregister,get_erase,and_comm]
    · grind [PqWgTransport.unregister,get_erase]
  obtain ⟨after,heq,hs⟩ := closeMasque_closes ((hf.isOpen (.masque m.id)).mpr ⟨ho,by simp⟩)
  exact ⟨after,by simp only [closePq,hpq,heq],hf.trans hs⟩

inductive Standing (st : PathTransport) : List HopHandle → List SessionRef → Prop
  | nil : Standing st [] []
  | plain {hs : List HopHandle} {refs : List SessionRef} {s : Session}
    (hopen : st.IsOpen (.masque s.id)) (hnew : .masque s.id∉refs) (h : Standing st hs refs) :
    Standing st (.plain s::hs) (.masque s.id::refs)
  | pq {hs : List HopHandle} {refs : List SessionRef} {s m : Session}
    (hpq : st.pqwg.sessions.get s.id=some m) (hopen : st.IsOpen (.masque m.id))
    (hnew : .masque m.id∉refs) (hnewPq : .pqwg s.id∉refs) (h : Standing st hs refs) :
    Standing st (.pq s::hs) (.pqwg s.id::.masque m.id::refs)

section
variable (h : Standing st hs refs)
include h
lemma Standing.nodup : refs.Nodup := by
  induction h with
  | nil => exact nodup_nil
  | plain ho hw h ih => exact nodup_cons.mpr ⟨hw,ih⟩
  | pq hpq ho hw hn h ih => simp [hw,hn,ih]

lemma Standing.isOpen : ∀ r∈refs, st.IsOpen r := by
  induction h with
  | nil => simp
  | plain ho hne h ih => exact forall_mem_cons.mpr ⟨ho,ih⟩
  | pq hpq ho hne hn h ih =>
    have hw : st.IsOpen (.pqwg _) := hpq.trans_ne (Option.some_ne_none _)
    exact forall_mem_cons.mpr ⟨hw,forall_mem_cons.mpr ⟨ho,ih⟩⟩

lemma Standing.frame (hm : ∀ id, .masque id∈refs → st'.IsOpen (.masque id))
    (hw : ∀ id, .pqwg id∈refs → st'.pqwg.sessions.get id=st.pqwg.sessions.get id) :
    Standing st' hs refs := by
  induction h with
  | nil => exact .nil
  | plain ho hne h ih => simp_all [Standing.plain]
  | pq hpq ho hne hn h ih => simp_all [Standing.pq]

lemma Standing.after_closes {c : List SessionRef} (hc : Closes st c after) (hd : ∀ r∈refs, r∉c) :
    Standing after hs refs := by
  apply h.frame
  · intro id hid
    exact (hc.isOpen _).mpr ⟨h.isOpen _ hid,hd _ hid⟩
  · intro id hid
    exact hc.wraps id (hd _ hid)

lemma closeAll_standing : ∃ after, st.closeAll hs (.ok ())=(after,.ok ()) ∧ Closes st refs after := by
  induction hs generalizing st refs with
  | nil =>
    cases h
    exact ⟨st,rfl,.refl st⟩
  | cons hl hs ih =>
    cases h with
    | plain ho hw h =>
      obtain ⟨mid,hd,hc⟩ := closeMasque_closes ho
      have hrs : Standing mid hs _ := h.after_closes hc (by
        intro r hr hm
        exact hw (mem_singleton.mp hm ▸ hr))
      obtain ⟨after,ha,ht⟩ := ih hrs
      refine ⟨after,?_,hc.trans ht⟩
      simp only [closeAll,closeHop,hd]
      exact ha
    | pq hpq ho hw hn h =>
      obtain ⟨mid,hd,hc⟩ := closePq_closes hpq ho
      have hrs : Standing mid hs _ := h.after_closes hc (by
        intro r hr hm
        rcases mem_cons.mp hm with heq | hm
        · exact hn (heq ▸ hr)
        · exact hw (mem_singleton.mp hm ▸ hr))
      obtain ⟨after,ha,ht⟩ := ih hrs
      refine ⟨after,?_,hc.trans ht⟩
      simp only [closeAll,closeHop,hd]
      exact ha
end

lemma teardown_standing (h : Standing st hops.reverse refs) :
    ∃ after, st.teardown hops=(after,.ok ()) ∧ Closes st refs after :=
  closeAll_standing h

variable {steps : HopSteps} {hop : NodeEndpoint} {g : Grant} {c : Option HopHandle}
lemma dial_ok (hd : st.dial steps hop g c=(after,.ok s)) (h : Standing st hs refs) :
    steps.dial hop g c=.ok () ∧ s=⟨st.inner.nextId⟩ ∧ after={ st with
      inner := st.inner.register.1
      log := st.log++[.opened (.masque s.id)] } ∧
    Standing after (.plain s::hs) (.masque s.id::refs) := by
  unfold dial at hd
  split at hd
  · cases hd
  · rename_i hdl
    obtain ⟨rfl,hs⟩ := Prod.mk.inj hd
    cases Except.ok.inj hs
    refine ⟨hdl,rfl,rfl,.plain (Finset.mem_insert_self ..) ?_ ?_⟩
    · intro hm
      exact st.inner.nextId_notMem (h.isOpen _ hm)
    · apply h.frame
      · intro id hid
        exact Finset.mem_insert_of_mem (h.isOpen _ hid)
      · exact fun _ _ => rfl

lemma dial_error (hd : st.dial steps hop g c=(after,.error e)) : after=st := by grind [dial]

lemma wrapSession_ok (hw : st.wrapSession steps m=(after,.ok s))
    (h : Standing st (.plain m::hs) (.masque m.id::refs)) :
    handshake steps.wrap=.ok () ∧ s=⟨st.pqwg.nextId⟩ ∧ after={ st with
      pqwg := (st.pqwg.register m).1
      log := st.log++[.opened (.pqwg s.id)] } ∧
    Standing after (.pq s::hs) (.pqwg s.id::.masque m.id::refs) := by
  unfold wrapSession at hw
  split at hw
  · cases hw
  · rename_i hh
    obtain ⟨rfl,hs⟩ := Prod.mk.inj hw
    cases Except.ok.inj hs
    cases h with
    | plain ho hn h =>
      have hf : SessionRef.pqwg st.pqwg.nextId∉refs := by
        intro hm
        exact h.isOpen _ hm st.pqwg.get_nextId
      refine ⟨hh,rfl,rfl,.pq (get_insert_self ..) ho hn hf ?_⟩
      apply h.frame
      · intro id hid
        exact h.isOpen _ hid
      · grind [get_insert_ne]

lemma wrapSession_error (hw : st.wrapSession steps m=(after,.error e)) : after=st := by
  grind [wrapSession]

def Handles (path : List NodeEndpoint) (hops : List HopHandle) : Prop :=
  List.Forall₂ (fun hop h => h.isPq=hop.wgPub.isSome) path hops

/-- How the loop over `rest` can end, when `hops` are established and the log started as `log`. -/
inductive Ended (log : List Call) (hops : List HopHandle) (rest : List NodeEndpoint) :
    PathTransport × Except Error (List HopHandle) → Prop
  | failed (after : PathTransport) (e : Error) (refs : List SessionRef) (hnodup : refs.Nodup)
    (hlog : after.log=log++refs.reverse.map .opened++refs.map .closed) :
    Ended log hops rest (after,.error e)
  | connected (after : PathTransport) (more : List HopHandle) (refs : List SessionRef)
    (hlog : after.log=log++refs.reverse.map .opened) (hmore : Handles rest more)
    (h : Standing after (hops++more).reverse refs) : Ended log hops rest (after,.ok (hops++more))

/-- One of the hops from index `i` on is reached, lies behind the entry, and has neither a grant of
its own nor entropy for one; `masque` and `pq` are the next session ids. -/
def Starves (steps : ℕ → HopSteps) (creds : Grant) (masque pq i : ℕ) (carrier : Option HopHandle) :
    List NodeEndpoint → Prop
  | [] => False
  | hop::rest =>
    (0 < i ∧ hop.grant=none ∧ ∃ text, (steps i).entropy=.error text) ∨
    ∃ grant, grantFor (steps i) hop creds=.ok grant ∧ (steps i).dial hop grant carrier=.ok () ∧
      if hop.wgPub.isSome then handshake (steps i).wrap=.ok () ∧
        Starves steps creds (masque+1) (pq+1) (i+1) (some (.pq ⟨pq⟩)) rest
      else Starves steps creds (masque+1) pq (i+1) (some (.plain ⟨masque⟩)) rest

lemma Ended.teardown (h : Standing st hops.reverse refs)
    (hl : st.log=log++refs.reverse.map .opened) (e : Error) :
    Ended log hops rest ((st.teardown hops).1,.error e) := by
  obtain ⟨after,ha,hc⟩ := teardown_standing h
  rw [ha]
  exact .failed after e refs h.nodup (by rw [hc.log,hl])

lemma Ended.closeAndTeardown {m : Session}
    (h : Standing st (.plain m::hops.reverse) (.masque m.id::refs))
    (hl : st.log=log++(SessionRef.masque m.id::refs).reverse.map .opened) (e : Error) :
    Ended log hops rest (((st.closeMasque m).1.teardown hops).1,.error e) := by
  have hn:=h.nodup
  cases h with
  | plain ho hw h =>
    obtain ⟨mid,hm,hc⟩ := closeMasque_closes ho
    have hrs : Standing mid hops.reverse refs := h.after_closes hc (by
      intro r hr hme
      exact hw (mem_singleton.mp hme ▸ hr))
    obtain ⟨after,ha,ht⟩ := teardown_standing hrs
    rw [hm,ha]
    exact .failed after e _ hn (by rw [(hc.trans ht).log,hl]; rfl)

lemma Ended.push {ha : HopHandle} (hk : ha.isPq=hop.wgPub.isSome)
    {result : PathTransport × Except Error (List HopHandle)}
    (h : Ended log (hops++[ha]) rest result) : Ended log hops (hop::rest) result := by
  cases h with
  | failed after e refs hn hl => exact .failed after e refs hn hl
  | connected after mo refs hl hm h =>
    rw [append_assoc] at h ⊢
    exact .connected after (ha::mo) refs hl (.cons hk hm) h

lemma grantFor_error {f : Grant} (h : grantFor steps hop f=.error e) :
    hop.grant=none ∧ ∃ text, steps.entropy=.error text := by
  unfold grantFor at h
  split at h
  · cases h
  next hnn =>
    refine ⟨hnn,?_⟩
    cases hn : steps.entropy with
    | error text => exact ⟨text,rfl⟩
    | ok nonce => simp [freshGrant,hn,orTransport] at h

variable (outcomes : ℕ → HopSteps)
lemma connectLoop_ended (creds : Grant) (log : List Call) (rest : List NodeEndpoint) (i : ℕ)
    (hops : List HopHandle) (c : Option HopHandle)
    (he : ¬Starves outcomes creds st.inner.nextId st.pqwg.nextId i c rest) (hf : i=0 → hops=[])
    (h : Standing st hops.reverse refs) (hlo : st.log=log++refs.reverse.map .opened) :
    Ended log hops rest (connectLoop outcomes creds st i hops c rest) := by
  induction rest generalizing st i hops c refs with
  | nil =>
    have hdn : Ended log hops [] (st,.ok (hops++[])) :=
      .connected st [] refs hlo .nil (by rwa [append_nil])
    rwa [append_nil] at hdn
  | cons hop rest ih =>
    unfold connectLoop
    cases hg : grantFor (outcomes i) hop creds with
    | error e =>
      -- Only the entry can fail here, and nothing is open yet.
      have hz : i=0 := by
        by_contra hne
        exact he (.inl ⟨Nat.pos_of_ne_zero hne,grantFor_error hg⟩)
      rw [hf hz] at h ⊢
      cases h
      exact .failed st e [] nodup_nil (by simpa using hlo)
    | ok g =>
      simp only
      rcases hdl : st.dial (outcomes i) hop g c with ⟨dialed,ma⟩
      cases ma with
      | error e =>
        rw [dial_error hdl]
        exact .teardown h hlo _
      | ok ma =>
        obtain ⟨hdk,rfl,hst,hd⟩ := dial_ok hdl h
        have hl : dialed.log=log++(SessionRef.masque st.inner.nextId::refs).reverse.map .opened := by
          simp [hst,hlo]
        cases hp : hop.wgPub with
        | none =>
          have hkn : (HopHandle.plain ⟨st.inner.nextId⟩).isPq=hop.wgPub.isSome := by rw [hp]; rfl
          apply Ended.push hkn
          refine ih (i+1) _ _ (fun hs => he (.inr ⟨g,hg,hdk,?_⟩)) (by omega) ?_ hl
          · rw [hst] at hs
            rw [hp]
            exact hs
          · rw [reverse_append]
            exact hd
        | some wp =>
          simp only
          rcases hwr : dialed.wrapSession (outcomes i) ⟨st.inner.nextId⟩ with ⟨wrapped,pq⟩
          cases pq with
          | error e =>
            rw [wrapSession_error hwr]
            exact .closeAndTeardown hd hl _
          | ok pq =>
            obtain ⟨hh,rfl,hsw,hw⟩ := wrapSession_ok hwr hd
            have hkn : (HopHandle.pq ⟨dialed.pqwg.nextId⟩).isPq=hop.wgPub.isSome := by rw [hp]; rfl
            apply Ended.push hkn
            refine ih (i+1) _ _ (fun hs => he (.inr ⟨g,hg,hdk,?_⟩)) (by omega)
              (by rw [reverse_append]; exact hw) (by simp [hsw,hl])
            rw [hsw,hst] at hs
            rw [hp]
            exact ⟨hh,hs⟩

lemma connectLoop_starved (g : Grant) (log : List Call) (rest : List NodeEndpoint) (i : ℕ)
    (hops : List HopHandle) (c : Option HopHandle) (refs : List SessionRef)
    (hs : Starves outcomes g st.inner.nextId st.pqwg.nextId i c rest) (hr : 0 < i → refs≠[])
    (hlo : st.log=log++refs.reverse.map .opened) :
    ∃ after e left, connectLoop outcomes g st i hops c rest=(after,.error e) ∧ left≠[] ∧
      after.log=log++left.map .opened := by
  induction rest generalizing st i hops c refs with
  | nil => exact hs.elim
  | cons hop rest ih =>
    unfold connectLoop
    obtain ⟨hi,hn,text,he⟩ | ⟨grant,hg,hd,hs⟩ := hs
    · have hg : grantFor (outcomes i) hop g=.error (.transport s!"path nonce entropy: {text}") := by
        rw [grantFor,hn]
        simp only [freshGrant,he,orTransport]
        rfl
      rw [hg]
      exact ⟨st,_,refs.reverse,rfl,by simpa using hr hi,hlo⟩
    · simp only [hg,dial,hd]
      cases hp : hop.wgPub with
      | none =>
        rw [hp,if_neg (by simp)] at hs
        refine ih (i+1) _ _ (.masque st.inner.nextId::refs) hs (by simp) ?_
        simp [hlo,MasqueTransport.register]
      | some wp =>
        rw [hp,if_pos (by rfl)] at hs
        simp only [wrapSession,hs.1]
        refine ih (i+1) _ _ (.pqwg st.pqwg.nextId::.masque st.inner.nextId::refs) hs.2 (by simp) ?_
        simp [hlo,MasqueTransport.register,PqWgTransport.register]

/-- Every session opened is closed exactly once, and inner ones before outer ones. -/
structure ClosedInOrder (calls : List Call) : Prop where
  once : ∀ r∈openedIn calls, (closedIn calls).count r=1
  innermostFirst : closedIn calls=(openedIn calls).reverse

def sessionsOf (st : PathTransport) : HopHandle → List SessionRef
  | .plain s => [.masque s.id]
  | .pq s => ((st.pqwg.sessions.get s.id).map fun m => SessionRef.masque m.id).toList++[.pqwg s.id]

structure Connected (path : List NodeEndpoint) (st after : PathTransport) (s : Session)
    (calls : List Call) (hops : List HopHandle) : Prop where
  log : after.log=st.log++calls
  handles : Handles path hops
  exit : hops.getLast?.map HopHandle.session=some s
  opened : openedIn calls=hops.flatMap after.sessionsOf
  distinct : (openedIn calls).Nodup
  closed : closedIn calls=[]
  isOpen : ∀ r∈openedIn calls, after.IsOpen r
  close : ∃ final closes, after.close s=(final,.ok ()) ∧ final.log=after.log++closes ∧
    openedIn closes=[] ∧ closedIn closes=(openedIn calls).reverse ∧
    ∀ r∈openedIn calls, ¬final.IsOpen r

structure FailureAtomic (path : List NodeEndpoint) (steps : ℕ → HopSteps) (st : PathTransport)
    (creds : Grant) : Prop where
  failed : ∀ after e, connect path steps st creds=(after,.error e) →
    ∃ calls, after.log=st.log++calls ∧ ClosedInOrder calls
  connected : ∀ after s, connect path steps st creds=(after,.ok s) →
    ∃ calls hops, Connected path st after s calls hops

lemma closedInOrder_of_nodup {refs : List SessionRef} (h : refs.Nodup) :
    ClosedInOrder (refs.reverse.map .opened++refs.map .closed) where
  once := by
    intro r hr
    have hm : r∈refs := by simpa using hr
    simpa using count_eq_one_of_mem h hm
  innermostFirst := by simp

lemma Standing.sessionsOf (h : Standing st hs refs) : refs.reverse=hs.reverse.flatMap st.sessionsOf := by
  induction h with
  | nil => rfl
  | plain ho hw h ih => simp [ih,PathTransport.sessionsOf]
  | pq hpq ho hw hn h ih => simp [ih,PathTransport.sessionsOf,hpq]

lemma close_connected (h : Standing st hops.reverse refs) (ho : st.onion.get s.id=some hops) :
    ∃ f, st.close s=(f,.ok ()) ∧ f.log=st.log++refs.map .closed ∧ ∀ r∈refs, ¬f.IsOpen r := by
  have hf : Standing { st with
      onion := st.onion.erase s.id
      pqExits := st.pqExits.erase s.id } hops.reverse refs :=
    h.frame (fun id hid => h.isOpen _ hid) fun _ _ => rfl
  obtain ⟨f,hfn,hc⟩ := teardown_standing hf
  refine ⟨f,?_,hc.log,?_⟩
  · simp only [PathTransport.close,ho,Option.getD_some]
    exact hfn
  · intro r hr hon
    exact ((hc.isOpen r).mp hon).2 hr

variable {p : List NodeEndpoint}
lemma connect_connected {l : HopHandle} (hl : st'.log=st.log++refs.reverse.map .opened)
    (hm : Handles p hops) (h : Standing st' hops.reverse refs) (he : hops.getLast?=some l)
    (e : Finset SessionId) : Connected p st { st' with
      pqExits := e
      onion := st'.onion.insert l.session.id hops } l.session (refs.reverse.map .opened) hops := by
  have hs : Standing { st' with
      pqExits := e
      onion := st'.onion.insert l.session.id hops } hops.reverse refs :=
    h.frame (fun id hid => h.isOpen _ hid) fun _ _ => rfl
  obtain ⟨f,hcl,hf,hc⟩ := close_connected hs (get_insert_self ..)
  have ho : openedIn (refs.reverse.map .opened)=refs.reverse := openedIn_opened _
  exact
    { log := hl
      handles := hm
      exit := by rw [he]; rfl
      opened := by rw [ho,hs.sessionsOf,reverse_reverse]
      distinct := by simpa [ho] using h.nodup
      closed := closedIn_opened _
      isOpen := by
        intro r hr
        rw [ho,mem_reverse] at hr
        exact hs.isOpen r hr
      close := by
        refine ⟨f,refs.map .closed,hcl,hf,openedIn_closed _,?_,?_⟩
        · rw [ho,reverse_reverse,closedIn_closed]
        · intro r hr
          rw [ho,mem_reverse] at hr
          exact hc r hr }

lemma Ended.connect {steps : ℕ → HopSteps} {creds : Grant} (hp : p≠[])
    (he : Ended st.log [] p (connectLoop steps creds st 0 [] none p)) :
    FailureAtomic p steps st creds := by
  generalize hr : connectLoop steps creds st 0 [] none p=re at he
  cases he with
  | failed mid e refs hn hl =>
    have hc : PathTransport.connect p steps st creds=(mid,.error e) := by
      simp only [PathTransport.connect,if_neg hp,hr]
    constructor
    · intro after e' h
      cases hc.symm.trans h
      exact ⟨_,by rw [hl,append_assoc],closedInOrder_of_nodup hn⟩
    · intro after s h
      cases hc.symm.trans h
  | connected mid hops refs hl hm h =>
    have hne : hops≠[] := by
      intro hni
      rw [hni] at hm
      cases hm
      exact hp rfl
    have het:=List.getLast?_eq_some_getLast hne
    have hc : PathTransport.connect p steps st creds=mid.register hops := by
      simp only [PathTransport.connect,if_neg hp,hr,nil_append]
    rw [register,het] at hc
    constructor
    · intro after e h
      cases hc.symm.trans h
    · intro after s hs
      cases hc.symm.trans hs
      exact ⟨_,hops,connect_connected hl hm h het _⟩

lemma FailureAtomic.not_left {steps : ℕ → HopSteps} {creds : Grant} (h : FailureAtomic p steps st creds)
    (left : List SessionRef) (hn : left≠[]) (hl : after.log=st.log++left.map .opened) :
    connect p steps st creds≠(after,.error e) := by
  intro hc
  obtain ⟨calls,hcl,ho⟩ := h.failed after e hc
  obtain rfl:=append_cancel_left (hl.symm.trans hcl)
  have hi:=ho.innermostFirst
  rw [openedIn_opened,closedIn_opened] at hi
  exact hn (reverse_eq_nil_iff.mp hi.symm)

lemma failureAtomic_of_not_starves (path : List NodeEndpoint) (steps : ℕ → HopSteps)
    (st : PathTransport) (creds : Grant)
    (hs : ¬Starves steps creds st.inner.nextId st.pqwg.nextId 0 none path) :
    FailureAtomic path steps st creds := by
  by_cases hp : path=[]
  · have hc : connect path steps st creds=(st,.error (.transport "path has no hops")) :=
      if_pos hp
    constructor
    · intro after e h
      cases hc.symm.trans h
      exact ⟨[],by simp,closedInOrder_of_nodup nodup_nil⟩
    · intro after s h
      cases hc.symm.trans h
  · apply Ended.connect hp
    exact connectLoop_ended steps creds st.log path 0 [] none hs (fun _ => rfl) .nil (by simp)

/-- A failed `connect` leaves nothing open that it opened, and `close` undoes a successful one,
unless a hop behind the entry finds no entropy. -/
theorem onion_failure_atomic (path : List NodeEndpoint) (steps : ℕ → HopSteps) (st : PathTransport)
    (creds : Grant) : FailureAtomic path steps st creds ↔
      ¬Starves steps creds st.inner.nextId st.pqwg.nextId 0 none path := by
  refine ⟨fun h hs => ?_,failureAtomic_of_not_starves path steps st creds⟩
  obtain ⟨after,e,left,hr,hn,hl⟩ := connectLoop_starved steps creds st.log path 0 [] none [] hs
    (fun h0 => absurd h0 (Nat.lt_irrefl 0)) (by simp)
  have hp : path≠[] := by
    rintro rfl
    exact hs
  exact h.not_left (e := e) left hn hl (by simp only [connect,if_neg hp,hr])

def samplePath : List NodeEndpoint := [⟨"entry",443,none,none⟩,⟨"exit",443,some (Block.fill 32 1),none⟩]
def sampleGrant : Grant := ⟨[],Block.fill 32 0⟩

def sampleSteps : HopSteps where
  entropy := .ok (Block.fill 32 9)
  dial := fun _ _ _ => .ok ()
  wrap :=
    { keygen := .ok ()
      controlSend := .ok ()
      controlRecv := some (.ok [0,0,0,1,5,0,0,0,1,6])
      finish := fun _ _ => .ok ()
      handshakeInit := .ok [1]
      sendInit := .ok ()
      recvResponse := some (.ok [2])
      decapsulate := fun _ => .network [3]
      sendKeepalive := .ok () }

def emptyTransport : PathTransport where
  inner := ⟨0,∅,by simp⟩
  pqwg := ⟨0,.empty,fun _ _ h => by cases h⟩
  onion := .empty
  pqExits := ∅
  log := []

theorem onion_failure_atomic_sample : ¬Starves (fun _ => sampleSteps) sampleGrant 0 0 0 none samplePath ∧
      openedIn (connect samplePath (fun _ => sampleSteps) emptyTransport sampleGrant).1.log =
        [.masque 0,.masque 1,.pqwg 0] ∧
      FailureAtomic samplePath (fun _ => sampleSteps) emptyTransport sampleGrant := by
  have hn : ¬Starves (fun _ => sampleSteps) sampleGrant 0 0 0 none samplePath := by
    simp [Starves,samplePath,sampleSteps]
  exact ⟨hn,by decide +kernel,(onion_failure_atomic _ _ _ _).mpr hn⟩

def starvedSteps (i : ℕ) : HopSteps :=
  if i=0 then sampleSteps else { sampleSteps with entropy := .error "unavailable" }

/-- `grant_for(hop, &creds)?` returns without closing the session of the entry. -/
theorem starved_hop_leaks_entry : ¬FailureAtomic samplePath starvedSteps emptyTransport sampleGrant := by
  intro h
  exact h.not_left [.masque 0] (by simp) (by rfl) (Prod.ext rfl (by rfl : _=Except.error
    (Error.transport "path nonce entropy: unavailable")))
end PathTransport
end NilVpn.Transport
