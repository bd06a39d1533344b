import NilVpn.Ledger.SingleWinner

/-!
# The ledger file reads back (nullifier.rs:513-545, 717-826)

What `rewrite_locked` writes loads as the map it was given, and a file with a torn last line
loads as its complete lines.
-/

namespace NilVpn.Ledger
open Base Option List
open Program (Safe)

variable {faults : Prop} {v v' : Volume FileName} {mode : FileMode} {c : Bytes} {t records : Records}
  {ls : List Bytes}
lemma loadRecords_run (hs : v.visible .ledger=some c) (hl : loadBytes mode c=.ok t) :
    (loadRecords .ledger mode).run noFault v=(.done t,v) := by
  obtain ⟨fd,hfd,hc⟩ := map_eq_some_iff.mp hs
  have he:=Call.exec_openExisting hfd
  have hsf : Safe False (fun _ => True) (fun t' v' => t'=t ∧ v'=v) (fun _ _ => False)
      (loadRecords .ledger mode) v := by
    refine Safe.bind (Safe.attempt (Safe.sys_completes he ?_))
    have hr : (Call.read fd : Call FileName).exec v=(.ok c,v) := by
      rw [← hc]
      rfl
    refine Safe.bind (Safe.sys_completes hr ?_)
    rw [hl]
    exact ⟨rfl,rfl⟩
  obtain ⟨_,_,hu,rfl,rfl⟩ := hsf.returns
  exact hu

lemma loadBytes_joinLines (hls : ∀ l∈ls, newline∉l) (h : loadLines mode ls Table.empty=.ok t) :
    loadBytes mode (joinLines ls)=.ok t := by
  have hs:=splitLines_joinLines ls [] hls not_mem_nil
  rw [append_nil] at hs
  simp [loadBytes,hs,h,bind,Except.bind]

lemma loadBytes_image (h : AllStorable records) : ∃ t,
    loadBytes mode (image (orderedEntries records))=.ok t ∧ ∀ k, t.get k=records.get k := by
  have hes:=orderedEntries_storable h
  refine ⟨_,loadBytes_joinLines (newline_not_mem_recordLines _ hes)
    (loadLines_recordLines mode _ Table.empty hes),fun k => ?_⟩
  rw [Table.get_orInsertAll,lookup_orderedEntries]
  rfl

lemma rewriteLocked_writes (h : v.Scratch .rewriteTmp .ledger) (hst : AllStorable records)
    (inner : FileInner) : Safe faults (fun _ => True)
      (fun out v' => (out.2=.ok () → v'.visible .ledger=some (image (orderedEntries records))) ∧
        (¬faults → out.2=.ok ())) (fun _ _ => False) (rewriteLocked inner records) v := by
  have f {e : IoError} {w : Volume FileName} (hf : faults) (_ : ℕ) : (Except.error e=Except.ok () →
      w.visible .ledger=some (image (orderedEntries records))) ∧ (¬faults → Except.error e=Except.ok ()) :=
    ⟨nofun,fun hn => absurd hf hn⟩
  refine Safe.bind (Safe.attempt ((replaceLedger_safe noAssertion_persistent (inv_noAssertion h) hst
    fun _ hA => hA.elim).mono (fun _ _ => trivial) ?_ ?_))
  · rintro _ v1 ⟨-,i,hi,him⟩
    have hc:=mem_singleton.mp (him ▸ (v1.file i).current_mem)
    have hs : v1.visible .ledger=some (image (orderedEntries records)) := by
      rw [Volume.visible,hi,← hc]
      rfl
    have he:=Call.exec_openAppend hi
    have hp : (Call.setPermissions i).exec v1=(.ok (),v1) := rfl
    have hsn : Call.syncDir.exec v1=(.ok (),v1.syncDir) := rfl
    refine Safe.bind (Safe.attempt (Safe.bind (Safe.sys_ok he (fun _ => trivial) (f · ·) ?_)))
    refine Safe.bind (Safe.sys_ok hp (fun _ => trivial) (f · ·) ?_)
    refine Safe.bind (Safe.attempt (Safe.sys_ok hsn (fun _ => trivial) (f · ·) ?_))
    exact ⟨fun _ => hs,fun _ => rfl⟩
  · rintro e v1 ⟨-,-,hf⟩
    exact Safe.bind (Safe.attempt ((Safe.any _ _).mono (fun _ hv => hv) (fun _ _ _ => f hf 0)
      (fun _ _ _ => f hf 0)))

/-- The record of an accepted line; a blank line has none. -/
def lineRecord (mode : FileMode) (line : Bytes) : Option (Bytes × StoredRecord) :=
  (parseFields mode (splitWhitespace ((scalars (stripReturn line)).getD []))).toOption

lemma loadLine_accepted {line : Bytes} {t0 : Records} (h : loadLine mode t0 line=.ok t) (t : Records) :
    loadLine mode t line=.ok (t.orInsertAll (lineRecord mode line).toList) := by
  unfold loadLine at h ⊢
  split at h
  · cases h
  next hl =>
    rw [if_neg hl]
    split at h
    next hn =>
      rw [if_pos hn,lineRecord,hn]
      cases mode <;> rfl
    next hn =>
      rw [if_neg hn]
      split at h
      · cases h
      next text ht =>
        obtain ⟨kr,hp,-⟩ := except_bind_ok h
        simp [lineRecord,ht,hp,bind,Except.bind,Except.toOption,Table.orInsertAll]

lemma loadLines_accepted (h : ∀ l∈ls, ∃ t', loadLine mode Table.empty l=.ok t') (t : Records) :
    loadLines mode ls t=.ok (t.orInsertAll (ls.filterMap (lineRecord mode))) := by
  induction ls generalizing t with
  | nil => rfl
  | cons l ls ih =>
    obtain ⟨t',hl⟩ := h l (mem_cons_self ..)
    simp only [loadLines,loadLine_accepted hl t,bind,Except.bind]
    rw [ih fun x hx => h x (mem_cons_of_mem _ hx)]
    cases hr : lineRecord mode l <;> simp [hr,Table.orInsertAll]

lemma short_of_terminated {x y : Bytes} (hx : Terminated x) (hy : y.length < maxRecordLineBytes) :
    ¬LongTail (x++y) := by
  rintro ⟨p,hp,hn⟩
  rw [length_append] at hn
  have hlt : p<x.length := by omega
  have hne : x≠[] := ne_nil_of_length_pos (by omega)
  have hl:=((terminated_iff x).mp hx).resolve_left hne
  refine hp ?_
  rw [drop_append_of_le_length (by omega)]
  refine mem_append_left _ (mem_of_getLast? ?_)
  rw [List.getLast?_drop,if_neg (by omega),hl]

lemma Trimmed.shown (h : Trimmed v v') (hs : v.visible .ledger=some c) :
    ∃ c', v'.visible .ledger=some c' ∧ (splitLines c').1=(splitLines c).1 := by
  obtain ⟨i,hi,rfl⟩ := map_eq_some_iff.mp hs
  cases h with
  | same => exact ⟨_,hs,rfl⟩
  | cut hf hp =>
    cases hi.symm.trans hf
    exact ⟨_,map_eq_some_iff.mpr ⟨i,hi,by rw [Volume.truncate_file,Cached.current_write]⟩,hp.lines⟩
  | synced hf hp =>
    cases hi.symm.trans hf
    exact ⟨_,map_eq_some_iff.mpr ⟨i,hi,by rw [Volume.fsync_file,Cached.current_flush,
      Volume.truncate_file,Cached.current_write]⟩,hp.lines⟩

lemma truncate_leaves_lines {f : Bytes} (hls : ∀ l∈ls, newline∉l) (hno : newline∉f)
    (hn : f.length < maxRecordLineBytes) (hs : v.visible .ledger=some (joinLines ls++f)) :
    ∃ v', truncateUnterminatedTail.run noFault v=(.done (),v') ∧ v'.visible .ledger=some (joinLines ls) := by
  have hsf : Safe False (Trimmed v) (fun _ v' => Trimmed v v' ∧ CleanTail v') (fun _ _ => False)
      truncateUnterminatedTail v := by
    refine (truncateUnterminatedTail_trims v).mono (fun _ hv => hv) (fun _ _ hv => hv) ?_
    rintro _ v' ⟨-,hf | hl⟩
    · exact hf
    · rw [hs] at hl
      exact short_of_terminated (terminated_joinLines ls) hn hl
  obtain ⟨⟨⟩,v',hr,ht,hc⟩ := hsf.returns
  obtain ⟨c',hc',hln⟩ := ht.shown hs
  obtain ⟨i,hi,rfl⟩ := map_eq_some_iff.mp hc'
  have hj:=joinLines_splitLines (v'.file i).current
  rw [show (splitLines (v'.file i).current).2=[] from hc i hi,append_nil,hln,
    splitLines_joinLines ls f hls hno] at hj
  exact ⟨v',hr,by rw [hc',← hj]⟩

theorem ledger_file_reads_back (mode : FileMode) (v : Volume FileName) :
    (∀ inner records, v.Scratch .rewriteTmp .ledger →
      (∀ key r, records.get key=some r → validateStoredKey key=.ok () ∧
        (r.replayUntil=none ∧ r.ciphertext=none ∨ ∃ u c, r.replayUntil=some u ∧
          r.ciphertext=some c ∧ c≠[] ∧ c.length ≤ maxCiphertextBytes)) →
      (∃ inner' v', (rewriteLocked inner records).run noFault v=(.done (inner',.ok ()),v')) ∧
      ∀ env inner' v', (rewriteLocked inner records).run env v=(.done (inner',.ok ()),v') →
        ∃ t, (loadRecords .ledger mode).run noFault v'=(.done t,v') ∧ ∀ k, t.get k=records.get k) ∧
    ∀ ls fragment, (∀ l∈ls, newline∉l ∧ ∃ t, loadLine mode Table.empty l=.ok t) →
      newline∉fragment → fragment.length < maxRecordLineBytes →
      v.visible .ledger=some (joinLines ls++fragment) →
      ∃ v', truncateUnterminatedTail.run noFault v=(.done (),v') ∧ v'.visible .ledger=some (joinLines ls) ∧
        ∃ t, (loadRecords .ledger mode).run noFault v'=(.done t,v') ∧
          ∀ k, t.get k=Table.lookup k (ls.filterMap (lineRecord mode)) := by
  refine ⟨fun inner records hs hc => ?_,fun ls fragment hls hno hlen hshown => ?_⟩
  · have hst : AllStorable records := by
      intro key r hr
      obtain ⟨hkey,hkind⟩ := hc key r hr
      exact ⟨hkey,by grind,by grind⟩
    refine ⟨?_,fun env inner' v' hu => ?_⟩
    · obtain ⟨⟨inner',_⟩,v',hu,-,hok⟩ := (rewriteLocked_writes hs hst inner).returns
      cases hok id
      exact ⟨inner',v',hu⟩
    · have hw : Safe True _ _ _ (rewriteLocked inner records) v := rewriteLocked_writes hs hst inner
      have hmeets:=hw.run env fun _ _ => trivial
      rw [hu] at hmeets
      obtain ⟨t,hload,hget⟩ := loadBytes_image hst
      exact ⟨t,loadRecords_run (hmeets.1 rfl) hload,hget⟩
  · have hn : ∀ l∈ls, newline∉l := fun l hl => (hls l hl).1
    obtain ⟨v',hu,hv'⟩ := truncate_leaves_lines hn hno hlen hshown
    refine ⟨v',hu,hv',_,loadRecords_run hv' (loadBytes_joinLines hn
      (loadLines_accepted (fun l hl => (hls l hl).2) Table.empty)),fun k => ?_⟩
    rw [Table.get_orInsertAll]
    rfl
end NilVpn.Ledger
