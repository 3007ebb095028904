import StateProvenance.Sessions
import StateProvenance.IngestionOrder

/-! The status overlay over whole sessions: the status of a subject is its publication and, after it, the last
invalidation of the subject or of something it was derived from. -/

namespace StateProvenance

open Std Library.OrderedMap Library.Lineage Library.Runs

inductive Effect
  | published (d : RecordData)
  | invalidated (subj : InvalidatingSubject)

structure Journal where
  effects : List Effect := []
  saved : List Effect := []

def Journal.add (j : Journal) (ok : Bool) (e : Effect) : Journal :=
  if ok then { j with effects := j.effects ++ [e] } else j

def Journal.note (j : Journal) (t : Session) : SessionEvent → Journal
  | .publish d => j.add (t.answer (.publish d)) (.published d)
  | .publishFenced d c => j.add (t.answer (.publishFenced d c)) (.published d)
  | .invalidate subj => j.add (t.answer (.invalidate subj)) (.invalidated subj)
  | .authority _ => j
  | .save => { j with saved := j.effects }
  | .recover => if t.answer .recover then { j with effects := j.saved } else j

structure JournaledSession where
  session : Session := {}
  journal : Journal := {}

def JournaledSession.step (t : JournaledSession) (e : SessionEvent) : JournaledSession :=
  ⟨t.session.step e, t.journal.note t.session e⟩

def journalAfter (es : List SessionEvent) : List Effect :=
  (run JournaledSession.step {} es).journal.effects

def InvalidatingSubject.statusOf (subj : InvalidatingSubject) (x : StateId) (st : RecordStatus) : RecordStatus :=
  { st with
    validity := .named .invalidated
    reason := subj.reason
    detail :=
      if x = subj.subject then
        if subj.detail.isEmpty then ByteString.ofText "invalidated by operator" else subj.detail
      else ByteString.ofText ("invalidated because it transitively depends on " ++ subj.subject.toText) }

open Classical in
noncomputable def replay (l : ProvenanceLedger) (x : StateId) (st : Option RecordStatus) :
    Effect → Option RecordStatus
  | .published d => if d.subjectId = x then some d.recordStatus else st
  | .invalidated subj =>
    if Relation.ReflTransGen l.Derived subj.subject x then st.map (subj.statusOf x) else st

lemma invalidatedStatus_eq {g : ProvenanceGraph} (h : g.WellFormed) (subj : InvalidatingSubject) {x : StateId}
    (hx : x ∈ (propagateInvalidation g [subj]).affected) (st : RecordStatus) :
    ProvenanceStore.invalidatedStatus subj (propagateInvalidation g [subj]) x st = subj.statusOf x st := by
  have hreason := ProvenanceStore.invalidatedStatus_reason h subj hx st
  obtain ⟨done, m, depth, s, hp⟩ := exists_propagated h [subj]
  obtain ⟨q, hq, horigin⟩ := hp.exists_root hx
  obtain rfl : q = subj := by
    obtain ⟨before, after, he, -⟩ := hq
    exact (List.mem_singleton.mp (he ▸ List.mem_append_right before List.mem_cons_self))
  have hroot : (propagateInvalidation g [q]).rootOf.getD x x = q.subject := by
    rw [ExtTreeMap.getD_eq_getD_getElem?, horigin, Option.getD_some]
  refine RecordStatus.ext rfl hreason rfl ?_
  simp only [ProvenanceStore.invalidatedStatus, InvalidatingSubject.statusOf, hroot]

lemma foldl_replay_record {l : ProvenanceLedger} {k x : StateId} (d : RecordData) {P : Set StateId} {m : Prop}
    (hl : l.Coherent) (hk : l.entry k = none) (hP : ∀ p ∈ P, (l.entry p).isSome) (hx : x ≠ k)
    (effects : List Effect) (st : Option RecordStatus) :
    effects.foldl (replay (l.add k d P m) x) st = effects.foldl (replay l x) st := by
  have hreach : ∀ r, Relation.ReflTransGen (l.add k d P m).Derived r x ↔ Relation.ReflTransGen l.Derived r x := by
    intro r
    have hbelow := hl.below_add hk hP d m (S := {r}) hx
    simpa [below] using hbelow
  have hreplay : replay (l.add k d P m) x = replay l x := by
    funext st e
    cases e with
    | published d => rfl
    | invalidated subj =>
      rw [replay, replay]
      by_cases hr : Relation.ReflTransGen l.Derived subj.subject x
      · rw [if_pos ((hreach _).mpr hr), if_pos hr]
      · rw [if_neg (mt (hreach _).mp hr), if_neg hr]
  rw [hreplay]

structure Tracked (t : JournaledSession) (u : LedgerSession) : Prop where
  simulates : Simulates t.session u
  status : ∀ x, t.session.store.status[x]? = t.journal.effects.foldl (replay u.ledger x) none
  saved : ∀ snap, t.session.saved = some snap → ∀ l, u.saved = some l →
    ∀ x, snap.status[x]? = t.journal.saved.foldl (replay l x) none

namespace Tracked

variable {t : JournaledSession} {u : LedgerSession} (h : Tracked t u)

include h

lemma published {d : RecordData} {r : Except GraphError PublishOutcome × ProvenanceStore}
    (hr : t.session.store.PublishStep d r) {fence : Bool}
    (hacc : reportsOk r.1 = true ↔ fence = true ∧ u.ledger.Admits d) :
    Tracked ⟨{ t.session with store := r.2 },
        t.journal.add (reportsOk r.1) (.published d)⟩ (u.step (.record d fence)) := by
  have hsim := (h.simulates.record hr hacc).2
  cases hr with
  | rejected error =>
    have hstep : u.step (.record d fence) = u := if_neg (mt hacc.mpr Bool.false_ne_true)
    rw [hstep]
    exact ⟨h.simulates, h.status, h.saved⟩
  | accepted g hv hi hg =>
    obtain ⟨hfence, hd⟩ := hacc.mp rfl
    have hstep : u.step (.record d fence) = { u with ledger := u.ledger.record d } := if_pos ⟨hfence, hd⟩
    rw [hstep] at hsim ⊢
    refine ⟨hsim, fun x => ?_, h.saved⟩
    have hcommit : (t.session.store.commit d g).status[x]? =
        if d.subjectId = x then some d.recordStatus else t.session.store.status[x]? :=
      ProvenanceStore.getElem?_commit_status ..
    refine hcommit.trans ?_
    simp only [reportsOk, Journal.add, if_true, List.foldl_append, List.foldl_cons, List.foldl_nil, replay]
    by_cases hx : d.subjectId = x
    · rw [if_pos hx, if_pos hx]
    · rw [if_neg hx, if_neg hx, h.status x]
      exact (foldl_replay_record d h.simulates.store.coherent hd.newSubject
        (h.simulates.store.sources_recorded hd) (Ne.symm hx) _ _).symm

lemma invalidated {subj : InvalidatingSubject} (hs : subj.subject ∈ t.session.store.records) :
    Tracked ⟨{ t.session with store := (t.session.store.invalidate subj).2 },
        { t.journal with effects := t.journal.effects ++ [.invalidated subj] }⟩
      (u.step (.revoke subj.subject)) := by
  have hstore := h.simulates.store
  have hstep : u.step (.revoke subj.subject) = { u with ledger := u.ledger.mark subj.subject } :=
    if_pos ((hstore.entry_isSome _).mpr hs)
  have hsim := (h.simulates.revoke subj).2
  rw [hstep] at hsim ⊢
  refine ⟨hsim, fun x => ?_, h.saved⟩
  have haffected : x ∈ (propagateInvalidation t.session.store.graph [subj]).affected ↔
      Relation.ReflTransGen (Ledger.mark u.ledger subj.subject).Derived subj.subject x :=
    (hstore.live.toCore.mem_affected_iff x).trans (hstore.atOrBelow_iff _ x)
  have hprevious : t.journal.effects.foldl (replay (u.ledger.mark subj.subject) x) none =
      t.session.store.status[x]? := (h.status x).symm
  rw [hstore.live.toCore.getElem?_invalidate_status hs]
  simp only [List.foldl_append, List.foldl_cons, List.foldl_nil]
  rw [hprevious, replay]
  by_cases hx : x ∈ (propagateInvalidation t.session.store.graph [subj]).affected
  · rw [if_pos hx, if_pos (haffected.mp hx), invalidatedStatus_eq hstore.live.graph subj hx]
    have hrecorded : (u.ledger.entry x).isSome :=
      hstore.coherent.isSome_of_reaches ((hstore.entry_isSome _).mpr hs) (haffected.mp hx)
    have hlisted := (hstore.live.status x).mpr ((hstore.entry_isSome x).mp hrecorded)
    rw [ExtTreeMap.getElem?_eq_some_getD hlisted, Option.map_some]
  · rw [if_neg hx, if_neg (mt haffected.mpr hx)]

lemma recovered : Tracked (t.step .recover) (u.step .recover) := by
  cases hsaved : t.session.saved with
  | none =>
    have hstep : t.step .recover = t := by
      simp [JournaledSession.step, Session.step, Journal.note, Session.answer, hsaved]
    have hustep : u.step .recover = u := by simp [LedgerSession.step, h.simulates.unsaved hsaved]
    rw [hstep, hustep]
    exact h
  | some snap =>
    obtain ⟨s, l, rfl, hu, hs⟩ := h.simulates.saved snap hsaved
    have hustep : u.step .recover = { u with ledger := l } := by simp [LedgerSession.step, hu]
    obtain ⟨r, hrun, hr, -⟩ := ProvenanceStore.restore_snapshot hs.live.toCore t.session.store
    have hstep : t.step .recover = ⟨{ t.session with store := r }, { t.journal with effects := t.journal.saved }⟩ := by
      simp [JournaledSession.step, Session.step, Journal.note, Session.answer, hsaved, hrun, Except.isOk,
        Except.toBool]
    have hsim := h.simulates.recover.2
    rw [show t.session.step .recover = (t.step .recover).session from rfl, hstep, hustep] at hsim
    rw [hstep, hustep]
    refine ⟨hsim, fun x => ?_, h.saved⟩
    rw [← h.saved _ hsaved l hu x, ← hr.status]

lemma step (e : SessionEvent) : Tracked (t.step e) (u.step (t.session.asLedgerEvent e)) := by
  have hcore := h.simulates.store.live.toCore
  cases e with
  | publish d =>
    exact h.published (ProvenanceStore.publish_step hcore d)
      (by rw [h.simulates.store.reportsOk_publish, eq_self, true_and])
  | publishFenced d c =>
    refine h.published (ProvenanceStore.publishFenced_step hcore d c) ?_
    rw [Represents.reportsOk_publishFenced, h.simulates.store.reportsOk_publish]
  | invalidate subj =>
    by_cases hs : subj.subject ∈ t.session.store.records
    · have hok : t.session.answer (.invalidate subj) = true := by
        rw [Session.answer, ProvenanceStore.invalidate_known hs]
      have hstep := h.invalidated hs
      rw [JournaledSession.step, Journal.note, hok]
      exact hstep
    · obtain ⟨hno, hsame⟩ := ProvenanceStore.invalidate_unknown hs
      have hustep : u.step (.revoke subj.subject) = u :=
        if_neg (mt (h.simulates.store.entry_isSome subj.subject).mp hs)
      rw [JournaledSession.step, Journal.note, Session.answer, hno, Session.step, hsame, Session.asLedgerEvent,
        hustep]
      exact h
  | authority op => exact ⟨(h.simulates.step (.authority op)).2, h.status, h.saved⟩
  | save =>
    refine ⟨(h.simulates.step .save).2, h.status, fun snap hsnap l hl x => ?_⟩
    obtain rfl := Option.some.inj hsnap
    obtain rfl := Option.some.inj hl
    exact h.status x
  | recover => exact h.recovered

end Tracked

lemma tracked_run {t : JournaledSession} {u : LedgerSession} (h : Tracked t u) (es : List SessionEvent) :
    Tracked (run JournaledSession.step t es) (run LedgerSession.step u (t.session.ledgerEvents es)) ∧
      (run JournaledSession.step t es).session = run Session.step t.session es := by
  induction es generalizing t u with
  | nil => exact ⟨h, rfl⟩
  | cons e es ih => exact ih (h.step e)

theorem status_of_journal (es : List SessionEvent) (x : StateId) :
    (storeAfter es).status[x]? = (journalAfter es).foldl (replay (ledgerAfter es) x) none := by
  have hempty : Tracked {} {} := ⟨simulates_empty, fun x => ExtTreeMap.getElem?_empty, nofun⟩
  obtain ⟨htracked, hsession⟩ := tracked_run hempty es
  have hstatus := htracked.status x
  rw [hsession] at hstatus
  exact hstatus

end StateProvenance
