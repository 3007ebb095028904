import StateProvenance.Sessions

/-! A publication and an invalidation that race: whichever the store takes first, no later call can tell. -/

namespace StateProvenance

open Std Library.OrderedMap Library.Lineage Library.Runs

namespace ProvenanceStore

lemma workers_reinsert {l : List ProvenanceRecord} (hl : ∀ rec ∈ l, validateRecord rec.d = none)
    {s t : ProvenanceStore} (h : s.Core) (hrun : reinsert l s = (.ok (), t)) (w : WorkerId) :
    w ∈ t.workers ↔ w ∈ s.workers ∨
      w.valid = true ∧ ∃ x rec, t.find x = some rec ∧ s.find x = none ∧ rec.d.workerId = w := by
  induction l generalizing s with
  | nil =>
    obtain rfl : s = t := congrArg Prod.snd hrun
    refine ⟨Or.inl, ?_⟩
    rintro (hw | ⟨-, x, rec, hx, hnone, -⟩)
    · exact hw
    · rw [hx] at hnone
      contradiction
  | cons rec l ih =>
    have hrest := fun r hr => hl r (List.mem_cons_of_mem _ hr)
    have hstep := insertValidated_step h (hl rec List.mem_cons_self)
    have hcore := hstep.core h
    rw [reinsert] at hrun
    generalize s.insertValidated rec.d = r at hstep hcore hrun
    cases hstep with
    | rejected error => exact ih hrest h hrun
    | accepted g hv hi hg =>
      obtain ⟨t', hrun', ht⟩ := reinsert_spec hrest hcore
      obtain rfl : t = t' := congrArg Prod.snd (hrun.symm.trans hrun')
      have hkept : t.find rec.d.subjectId = some rec :=
        ht.old _ _ (by rw [getElem?_commit_records, if_pos rfl])
      have hnew : s.find rec.d.subjectId = none := ExtTreeMap.getElem?_eq_none hi.newSubject
      rw [ih hrest hcore hrun, mem_commit_workers]
      simp only [find, getElem?_commit_records] at hkept hnew ⊢
      constructor
      · rintro ((⟨hw, rfl⟩ | hw) | ⟨hw, x, r, hx, hnone, rfl⟩)
        · exact Or.inr ⟨hw, _, rec, hkept, hnew, rfl⟩
        · exact Or.inl hw
        · split at hnone
          · contradiction
          · exact Or.inr ⟨hw, x, r, hx, hnone, rfl⟩
      · rintro (hw | ⟨hw, x, r, hx, hnone, rfl⟩)
        · exact Or.inl (Or.inr hw)
        · by_cases he : rec.d.subjectId = x
          · subst he
            obtain rfl : rec = r := Option.some.inj (hkept.symm.trans hx)
            exact Or.inl (Or.inl ⟨hw, rfl⟩)
          · exact Or.inr ⟨hw, x, r, hx, by rw [if_neg he]; exact hnone, rfl⟩

lemma mem_restore_workers {s : ProvenanceStore} (h : s.Core) (t : ProvenanceStore) (w : WorkerId) :
    w ∈ (t.restore s.snapshot).2.workers ↔ w ∈ rebuildWorkers s.authoritySnapshot ∨
      w.valid = true ∧ ∃ x rec, s.find x = some rec ∧ rec.d.workerId = w := by
  have hl := loadable_snapshot h
  have ho := orderable_snapshot h
  have hvalid : ∀ rec ∈ recordsInTopoOrder s.snapshot, validateRecord rec.d = none :=
    fun rec hr => hl.valid rec ((recordsInTopoOrder_order hl.distinct ho).perm.mem_iff.mp hr)
  obtain ⟨u, hrun, hrestore⟩ := t.restore_accepted hl ho
  obtain ⟨r, hrestored, -, hrecords⟩ := restore_snapshot h t
  obtain rfl : u.overlay s.snapshot.status = r := congrArg Prod.snd (hrestore.symm.trans hrestored)
  have hfind : ∀ x, u.find x = s.find x := by
    intro x
    have hu : u.records = s.records := hrecords
    rw [find, find, hu]
  have hempty : ∀ x, (t.cleared s.snapshot).find x = none := fun x => ExtTreeMap.getElem?_empty
  rw [hrestored]
  refine (workers_reinsert hvalid (t.core_cleared s.snapshot) hrun w).trans ?_
  simp only [hfind, hempty, true_and]
  rfl

end ProvenanceStore

namespace ProvenanceStore

lemma PublishStep.authority {s : ProvenanceStore} {d : RecordData}
    {r : Except GraphError PublishOutcome × ProvenanceStore} (hr : s.PublishStep d r) :
    r.2.authority = s.authority := by
  cases hr <;> rfl

lemma PublishStep.workers {s : ProvenanceStore} {d : RecordData}
    {r : Except GraphError PublishOutcome × ProvenanceStore} (hr : s.PublishStep d r) :
    r.2.workers =
      if reportsOk r.1 = true ∧ d.workerId.valid = true then s.workers.insert d.workerId else s.workers := by
  cases hr with
  | rejected error => rfl
  | accepted g hv hi hg =>
    simp only [reportsOk, true_and]
    rfl

lemma restore_authority {s : ProvenanceStore} (h : s.Core) (t : ProvenanceStore) :
    (t.restore s.snapshot).2.authority = rebuildAuthority s.authoritySnapshot := by
  obtain ⟨r, hrun, hr, -⟩ := restore_snapshot h t
  rw [hrun]
  exact hr.authority

end ProvenanceStore

lemma Represents.find_eq {s s' : ProvenanceStore} {l : ProvenanceLedger} (h : Represents s l)
    (h' : Represents s' l) (x : StateId) : s.find x = s'.find x := by
  refine Option.ext fun rec => ?_
  exact (h.entry_eq_some x rec.d).symm.trans (h'.entry_eq_some x rec.d)

structure Alike (t t' : Session) : Prop where
  agrees : ∃ u, Simulates t u ∧ Simulates t' u
  authority : t.store.authority = t'.store.authority
  workers : t.store.workers = t'.store.workers
  saved : t.saved.map StoreSnapshot.authority = t'.saved.map StoreSnapshot.authority

namespace Alike

variable {t t' : Session} (h : Alike t t')

include h

lemma authoritySnapshot : t.store.authoritySnapshot = t'.store.authoritySnapshot := by
  rw [ProvenanceStore.authoritySnapshot, ProvenanceStore.authoritySnapshot, h.authority, h.workers]

lemma asLedgerEvent (e : SessionEvent) : t.asLedgerEvent e = t'.asLedgerEvent e := by
  cases e with
  | publishFenced data claim =>
    rw [Session.asLedgerEvent, Session.asLedgerEvent, ProvenanceStore.evaluateClaim,
      ProvenanceStore.evaluateClaim, h.authority]
  | publish | invalidate | authority | save | recover => rfl

lemma answer (e : SessionEvent) : t.answer e = t'.answer e := by
  obtain ⟨u, hu, hu'⟩ := h.agrees
  rw [(hu.step e).1, (hu'.step e).1, h.asLedgerEvent]

lemma published {d : RecordData} {r r' : Except GraphError PublishOutcome × ProvenanceStore}
    (hr : t.store.PublishStep d r) (hr' : t'.store.PublishStep d r') (hok : reportsOk r.1 = reportsOk r'.1) :
    r.2.authority = r'.2.authority ∧ r.2.workers = r'.2.workers := by
  rw [hr.authority, hr'.authority, hr.workers, hr'.workers, hok, h.authority, h.workers]
  exact ⟨rfl, rfl⟩

lemma step (e : SessionEvent) : Alike (t.step e) (t'.step e) := by
  obtain ⟨u, hu, hu'⟩ := h.agrees
  have hsim : ∃ v, Simulates (t.step e) v ∧ Simulates (t'.step e) v :=
    ⟨_, (hu.step e).2, by rw [h.asLedgerEvent]; exact (hu'.step e).2⟩
  have hanswer := h.answer e
  have hcore := hu.store.live.toCore
  have hcore' := hu'.store.live.toCore
  cases e with
  | publish d =>
    obtain ⟨hauthority, hworkers⟩ := h.published (ProvenanceStore.publish_step hcore d)
      (ProvenanceStore.publish_step hcore' d) hanswer
    exact ⟨hsim, hauthority, hworkers, h.saved⟩
  | publishFenced d c =>
    obtain ⟨hauthority, hworkers⟩ := h.published (ProvenanceStore.publishFenced_step hcore d c)
      (ProvenanceStore.publishFenced_step hcore' d c) hanswer
    exact ⟨hsim, hauthority, hworkers, h.saved⟩
  | invalidate subj =>
    obtain ⟨status, byValidity, he⟩ := t.store.invalidate_frame subj
    obtain ⟨status', byValidity', he'⟩ := t'.store.invalidate_frame subj
    refine ⟨hsim, ?_, ?_, h.saved⟩
    · simp only [Session.step, he, he']
      exact h.authority
    · simp only [Session.step, he, he']
      exact h.workers
  | authority op =>
    refine ⟨hsim, ?_, h.workers, h.saved⟩
    simp only [Session.step, ProvenanceStore.applyAuthority, h.authority]
  | save => exact ⟨hsim, h.authority, h.workers, congrArg some h.authoritySnapshot⟩
  | recover =>
    have hsaved := h.saved
    cases hs : t.saved with
    | none =>
      have hs' : t'.saved = none := by simpa [hs, eq_comm] using hsaved
      have hstep : t.step .recover = t := by simp [Session.step, hs]
      have hstep' : t'.step .recover = t' := by simp [Session.step, hs']
      rw [hstep, hstep']
      exact h
    | some snap =>
      rw [hs, Option.map_some] at hsaved
      obtain ⟨snap', hs', hboots⟩ := Option.map_eq_some_iff.mp hsaved.symm
      obtain ⟨s, l, rfl, hl, hrep⟩ := hu.saved snap hs
      obtain ⟨s', l', rfl, hl', hrep'⟩ := hu'.saved snap' hs'
      obtain rfl := Option.some.inj (hl.symm.trans hl')
      have hstep : (t.step .recover).store = (t.store.restore s.snapshot).2 := by simp [Session.step, hs]
      have hstep' : (t'.step .recover).store = (t'.store.restore s'.snapshot).2 := by simp [Session.step, hs']
      refine ⟨hsim, ?_, ?_, ?_⟩
      · rw [hstep, hstep', ProvenanceStore.restore_authority hrep.live.toCore,
          ProvenanceStore.restore_authority hrep'.live.toCore]
        exact congrArg rebuildAuthority hboots.symm
      · have hfind := Represents.find_eq hrep hrep'
        have hsnapshot : s.authoritySnapshot = s'.authoritySnapshot := hboots.symm
        rw [hstep, hstep']
        apply set_ext
        intro w
        rw [ProvenanceStore.mem_restore_workers hrep.live.toCore,
          ProvenanceStore.mem_restore_workers hrep'.live.toCore, hsnapshot]
        simp only [hfind]
      · simpa [Session.step, hs, hs'] using hboots.symm

lemma run (es : List SessionEvent) : t.answers es = t'.answers es ∧
    Alike (run Session.step t es) (run Session.step t' es) := by
  induction es generalizing t t' with
  | nil => exact ⟨rfl, h⟩
  | cons e es ih =>
    obtain ⟨hanswers, hrun⟩ := ih (h.step e)
    refine ⟨?_, hrun⟩
    have hcons : ∀ t : Session, t.answers (e :: es) = t.answer e :: (t.step e).answers es := fun _ => rfl
    rw [hcons, hcons, h.answer, hanswers]

lemma find (x : StateId) : t.store.find x = t'.store.find x := by
  obtain ⟨u, hu, hu'⟩ := h.agrees
  exact Represents.find_eq hu.store hu'.store x

lemma verdict {x : StateId} (hx : ∀ rec, t.store.find x = some rec →
    rec.d.validity ≠ .named .stale ∧ rec.d.validity ≠ .named .unknown) (req : ReuseRequest) :
    (t.store.checkReuse x req).eligibility = (t'.store.checkReuse x req).eligibility := by
  obtain ⟨u, hu, hu'⟩ := h.agrees
  have hpublished : ∀ d, u.ledger.entry x = some d →
      d.validity ≠ .named .stale ∧ d.validity ≠ .named .unknown := by
    intro d hd
    exact hx ⟨d⟩ ((hu.store.entry_eq_some x d).mp hd)
  have hverdict : ∀ {s : ProvenanceStore}, Represents s u.ledger →
      (s.checkReuse x req).eligibility = u.ledger.verdict x req := by
    intro s hs
    refine (hs.checkReuse_verdict x req).resolve_right ?_
    rintro ⟨-, d, hd, ⟨hv, -⟩ | ⟨hv, -⟩⟩
    · exact (hpublished d hd).1 hv
    · exact (hpublished d hd).2 hv
  rw [hverdict hu.store, hverdict hu'.store]

end Alike

lemma admits_mark (l : ProvenanceLedger) (r : StateId) (d : RecordData) :
    ProvenanceLedger.Admits (l.mark r) d ↔ l.Admits d := by
  constructor <;> exact fun h => ⟨h.valid, h.newSubject, h.newProvenance, h.inputs, h.parents⟩

namespace LedgerSession

variable (u : LedgerSession) {r : StateId} (hr : (u.ledger.entry r).isSome) (d : RecordData) (fence : Bool)

include hr

lemma step_swap : (u.step (.record d fence)).step (.revoke r) = (u.step (.revoke r)).step (.record d fence) := by
  have hrevoke : u.step (.revoke r) = { u with ledger := u.ledger.mark r } := if_pos hr
  by_cases ha : fence = true ∧ u.ledger.Admits d
  · have hafter : fence = true ∧ ProvenanceLedger.Admits (u.ledger.mark r) d :=
      ⟨ha.1, (admits_mark _ r d).mpr ha.2⟩
    have hrecord : u.step (.record d fence) = { u with ledger := u.ledger.record d } := if_pos ha
    have hsome : ((u.ledger.record d).entry r).isSome := by
      by_cases he : r = d.subjectId
      · simp [ProvenanceLedger.record, Ledger.add, he]
      · simpa [ProvenanceLedger.record, Ledger.add, he] using hr
    rw [hrecord, hrevoke]
    refine (if_pos hsome).trans (Eq.trans ?_ (if_pos hafter).symm)
    exact congrArg (LedgerSession.mk · u.saved) (Ledger.mark_add u.ledger d (u.ledger.sources d) _)
  · have hrecord : u.step (.record d fence) = u := if_neg ha
    rw [hrecord, hrevoke]
    exact (if_neg fun h => ha ⟨h.1, (admits_mark _ r d).mp h.2⟩).symm

lemma answer_record_after_revoke : (u.step (.revoke r)).answer (.record d fence) = u.answer (.record d fence) := by
  have hrevoke : u.step (.revoke r) = { u with ledger := u.ledger.mark r } := if_pos hr
  rw [hrevoke]
  exact decide_eq_decide.mpr (and_congr_right' (admits_mark u.ledger r d))

lemma answer_revoke_after_record : (u.step (.record d fence)).answer (.revoke r) = u.answer (.revoke r) := by
  rw [answer, answer, hr]
  rw [step]
  split
  · by_cases he : r = d.subjectId
    · simp [ProvenanceLedger.record, Ledger.add, he]
    · simpa [ProvenanceLedger.record, Ledger.add, he] using hr
  · exact hr

end LedgerSession

def publication (d : RecordData) : Option AuthorityClaim → SessionEvent
  | none => .publish d
  | some c => .publishFenced d c

lemma asLedgerEvent_publication (t : Session) (d : RecordData) (c : Option AuthorityClaim) :
    ∃ fence, t.asLedgerEvent (publication d c) = .record d fence ∧
      ∀ t' : Session, t'.store.authority = t.store.authority →
        t'.asLedgerEvent (publication d c) = .record d fence := by
  cases c with
  | none => exact ⟨true, rfl, fun _ _ => rfl⟩
  | some c =>
    refine ⟨_, rfl, fun t' ht => ?_⟩
    rw [publication, Session.asLedgerEvent, ProvenanceStore.evaluateClaim, ProvenanceStore.evaluateClaim, ht]

lemma step_publication {t : Session} (h : t.store.Core) (d : RecordData) (c : Option AuthorityClaim) :
    (t.step (publication d c)).store.authority = t.store.authority ∧
      (t.step (publication d c)).store.workers =
        (if t.answer (publication d c) = true ∧ d.workerId.valid = true then t.store.workers.insert d.workerId
          else t.store.workers) ∧
      (t.step (publication d c)).saved = t.saved := by
  cases c with
  | none =>
    have hstep := ProvenanceStore.publish_step h d
    exact ⟨hstep.authority, hstep.workers, rfl⟩
  | some c =>
    have hstep := ProvenanceStore.publishFenced_step h d c
    exact ⟨hstep.authority, hstep.workers, rfl⟩

lemma step_invalidate (t : Session) (subj : InvalidatingSubject) :
    (t.step (.invalidate subj)).store.authority = t.store.authority ∧
      (t.step (.invalidate subj)).store.workers = t.store.workers ∧
      (t.step (.invalidate subj)).saved = t.saved := by
  obtain ⟨status, byValidity, he⟩ := t.store.invalidate_frame subj
  refine ⟨?_, ?_, rfl⟩ <;> simp only [Session.step, he] <;> rfl

lemma Simulates.race {t : Session} {u : LedgerSession} (h : Simulates t u) {subj : InvalidatingSubject}
    (hs : subj.subject ∈ t.store.records) (d : RecordData) (c : Option AuthorityClaim) :
    (t.step (.invalidate subj)).answer (publication d c) = t.answer (publication d c) ∧
      (t.step (publication d c)).answer (.invalidate subj) = t.answer (.invalidate subj) ∧
      Alike ((t.step (publication d c)).step (.invalidate subj))
        ((t.step (.invalidate subj)).step (publication d c)) := by
  have hr := (h.store.entry_isSome subj.subject).mpr hs
  obtain ⟨fence, hevent, hevent'⟩ := asLedgerEvent_publication t d c
  have hlater := hevent' _ (step_invalidate t subj).1
  have hpublished := h.step (publication d c)
  have hinvalidated := h.step (.invalidate subj)
  have hpublished' := hinvalidated.2.step (publication d c)
  have hinvalidated' := hpublished.2.step (.invalidate subj)
  have hrevoke : ∀ t : Session, t.asLedgerEvent (.invalidate subj) = .revoke subj.subject := fun _ => rfl
  rw [hevent] at hpublished hinvalidated'
  rw [hrevoke] at hinvalidated hinvalidated' hpublished'
  rw [hlater] at hpublished'
  have hanswer : (t.step (.invalidate subj)).answer (publication d c) = t.answer (publication d c) := by
    rw [hpublished'.1, hpublished.1, u.answer_record_after_revoke hr]
  refine ⟨hanswer, ?_, ⟨_, hinvalidated'.2, ?_⟩, ?_, ?_, ?_⟩
  · rw [hinvalidated'.1, hinvalidated.1, u.answer_revoke_after_record hr]
  · rw [u.step_swap hr]
    exact hpublished'.2
  · rw [(step_invalidate _ subj).1, (step_publication h.store.live.toCore d c).1,
      (step_publication hinvalidated.2.store.live.toCore d c).1, (step_invalidate _ subj).1]
  · rw [(step_invalidate _ subj).2.1, (step_publication h.store.live.toCore d c).2.1,
      (step_publication hinvalidated.2.store.live.toCore d c).2.1, hanswer, (step_invalidate _ subj).2.1]
  · rw [(step_invalidate _ subj).2.2, (step_publication h.store.live.toCore d c).2.2,
      (step_publication hinvalidated.2.store.live.toCore d c).2.2, (step_invalidate _ subj).2.2]

theorem race_not_told_apart {es : List SessionEvent} {subj : InvalidatingSubject}
    (hs : subj.subject ∈ (storeAfter es).records) (d : RecordData) (c : Option AuthorityClaim)
    (after : List SessionEvent) :
    let first := run Session.step {} (es ++ [publication d c, .invalidate subj])
    let second := run Session.step {} (es ++ [.invalidate subj, publication d c])
    first.answers after = second.answers after ∧
      (∀ x, (run Session.step first after).store.find x = (run Session.step second after).store.find x) ∧
      ∀ x, (∀ rec, (run Session.step first after).store.find x = some rec →
          rec.d.validity ≠ .named .stale ∧ rec.d.validity ≠ .named .unknown) →
        ∀ req, ((run Session.step first after).store.checkReuse x req).eligibility =
          ((run Session.step second after).store.checkReuse x req).eligibility := by
  intro first second
  have halike : Alike first second := by
    rw [show first = _ from run_append es _, show second = _ from run_append es _]
    exact ((simulates_empty.run es).2.race hs d c).2.2
  obtain ⟨hanswers, hrun⟩ := halike.run after
  exact ⟨hanswers, hrun.find, fun x hx => hrun.verdict hx⟩

theorem child_of_invalidated_root :
    ((run Session.step {} [.publish (.produced 1), .publish (.derivedFrom 2 1),
        .invalidate { subject := ⟨1⟩ }]).store.checkReuse ⟨2⟩ {}).eligibility =
      ((run Session.step {} [.publish (.produced 1), .invalidate { subject := ⟨1⟩ },
        .publish (.derivedFrom 2 1)]).store.checkReuse ⟨2⟩ {}).eligibility := by
  let subj : InvalidatingSubject := { subject := ⟨1⟩ }
  have hs : subj.subject ∈ (storeAfter [.publish (.produced 1)]).records := by decide
  refine (race_not_told_apart hs (.derivedFrom 2 1) none []).2.2 ⟨2⟩ ?_ {}
  have hvalid : ((storeAfter [.publish (.produced 1), .publish (.derivedFrom 2 1),
      .invalidate { subject := ⟨1⟩ }]).find ⟨2⟩).all (fun rec => rec.d.validity = .named .valid) = true := by
    decide
  intro rec hrec
  change (storeAfter [.publish (.produced 1), .publish (.derivedFrom 2 1),
    .invalidate { subject := ⟨1⟩ }]).find ⟨2⟩ = some rec at hrec
  rw [hrec, Option.all_some, decide_eq_true_iff] at hvalid
  simp [hvalid]

end StateProvenance
