import StateProvenance.Reuse
import StateProvenance.InvalidationEffect
import StateProvenance.PersistRoundTrip

/-! Invalidation is permanent: no operation lifts it, and no subject derived from an invalidated one,
then or later, is eligible for reuse. -/

namespace StateProvenance

open Std Library.OrderedMap Library

namespace ProvenanceStore

inductive Later (s₀ : ProvenanceStore) : ProvenanceStore → Prop
  | here : Later s₀ s₀
  | publish {s : ProvenanceStore} (h : Later s₀ s) (data : RecordData) : Later s₀ (s.publish data).2
  | publishFenced {s : ProvenanceStore} (h : Later s₀ s) (data : RecordData) (claim : AuthorityClaim) :
      Later s₀ (s.publishFenced data claim).2
  | invalidate {s : ProvenanceStore} (h : Later s₀ s) (subj : InvalidatingSubject) :
      Later s₀ (s.invalidate subj).2
  | applyAuthority {s : ProvenanceStore} (h : Later s₀ s) (op : AuthorityOp) : Later s₀ (s.applyAuthority op)
  | restore {s t : ProvenanceStore} (h : Later s₀ s) (ht : Later s₀ t) : Later s₀ (s.restore t.snapshot).2
  | reload {s t : ProvenanceStore} (h : Later s₀ s) (ht : Later s₀ t) (hb : InBounds t.snapshot)
      {bytes : ByteString} (he : encodeSnapshot t.snapshot = .ok bytes) {snap : StoreSnapshot}
      (hd : decodeSnapshot bytes = .ok snap) : Later s₀ (s.restore snap).2

structure Condemned (r : StateId) (s : ProvenanceStore) : Prop where
  core : s.Core
  stored : r ∈ s.records
  status : ∃ st, s.status[r]? = some st ∧ st.validity = .named .invalidated

variable {r : StateId} {s : ProvenanceStore}

lemma PublishStep.condemned (h : s.Condemned r) {d : RecordData}
    {o : Except GraphError PublishOutcome × ProvenanceStore} (ho : s.PublishStep d o) : o.2.Condemned r := by
  cases ho with
  | rejected error => exact h
  | accepted g hv hi hg =>
    have hne : d.subjectId ≠ r := by
      rintro rfl
      exact hi.newSubject h.stored
    refine ⟨h.core.commit hi hv hg, (mem_commit_records ..).mpr (Or.inr h.stored), ?_⟩
    obtain ⟨st, hst, hinv⟩ := h.status
    refine ⟨st, ?_, hinv⟩
    rw [getElem?_commit_status, if_neg hne]
    exact hst

lemma mem_invalidate_records (s : ProvenanceStore) (subj : InvalidatingSubject) (x : StateId) :
    x ∈ (s.invalidate subj).2.records ↔ x ∈ s.records := by
  obtain ⟨status, byValidity, he⟩ := s.invalidate_frame subj
  rw [he]
  rfl

lemma Condemned.invalidate (h : s.Condemned r) (subj : InvalidatingSubject) :
    (s.invalidate subj).2.Condemned r := by
  refine ⟨h.core.invalidate subj, (mem_invalidate_records ..).mpr h.stored, ?_⟩
  by_cases hs : subj.subject ∈ s.records
  · have hinv := (s.validityOf_eq_iff r (v := .invalidated) (by decide)).mpr h.status
    have hafter := ((h.core.invalidatesBelow hs).invalidated r).mpr (Or.inl hinv)
    exact (validityOf_eq_iff _ r (by decide)).mp hafter
  · rw [(invalidate_unknown hs).2]
    exact h.status

lemma condemned_of_invalidate (hs : s.Core) {subj : InvalidatingSubject}
    (hok : (s.invalidate subj).1.ok = true) : (s.invalidate subj).2.Condemned subj.subject := by
  have hstored : subj.subject ∈ s.records := by
    by_contra hn
    rw [(invalidate_unknown hn).1] at hok
    contradiction
  refine ⟨hs.invalidate subj, (mem_invalidate_records ..).mpr hstored, ?_⟩
  have hafter := ((hs.invalidatesBelow hstored).invalidated subj.subject).mpr (Or.inr (Or.inl rfl))
  exact (validityOf_eq_iff _ _ (by decide)).mp hafter

lemma Condemned.restore {t : ProvenanceStore} (h : t.Condemned r) (s : ProvenanceStore) :
    (s.restore t.snapshot).2.Condemned r := by
  obtain ⟨u, hrun, hu, hrecords⟩ := restore_snapshot h.core s
  rw [hrun]
  refine ⟨hu.core, ?_, ?_⟩
  · rw [hrecords]
    exact h.stored
  · rw [hu.status]
    exact h.status

lemma Later.condemned {s₀ : ProvenanceStore} (h₀ : s₀.Condemned r) (h : Later s₀ s) : s.Condemned r := by
  induction h with
  | here => exact h₀
  | publish _ data ih => exact (publish_step ih.core data).condemned ih
  | publishFenced _ data claim ih => exact (publishFenced_step ih.core data claim).condemned ih
  | invalidate _ subj ih => exact ih.invalidate subj
  | applyAuthority _ op ih => exact ⟨ih.core.applyAuthority op, ih.stored, ih.status⟩
  | @restore s t _ _ _ iht => exact iht.restore s
  | @reload s t _ _ hb bytes he snap hd _ iht =>
    rw [eq_of_decode_encode hb he hd]
    exact iht.restore s

lemma Condemned.not_eligible (h : s.Condemned r) {id : StateId}
    (hid : id = r ∨ Relation.TransGen (fun p c => p ∈ s.parents c) r id) (req : ReuseRequest) :
    (s.checkReuse id req).eligibility ≠ .eligible := by
  obtain ⟨st, hst, hinv⟩ := h.status
  rw [ne_eq, checkReuse_eligible_iff, not_not]
  left
  rcases hid with rfl | hpath
  · exact Or.inl ⟨st, hst, Or.inl hinv⟩
  · exact Or.inr ⟨r, (h.core.mem_ancestors r id).mpr hpath, st, hst, Or.inl hinv⟩

theorem invalidated_not_eligible {s₀ : ProvenanceStore} (h₀ : LoadReachable s₀) {subj : InvalidatingSubject}
    (hok : (s₀.invalidate subj).1.ok = true) {s : ProvenanceStore} (hs : Later (s₀.invalidate subj).2 s)
    {id : StateId} (hid : id = subj.subject ∨
      Relation.TransGen (fun p c => p ∈ s.parents c) subj.subject id) (req : ReuseRequest) :
    (s.checkReuse id req).eligibility ≠ .eligible :=
  (hs.condemned (condemned_of_invalidate h₀.core hok)).not_eligible hid req

theorem derived_after_not_eligible :
    ((((pair (.produced 1)).invalidate { subject := ⟨1⟩ }).2.publish (.derivedFrom 3 2)).2.checkReuse ⟨3⟩
      {}).eligibility ≠ .eligible := by
  have hok : ((pair (.produced 1)).invalidate { subject := ⟨1⟩ }).1.ok = true := by decide
  refine invalidated_not_eligible (reachable_pair (.produced 1)).loadReachable hok (Later.here.publish _)
    (Or.inr ?_) {}
  exact .tail (b := ⟨2⟩) (.single (by decide)) (by decide)

end ProvenanceStore

end StateProvenance
