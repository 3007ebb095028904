import StateProvenance.Reachable

/-! A publish adds its record and leaves everything stored before as it was, or changes nothing. -/

namespace StateProvenance

open Std Library.OrderedMap Library

namespace ProvenanceStore

structure AddsOnly (s : ProvenanceStore) (d : RecordData) (r : ProvenanceStore) : Prop where
  fresh : s.find d.subjectId = none
  added : r.find d.subjectId = some ⟨d⟩
  records : ∀ x, x ≠ d.subjectId → r.find x = s.find x
  status : ∀ x ∈ s.records, r.status[x]? = s.status[x]?
  parents : ∀ x ∈ s.records, r.parents x = s.parents x
  ancestors : ∀ x ∈ s.records, r.ancestors x = s.ancestors x

def AllOrNothing (s : ProvenanceStore) (d : RecordData)
    (res : Except GraphError PublishOutcome × ProvenanceStore) : Prop :=
  ∃ o, res.1 = .ok o ∧ (o.ok = true → o.record = some ⟨d⟩ ∧ s.AddsOnly d res.2) ∧ (o.ok = false → res.2 = s)

structure PublishAtomic (s : ProvenanceStore) : Prop where
  publish : ∀ d, s.AllOrNothing d (s.publish d)
  publishFenced : ∀ d claim, s.AllOrNothing d (s.publishFenced d claim)
  graphAccepts : ∀ d, validateRecord d = none → d.subjectId ∉ s.records → d.provenanceId ∉ s.provToState →
    s.danglingInput d = none → s.danglingParent d = none →
      ∃ g g', s.graph.addNode d.subjectId = (.ok true, g) ∧
        addParents d.subjectId (s.parentSet d).toList g = (.ok (), g')

section Linked

variable {s : ProvenanceStore} {d : RecordData} (hi : s.Insertable d) {g : ProvenanceGraph} (hg : s.Linked d g)

include hi hg

lemma linked_arc_iff {p c : StateId} (hc : c ∈ s.records) : g.Arc p c ↔ s.graph.Arc p c := by
  rw [hg.arcs, or_iff_left]
  rintro ⟨-, rfl⟩
  exact hi.newSubject hc

lemma linked_transGen_iff (h : s.Core) {a x : StateId} (hx : x ∈ s.records) :
    Relation.TransGen g.Arc a x ↔ Relation.TransGen s.graph.Arc a x := by
  constructor
  · intro hpath
    induction hpath with
    | single harc => exact .single ((linked_arc_iff hi hg hx).mp harc)
    | tail _ harc ih =>
      -- An arc into an old subject is old, so it comes from an old subject.
      have hold := (linked_arc_iff hi hg hx).mp harc
      exact .tail (ih ((h.nodes _).mp (h.graph.parent_mem hold))) hold
  · intro hpath
    exact Relation.TransGen.mono (fun p c harc => (hg.arcs p c).mpr (Or.inl harc)) a x hpath

lemma Linked.addsOnly (h : s.Core) : s.AddsOnly d (s.commit d g) where
  fresh := ExtTreeMap.getElem?_eq_none hi.newSubject
  added := by
    rw [find, getElem?_commit_records, if_pos rfl]
  records := by
    intro x hx
    rw [find, getElem?_commit_records, if_neg hx.symm, find]
  status := by
    intro x hx
    have hne : d.subjectId ≠ x := by
      rintro rfl
      exact hi.newSubject hx
    simp only [commit, ExtTreeMap.getElem?_insert, LawfulEqCmp.compare_eq_iff_eq, if_neg hne]
  parents := by
    intro x hx
    refine congrArg ExtTreeSet.toList (set_ext fun p => ?_)
    exact linked_arc_iff hi hg hx
  ancestors := by
    intro x hx
    apply eq_of_ordered (ProvenanceGraph.ordered_walk _ _ _) (ProvenanceGraph.ordered_walk _ _ _)
    intro a
    exact (hg.wellFormed.mem_ancestors a x).trans
      ((linked_transGen_iff hi hg h hx).trans (h.graph.mem_ancestors a x).symm)

end Linked

lemma PublishStep.allOrNothing {s : ProvenanceStore} (h : s.Core) {d : RecordData}
    {res : Except GraphError PublishOutcome × ProvenanceStore} (hres : s.PublishStep d res) :
    s.AllOrNothing d res := by
  cases hres with
  | rejected error => exact ⟨_, rfl, by simp, fun _ => rfl⟩
  | accepted g hv hi hg => exact ⟨_, rfl, fun _ => ⟨rfl, Linked.addsOnly hi hg h⟩, by simp⟩

theorem publish_allOrNothing {s : ProvenanceStore} (h : LoadReachable s) : s.PublishAtomic where
  publish := fun d => (publish_step h.core d).allOrNothing h.core
  publishFenced := fun d claim => (publishFenced_step h.core d claim).allOrNothing h.core
  graphAccepts := by
    intro d hv hs hp hinput hparent
    have hr : s.Resolved d := ⟨(s.danglingInput_eq_none d).mp hinput, (s.danglingParent_eq_none d).mp hparent⟩
    obtain ⟨g, g', hnode, harcs, -⟩ := addParents_accepted h.core hv ⟨hr, hs, hp⟩
    exact ⟨g, g', hnode, harcs⟩

theorem pair_publishAtomic : (pair (.produced 1)).PublishAtomic :=
  publish_allOrNothing (reachable_pair (.produced 1)).loadReachable

end ProvenanceStore

end StateProvenance
