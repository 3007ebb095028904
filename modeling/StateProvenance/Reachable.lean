import StateProvenance.Restore
import Mathlib.Data.Set.Function

/-! The states that the operations of a store reach, and the representation invariant they all keep. -/

namespace StateProvenance

open Std Library.OrderedMap Library

namespace ProvenanceStore

inductive Reachable : ProvenanceStore → Prop
  | empty : Reachable {}
  | publish {s : ProvenanceStore} (h : Reachable s) (data : RecordData) : Reachable (s.publish data).2
  | publishFenced {s : ProvenanceStore} (h : Reachable s) (data : RecordData) (claim : AuthorityClaim) :
      Reachable (s.publishFenced data claim).2
  | invalidate {s : ProvenanceStore} (h : Reachable s) (subj : InvalidatingSubject) :
      Reachable (s.invalidate subj).2
  | applyAuthority {s : ProvenanceStore} (h : Reachable s) (op : AuthorityOp) :
      Reachable (s.applyAuthority op)
  | restore {s t : ProvenanceStore} (h : Reachable s) (ht : Reachable t) :
      Reachable (s.restore t.snapshot).2

lemma live_empty : Live {} where
  toCore := (({} : ProvenanceStore).live_cleared {}).toCore
  status := by simp
  byValidity := by simp

lemma Reachable.live {s : ProvenanceStore} (h : Reachable s) : s.Live := by
  induction h with
  | empty => exact live_empty
  | publish _ data ih => exact (publish_step ih.toCore data).live ih
  | publishFenced _ data claim ih => exact (publishFenced_step ih.toCore data claim).live ih
  | invalidate _ subj ih => exact ih.invalidate subj
  | applyAuthority _ op ih => exact ih.applyAuthority op
  | @restore s t _ _ ih iht => exact restore_snapshot_live iht s

structure Representation (s : ProvenanceStore) : Prop where
  nodes : ∀ x, s.graph.hasNode x = true ↔ x ∈ s.records
  provDomain : ∀ q, q ∈ s.provToState ↔ ∃ x rec, s.find x = some rec ∧ rec.d.provenanceId = q
  provValue : ∀ x rec, s.find x = some rec →
    rec.d.subjectId = x ∧ s.provToState[rec.d.provenanceId]? = some x
  provBijection : Set.BijOn (fun q => s.provToState.getD q {})
    {q | ∃ x rec, s.find x = some rec ∧ rec.d.provenanceId = q} {x | x ∈ s.records}
  arcs : ∀ p c, p ∈ s.parents c ↔ ∃ rec, s.find c = some rec ∧
    (p ∈ rec.d.inputStates ∨
      ∃ q ∈ rec.d.parentProvenance, ∃ r, s.find p = some r ∧ r.d.provenanceId = q)
  mirror : ∀ p c, p ∈ s.parents c ↔ c ∈ s.children p
  acyclic : ∀ x, ¬ Relation.TransGen (fun p c => p ∈ s.parents c) x x
  status : ∀ x, x ∈ s.status ↔ x ∈ s.records

lemma Core.prov_domain {s : ProvenanceStore} (h : s.Core) (q : ProvenanceId) :
    q ∈ s.provToState ↔ ∃ x rec, s.find x = some rec ∧ rec.d.provenanceId = q := by
  rw [ExtTreeMap.mem_iff_isSome_getElem?, Option.isSome_iff_exists]
  exact exists_congr fun x => h.prov q x

lemma Core.prov_bijection {s : ProvenanceStore} (h : s.Core) :
    Set.BijOn (fun q => s.provToState.getD q {})
      {q | ∃ x rec, s.find x = some rec ∧ rec.d.provenanceId = q} {x | x ∈ s.records} := by
  have hval : ∀ {q x} {rec : ProvenanceRecord}, s.find x = some rec → rec.d.provenanceId = q →
      s.provToState.getD q {} = x := by
    intro q x rec hx hq
    rw [ExtTreeMap.getD_eq_getD_getElem?, (h.prov q x).mpr ⟨rec, hx, hq⟩, Option.getD_some]
  refine ⟨?_, ?_, ?_⟩
  · rintro q ⟨x, rec, hx, hq⟩
    have hm := ExtTreeMap.mem_iff_isSome_getElem?.mpr (Option.isSome_iff_exists.mpr ⟨rec, hx⟩)
    simpa only [Set.mem_ofPred_eq, hval hx hq] using hm
  · rintro q ⟨x, rec, hx, rfl⟩ q' ⟨x', rec', hx', rfl⟩ he
    simp only [hval hx rfl, hval hx' rfl] at he
    subst he
    rw [Option.some.inj (hx.symm.trans hx')]
  · intro x hx
    obtain ⟨rec, hrec⟩ := Option.isSome_iff_exists.mp (ExtTreeMap.mem_iff_isSome_getElem?.mp hx)
    exact ⟨rec.d.provenanceId, ⟨x, rec, hrec, rfl⟩, hval hrec rfl⟩

theorem reachable_representation {s : ProvenanceStore} (h : Reachable s) : s.Representation where
  nodes := by
    intro x
    rw [← h.live.nodes]
    simp [ProvenanceGraph.hasNode]
  provDomain := h.live.prov_domain
  provValue := fun x rec hx => ⟨(h.live.keyed x rec hx).1, (h.live.prov _ x).mpr ⟨rec, hx, rfl⟩⟩
  provBijection := h.live.prov_bijection
  arcs := by
    intro p c
    refine (ProvenanceGraph.mem_parents _ p c).trans ((h.live.arcs p c).trans ?_)
    simp only [IsParent, h.live.prov]
    rfl
  mirror := by
    intro p c
    exact (ProvenanceGraph.mem_parents _ p c).trans (h.live.graph.mem_children_iff p c).symm
  acyclic := by
    rw [s.parents_eq_arc]
    exact h.live.graph.acyclic
  status := h.live.status

def pair (root : RecordData) : ProvenanceStore :=
  ((({} : ProvenanceStore).publish root).2.publish (.derivedFrom 2 1)).2

lemma reachable_pair (root : RecordData) : Reachable (pair root) := (Reachable.empty.publish _).publish _

theorem pair_representation :
    (pair (.produced 1)).Representation ∧ (pair (.produced 1)).children ⟨1⟩ = [⟨2⟩] :=
  ⟨reachable_representation ((Reachable.empty.publish _).publish _), by decide⟩

/-! Stores that may also load snapshots from elsewhere, refused ones included. -/

inductive LoadReachable : ProvenanceStore → Prop
  | empty : LoadReachable {}
  | publish {s : ProvenanceStore} (h : LoadReachable s) (data : RecordData) :
      LoadReachable (s.publish data).2
  | publishFenced {s : ProvenanceStore} (h : LoadReachable s) (data : RecordData) (claim : AuthorityClaim) :
      LoadReachable (s.publishFenced data claim).2
  | invalidate {s : ProvenanceStore} (h : LoadReachable s) (subj : InvalidatingSubject) :
      LoadReachable (s.invalidate subj).2
  | applyAuthority {s : ProvenanceStore} (h : LoadReachable s) (op : AuthorityOp) :
      LoadReachable (s.applyAuthority op)
  | restore {s : ProvenanceStore} (h : LoadReachable s) {snap : StoreSnapshot} (hl : Loadable snap) :
      LoadReachable (s.restore snap).2

lemma Reachable.loadReachable {s : ProvenanceStore} (h : Reachable s) : LoadReachable s := by
  induction h with
  | empty => exact .empty
  | publish _ data ih => exact ih.publish data
  | publishFenced _ data claim ih => exact ih.publishFenced data claim
  | invalidate _ subj ih => exact ih.invalidate subj
  | applyAuthority _ op ih => exact ih.applyAuthority op
  | restore _ ht ih => exact ih.restore (loadable_snapshot ht.live.toCore)

lemma core_restore (s : ProvenanceStore) {snap : StoreSnapshot} (hl : Loadable snap) :
    (s.restore snap).2.Core := by
  by_cases ho : Orderable snap.records
  · obtain ⟨r, hrun, hr⟩ := s.restore_restored hl ho
    rw [hrun]
    exact hr.core
  · rw [s.restore_refused hl.distinct ho]
    exact s.core_cleared snap

lemma LoadReachable.core {s : ProvenanceStore} (h : LoadReachable s) : s.Core := by
  induction h with
  | empty => exact live_empty.toCore
  | publish _ data ih => exact (publish_step ih data).core ih
  | publishFenced _ data claim ih => exact (publishFenced_step ih data claim).core ih
  | invalidate _ subj ih => exact ih.invalidate subj
  | applyAuthority _ op ih => exact ih.applyAuthority op
  | @restore s _ snap hl _ => exact s.core_restore hl

end ProvenanceStore

end StateProvenance
