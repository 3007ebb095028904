import StateProvenance.CausalChains
import StateProvenance.Reachable

/-! What an invalidation changes: the overlay of the subject and of its descendants, and nothing else. -/

namespace StateProvenance

open Std Library.OrderedMap Library

namespace ProvenanceStore

lemma invalidatedStatus_reason {g : ProvenanceGraph} (h : g.WellFormed) (subj : InvalidatingSubject)
    {x : StateId} (hx : x ∈ (propagateInvalidation g [subj]).affected)
    (st : RecordStatus) : (invalidatedStatus subj (propagateInvalidation g [subj]) x st).reason = subj.reason := by
  obtain ⟨done, m, depth, s, hp⟩ := exists_propagated h [subj]
  obtain ⟨q, hq, horigin⟩ := hp.exists_root hx
  obtain rfl : q = subj := by
    obtain ⟨before, after, he, -⟩ := hq
    exact (List.mem_singleton.mp (he ▸ List.mem_append_right before List.mem_cons_self))
  have hreason : (propagateInvalidation g [q]).rootReason[q.subject]? = some q.reason := hq.recorded.1
  rw [invalidatedStatus]
  simp only [ExtTreeMap.getD_eq_getD_getElem?, horigin, Option.getD_some, hreason]

lemma getElem?_foldl_invalidateOne (subj : InvalidatingSubject) (res : InvalidationResult)
    {l : List StateId} (hl : l.Nodup) (s : ProvenanceStore) (x : StateId) :
    (l.foldl (invalidateOne subj res) s).status[x]? =
      if x ∈ l then some (invalidatedStatus subj res x (s.status.getD x {})) else s.status[x]? := by
  induction l generalizing s with
  | nil => rfl
  | cons a l ih =>
    obtain ⟨ha, hl⟩ := List.nodup_cons.mp hl
    rw [List.foldl_cons, ih hl, invalidateOne_status, ExtTreeMap.getD_insert, ExtTreeMap.getElem?_insert]
    by_cases hx : a = x
    · subst hx
      simp [ha]
    · simp [hx, Ne.symm hx]

lemma invalidateOne_again {subj : InvalidatingSubject} {res : InvalidationResult} {s : ProvenanceStore}
    {a : StateId} {st : RecordStatus} (ha : s.status[a]? = some (invalidatedStatus subj res a st)) :
    invalidateOne subj res s a = s := by
  have hget : s.status.getD a {} = invalidatedStatus subj res a st := by
    rw [ExtTreeMap.getD_eq_getD_getElem?, ha, Option.getD_some]
  have hsame : s.status.insert a (invalidatedStatus subj res a (invalidatedStatus subj res a st)) = s.status :=
    insert_of_getElem? s.status ha
  have hvalidity : (invalidatedStatus subj res a st).validity = .named .invalidated := rfl
  rw [invalidateOne, hget, hsame]
  simp [hvalidity]

lemma foldl_invalidateOne_again {subj : InvalidatingSubject} {res : InvalidationResult} {l : List StateId}
    {s : ProvenanceStore} (hl : ∀ a ∈ l, ∃ st, s.status[a]? = some (invalidatedStatus subj res a st)) :
    l.foldl (invalidateOne subj res) s = s := by
  induction l with
  | nil => rfl
  | cons a l ih =>
    obtain ⟨⟨st, ha⟩, hl⟩ := List.forall_mem_cons.mp hl
    rw [List.foldl_cons, invalidateOne_again ha]
    exact ih hl

def AtOrBelow (s : ProvenanceStore) (a x : StateId) : Prop :=
  x = a ∨ Relation.TransGen (fun p c => p ∈ s.parents c) a x

structure InvalidatesBelow (s : ProvenanceStore) (subj : InvalidatingSubject) (s' : ProvenanceStore) : Prop where
  invalidated : ∀ x, s'.validityOf x = .named .invalidated ↔
    s.validityOf x = .named .invalidated ∨ s.AtOrBelow subj.subject x
  affected : ∀ x, s.AtOrBelow subj.subject x → ∃ st, s'.status[x]? = some st ∧ st.reason = subj.reason ∧
    st.provenanceGeneration = (s.status.getD x {}).provenanceGeneration
  others : ∀ x, ¬ s.AtOrBelow subj.subject x → s'.status[x]? = s.status[x]?
  records : s'.records = s.records
  provToState : s'.provToState = s.provToState
  graph : s'.graph = s.graph
  authority : s'.authority = s.authority
  workers : s'.workers = s.workers
  runtimeGeneration : s'.runtimeGeneration = s.runtimeGeneration
  indexes : s'.indexes = { s.indexes with byValidity := s'.indexes.byValidity }

lemma invalidate_unknown {s : ProvenanceStore} {subj : InvalidatingSubject} (hs : subj.subject ∉ s.records) :
    (s.invalidate subj).1.ok = false ∧ (s.invalidate subj).2 = s := by
  rw [invalidate, if_pos hs]
  exact ⟨rfl, rfl⟩

lemma invalidate_known {s : ProvenanceStore} {subj : InvalidatingSubject} (hs : subj.subject ∈ s.records) :
    s.invalidate subj = ({ ok := true, result := propagateInvalidation s.graph [subj] },
      (propagateInvalidation s.graph [subj]).affected.foldl
        (invalidateOne subj (propagateInvalidation s.graph [subj])) s) := by
  rw [invalidate, if_neg (not_not.mpr hs)]

section Known

variable {s : ProvenanceStore} (h : s.Core) {subj : InvalidatingSubject} (hs : subj.subject ∈ s.records)

include h

lemma Core.mem_affected_iff (x : StateId) :
    x ∈ (propagateInvalidation s.graph [subj]).affected ↔ s.AtOrBelow subj.subject x := by
  rw [AtOrBelow, s.parents_eq_arc]
  exact mem_affected_single h.graph subj x

include hs

lemma Core.getElem?_invalidate_status (x : StateId) : (s.invalidate subj).2.status[x]? =
    if x ∈ (propagateInvalidation s.graph [subj]).affected then
      some (invalidatedStatus subj (propagateInvalidation s.graph [subj]) x (s.status.getD x {}))
    else s.status[x]? := by
  rw [invalidate_known hs]
  exact getElem?_foldl_invalidateOne subj _ (nodup_affected h.graph [subj]) s x

lemma Core.invalidatesBelow : s.InvalidatesBelow subj (s.invalidate subj).2 := by
  have hstatus := h.getElem?_invalidate_status hs
  have hmem : ∀ x, x ∈ (propagateInvalidation s.graph [subj]).affected ↔ s.AtOrBelow subj.subject x :=
    h.mem_affected_iff
  obtain ⟨status, byValidity, he⟩ := s.invalidate_frame subj
  refine ⟨fun x => ?_, fun x hx => ?_, fun x hx => ?_, ?_, ?_, ?_, ?_, ?_, ?_, ?_⟩
  · rw [validityOf_eq_iff _ _ (by decide), validityOf_eq_iff _ _ (by decide), hstatus]
    split
    · next hx => exact iff_of_true ⟨_, rfl, rfl⟩ (Or.inr ((hmem x).mp hx))
    · next hx => simp [mt (hmem x).mpr hx]
  · rw [hstatus, if_pos ((hmem x).mpr hx)]
    exact ⟨_, rfl, invalidatedStatus_reason h.graph subj ((hmem x).mpr hx) _, rfl⟩
  · rw [hstatus, if_neg (mt (hmem x).mp hx)]
  all_goals rw [he]; rfl

lemma Core.invalidate_again : (s.invalidate subj).2.invalidate subj = s.invalidate subj := by
  have hstatus := h.getElem?_invalidate_status hs
  obtain ⟨status, byValidity, he⟩ := s.invalidate_frame subj
  have hrecords : subj.subject ∈ (s.invalidate subj).2.records := by rw [he]; exact hs
  have hgraph : (s.invalidate subj).2.graph = s.graph := by rw [he]; rfl
  rw [invalidate_known hrecords, hgraph, foldl_invalidateOne_again fun a ha => ?_]
  · rw [invalidate_known hs]
  · exact ⟨_, (hstatus a).trans (if_pos ha)⟩

end Known

theorem invalidate_effect {s : ProvenanceStore} (h : LoadReachable s) (subj : InvalidatingSubject) :
    (subj.subject ∉ s.records → (s.invalidate subj).1.ok = false ∧ (s.invalidate subj).2 = s) ∧
      (subj.subject ∈ s.records →
        (s.invalidate subj).1.ok = true ∧ s.InvalidatesBelow subj (s.invalidate subj).2) ∧
      (s.invalidate subj).2.invalidate subj = s.invalidate subj := by
  refine ⟨invalidate_unknown, fun hs => ⟨?_, h.core.invalidatesBelow hs⟩, ?_⟩
  · rw [invalidate_known hs]
  · by_cases hs : subj.subject ∈ s.records
    · exact h.core.invalidate_again hs
    · rw [(invalidate_unknown hs).2]

def revised : InvalidatingSubject := ⟨⟨1⟩, .named .modelRevisionChange, ByteString.ofText "r2"⟩

theorem root_invalidate_effect :
    (pair (.produced 1)).InvalidatesBelow revised ((pair (.produced 1)).invalidate revised).2 ∧
      ((pair (.produced 1)).invalidate revised).2.invalidate revised = (pair (.produced 1)).invalidate revised ∧
      ((pair (.produced 1)).invalidate revised).2.validityOf ⟨2⟩ = .named .invalidated := by
  obtain ⟨-, heffect, hagain⟩ := invalidate_effect (reachable_pair (.produced 1)).loadReachable revised
  exact ⟨(heffect (by decide)).2, hagain, by decide⟩

end ProvenanceStore

end StateProvenance
