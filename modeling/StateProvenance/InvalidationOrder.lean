import StateProvenance.InvalidationEffect
import StateProvenance.Library.Runs

/-! Invalidations in any order: what a list of calls leaves in the overlay and in its index depends only on
the subjects at or below the named ones. -/

namespace StateProvenance

open Std Library.OrderedMap Library

namespace ProvenanceStore

structure InvalidatedOn (s : ProvenanceStore) (P : StateId → Prop) (t : ProvenanceStore) : Prop where
  records : t.records = s.records
  graph : t.graph = s.graph
  affected : ∀ x, P x → ∃ st, t.status[x]? = some st ∧ st.validity = .named .invalidated
  others : ∀ x, ¬ P x → t.status[x]? = s.status[x]?
  moved : ∀ x, P x → (s.status.getD x {}).validity ≠ .named .invalidated → ∀ v,
    x ∈ t.indexes.byValidity.getD v ∅ ↔ v = .named .invalidated ∨
      x ∈ s.indexes.byValidity.getD v ∅ ∧ v ≠ (s.status.getD x {}).validity
  kept : ∀ x, ¬ P x ∨ (s.status.getD x {}).validity = .named .invalidated → ∀ v,
    x ∈ t.indexes.byValidity.getD v ∅ ↔ x ∈ s.indexes.byValidity.getD v ∅

namespace InvalidatedOn

variable {s t u : ProvenanceStore} {P Q : StateId → Prop}

lemma validity (h : s.InvalidatedOn P t) {x : StateId} (hx : P x) :
    (t.status.getD x {}).validity = .named .invalidated := by
  obtain ⟨st, hst, hv⟩ := h.affected x hx
  rw [ExtTreeMap.getD_eq_getD_getElem?, hst, Option.getD_some, hv]

lemma status_getD (h : s.InvalidatedOn P t) {x : StateId} (hx : ¬ P x) :
    t.status.getD x {} = s.status.getD x {} := by
  rw [ExtTreeMap.getD_eq_getD_getElem?, h.others x hx, ExtTreeMap.getD_eq_getD_getElem?]

lemma congr (h : s.InvalidatedOn P t) (hPQ : ∀ x, P x ↔ Q x) : s.InvalidatedOn Q t := by
  obtain rfl : P = Q := funext fun x => propext (hPQ x)
  exact h

lemma refl (s : ProvenanceStore) (hP : ∀ x, ¬ P x) : s.InvalidatedOn P s where
  records := rfl
  graph := rfl
  affected := fun x hx => absurd hx (hP x)
  others := fun _ _ => rfl
  moved := fun x hx => absurd hx (hP x)
  kept := fun _ _ _ => Iff.rfl

lemma trans (h : s.InvalidatedOn P t) (h' : t.InvalidatedOn Q u) : s.InvalidatedOn (fun x => P x ∨ Q x) u where
  records := h'.records.trans h.records
  graph := h'.graph.trans h.graph
  affected := by
    intro x hx
    by_cases hq : Q x
    · exact h'.affected x hq
    · rw [h'.others x hq]
      exact h.affected x (hx.resolve_right hq)
  others := by
    intro x hx
    rw [not_or] at hx
    rw [h'.others x hx.2, h.others x hx.1]
  moved := by
    intro x hx hv v
    by_cases hp : P x
    · rw [h'.kept x (Or.inr (h.validity hp)), h.moved x hp hv]
    · have hsame := h.status_getD hp
      rw [h'.moved x (hx.resolve_left hp) (hsame ▸ hv), h.kept x (Or.inl hp), hsame]
  kept := by
    intro x hx v
    by_cases hp : P x
    · have hv := hx.resolve_left (not_not.mpr (Or.inl hp))
      rw [h'.kept x (Or.inr (h.validity hp)), h.kept x (Or.inr hv)]
    · have hsame := h.status_getD hp
      have hq : ¬ Q x ∨ (t.status.getD x {}).validity = .named .invalidated := by
        rw [hsame]
        exact hx.imp_left fun hn hq => hn (Or.inr hq)
      rw [h'.kept x hq, h.kept x (Or.inl hp)]

lemma validityOf_congr (h : s.InvalidatedOn P t) (h' : s.InvalidatedOn P u) (x : StateId) :
    t.validityOf x = u.validityOf x := by
  rw [validityOf, validityOf]
  by_cases hx : P x
  · obtain ⟨st, hst, hv⟩ := h.affected x hx
    obtain ⟨st', hst', hv'⟩ := h'.affected x hx
    rw [hst, hst']
    exact hv.trans hv'.symm
  · rw [h.others x hx, h'.others x hx]

lemma byValidity_congr (h : s.InvalidatedOn P t) (h' : s.InvalidatedOn P u) (v : EnumValue ValidityState) :
    t.byValidity v = u.byValidity v := by
  have hset : t.indexes.byValidity.getD v ∅ = u.indexes.byValidity.getD v ∅ := by
    refine set_ext fun x => ?_
    by_cases hx : P x ∧ (s.status.getD x {}).validity ≠ .named .invalidated
    · rw [h.moved x hx.1 hx.2, h'.moved x hx.1 hx.2]
    · have hk : ¬ P x ∨ (s.status.getD x {}).validity = .named .invalidated := by
        rw [not_and_or, not_not] at hx
        exact hx
      rw [h.kept x hk, h'.kept x hk]
  rw [byValidity, byValidity, indexQuery, indexQuery, hset]

end InvalidatedOn

lemma invalidatedOn_invalidateOne (subj : InvalidatingSubject) (res : InvalidationResult) (s : ProvenanceStore)
    (a : StateId) : s.InvalidatedOn (fun x => x = a) (invalidateOne subj res s a) where
  records := rfl
  graph := rfl
  affected := by
    rintro x rfl
    rw [invalidateOne_status, ExtTreeMap.getElem?_insert_self]
    exact ⟨_, rfl, rfl⟩
  others := by
    intro x hx
    rw [invalidateOne_status, ExtTreeMap.getElem?_insert, if_neg (mt LawfulEqCmp.eq_of_compare (Ne.symm hx))]
  moved := by
    rintro x rfl hv v
    simp only [invalidateOne, hv, ne_eq, not_false_eq_true, if_true, mem_addTo, mem_removeFrom, and_true]
    simp only [eq_comm (b := v)]
  kept := by
    intro x hx v
    by_cases hv : (s.status.getD a {}).validity = .named .invalidated
    · simp [invalidateOne, hv]
    · have hne : a ≠ x := by
        rintro rfl
        rcases hx with hx | hx
        · exact hx rfl
        · exact hv hx
      simp [invalidateOne, hv, hne]

lemma invalidatedOn_foldl (subj : InvalidatingSubject) (res : InvalidationResult) (l : List StateId)
    (s : ProvenanceStore) : s.InvalidatedOn (fun x => x ∈ l) (l.foldl (invalidateOne subj res) s) := by
  induction l generalizing s with
  | nil => exact .refl s fun x => List.not_mem_nil
  | cons a l ih =>
    refine ((s.invalidatedOn_invalidateOne subj res a).trans (ih _)).congr fun x => ?_
    rw [List.mem_cons]

def Targeted (s : ProvenanceStore) (l : List InvalidatingSubject) (x : StateId) : Prop :=
  ∃ q ∈ l, q.subject ∈ s.records ∧ s.AtOrBelow q.subject x

lemma Core.invalidatedOn {s : ProvenanceStore} (h : s.Core) (subj : InvalidatingSubject) :
    s.InvalidatedOn (s.Targeted [subj]) (s.invalidate subj).2 := by
  by_cases hs : subj.subject ∈ s.records
  · rw [invalidate_known hs]
    refine (s.invalidatedOn_foldl subj _ _).congr fun x => ?_
    rw [h.mem_affected_iff, Targeted]
    simp [hs]
  · rw [(invalidate_unknown hs).2]
    refine .refl s fun x => ?_
    simp [Targeted, hs]

def invalidateAll (s : ProvenanceStore) (l : List InvalidatingSubject) : ProvenanceStore :=
  Runs.run (fun s subj => (s.invalidate subj).2) s l

def succeeded (s : ProvenanceStore) (l : List InvalidatingSubject) : List InvalidatingSubject :=
  Runs.observe (fun s subj => (s.invalidate subj).2)
    (fun s subj => if (s.invalidate subj).1.ok then some subj else none) s l

lemma targeted_congr {s t : ProvenanceStore} (hrecords : t.records = s.records) (hgraph : t.graph = s.graph) :
    t.Targeted = s.Targeted := by
  funext l x
  simp only [Targeted, AtOrBelow, parents_eq_arc, hrecords, hgraph]

lemma Core.invalidatedOn_all {s : ProvenanceStore} (h : s.Core) (l : List InvalidatingSubject) :
    s.InvalidatedOn (s.Targeted l) (s.invalidateAll l) := by
  induction l generalizing s with
  | nil =>
    refine .refl s fun x => ?_
    simp [Targeted]
  | cons subj l ih =>
    have hone := h.invalidatedOn subj
    have hrest := ih (h.invalidate subj)
    rw [targeted_congr hone.records hone.graph] at hrest
    refine (hone.trans hrest).congr fun x => ?_
    simp [Targeted]

lemma Core.succeeded_eq_filter {s : ProvenanceStore} (h : s.Core) (l : List InvalidatingSubject) :
    s.succeeded l = l.filter fun subj => subj.subject ∈ s.records := by
  induction l generalizing s with
  | nil => rfl
  | cons subj l ih =>
    have hrest := ih (h.invalidate subj)
    rw [(h.invalidatedOn subj).records] at hrest
    rw [succeeded, Runs.observe, ← succeeded, hrest, List.filter_cons]
    by_cases hs : subj.subject ∈ s.records
    · simp [invalidate_known hs, hs]
    · simp [(invalidate_unknown hs).1, hs]

theorem invalidate_perm {s : ProvenanceStore} (h : LoadReachable s) {l₁ l₂ : List InvalidatingSubject}
    (hl : l₁.Perm l₂) :
    (∀ x, (s.invalidateAll l₁).validityOf x = (s.invalidateAll l₂).validityOf x) ∧
      (∀ v, (s.invalidateAll l₁).byValidity v = (s.invalidateAll l₂).byValidity v) ∧
      (s.succeeded l₁).Perm (s.succeeded l₂) := by
  have htargeted : ∀ x, s.Targeted l₂ x ↔ s.Targeted l₁ x := by
    intro x
    simp only [Targeted, hl.mem_iff]
  have h₁ := h.core.invalidatedOn_all l₁
  have h₂ := (h.core.invalidatedOn_all l₂).congr htargeted
  refine ⟨h₁.validityOf_congr h₂, h₁.byValidity_congr h₂, ?_⟩
  rw [h.core.succeeded_eq_filter, h.core.succeeded_eq_filter]
  exact hl.filter _

theorem invalidate_perm_pair :
    ((pair (.produced 1)).invalidateAll [{ subject := ⟨1⟩ }, { subject := ⟨2⟩ }]).byValidity
        (.named .invalidated) =
      ((pair (.produced 1)).invalidateAll [{ subject := ⟨2⟩ }, { subject := ⟨1⟩ }]).byValidity
        (.named .invalidated) :=
  (invalidate_perm (reachable_pair _).loadReachable (List.Perm.swap _ _ [])).2.1 _

end ProvenanceStore

end StateProvenance
