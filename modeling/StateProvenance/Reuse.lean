import StateProvenance.Reachable

/-! When a reuse check answers eligible, and what that says about the derivation chain. -/

namespace StateProvenance

open Std Library.OrderedMap Library

namespace ProvenanceStore

lemma statusDecision_eq_none (st : RecordStatus) :
    statusDecision st = none ↔ st.validity ≠ .named .invalidated ∧ st.validity ≠ .named .stale ∧
      st.validity ≠ .named .unknown := by
  rw [statusDecision]
  by_cases hi : st.validity = .named .invalidated
  · simp [hi]
  by_cases hs : st.validity = .named .stale
  · simp [hs]
  by_cases hu : st.validity = .named .unknown
  · simp [hu]
  · simp [hi, hs, hu]

lemma statusDecision_ne_eligible {st : RecordStatus} {d : ReuseDecision} (h : statusDecision st = some d) :
    d.eligibility ≠ .eligible := by
  rw [statusDecision] at h
  split at h
  · cases h
    simp
  · split at h
    · cases h
      simp
    · split at h
      · cases h
        simp
      · contradiction

lemma anyStatus_iff (s : ProvenanceStore) (anc : List StateId) (v : ValidityState) :
    s.anyStatus anc v = true ↔ ∃ a ∈ anc, ∃ st, s.status[a]? = some st ∧ st.validity = .named v := by
  rw [anyStatus, List.any_eq_true]
  refine exists_congr fun a => and_congr_right fun _ => ?_
  cases s.status[a]? <;> simp

lemma escalate_eligible_iff (s : ProvenanceStore) (anc : List StateId) (d : ReuseDecision) :
    (s.escalate anc d).eligibility = .eligible ↔
      s.anyStatus anc .invalidated = false ∧ s.anyStatus anc .stale = false ∧ d.eligibility = .eligible := by
  rw [escalate]
  cases s.anyStatus anc .invalidated with
  | true => simp
  | false =>
    cases s.anyStatus anc .stale with
    | false => simp
    | true =>
      by_cases hd : d.eligibility = .invalidated
      · simp [hd]
      · simp [hd]

def StatusDenied (s : ProvenanceStore) (id : StateId) : Prop :=
  (∃ st, s.status[id]? = some st ∧ (st.validity = .named .invalidated ∨ st.validity = .named .stale ∨
    st.validity = .named .unknown)) ∨
  ∃ a ∈ s.ancestors id, ∃ st, s.status[a]? = some st ∧
    (st.validity = .named .invalidated ∨ st.validity = .named .stale)

def RecordDenied (rec : ProvenanceRecord) (req : ReuseRequest) : Prop :=
  (rec.d.validity = .named .invalidated ∨ rec.d.validity = .named .stale ∨
    rec.d.validity = .named .unknown) ∨ ∃ c ∈ dimChecks rec.d req, ¬ c.met

def Denied (s : ProvenanceStore) (id : StateId) (req : ReuseRequest) : Prop :=
  s.StatusDenied id ∨ ∀ rec, s.find id = some rec → RecordDenied rec req

lemma evaluateReuse_eligible_iff_not_denied (rec : ProvenanceRecord) (req : ReuseRequest) :
    (evaluateReuse rec req).eligibility = .eligible ↔ ¬ RecordDenied rec req := by
  rw [evaluateReuse_eligible_iff, RecordDenied]
  simp only [not_or, not_exists, not_and, not_not]

lemma checkReuse_eligible_iff (s : ProvenanceStore) (id : StateId) (req : ReuseRequest) :
    (s.checkReuse id req).eligibility = .eligible ↔ ¬ s.Denied id req := by
  rw [checkReuse]
  have hfind : s.find id = s.records[id]? := rfl
  cases hr : s.records[id]? with
  | none => simp [Denied, hfind, hr]
  | some rec =>
    have hden : s.Denied id req ↔ s.StatusDenied id ∨ RecordDenied rec req := by
      rw [Denied, hfind, hr]
      simp
    rw [hden, not_or, ← evaluateReuse_eligible_iff_not_denied]
    cases hd : (s.status[id]?).bind statusDecision with
    | some d =>
      obtain ⟨st, hst, hsd⟩ := Option.bind_eq_some_iff.mp hd
      refine iff_of_false (statusDecision_ne_eligible hsd) fun hno => hno.1 (Or.inl ⟨st, hst, ?_⟩)
      by_contra hv
      simp only [not_or] at hv
      rw [(statusDecision_eq_none st).mpr ⟨hv.1, hv.2.1, hv.2.2⟩] at hsd
      contradiction
    | none =>
      have hown : ¬ ∃ st, s.status[id]? = some st ∧ (st.validity = .named .invalidated ∨
          st.validity = .named .stale ∨ st.validity = .named .unknown) := by
        rintro ⟨st, hst, hv⟩
        rw [hst] at hd
        have hn := (statusDecision_eq_none st).mp hd
        tauto
      have hanc : (∃ a ∈ s.ancestors id, ∃ st, s.status[a]? = some st ∧
          (st.validity = .named .invalidated ∨ st.validity = .named .stale)) ↔
          s.anyStatus (s.graph.ancestors id) .invalidated = true ∨
            s.anyStatus (s.graph.ancestors id) .stale = true := by
        rw [anyStatus_iff, anyStatus_iff]
        simp only [and_or_left, exists_or]
        rfl
      simp only [escalate_eligible_iff, StatusDenied, hown, false_or, hanc, not_or, Bool.not_eq_true]
      tauto

def DemandsValidChain (s : ProvenanceStore) (id : StateId) (req : ReuseRequest) : Prop :=
  (s.checkReuse id req).eligibility = .eligible →
    s.validityOf id = .named .valid ∧
      ∀ a, Relation.TransGen (fun p c => p ∈ s.parents c) a id → s.validityOf a = .named .valid

/-- A validity that neither status pass looks for: unknown, or no enumerator at all. -/
def Unexamined (v : EnumValue ValidityState) : Prop :=
  v ≠ .named .valid ∧ v ≠ .named .stale ∧ v ≠ .named .invalidated

lemma Core.mem_ancestors {s : ProvenanceStore} (h : s.Core) (a id : StateId) :
    a ∈ s.ancestors id ↔ Relation.TransGen (fun p c => p ∈ s.parents c) a id := by
  rw [s.parents_eq_arc]
  exact h.graph.mem_ancestors a id

theorem demandsValidChain_iff {s : ProvenanceStore} (h : LoadReachable s) (id : StateId)
    (req : ReuseRequest) :
    s.DemandsValidChain id req ↔ s.Denied id req ∨
      ¬ Unexamined (s.validityOf id) ∧
        ∀ a, Relation.TransGen (fun p c => p ∈ s.parents c) a id → ¬ Unexamined (s.validityOf a) := by
  rw [DemandsValidChain, checkReuse_eligible_iff]
  simp only [← h.core.mem_ancestors]
  by_cases hd : s.Denied id req
  · simp [hd]
  simp only [hd, not_false_eq_true, true_imp_iff, false_or]
  simp only [Denied, StatusDenied, not_or, not_exists, not_and] at hd
  have hown : s.validityOf id ≠ .named .stale ∧ s.validityOf id ≠ .named .invalidated := by
    rw [ne_eq, s.validityOf_eq_iff id (v := .stale) (by decide), ne_eq,
      s.validityOf_eq_iff id (v := .invalidated) (by decide)]
    exact ⟨fun ⟨st, hst, hv⟩ => (hd.1.1 st hst).2.1 hv, fun ⟨st, hst, hv⟩ => (hd.1.1 st hst).1 hv⟩
  have hanc : ∀ a ∈ s.ancestors id,
      s.validityOf a ≠ .named .stale ∧ s.validityOf a ≠ .named .invalidated := by
    intro a ha
    rw [ne_eq, s.validityOf_eq_iff a (v := .stale) (by decide), ne_eq,
      s.validityOf_eq_iff a (v := .invalidated) (by decide)]
    exact ⟨fun ⟨st, hst, hv⟩ => (hd.1.2 a ha st hst).2 hv, fun ⟨st, hst, hv⟩ => (hd.1.2 a ha st hst).1 hv⟩
  have hexam : ∀ v : EnumValue ValidityState, v ≠ .named .stale ∧ v ≠ .named .invalidated →
      (¬ Unexamined v ↔ v = .named .valid) := by
    intro v hv
    rw [Unexamined]
    tauto
  rw [hexam _ hown]
  refine and_congr_right fun _ => forall_congr' fun a => imp_congr_right fun ha => ?_
  rw [hexam _ (hanc a ha)]

theorem pair_demandsValidChain : (pair (.produced 1)).DemandsValidChain ⟨2⟩ {} := by
  refine (demandsValidChain_iff (reachable_pair _).loadReachable ⟨2⟩ {}).mpr (Or.inr ⟨?_, fun a ha => ?_⟩)
  · have hv : (pair (.produced 1)).validityOf ⟨2⟩ = .named .valid := by decide
    simp [Unexamined, hv]
  · have hanc : (pair (.produced 1)).ancestors ⟨2⟩ = [⟨1⟩] := by decide
    rw [← (reachable_pair _).live.toCore.mem_ancestors, hanc, List.mem_singleton] at ha
    have hv : (pair (.produced 1)).validityOf ⟨1⟩ = .named .valid := by decide
    simp [Unexamined, ha, hv]

theorem unknown_ancestor_eligible :
    ¬ ∀ s, Reachable s → ∀ id req, s.DemandsValidChain id req := by
  intro h
  have hroot := h (pair { RecordData.produced 1 with validity := .named .unknown }) (reachable_pair _) ⟨2⟩ {}
    (by decide)
  have hv := hroot.2 ⟨1⟩ (.single (by decide))
  revert hv
  decide

end ProvenanceStore

end StateProvenance
