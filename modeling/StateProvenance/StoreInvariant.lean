import StateProvenance.Store

/-! The representation invariant of the store. `Core` ties the provenance map, the graph and the field
indexes to the records; `Live` adds what the status overlay and its index know about them. -/

namespace StateProvenance

open Std Library.OrderedMap Library

def idKey {Tag : Type} (id : ScalarIdentifier Tag) : List (ScalarIdentifier Tag) :=
  if id.valid then [id] else []

lemma indexId_eq_addAll {Tag : Type} (m : OrdMap (ScalarIdentifier Tag) (OrdSet StateId))
    (id : ScalarIdentifier Tag) (sid : StateId) : indexId m id sid = addAll m (idKey id) sid := by
  unfold indexId idKey
  split <;> rfl

lemma addAll_append {K A : Type} [Ord K] [TransOrd K] [Ord A] [TransOrd A] (m : OrdMap K (OrdSet A))
    (k j : List K) (a : A) : addAll m (k ++ j) a = addAll (addAll m k a) j a := by
  simp [addAll]

lemma foldl_indexId_eq_addAll (l : List Dependency) (m : OrdMap DependencyId (OrdSet StateId))
    (sid : StateId) :
    l.foldl (fun m dep => indexId m dep.id sid) m = addAll m (l.flatMap fun dep => idKey dep.id) sid := by
  induction l generalizing m with
  | nil => rfl
  | cons dep l ih => rw [List.foldl_cons, ih, List.flatMap_cons, addAll_append, indexId_eq_addAll]

structure Indexed {K : Type} [Ord K] [TransOrd K] (records : OrdMap StateId ProvenanceRecord)
    (keys : RecordData → List K) (m : OrdMap K (OrdSet StateId)) : Prop where
  noEmptyKey : NoEmptyKey m
  mem : ∀ k x, x ∈ m.getD k ∅ ↔ ∃ rec : ProvenanceRecord, records[x]? = some rec ∧ k ∈ keys rec.d

namespace Indexed

variable {K : Type} [Ord K] [TransOrd K] {records : OrdMap StateId ProvenanceRecord}
  {keys : RecordData → List K} {m m' : OrdMap K (OrdSet StateId)}

lemma empty : Indexed (∅ : OrdMap StateId ProvenanceRecord) keys ∅ where
  noEmptyKey := noEmptyKey_empty
  mem := by simp

variable [LawfulEqOrd K]

lemma insert (h : Indexed records keys m) {x : StateId} (hx : x ∉ records) (d : RecordData) :
    Indexed (records.insert x ⟨d⟩) keys (addAll m (keys d) x) where
  noEmptyKey := h.noEmptyKey.addAll _ _
  mem := by
    intro k y
    rw [mem_addAll, h.mem, ExtTreeMap.getElem?_insert]
    by_cases hy : x = y
    · subst hy
      simp [ExtTreeMap.getElem?_eq_none hx]
    · simp [hy]

lemma unique (h : Indexed records keys m) (h' : Indexed records keys m') : m = m' := by
  refine h.noEmptyKey.eq_of_mem_iff h'.noEmptyKey fun k x => ?_
  rw [h.mem, h'.mem]

end Indexed

structure IndexesExact (records : OrdMap StateId ProvenanceRecord) (ix : Indexes) : Prop where
  byModel : Indexed records (fun d => idKey d.modelId) ix.byModel
  byAdapter : Indexed records (fun d => idKey d.adapterId) ix.byAdapter
  byProducer : Indexed records (fun d => idKey d.producerId) ix.byProducer
  byExecution : Indexed records (fun d => idKey d.executionId) ix.byExecution
  byAttempt : Indexed records (fun d => idKey d.attemptId) ix.byAttempt
  byDependency : Indexed records (fun d => d.dependencies.flatMap fun dep => idKey dep.id) ix.byDependency
  byArtifact : Indexed records (fun d => idKey d.artifactGeneration) ix.byArtifact
  byEvidence : Indexed records (fun d => [d.evidence]) ix.byEvidence

lemma indexesExact_empty : IndexesExact ∅ {} :=
  ⟨.empty, .empty, .empty, .empty, .empty, .empty, .empty, .empty⟩

lemma IndexesExact.insert {records : OrdMap StateId ProvenanceRecord} {ix : Indexes}
    (h : IndexesExact records ix) {x : StateId} (hx : x ∉ records) (d : RecordData) :
    IndexesExact (records.insert x ⟨d⟩) (indexInsert ix d x) := by
  constructor <;> simp only [indexInsert, foldl_indexId_eq_addAll] <;> try rw [indexId_eq_addAll]
  · exact h.byModel.insert hx d
  · exact h.byAdapter.insert hx d
  · exact h.byProducer.insert hx d
  · exact h.byExecution.insert hx d
  · exact h.byAttempt.insert hx d
  · exact h.byDependency.insert hx d
  · exact h.byArtifact.insert hx d
  · exact h.byEvidence.insert hx d

lemma IndexesExact.unique {records : OrdMap StateId ProvenanceRecord} {ix ix' : Indexes}
    (h : IndexesExact records ix) (h' : IndexesExact records ix') :
    ix = { ix' with byValidity := ix.byValidity } := by
  ext1
  · exact h.byModel.unique h'.byModel
  · exact h.byAdapter.unique h'.byAdapter
  · exact h.byProducer.unique h'.byProducer
  · exact h.byExecution.unique h'.byExecution
  · exact h.byAttempt.unique h'.byAttempt
  · exact h.byDependency.unique h'.byDependency
  · exact h.byArtifact.unique h'.byArtifact
  · rfl
  · exact h.byEvidence.unique h'.byEvidence

namespace ProvenanceStore

/-- `p` is an input state of the record, or the subject that one of its parent provenance ids resolves to. -/
def IsParent (s : ProvenanceStore) (p : StateId) (d : RecordData) : Prop :=
  p ∈ d.inputStates ∨ ∃ q ∈ d.parentProvenance, s.provToState[q]? = some p

structure Resolved (s : ProvenanceStore) (d : RecordData) : Prop where
  inputs : ∀ x ∈ d.inputStates, x ∈ s.records
  parents : ∀ q ∈ d.parentProvenance, q ∈ s.provToState

structure Core (s : ProvenanceStore) : Prop where
  keyed : ∀ (x : StateId) (rec : ProvenanceRecord), s.records[x]? = some rec →
    rec.d.subjectId = x ∧ validateRecord rec.d = none
  prov : ∀ q x, s.provToState[q]? = some x ↔
    ∃ rec : ProvenanceRecord, s.records[x]? = some rec ∧ rec.d.provenanceId = q
  graph : s.graph.WellFormed
  nodes : ∀ x, x ∈ s.graph.nodeSet ↔ x ∈ s.records
  arcs : ∀ p c, s.graph.Arc p c ↔ ∃ rec : ProvenanceRecord, s.records[c]? = some rec ∧ s.IsParent p rec.d
  resolved : ∀ (x : StateId) (rec : ProvenanceRecord), s.records[x]? = some rec → s.Resolved rec.d
  indexes : IndexesExact s.records s.indexes

structure Live (s : ProvenanceStore) : Prop extends Core s where
  status : ∀ x, x ∈ s.status ↔ x ∈ s.records
  byValidity : ∀ v x, x ∈ s.indexes.byValidity.getD v ∅ ↔ ∃ st, s.status[x]? = some st ∧ st.validity = v

lemma parents_eq_arc (s : ProvenanceStore) : (fun p c => p ∈ s.parents c) = s.graph.Arc :=
  funext fun p => funext fun c => propext (ProvenanceGraph.mem_parents _ p c)

lemma validityOf_eq_iff (s : ProvenanceStore) (x : StateId) {v : ValidityState} (hv : v ≠ .unknown) :
    s.validityOf x = .named v ↔ ∃ st, s.status[x]? = some st ∧ st.validity = .named v := by
  rw [validityOf]
  cases s.status[x]? with
  | none => simp [hv.symm]
  | some st => simp

structure Insertable (s : ProvenanceStore) (d : RecordData) : Prop extends Resolved s d where
  newSubject : d.subjectId ∉ s.records
  newProvenance : d.provenanceId ∉ s.provToState

lemma danglingInput_eq_none (s : ProvenanceStore) (d : RecordData) :
    s.danglingInput d = none ↔ ∀ x ∈ d.inputStates, x ∈ s.records := by
  simp [danglingInput]

lemma danglingParent_eq_none (s : ProvenanceStore) (d : RecordData) :
    s.danglingParent d = none ↔ ∀ q ∈ d.parentProvenance, q ∈ s.provToState := by
  simp [danglingParent]

lemma insertValidated_rejected {s : ProvenanceStore} {d : RecordData} (h : ¬ s.Insertable d) :
    ∃ error, s.insertValidated d = (.ok { error }, s) := by
  unfold insertValidated
  by_cases hs : d.subjectId ∈ s.records
  · exact ⟨_, if_pos hs⟩
  by_cases hp : d.provenanceId ∈ s.provToState
  · rw [if_neg hs]
    exact ⟨_, if_pos hp⟩
  rw [if_neg hs, if_neg hp]
  cases hi : s.danglingInput d with
  | some error => exact ⟨error, rfl⟩
  | none =>
    cases hq : s.danglingParent d with
    | some error => exact ⟨error, rfl⟩
    | none =>
      have hr : s.Resolved d := ⟨(s.danglingInput_eq_none d).mp hi, (s.danglingParent_eq_none d).mp hq⟩
      exact absurd ⟨hr, hs, hp⟩ h

lemma mem_parentSet {s : ProvenanceStore} {d : RecordData} (h : s.Resolved d) (p : StateId) :
    p ∈ s.parentSet d ↔ s.IsParent p d := by
  rw [parentSet, mem_foldl_insert, mem_foldl_insert, IsParent]
  have hget : (∃ q ∈ d.parentProvenance, s.provToState.getD q {} = p) ↔
      ∃ q ∈ d.parentProvenance, s.provToState[q]? = some p := by
    refine exists_congr fun q => and_congr_right fun hq => ?_
    have hsome : s.provToState[q]? = some (s.provToState.getD q {}) :=
      ExtTreeMap.getElem?_eq_some_getD (h.parents q hq)
    rw [hsome, Option.some.injEq]
  rw [hget]
  simp [or_comm]

end ProvenanceStore

lemma addParents_leaf {child : StateId} {l : List StateId} (hl : l.Nodup) {g : ProvenanceGraph}
    (h : g.WellFormed) (hc : child ∈ g.nodeSet) (hleaf : ∀ c, ¬ g.Arc child c)
    (hp : ∀ p ∈ l, p ∈ g.nodeSet ∧ p ≠ child ∧ ¬ g.Arc p child) :
    ∃ g', addParents child l g = (.ok (), g') ∧ g'.WellFormed ∧ g'.nodeSet = g.nodeSet ∧
      ∀ p c, g'.Arc p c ↔ g.Arc p c ∨ p ∈ l ∧ c = child := by
  induction l generalizing g with
  | nil => exact ⟨g, rfl, h, rfl, by simp⟩
  | cons p l ih =>
    obtain ⟨hpl, hl⟩ := List.nodup_cons.mp hl
    obtain ⟨hpn, hpc, hnew⟩ := hp p List.mem_cons_self
    have hlegal : g.Legal p child := ⟨hpc, hpn, hc, hnew, by
      intro hpath
      obtain ⟨c, harc, -⟩ := Relation.TransGen.head'_iff.mp hpath
      exact hleaf c harc⟩
    have harc := g.arc_insertArc p child
    obtain ⟨g', hrun, hwf, hnodes, harcs⟩ := ih hl (h.insertArc hlegal) hc (by
      intro c hc
      rcases (harc child c).mp hc with hc | ⟨he, -⟩
      · exact hleaf c hc
      · exact hpc he.symm) (by
      intro q hq
      obtain ⟨hqn, hqc, hqa⟩ := hp q (List.mem_cons_of_mem _ hq)
      refine ⟨hqn, hqc, fun ha => ?_⟩
      rcases (harc q child).mp ha with ha | ⟨rfl, -⟩
      · exact hqa ha
      · exact hpl hq)
    refine ⟨g', ?_, hwf, hnodes, fun a c => ?_⟩
    · rw [addParents, h.addArc_legal hlegal]
      exact hrun
    · rw [harcs, harc, List.mem_cons]
      tauto

lemma subject_valid {d : RecordData} (h : validateRecord d = none) : d.subjectId.valid = true :=
  ((validateRecord_eq_none_iff d).mp h).subjectId

namespace ProvenanceStore

structure Linked (s : ProvenanceStore) (d : RecordData) (g : ProvenanceGraph) : Prop where
  wellFormed : g.WellFormed
  nodes : ∀ x, x ∈ g.nodeSet ↔ x = d.subjectId ∨ x ∈ s.graph.nodeSet
  arcs : ∀ p c, g.Arc p c ↔ s.graph.Arc p c ∨ s.IsParent p d ∧ c = d.subjectId

lemma isParent_mem {s : ProvenanceStore} (h : s.Core) {d : RecordData} (hr : s.Resolved d) {p : StateId}
    (hp : s.IsParent p d) : p ∈ s.records := by
  rcases hp with hp | ⟨q, hq, hx⟩
  · exact hr.inputs p hp
  · obtain ⟨rec, hrec, -⟩ := (h.prov q p).mp hx
    exact ExtTreeMap.mem_iff_isSome_getElem?.mpr (by rw [hrec]; rfl)

lemma addParents_accepted {s : ProvenanceStore} (h : s.Core) {d : RecordData}
    (hv : validateRecord d = none) (hi : s.Insertable d) :
    ∃ g g', s.graph.addNode d.subjectId = (.ok true, g) ∧
      addParents d.subjectId (s.parentSet d).toList g = (.ok (), g') ∧ s.Linked d g' := by
  have hnode : d.subjectId ∉ s.graph.nodeSet := fun hx => hi.newSubject ((h.nodes _).mp hx)
  have hwf := h.graph.insertNode (subject_valid hv) hnode
  have harc := s.graph.arc_insertNode d.subjectId
  have hmem : ∀ x, x ∈ (s.graph.insertNode d.subjectId).nodeSet ↔ x = d.subjectId ∨ x ∈ s.graph.nodeSet := by
    intro x
    rw [ProvenanceGraph.insertNode, ExtTreeSet.mem_insert, LawfulEqCmp.compare_eq_iff_eq, eq_comm]
  obtain ⟨g, hrun, hg, hnodes, harcs⟩ := addParents_leaf (nodup_toList (s.parentSet d)) hwf
    ((hmem _).mpr (Or.inl rfl)) (by
      intro c hc
      exact hnode (h.graph.parent_mem ((harc _ c).mp hc))) (by
      intro p hp
      rw [ExtTreeSet.mem_toList, mem_parentSet hi.toResolved] at hp
      have hpr := isParent_mem h hi.toResolved hp
      refine ⟨(hmem p).mpr (Or.inr ((h.nodes p).mpr hpr)), ?_, ?_⟩
      · rintro rfl
        exact hi.newSubject hpr
      · intro ha
        exact hnode (h.graph.child_mem ((harc p _).mp ha)))
  refine ⟨_, g, ProvenanceGraph.addNode_fresh (subject_valid hv) hnode, hrun, hg, fun x => ?_, fun p c => ?_⟩
  · rw [hnodes, hmem]
  · rw [harcs, harc, ExtTreeSet.mem_toList, mem_parentSet hi.toResolved]

lemma insertValidated_accepted {s : ProvenanceStore} (h : s.Core) {d : RecordData}
    (hv : validateRecord d = none) (hi : s.Insertable d) :
    ∃ g, s.Linked d g ∧
      s.insertValidated d = (.ok { ok := true, record := some ⟨d⟩ }, s.commit d g) := by
  obtain ⟨g, g', hnode, harcs, hg⟩ := addParents_accepted h hv hi
  refine ⟨g', hg, ?_⟩
  rw [insertValidated, if_neg hi.newSubject, if_neg hi.newProvenance, (s.danglingInput_eq_none d).mpr hi.inputs,
    (s.danglingParent_eq_none d).mpr hi.parents, hnode]
  simp only [harcs]

lemma isParent_congr {s s' : ProvenanceStore} {d : RecordData} (hr : s.Resolved d)
    (hext : ∀ q ∈ s.provToState, s'.provToState[q]? = s.provToState[q]?) (p : StateId) :
    s'.IsParent p d ↔ s.IsParent p d := by
  refine or_congr_right (exists_congr fun q => and_congr_right fun hq => ?_)
  rw [hext q (hr.parents q hq)]

lemma getElem?_commit_records (s : ProvenanceStore) (d : RecordData) (g : ProvenanceGraph) (x : StateId) :
    (s.commit d g).records[x]? = if d.subjectId = x then some ⟨d⟩ else s.records[x]? := by
  simp [commit, ExtTreeMap.getElem?_insert]

lemma getElem?_commit_prov (s : ProvenanceStore) (d : RecordData) (g : ProvenanceGraph) (q : ProvenanceId) :
    (s.commit d g).provToState[q]? = if d.provenanceId = q then some d.subjectId else s.provToState[q]? := by
  simp [commit, ExtTreeMap.getElem?_insert]

lemma mem_commit_records (s : ProvenanceStore) (d : RecordData) (g : ProvenanceGraph) (x : StateId) :
    x ∈ (s.commit d g).records ↔ d.subjectId = x ∨ x ∈ s.records := by
  simp [commit]

lemma mem_commit_prov (s : ProvenanceStore) (d : RecordData) (g : ProvenanceGraph) (q : ProvenanceId) :
    q ∈ (s.commit d g).provToState ↔ d.provenanceId = q ∨ q ∈ s.provToState := by
  simp [commit]

lemma getElem?_commit_status (s : ProvenanceStore) (d : RecordData) (g : ProvenanceGraph) (x : StateId) :
    (s.commit d g).status[x]? = if d.subjectId = x then
      some ⟨d.validity, d.invalidationReason, d.provenanceGeneration, d.note⟩ else s.status[x]? := by
  simp [commit, ExtTreeMap.getElem?_insert]

lemma mem_commit_workers (s : ProvenanceStore) (d : RecordData) (g : ProvenanceGraph) (w : WorkerId) :
    w ∈ (s.commit d g).workers ↔ (d.workerId.valid = true ∧ d.workerId = w) ∨ w ∈ s.workers := by
  rw [commit]
  split
  · next hv => simp [hv]
  · next hv => simp [hv]

lemma mem_commit_validities (s : ProvenanceStore) (d : RecordData) (g : ProvenanceGraph)
    (v : EnumValue ValidityState) :
    v ∈ (s.commit d g).indexes.byValidity ↔ d.validity = v ∨ v ∈ s.indexes.byValidity := by
  simp only [commit, indexInsert, mem_keys_addTo]

lemma mem_commit_byValidity (s : ProvenanceStore) (d : RecordData) (g : ProvenanceGraph)
    (v : EnumValue ValidityState) (x : StateId) : x ∈ (s.commit d g).indexes.byValidity.getD v ∅ ↔
      (d.validity = v ∧ d.subjectId = x) ∨ x ∈ s.indexes.byValidity.getD v ∅ := by
  simp only [commit, indexInsert, mem_addTo]

lemma commit_resolved {s : ProvenanceStore} {d : RecordData} (hi : s.Insertable d) (g : ProvenanceGraph)
    {e : RecordData} (he : s.Resolved e) :
    (s.commit d g).Resolved e ∧ ∀ p, (s.commit d g).IsParent p e ↔ s.IsParent p e := by
  refine ⟨⟨fun x hx => ?_, fun q hq => ?_⟩, isParent_congr he fun q hq => ?_⟩
  · exact (mem_commit_records ..).mpr (Or.inr (he.inputs x hx))
  · exact (mem_commit_prov ..).mpr (Or.inr (he.parents q hq))
  · rw [getElem?_commit_prov, if_neg]
    rintro rfl
    exact hi.newProvenance hq

section Commit

variable {s : ProvenanceStore} (h : s.Core) {d : RecordData} (hi : s.Insertable d)

include h hi

lemma commit_prov (g : ProvenanceGraph) (q : ProvenanceId) (x : StateId) :
    (s.commit d g).provToState[q]? = some x ↔
      ∃ rec : ProvenanceRecord, (s.commit d g).records[x]? = some rec ∧ rec.d.provenanceId = q := by
  rw [getElem?_commit_prov, getElem?_commit_records]
  by_cases hq : d.provenanceId = q
  · subst hq
    rw [if_pos rfl, Option.some.injEq]
    split
    · next hx => simp [hx]
    · next hx =>
      -- An old record cannot carry the new provenance id.
      refine iff_of_false hx fun hr => hi.newProvenance ?_
      have hold := (h.prov d.provenanceId x).mpr hr
      exact ExtTreeMap.mem_iff_isSome_getElem?.mpr (by rw [hold]; rfl)
  · rw [if_neg hq, h.prov]
    split
    · next hx =>
      subst hx
      rw [ExtTreeMap.getElem?_eq_none hi.newSubject]
      simp [hq]
    · rfl

lemma Core.commit (hv : validateRecord d = none) {g : ProvenanceGraph} (hg : s.Linked d g) :
    (s.commit d g).Core where
  keyed := by
    intro x rec hx
    rw [getElem?_commit_records] at hx
    split at hx
    · next he =>
      obtain rfl := Option.some.inj hx
      exact ⟨he, hv⟩
    · exact h.keyed x rec hx
  prov := commit_prov h hi g
  graph := hg.wellFormed
  nodes := by
    intro x
    rw [mem_commit_records, ← h.nodes, eq_comm]
    exact hg.nodes x
  arcs := by
    intro p c
    rw [getElem?_commit_records]
    refine (hg.arcs p c).trans ?_
    rw [h.arcs]
    split
    · next hc =>
      subst hc
      rw [ExtTreeMap.getElem?_eq_none hi.newSubject]
      simp [(commit_resolved hi g hi.toResolved).2]
    · next hc =>
      simp only [Ne.symm hc, and_false, or_false]
      refine exists_congr fun rec => and_congr_right fun hr => ?_
      rw [(commit_resolved hi g (h.resolved c rec hr)).2]
  resolved := by
    intro x rec hx
    rw [getElem?_commit_records] at hx
    split at hx
    · obtain rfl := Option.some.inj hx
      exact (commit_resolved hi g hi.toResolved).1
    · exact (commit_resolved hi g (h.resolved x rec hx)).1
  indexes := h.indexes.insert hi.newSubject d

end Commit

lemma Live.commit {s : ProvenanceStore} (h : s.Live) {d : RecordData} (hi : s.Insertable d)
    (hv : validateRecord d = none) {g : ProvenanceGraph} (hg : s.Linked d g) : (s.commit d g).Live where
  toCore := h.toCore.commit hi hv hg
  status := by
    intro x
    rw [mem_commit_records, ← h.status]
    simp [ProvenanceStore.commit]
  byValidity := by
    intro v x
    have hnew : d.subjectId ∉ s.status := mt (h.status _).mp hi.newSubject
    rw [mem_commit_byValidity, h.byValidity, getElem?_commit_status]
    split
    · next hx =>
      subst hx
      simp [ExtTreeMap.getElem?_eq_none hnew]
    · next hx => simp [hx]

inductive PublishStep (s : ProvenanceStore) (d : RecordData) :
    Except GraphError PublishOutcome × ProvenanceStore → Prop
  | rejected (error : String) : PublishStep s d (.ok { error }, s)
  | accepted (g : ProvenanceGraph) (hv : validateRecord d = none) (hi : s.Insertable d)
      (hg : s.Linked d g) : PublishStep s d (.ok { ok := true, record := some ⟨d⟩ }, s.commit d g)

lemma insertValidated_step {s : ProvenanceStore} (h : s.Core) {d : RecordData}
    (hv : validateRecord d = none) : s.PublishStep d (s.insertValidated d) := by
  by_cases hi : s.Insertable d
  · obtain ⟨g, hg, he⟩ := insertValidated_accepted h hv hi
    rw [he]
    exact .accepted g hv hi hg
  · obtain ⟨error, he⟩ := insertValidated_rejected hi
    rw [he]
    exact .rejected error

lemma publishValidated_step {s : ProvenanceStore} (h : s.Core) (d : RecordData) :
    s.PublishStep d (s.publishValidated d) := by
  unfold publishValidated
  split
  · exact .rejected _
  · next hv => exact insertValidated_step h hv

lemma publish_accepted {s : ProvenanceStore} (h : s.Core) {d : RecordData} (hv : validateRecord d = none)
    (hi : s.Insertable d) :
    ∃ g, s.Linked d g ∧ s.publish d = (.ok { ok := true, record := some ⟨d⟩ }, s.commit d g) := by
  obtain ⟨g, hg, hinsert⟩ := insertValidated_accepted h hv hi
  refine ⟨g, hg, ?_⟩
  rw [publish, publishValidated, hv]
  exact hinsert

lemma publish_step {s : ProvenanceStore} (h : s.Core) (d : RecordData) : s.PublishStep d (s.publish d) :=
  publishValidated_step h d

lemma rejection_eq_some {s : ProvenanceStore} {d : RecordData} {claim : AuthorityClaim} {o : PublishOutcome}
    (h : s.rejection d claim = some o) : ∃ error, o = { error } := by
  unfold rejection at h
  split at h
  · exact ⟨_, (Option.some.inj h).symm⟩
  · simp only at h
    split at h
    · exact ⟨_, (Option.some.inj h).symm⟩
    · contradiction

lemma accepted_of_rejection {s : ProvenanceStore} {d : RecordData} {claim : AuthorityClaim}
    (h : s.rejection d claim = none) : (s.evaluateClaim claim).accepted = true := by
  unfold rejection at h
  split at h
  · contradiction
  · by_contra hn
    rw [ProvenanceStore.evaluateClaim, Bool.not_eq_true] at hn
    simp [hn] at h

lemma authority_publishValidated (s : ProvenanceStore) (d : RecordData) :
    (s.publishValidated d).2.authority = s.authority := by
  have hinsert : (s.insertValidated d).2.authority = s.authority := by
    unfold insertValidated
    repeat' split
    all_goals rfl
  unfold publishValidated
  split
  · rfl
  · exact hinsert

lemma authority_publishFenced (s : ProvenanceStore) (d : RecordData) (claim : AuthorityClaim) :
    (s.publishFenced d claim).2.authority = s.authority := by
  unfold publishFenced
  split
  · rfl
  · exact s.authority_publishValidated d

lemma publishFenced_step {s : ProvenanceStore} (h : s.Core) (d : RecordData) (claim : AuthorityClaim) :
    s.PublishStep d (s.publishFenced d claim) := by
  unfold publishFenced
  split
  · next o ho =>
    obtain ⟨error, rfl⟩ := rejection_eq_some ho
    exact .rejected error
  · exact publishValidated_step h d

lemma PublishStep.core {s : ProvenanceStore} (h : s.Core) {d : RecordData}
    {r : Except GraphError PublishOutcome × ProvenanceStore} (hr : s.PublishStep d r) : r.2.Core := by
  cases hr with
  | rejected error => exact h
  | accepted g hv hi hg => exact h.commit hi hv hg

lemma PublishStep.live {s : ProvenanceStore} (h : s.Live) {d : RecordData}
    {r : Except GraphError PublishOutcome × ProvenanceStore} (hr : s.PublishStep d r) : r.2.Live := by
  cases hr with
  | rejected error => exact h
  | accepted g hv hi hg => exact h.commit hi hv hg

def withOverlay (s : ProvenanceStore) (status : OrdMap StateId RecordStatus)
    (byValidity : OrdMap (EnumValue ValidityState) (OrdSet StateId)) : ProvenanceStore :=
  { s with status, indexes := { s.indexes with byValidity } }

lemma Core.congr {s s' : ProvenanceStore} (h : s.Core) (hrecords : s'.records = s.records)
    (hprov : s'.provToState = s.provToState) (hgraph : s'.graph = s.graph)
    (hindexes : IndexesExact s.records s'.indexes) : s'.Core := by
  rcases s' with ⟨records, provToState, graph⟩
  simp only at hrecords hprov hgraph hindexes
  subst hrecords hprov hgraph
  exact ⟨h.keyed, h.prov, h.graph, h.nodes, h.arcs,
    fun x rec hx => ⟨(h.resolved x rec hx).inputs, (h.resolved x rec hx).parents⟩, hindexes⟩

lemma Core.withOverlay {s : ProvenanceStore} (h : s.Core) (status : OrdMap StateId RecordStatus)
    (byValidity : OrdMap (EnumValue ValidityState) (OrdSet StateId)) :
    (s.withOverlay status byValidity).Core :=
  h.congr rfl rfl rfl ⟨h.indexes.byModel, h.indexes.byAdapter, h.indexes.byProducer,
    h.indexes.byExecution, h.indexes.byAttempt, h.indexes.byDependency, h.indexes.byArtifact,
    h.indexes.byEvidence⟩

lemma Core.applyAuthority {s : ProvenanceStore} (h : s.Core) (op : AuthorityOp) :
    (s.applyAuthority op).Core :=
  h.congr rfl rfl rfl h.indexes

lemma Live.applyAuthority {s : ProvenanceStore} (h : s.Live) (op : AuthorityOp) :
    (s.applyAuthority op).Live :=
  ⟨h.toCore.applyAuthority op, h.status, h.byValidity⟩

lemma foldl_invalidateOne_frame (subj : InvalidatingSubject) (res : InvalidationResult) (l : List StateId)
    (s : ProvenanceStore) :
    ∃ status byValidity, l.foldl (invalidateOne subj res) s = s.withOverlay status byValidity := by
  induction l generalizing s with
  | nil => exact ⟨s.status, s.indexes.byValidity, rfl⟩
  | cons a l ih =>
    obtain ⟨status, byValidity, h⟩ := ih (invalidateOne subj res s a)
    refine ⟨status, byValidity, ?_⟩
    rw [List.foldl_cons, h]
    unfold invalidateOne
    simp only
    split <;> rfl

lemma invalidate_frame (s : ProvenanceStore) (subj : InvalidatingSubject) :
    ∃ status byValidity, (s.invalidate subj).2 = s.withOverlay status byValidity := by
  unfold invalidate
  split
  · exact ⟨s.status, s.indexes.byValidity, rfl⟩
  · exact foldl_invalidateOne_frame ..

lemma Core.invalidate {s : ProvenanceStore} (h : s.Core) (subj : InvalidatingSubject) :
    (s.invalidate subj).2.Core := by
  obtain ⟨status, byValidity, he⟩ := s.invalidate_frame subj
  rw [he]
  exact h.withOverlay status byValidity

lemma invalidateOne_status (subj : InvalidatingSubject) (res : InvalidationResult) (s : ProvenanceStore)
    (a : StateId) : (invalidateOne subj res s a).status =
      s.status.insert a (invalidatedStatus subj res a (s.status.getD a {})) := rfl

lemma Live.invalidateOne {s : ProvenanceStore} (h : s.Live) (subj : InvalidatingSubject)
    (res : InvalidationResult) {a : StateId} (ha : a ∈ s.records) : (invalidateOne subj res s a).Live where
  toCore := by
    obtain ⟨status, byValidity, he⟩ := foldl_invalidateOne_frame subj res [a] s
    rw [List.foldl_cons, List.foldl_nil] at he
    rw [he]
    exact h.toCore.withOverlay status byValidity
  status := by
    intro x
    rw [invalidateOne_status, ExtTreeMap.mem_insert, LawfulEqCmp.compare_eq_iff_eq, h.status]
    constructor
    · rintro (rfl | hx)
      · exact ha
      · exact hx
    · exact Or.inr
  byValidity := by
    intro v x
    obtain ⟨st, hst⟩ := Option.isSome_iff_exists.mp
      (ExtTreeMap.mem_iff_isSome_getElem?.mp ((h.status a).mpr ha))
    have hget : s.status.getD a {} = st := by
      rw [ExtTreeMap.getD_eq_getD_getElem?, hst, Option.getD_some]
    rw [invalidateOne_status, ExtTreeMap.getElem?_insert]
    unfold ProvenanceStore.invalidateOne
    simp only [hget, LawfulEqCmp.compare_eq_iff_eq]
    by_cases hx : a = x
    · subst hx
      have hval : ∀ w, a ∈ s.indexes.byValidity.getD w ∅ ↔ st.validity = w := by
        intro w
        rw [h.byValidity, hst]
        simp
      split
      · simp only [mem_addTo, mem_removeFrom, hval, if_true, Option.some.injEq, exists_eq_left',
          invalidatedStatus]
        tauto
      · next hinv =>
        rw [not_not] at hinv
        simp [hval, hinv, invalidatedStatus]
    · have hkeep : ∀ w, x ∈ s.indexes.byValidity.getD w ∅ ↔ ∃ st, s.status[x]? = some st ∧ st.validity = w :=
        fun w => h.byValidity w x
      rw [if_neg hx, ← hkeep]
      split
      · simp [hx]
      · rfl

lemma Live.invalidate {s : ProvenanceStore} (h : s.Live) (subj : InvalidatingSubject) :
    (s.invalidate subj).2.Live := by
  unfold ProvenanceStore.invalidate
  split
  · exact h
  next hs =>
  rw [not_not] at hs
  have hmem : ∀ a ∈ (propagateInvalidation s.graph [subj]).affected, a ∈ s.records := by
    intro a ha
    rcases (mem_affected_single h.graph subj a).mp ha with rfl | hpath
    · exact hs
    · obtain ⟨b, -, hb⟩ := Relation.TransGen.tail'_iff.mp hpath
      exact (h.nodes a).mp (h.graph.child_mem hb)
  have run : ∀ (l : List StateId) (t : ProvenanceStore), t.Live → (∀ a ∈ l, a ∈ t.records) →
      (l.foldl (ProvenanceStore.invalidateOne subj (propagateInvalidation s.graph [subj])) t).Live := by
    intro l
    induction l with
    | nil => exact fun t ht _ => ht
    | cons a l ih =>
      intro t ht hl
      refine ih _ (ht.invalidateOne subj _ (hl a List.mem_cons_self)) fun b hb => ?_
      exact hl b (List.mem_cons_of_mem _ hb)
  exact run _ s h hmem

end ProvenanceStore

end StateProvenance
