import StateProvenance.Reachable
import StateProvenance.Persist
import StateProvenance.Library.Runs

/-! Publishing a set of records in any order that puts every parent before its children. The store that a
publication leaves is described by membership alone, which no order enters. -/

namespace StateProvenance

open Std Library.OrderedMap Library.Runs

def RecordData.ParentOf (e d : RecordData) : Prop :=
  e.subjectId ∈ d.inputStates ∨ e.provenanceId ∈ d.parentProvenance

def ParentsFirst (l : List RecordData) : Prop :=
  ∀ before d after, l = before ++ d :: after → ∀ e ∈ l, e.ParentOf d → e ∈ before

instance (e d : RecordData) : Decidable (e.ParentOf d) := inferInstanceAs (Decidable (_ ∨ _))

lemma parentsFirst_of_pairwise {l : List RecordData} (h : l.Pairwise fun d e => ¬ e.ParentOf d)
    (hself : ∀ d ∈ l, ¬ d.ParentOf d) : ParentsFirst l := by
  rintro before d after rfl e he hp
  rcases List.mem_append.mp he with he | he
  · exact he
  · have hlater := (List.pairwise_cons.mp (List.pairwise_append.mp h).2.1).1
    rcases List.mem_cons.mp he with rfl | he
    · exact absurd hp (hself e (by simp))
    · exact absurd hp (hlater e he)

def RecordData.recordStatus (d : RecordData) : RecordStatus :=
  ⟨d.validity, d.invalidationReason, d.provenanceGeneration, d.note⟩

namespace ProvenanceStore

structure Batch (s : ProvenanceStore) (l : List RecordData) : Prop where
  valid : ∀ d ∈ l, validateRecord d = none
  subjects : (l.map RecordData.subjectId).Nodup
  provenanceIds : (l.map RecordData.provenanceId).Nodup
  newSubject : ∀ d ∈ l, d.subjectId ∉ s.records
  newProvenance : ∀ d ∈ l, d.provenanceId ∉ s.provToState
  inputs : ∀ d ∈ l, ∀ x ∈ d.inputStates, x ∈ s.records ∨ ∃ e ∈ l, e.subjectId = x
  parents : ∀ d ∈ l, ∀ q ∈ d.parentProvenance, q ∈ s.provToState ∨ ∃ e ∈ l, e.provenanceId = q

lemma Batch.perm {s : ProvenanceStore} {l l' : List RecordData} (h : s.Batch l) (hp : l.Perm l') :
    s.Batch l' where
  valid := fun d hd => h.valid d (hp.mem_iff.mpr hd)
  subjects := (hp.map _).nodup_iff.mp h.subjects
  provenanceIds := (hp.map _).nodup_iff.mp h.provenanceIds
  newSubject := fun d hd => h.newSubject d (hp.mem_iff.mpr hd)
  newProvenance := fun d hd => h.newProvenance d (hp.mem_iff.mpr hd)
  inputs := by
    intro d hd x hx
    simpa only [hp.mem_iff] using h.inputs d (hp.mem_iff.mpr hd) x hx
  parents := by
    intro d hd q hq
    simpa only [hp.mem_iff] using h.parents d (hp.mem_iff.mpr hd) q hq

lemma Batch.insertion {s : ProvenanceStore} {l : List RecordData} (h : s.Batch l) (ho : ParentsFirst l) :
    s.Insertion (l.map ProvenanceRecord.mk) := by
  have split : ∀ {before rec after}, l.map ProvenanceRecord.mk = before ++ rec :: after →
      ∃ b a, l = b ++ rec.d :: a ∧ before = b.map ProvenanceRecord.mk := by
    intro before rec after he
    obtain ⟨b, rest, rfl, rfl, hrest⟩ := List.map_eq_append_iff.mp he
    obtain ⟨d, a, rfl, rfl, -⟩ := List.map_eq_cons_iff.mp hrest
    exact ⟨b, a, rfl, rfl⟩
  refine ⟨?_, ?_, ?_, ?_, ?_, ?_⟩
  · rw [StateProvenance.subjects, List.map_map]
    exact h.subjects
  · rw [StateProvenance.provenanceIds, List.map_map]
    exact h.provenanceIds
  · exact List.forall_mem_map.mpr h.newSubject
  · exact List.forall_mem_map.mpr h.newProvenance
  · intro before rec after he x hx
    obtain ⟨b, a, hl, rfl⟩ := split he
    refine (h.inputs rec.d (by simp [hl]) x hx).imp_right ?_
    rintro ⟨e, hm, rfl⟩
    have hb := ho b rec.d a hl e hm (Or.inl hx)
    exact List.mem_map.mpr ⟨⟨e⟩, List.mem_map_of_mem hb, rfl⟩
  · intro before rec after he q hq
    obtain ⟨b, a, hl, rfl⟩ := split he
    refine (h.parents rec.d (by simp [hl]) q hq).imp_right ?_
    rintro ⟨e, hm, rfl⟩
    have hb := ho b rec.d a hl e hm (Or.inr hq)
    exact List.mem_map.mpr ⟨⟨e⟩, List.mem_map_of_mem hb, rfl⟩

def publishStep (s : ProvenanceStore) (d : RecordData) : ProvenanceStore := (s.publish d).2

def Accepts (s : ProvenanceStore) (d : RecordData) : Prop :=
  (s.publish d).1 = .ok { ok := true, record := some ⟨d⟩ }

structure Ingested (s : ProvenanceStore) (l : List RecordData) (t : ProvenanceStore) : Prop where
  core : t.Core
  records : ∀ (x : StateId) (rec : ProvenanceRecord), t.records[x]? = some rec ↔
    (rec.d ∈ l ∧ rec.d.subjectId = x) ∨ s.records[x]? = some rec
  status : ∀ (x : StateId) (st : RecordStatus), t.status[x]? = some st ↔
    (∃ d ∈ l, d.subjectId = x ∧ d.recordStatus = st) ∨
      (∀ d ∈ l, d.subjectId ≠ x) ∧ s.status[x]? = some st
  workers : ∀ w, w ∈ t.workers ↔ (∃ d ∈ l, d.workerId.valid = true ∧ d.workerId = w) ∨ w ∈ s.workers
  validities : ∀ v, v ∈ t.indexes.byValidity ↔ (∃ d ∈ l, d.validity = v) ∨ v ∈ s.indexes.byValidity
  byValidity : ∀ v x, x ∈ t.indexes.byValidity.getD v ∅ ↔
    (∃ d ∈ l, d.validity = v ∧ d.subjectId = x) ∨ x ∈ s.indexes.byValidity.getD v ∅
  authority : t.authority = s.authority
  runtimeGeneration : t.runtimeGeneration = s.runtimeGeneration

lemma Ingested.perm {s t : ProvenanceStore} {l l' : List RecordData} (h : s.Ingested l t) (hp : l.Perm l') :
    s.Ingested l' t where
  core := h.core
  records := by simpa only [hp.mem_iff] using h.records
  status := by simpa only [hp.mem_iff] using h.status
  workers := by simpa only [hp.mem_iff] using h.workers
  validities := by simpa only [hp.mem_iff] using h.validities
  byValidity := by simpa only [hp.mem_iff] using h.byValidity
  authority := h.authority
  runtimeGeneration := h.runtimeGeneration

lemma Ingested.unique {s t t' : ProvenanceStore} {l : List RecordData} (h : s.Ingested l t)
    (h' : s.Ingested l t') : t = t' := by
  have hrecords : t.records = t'.records := by
    refine ExtTreeMap.ext_getElem? fun x => Option.ext fun rec => ?_
    rw [h.records, h'.records]
  have hstatus : t.status = t'.status := by
    refine ExtTreeMap.ext_getElem? fun x => Option.ext fun st => ?_
    rw [h.status, h'.status]
  have hworkers : t.workers = t'.workers := set_ext fun w => by rw [h.workers, h'.workers]
  have hvalidity : t.indexes.byValidity = t'.indexes.byValidity := by
    refine map_ext_getD (fun v => by rw [h.validities, h'.validities]) fun v x => ?_
    rw [h.byValidity, h'.byValidity]
  have hindexes : t.indexes = t'.indexes := by
    rw [h.core.indexes_eq h'.core hrecords, hvalidity]
  exact ProvenanceStore.ext hrecords (h.core.provToState_eq h'.core hrecords)
    (h.core.graph_eq h'.core hrecords) hstatus (h.authority.trans h'.authority.symm) hworkers
    (h.runtimeGeneration.trans h'.runtimeGeneration.symm) hindexes

lemma Ingested.nil {s : ProvenanceStore} (h : s.Core) : s.Ingested [] s := by
  constructor <;> simp [h]

lemma Ingested.cons {s t : ProvenanceStore} {d : RecordData} {l : List RecordData} {g : ProvenanceGraph}
    (hd : d.subjectId ∉ l.map RecordData.subjectId) (hnew : d.subjectId ∉ s.records)
    (h : (s.commit d g).Ingested l t) : s.Ingested (d :: l) t where
  core := h.core
  records := by
    intro x rec
    rw [h.records, getElem?_commit_records, List.mem_cons, or_and_right, or_assoc, or_left_comm]
    refine or_congr_right ?_
    split
    · next hx =>
      subst hx
      rw [ExtTreeMap.getElem?_eq_none hnew]
      constructor
      · rintro he
        obtain rfl := Option.some.inj he
        exact Or.inl ⟨rfl, rfl⟩
      · rintro (⟨rfl, -⟩ | he)
        · rfl
        · contradiction
    · next hx =>
      constructor
      · exact Or.inr
      · rintro (⟨rfl, he⟩ | he)
        · exact absurd he hx
        · exact he
  status := by
    intro x st
    rw [h.status, getElem?_commit_status, ← RecordData.recordStatus]
    simp only [List.mem_cons, or_and_right, exists_or, exists_eq_left, forall_eq_or_imp]
    by_cases hx : d.subjectId = x
    · subst hx
      have hrest : ∀ e ∈ l, e.subjectId ≠ d.subjectId := fun e he heq => hd (List.mem_map.mpr ⟨e, he, heq⟩)
      simp only [if_true, Option.some.injEq, true_and, ne_eq, not_true_eq_false, false_and, or_false]
      constructor
      · rintro (he | ⟨-, he⟩)
        · exact Or.inr he
        · exact Or.inl he
      · rintro (he | he)
        · exact Or.inr ⟨hrest, he⟩
        · exact Or.inl he
    · simp [hx]
  workers := by
    intro w
    rw [h.workers, mem_commit_workers]
    simp only [List.mem_cons, or_and_right, exists_or, exists_eq_left]
    exact or_left_comm.trans or_assoc.symm
  validities := by
    intro v
    rw [h.validities, mem_commit_validities]
    simp only [List.mem_cons, or_and_right, exists_or, exists_eq_left]
    exact or_left_comm.trans or_assoc.symm
  byValidity := by
    intro v x
    rw [h.byValidity, mem_commit_byValidity]
    simp only [List.mem_cons, or_and_right, exists_or, exists_eq_left]
    exact or_left_comm.trans or_assoc.symm
  authority := h.authority
  runtimeGeneration := h.runtimeGeneration

lemma publish_ingested {s : ProvenanceStore} (h : s.Core) {l : List RecordData}
    (hv : ∀ d ∈ l, validateRecord d = none) (hi : s.Insertion (l.map ProvenanceRecord.mk)) :
    Along publishStep Accepts s l ∧ s.Ingested l (run publishStep s l) := by
  induction l generalizing s with
  | nil => exact ⟨trivial, .nil h⟩
  | cons d l ih =>
    rw [List.map_cons] at hi
    have hvalid := hv d List.mem_cons_self
    obtain ⟨g, hg, he⟩ := publish_accepted h hvalid hi.head
    have hstep : publishStep s d = s.commit d g := by rw [publishStep, he]
    have hcore := h.commit hi.head hvalid hg
    obtain ⟨halong, hrest⟩ := ih hcore (fun e hm => hv e (List.mem_cons_of_mem _ hm)) (hi.tail g)
    rw [along_cons, run_cons, hstep]
    refine ⟨⟨by rw [Accepts, he], halong⟩, hrest.cons ?_ hi.head.newSubject⟩
    have hsub := (List.nodup_cons.mp hi.subjects).1
    rwa [List.map_map] at hsub

theorem ingestion_order_irrelevant {s : ProvenanceStore} (h : LoadReachable s) {l₁ l₂ : List RecordData}
    (hb : s.Batch l₁) (hperm : l₁.Perm l₂) (h₁ : ParentsFirst l₁) (h₂ : ParentsFirst l₂) :
    Along publishStep Accepts s l₁ ∧ Along publishStep Accepts s l₂ ∧
      encodeSnapshot (run publishStep s l₁).snapshot = encodeSnapshot (run publishStep s l₂).snapshot ∧
      storeDigest (run publishStep s l₁).snapshot = storeDigest (run publishStep s l₂).snapshot ∧
      run publishStep s l₁ = run publishStep s l₂ := by
  have hb₂ := hb.perm hperm
  obtain ⟨halong₁, hin₁⟩ := publish_ingested h.core hb.valid (hb.insertion h₁)
  obtain ⟨halong₂, hin₂⟩ := publish_ingested h.core hb₂.valid (hb₂.insertion h₂)
  have hsame := (hin₁.perm hperm).unique hin₂
  exact ⟨halong₁, halong₂, by rw [hsame], by rw [hsame], hsame⟩

def joined : RecordData := { RecordData.produced 3 with inputStates := [⟨1⟩], parentProvenance := [⟨2⟩] }

lemma batch_joined : ({} : ProvenanceStore).Batch [.produced 1, .produced 2, joined] := by
  constructor <;> decide

theorem joined_order_irrelevant : run publishStep {} [.produced 1, .produced 2, joined] =
    run publishStep {} [.produced 2, .produced 1, joined] :=
  (ingestion_order_irrelevant .empty batch_joined (.swap _ _ _)
    (parentsFirst_of_pairwise (by decide) (by decide))
    (parentsFirst_of_pairwise (by decide) (by decide))).2.2.2.2

end ProvenanceStore

end StateProvenance
