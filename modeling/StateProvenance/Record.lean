import StateProvenance.Digest

/-! Immutable provenance records: the data, the one check on it, and the digest over it. -/

namespace StateProvenance

open Std Library.OrderedMap Digest

structure Dependency where
  id : DependencyId := {}
  generation : DependencyGeneration := {}
  kind : ByteString := []
  revision : ByteString := []
deriving DecidableEq

structure CompatibilityRequirement where
  dimension : EnumValue CompatibilityDimension
  requiredValue : ByteString := []
  note : ByteString := []
deriving DecidableEq

instance : Ord Dependency := ⟨fun a b =>
  (compare a.id b.id).then ((compare a.generation b.generation).then
    ((compare a.kind b.kind).then (compare a.revision b.revision)))⟩

instance : Ord CompatibilityRequirement := ⟨fun a b =>
  (compare a.dimension b.dimension).then
    ((compare a.requiredValue b.requiredValue).then (compare a.note b.note))⟩

instance : TransOrd Dependency :=
  inferInstanceAs (TransCmp (compareLex (compareOn Dependency.id) (compareLex (compareOn Dependency.generation)
    (compareLex (compareOn Dependency.kind) (compareOn Dependency.revision)))))

instance : LawfulEqOrd Dependency where
  compare_self := ReflCmp.compare_self
  eq_of_compare := by
    rintro ⟨i, g, k, r⟩ ⟨i', g', k', r'⟩ h
    have hcompare : compare (⟨i, g, k, r⟩ : Dependency) ⟨i', g', k', r'⟩ =
        (compare i i').then ((compare g g').then ((compare k k').then (compare r r'))) := rfl
    simp only [hcompare, Ordering.then_eq_eq, LawfulEqCmp.compare_eq_iff_eq] at h
    obtain ⟨rfl, rfl, rfl, rfl⟩ := h
    rfl

instance : TransOrd CompatibilityRequirement :=
  inferInstanceAs (TransCmp (compareLex (compareOn CompatibilityRequirement.dimension)
    (compareLex (compareOn CompatibilityRequirement.requiredValue) (compareOn CompatibilityRequirement.note))))

instance : LawfulEqOrd CompatibilityRequirement where
  compare_self := ReflCmp.compare_self
  eq_of_compare := by
    rintro ⟨d, v, n⟩ ⟨d', v', n'⟩ h
    have hcompare : compare (⟨d, v, n⟩ : CompatibilityRequirement) ⟨d', v', n'⟩ =
        (compare d d').then ((compare v v').then (compare n n')) := rfl
    simp only [hcompare, Ordering.then_eq_eq, LawfulEqCmp.compare_eq_iff_eq] at h
    obtain ⟨rfl, rfl, rfl⟩ := h
    rfl

structure RecordData where
  provenanceId : ProvenanceId := {}
  provenanceGeneration : ProvenanceGeneration := {}
  subjectId : StateId := {}
  subjectKind : EnumValue SubjectKind := .named .unknown
  stateGeneration : StateGeneration := {}
  producerId : ProducerId := {}
  producerGeneration : ProducerGeneration := {}
  executionId : ExecutionId := {}
  attemptId : AttemptId := {}
  attemptGeneration : AttemptGeneration := {}
  createdAt : Int64 := 0
  modelId : ModelId := {}
  modelGeneration : ModelGeneration := {}
  modelRevision : ByteString := []
  tokenizer : ByteString := []
  adapterId : AdapterId := {}
  adapterGeneration : AdapterGeneration := {}
  adapterRevision : ByteString := []
  compositionId : CompositionId := {}
  compositionGeneration : CompositionGeneration := {}
  compositionFingerprint : ByteString := []
  runtimeId : RuntimeId := {}
  runtimeGeneration : RuntimeGeneration := {}
  artifactGeneration : ArtifactGeneration := {}
  backendId : BackendId := {}
  toolchainId : ToolchainId := {}
  deviceId : DeviceId := {}
  architecture : ByteString := []
  computeCapability : ByteString := []
  abi : ByteString := []
  dtype : ByteString := []
  layout : ByteString := []
  shape : ByteString := []
  inputStates : List StateId := []
  parentProvenance : List ProvenanceId := []
  dependencies : List Dependency := []
  requirements : List CompatibilityRequirement := []
  policyId : PolicyId := {}
  policyGeneration : PolicyGeneration := {}
  policyFingerprint : ByteString := []
  contentDigest : ByteString := []
  coordinatorEpoch : UInt64 := 0
  workerId : WorkerId := {}
  workerBoot : WorkerBootId := {}
  evidence : EnumValue EvidenceClass := .named .unknown
  validity : EnumValue ValidityState := .named .valid
  invalidationReason : EnumValue InvalidationReason := .named .unknown
  reuseEligibility : EnumValue ReuseEligibility := .named .unknown
  note : ByteString := []

def validateRecord (d : RecordData) : Option String :=
  if !d.provenanceId.valid then some "provenance_id must be non-zero"
  else if !d.provenanceGeneration.valid then some "provenance_generation must be non-zero"
  else if !d.subjectId.valid then some "subject_id must be non-zero"
  else if !d.stateGeneration.valid then some "state_generation must be non-zero"
  else if !d.producerId.valid then some "producer_id must be non-zero"
  else if !d.producerGeneration.valid then some "producer_generation must be non-zero"
  else if d.subjectKind = .named .unknown then some "subject_kind must be specified"
  else if d.inputStates.isEmpty && d.parentProvenance.isEmpty && d.dependencies.isEmpty
      && !d.executionId.valid then
    some "record must reference at least one input/execution/parent"
  else if hasAdjacentDuplicate (stdSort d.inputStates) then some "duplicate input_states reference"
  else if hasAdjacentDuplicate (stdSort d.parentProvenance) then
    some "duplicate parent_provenance reference"
  else if d.parentProvenance.any (· = d.provenanceId) then some "record cannot be its own parent"
  else if d.dependencies.any (fun dep => !dep.id.valid) then some "dependency id must be non-zero"
  else d.requirements.findSome? fun (req : CompatibilityRequirement) =>
    if req.dimension = .named .unknown then some "requirement dimension must be specified"
    else if req.requiredValue.isEmpty then some "requirement value must be non-empty"
    else none

structure RecordData.Acceptable (d : RecordData) : Prop where
  provenanceId : d.provenanceId.valid = true
  provenanceGeneration : d.provenanceGeneration.valid = true
  subjectId : d.subjectId.valid = true
  stateGeneration : d.stateGeneration.valid = true
  producerId : d.producerId.valid = true
  producerGeneration : d.producerGeneration.valid = true
  subjectKind : d.subjectKind ≠ .named .unknown
  grounded : d.inputStates = [] → d.parentProvenance = [] → d.dependencies = [] → d.executionId.valid = true
  inputStates : d.inputStates.Nodup
  parentProvenance : d.parentProvenance.Nodup
  notOwnParent : d.provenanceId ∉ d.parentProvenance
  dependencies : ∀ dep ∈ d.dependencies, dep.id.valid = true
  requirements : ∀ req ∈ d.requirements, req.dimension ≠ .named .unknown ∧ req.requiredValue ≠ []

lemma ite_some_eq_none {c : Prop} [Decidable c] {e : String} {rest : Option String} :
    (if c then some e else rest) = none ↔ ¬ c ∧ rest = none := by
  split
  · next hc => simp [hc]
  · next hc => simp [hc]

lemma validateRecord_eq_none_iff (d : RecordData) : validateRecord d = none ↔ d.Acceptable := by
  have hrequirement : ∀ req : CompatibilityRequirement,
      (if req.dimension = .named .unknown then some "requirement dimension must be specified"
        else if req.requiredValue.isEmpty then some "requirement value must be non-empty"
        else none) = none ↔ req.dimension ≠ .named .unknown ∧ req.requiredValue ≠ [] := by
    intro req
    simp only [ite_some_eq_none, List.isEmpty_iff, and_true, ne_eq]
  simp only [validateRecord, ite_some_eq_none, List.findSome?_eq_none_iff, hrequirement, Bool.not_eq_true,
    hasAdjacentDuplicate_stdSort, Bool.not_eq_false', List.any_eq_false, decide_eq_true_eq]
  constructor
  · rintro ⟨h1, h2, h3, h4, h5, h6, hkind, hground, hinputs, hparents, hown, hdeps, hreqs⟩
    refine ⟨h1, h2, h3, h4, h5, h6, hkind, ?_, hinputs, hparents, ?_, ?_, hreqs⟩
    · intro hi hp hd
      simpa [hi, hp, hd] using hground
    · exact fun hm => hown _ hm rfl
    · simpa using hdeps
  · intro h
    refine ⟨h.provenanceId, h.provenanceGeneration, h.subjectId, h.stateGeneration, h.producerId,
      h.producerGeneration, h.subjectKind, ?_, h.inputStates, h.parentProvenance, ?_, ?_, h.requirements⟩
    · have hground := h.grounded
      simp only [Bool.and_eq_false_iff, List.isEmpty_eq_false_iff, Bool.not_eq_false']
      tauto
    · rintro p hp rfl
      exact h.notOwnParent hp
    · simpa using h.dependencies

structure ProvenanceRecord where
  d : RecordData

namespace ProvenanceRecord

def derivationDigest (rec : ProvenanceRecord) : String :=
  let r := rec.d
  let sd : StableDigest := ⟨0x70726f76656e6365⟩
  let sd := sd.withId r.provenanceId |>.withId r.provenanceGeneration
    |>.withId r.subjectId |>.withEnum r.subjectKind
    |>.withId r.stateGeneration |>.withId r.producerId |>.withId r.producerGeneration
    |>.withId r.executionId |>.withId r.attemptId |>.withId r.attemptGeneration
    |>.withWord r.createdAt.toUInt64
    |>.withId r.modelId |>.withId r.modelGeneration |>.withString r.modelRevision
    |>.withString r.tokenizer
    |>.withId r.adapterId |>.withId r.adapterGeneration |>.withString r.adapterRevision
    |>.withId r.compositionId |>.withId r.compositionGeneration |>.withString r.compositionFingerprint
    |>.withId r.runtimeId |>.withId r.runtimeGeneration |>.withId r.backendId
    |>.withId r.toolchainId |>.withId r.deviceId |>.withString r.architecture
    |>.withString r.computeCapability |>.withString r.abi |>.withString r.dtype
    |>.withString r.layout |>.withString r.shape
    |>.withId r.policyId |>.withId r.policyGeneration |>.withString r.policyFingerprint
    |>.withString r.contentDigest |>.withWord r.coordinatorEpoch |>.withId r.workerId
    |>.withId r.workerBoot |>.withEnum r.evidence
    |>.withEnum r.validity |>.withEnum r.invalidationReason
    |>.withEnum r.reuseEligibility |>.withString r.note
  let sortedState := stdSort r.inputStates
  let sd := sortedState.foldl (fun sd v => sd.withWord v.get) sd
  let sd := sd.withWord sortedState.length.toUInt64
  let sortedParent := stdSort r.parentProvenance
  let sd := sortedParent.foldl (fun sd v => sd.withWord v.get) sd
  let sd := sd.withWord sortedParent.length.toUInt64
  let sortedDep := stdSort r.dependencies
  let sd := sortedDep.foldl (fun sd dep =>
    sd.withId dep.id |>.withId dep.generation |>.withString dep.kind |>.withString dep.revision) sd
  let sd := sd.withWord sortedDep.length.toUInt64
  let sortedReq := stdSort r.requirements
  let sd := sortedReq.foldl (fun sd req =>
    sd.withEnum req.dimension |>.withString req.requiredValue |>.withString req.note) sd
  let sd := sd.withWord sortedReq.length.toUInt64
  sd.str

end ProvenanceRecord

def RecordData.produced (n : UInt64) : RecordData where
  provenanceId := ⟨n⟩
  provenanceGeneration := ⟨1⟩
  subjectId := ⟨n⟩
  subjectKind := .named .generic
  stateGeneration := ⟨1⟩
  producerId := ⟨1⟩
  producerGeneration := ⟨1⟩
  executionId := ⟨1⟩

def RecordData.derivedFrom (n parent : UInt64) : RecordData :=
  { RecordData.produced n with inputStates := [⟨parent⟩] }

end StateProvenance
