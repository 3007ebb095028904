import StateProvenance.Ids

/-! Typed domain vocabulary. An object of an `enum class` type with underlying type `std::uint8_t`
may hold any byte, so its value is either a named enumerator or one of the remaining bytes. -/

namespace StateProvenance

open Std Library.OrderedMap

class EnumClass (E : Type) where
  code : E → UInt8
  table : List (E × String)
  code_injective : Function.Injective code
  mem_table : ∀ e, e ∈ table.map Prod.fst

namespace EnumClass

variable {E : Type} [EnumClass E]

def ofCode? (b : UInt8) : Option E := (table.map Prod.fst).find? fun e => code e == b

def parse (s : ByteString) : Option E := (table.find? fun entry => s = ByteString.ofText entry.2).map Prod.fst

lemma ofCode?_eq_some_iff (b : UInt8) (e : E) : ofCode? b = some e ↔ code e = b := by
  constructor
  · intro h
    simpa using List.find?_some h
  · rintro rfl
    obtain ⟨a, ha⟩ : ∃ a : E, ofCode? (code e) = some a := by
      rw [← Option.isSome_iff_exists, ofCode?, List.find?_isSome]
      exact ⟨e, mem_table e, by simp⟩
    have hc : code a = code e := by simpa using List.find?_some ha
    rw [ha, code_injective hc]

end EnumClass

inductive EnumValue (E : Type) [EnumClass E]
  | named (e : E)
  | unnamed (b : UInt8) (h : EnumClass.ofCode? (E := E) b = none)

namespace EnumValue

variable {E : Type} [EnumClass E]

def toByte : EnumValue E → UInt8
  | .named e => EnumClass.code e
  | .unnamed b _ => b

/-- `static_cast<E>(b)`. -/
def ofByte (b : UInt8) : EnumValue E :=
  match h : EnumClass.ofCode? (E := E) b with
  | some e => .named e
  | none => .unnamed b h

@[simp] lemma toByte_ofByte (b : UInt8) : (ofByte b : EnumValue E).toByte = b := by
  rw [ofByte]
  split
  · next e h => exact (EnumClass.ofCode?_eq_some_iff b e).mp h
  · rfl

lemma toByte_injective : Function.Injective (toByte (E := E)) := by
  rintro (a | ⟨a, ha⟩) (b | ⟨b, hb⟩) h
  · exact congrArg named (EnumClass.code_injective h)
  · have := (EnumClass.ofCode?_eq_some_iff b a).mpr h
    rw [hb] at this
    contradiction
  · have := (EnumClass.ofCode?_eq_some_iff a b).mpr h.symm
    rw [ha] at this
    contradiction
  · cases h
    rfl

@[simp] lemma ofByte_toByte (v : EnumValue E) : ofByte v.toByte = v := toByte_injective (toByte_ofByte _)

instance : DecidableEq (EnumValue E) := fun _ _ =>
  decidable_of_iff _ toByte_injective.eq_iff

instance : Ord (EnumValue E) := ⟨fun a b => compare a.toByte b.toByte⟩

instance : TransOrd (EnumValue E) := transOrd_of_map toByte fun _ _ => rfl

instance : LawfulEqOrd (EnumValue E) := lawfulEqOrd_of_injective toByte toByte_injective fun _ _ => rfl

def isValid (v : EnumValue E) : Bool := (EnumClass.table (E := E)).any fun entry => named entry.1 = v

def nameOf (v : EnumValue E) : String :=
  (((EnumClass.table (E := E)).find? fun entry => named entry.1 = v).map Prod.snd).getD "Unknown"

@[simp] lemma isValid_iff (v : EnumValue E) : v.isValid = true ↔ ∃ e, v = .named e := by
  simp only [isValid, List.any_eq_true, decide_eq_true_eq]
  constructor
  · rintro ⟨entry, _, rfl⟩
    exact ⟨entry.1, rfl⟩
  · rintro ⟨e, rfl⟩
    obtain ⟨entry, hm, rfl⟩ := List.mem_map.mp (EnumClass.mem_table e)
    exact ⟨entry, hm, rfl⟩

end EnumValue

inductive SubjectKind
  | kvState | tensorState | reusablePrefix | modelArtifact | adapter | compiledKernel
  | executionGraph | checkpoint | buffer | modelResidency | derivedExecutionPlan
  | compiledArtifact | runtimeCache | reusableComputation | generic | unknown
deriving DecidableEq

instance : EnumClass SubjectKind where
  code e := e.ctorIdx.toUInt8
  table :=
    [(.kvState, "KVState"), (.tensorState, "TensorState"), (.reusablePrefix, "ReusablePrefix"),
      (.modelArtifact, "ModelArtifact"), (.adapter, "Adapter"), (.compiledKernel, "CompiledKernel"),
      (.executionGraph, "ExecutionGraph"), (.checkpoint, "Checkpoint"), (.buffer, "Buffer"),
      (.modelResidency, "ModelResidency"), (.derivedExecutionPlan, "DerivedExecutionPlan"),
      (.compiledArtifact, "CompiledArtifact"), (.runtimeCache, "RuntimeCache"),
      (.reusableComputation, "ReusableComputation"), (.generic, "Generic"), (.unknown, "Unknown")]
  code_injective := Function.LeftInverse.injective (g := fun b => SubjectKind.ofNat b.toNat) (by
    intro e
    cases e <;> rfl)
  mem_table := by
    intro e
    cases e <;> decide

inductive EvidenceClass
  | measured | reported | derived | reconstructed | estimated | unknown
deriving DecidableEq

instance : EnumClass EvidenceClass where
  code e := e.ctorIdx.toUInt8
  table :=
    [(.measured, "MEASURED"), (.reported, "REPORTED"), (.derived, "DERIVED"),
      (.reconstructed, "RECONSTRUCTED"), (.estimated, "ESTIMATED"), (.unknown, "UNKNOWN")]
  code_injective := Function.LeftInverse.injective (g := fun b => EvidenceClass.ofNat b.toNat) (by
    intro e
    cases e <;> rfl)
  mem_table := by
    intro e
    cases e <;> decide

inductive ValidityState
  | valid | stale | invalidated | unknown
deriving DecidableEq

instance : EnumClass ValidityState where
  code e := e.ctorIdx.toUInt8
  table := [(.valid, "VALID"), (.stale, "STALE"), (.invalidated, "INVALIDATED"), (.unknown, "UNKNOWN")]
  code_injective := Function.LeftInverse.injective (g := fun b => ValidityState.ofNat b.toNat) (by
    intro e
    cases e <;> rfl)
  mem_table := by
    intro e
    cases e <;> decide

inductive ReuseEligibility
  | eligible | ineligible | stale | invalidated | incompatible | incompleteProvenance | unknown
deriving DecidableEq

instance : EnumClass ReuseEligibility where
  code e := e.ctorIdx.toUInt8
  table :=
    [(.eligible, "ELIGIBLE"), (.ineligible, "INELIGIBLE"), (.stale, "STALE"),
      (.invalidated, "INVALIDATED"), (.incompatible, "INCOMPATIBLE"),
      (.incompleteProvenance, "INCOMPLETE_PROVENANCE"), (.unknown, "UNKNOWN")]
  code_injective := Function.LeftInverse.injective (g := fun b => ReuseEligibility.ofNat b.toNat) (by
    intro e
    cases e <;> rfl)
  mem_table := by
    intro e
    cases e <;> decide

inductive InvalidationReason
  | modelRevisionChange | adapterRevisionChange | compositionChange | artifactInvalidation
  | dependencyInvalidation | runtimeBackendIncompatibility | architectureIncompatibility
  | policyGenerationChange | operatorInvalidation | corruptState | producerGenerationRollover | unknown
deriving DecidableEq

instance : EnumClass InvalidationReason where
  code e := e.ctorIdx.toUInt8
  table :=
    [(.modelRevisionChange, "ModelRevisionChange"), (.adapterRevisionChange, "AdapterRevisionChange"),
      (.compositionChange, "CompositionChange"), (.artifactInvalidation, "ArtifactInvalidation"),
      (.dependencyInvalidation, "DependencyInvalidation"),
      (.runtimeBackendIncompatibility, "RuntimeBackendIncompatibility"),
      (.architectureIncompatibility, "ArchitectureIncompatibility"),
      (.policyGenerationChange, "PolicyGenerationChange"), (.operatorInvalidation, "OperatorInvalidation"),
      (.corruptState, "CorruptState"), (.producerGenerationRollover, "ProducerGenerationRollover"),
      (.unknown, "Unknown")]
  code_injective := Function.LeftInverse.injective (g := fun b => InvalidationReason.ofNat b.toNat) (by
    intro e
    cases e <;> rfl)
  mem_table := by
    intro e
    cases e <;> decide

inductive CompatibilityDimension
  | modelIdentity | modelRevision | tokenizer | adapterIdentity | adapterRevision
  | adapterComposition | backend | runtime | compiler | toolchain | architecture
  | computeCapability | abi | dtype | layout | tensorGeometry | shapeSpecialization
  | kernelSpecialization | graphTopology | modelGen | adapterGen | compositionGen
  | runtimeGen | policyGen | artifactGen | residencyGen | dependencyGen
  | provenanceIntegrity | unknown
deriving DecidableEq

instance : EnumClass CompatibilityDimension where
  code e := e.ctorIdx.toUInt8
  table :=
    [(.modelIdentity, "ModelIdentity"), (.modelRevision, "ModelRevision"), (.tokenizer, "Tokenizer"),
      (.adapterIdentity, "AdapterIdentity"), (.adapterRevision, "AdapterRevision"),
      (.adapterComposition, "AdapterComposition"), (.backend, "Backend"), (.runtime, "Runtime"),
      (.compiler, "Compiler"), (.toolchain, "Toolchain"), (.architecture, "Architecture"),
      (.computeCapability, "ComputeCapability"), (.abi, "ABI"), (.dtype, "Dtype"), (.layout, "Layout"),
      (.tensorGeometry, "TensorGeometry"), (.shapeSpecialization, "ShapeSpecialization"),
      (.kernelSpecialization, "KernelSpecialization"), (.graphTopology, "GraphTopology"),
      (.modelGen, "ModelGen"), (.adapterGen, "AdapterGen"), (.compositionGen, "CompositionGen"),
      (.runtimeGen, "RuntimeGen"), (.policyGen, "PolicyGen"), (.artifactGen, "ArtifactGen"),
      (.residencyGen, "ResidencyGen"), (.dependencyGen, "DependencyGen"),
      (.provenanceIntegrity, "ProvenanceIntegrity"), (.unknown, "Unknown")]
  code_injective := Function.LeftInverse.injective (g := fun b => CompatibilityDimension.ofNat b.toNat) (by
    intro e
    cases e <;> rfl)
  mem_table := by
    intro e
    cases e <;> decide

end StateProvenance
