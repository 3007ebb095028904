import StateProvenance.Library.OrderedMap

/-! Strong typed identifiers and independently rolled generations. A `std::string` is the list of
its bytes. -/

namespace StateProvenance

open Std Library.OrderedMap

abbrev ByteString := List UInt8

def ByteString.ofText (s : String) : ByteString := s.toUTF8.toList

structure ScalarIdentifier (Tag : Type) where
  value : UInt64 := 0

namespace ScalarIdentifier

variable {Tag : Type}

instance : Inhabited (ScalarIdentifier Tag) := ⟨{}⟩

def valid (id : ScalarIdentifier Tag) : Bool := id.value != 0

def get (id : ScalarIdentifier Tag) : UInt64 := id.value

def hex16 (v : UInt64) : String :=
  String.ofList ((List.range 16).map fun i => Nat.digitChar (v.toNat / 16 ^ (15 - i) % 16))

def toText (id : ScalarIdentifier Tag) : String := "0x" ++ hex16 id.value

def digitOf (hex : Bool) (c : UInt8) : Option UInt64 :=
  if 0x30 ≤ c ∧ c ≤ 0x39 then some (c - 0x30).toUInt64
  else if hex ∧ 0x61 ≤ c ∧ c ≤ 0x66 then some ((c - 0x61).toUInt64 + 10)
  else if hex ∧ 0x41 ≤ c ∧ c ≤ 0x46 then some ((c - 0x41).toUInt64 + 10)
  else none

def parseBase (hex : Bool) : UInt64 := if hex then 16 else 10

def parseStep (hex : Bool) (v : UInt64) (c : UInt8) : Option UInt64 := do
  let d ← digitOf hex c
  -- The guard is the largest `v` for which the sum fits into 64 bits.
  if v > (0xFFFFFFFFFFFFFFFF - d) / parseBase hex then none
  else pure (v * parseBase hex + d)

def isHex (s : ByteString) : Bool :=
  s.length > 2 && (s[0]? == some 0x30 && (s[1]? == some 0x78 || s[1]? == some 0x58))

def tryParse (s : ByteString) : Option (ScalarIdentifier Tag) :=
  if s.isEmpty then none
  else
    let digits := if isHex s then s.drop 2 else s
    if digits.isEmpty then none
    else (digits.foldlM (parseStep (isHex s)) 0).map mk

instance : Ord (ScalarIdentifier Tag) := ⟨fun a b => compare a.value b.value⟩

lemma value_injective : Function.Injective (@value Tag) := by
  rintro ⟨a⟩ ⟨b⟩ h
  exact congrArg mk h

instance : DecidableEq (ScalarIdentifier Tag) := fun _ _ => decidable_of_iff _ value_injective.eq_iff

instance : TransOrd (ScalarIdentifier Tag) := transOrd_of_map value fun _ _ => rfl

instance : LawfulEqOrd (ScalarIdentifier Tag) :=
  lawfulEqOrd_of_injective value value_injective fun _ _ => rfl

@[simp] lemma valid_eq_true_iff (id : ScalarIdentifier Tag) : id.valid = true ↔ id ≠ {} := by
  rcases id with ⟨v⟩
  simp [valid]

@[simp] lemma valid_eq_false_iff (id : ScalarIdentifier Tag) : id.valid = false ↔ id = {} := by
  rcases id with ⟨v⟩
  simp [valid]

end ScalarIdentifier

inductive StateIdTag
inductive ProvenanceIdTag
inductive ProducerIdTag
inductive ExecutionIdTag
inductive AttemptIdTag
inductive WorkerIdTag
inductive WorkerBootIdTag
inductive DependencyIdTag
inductive ModelIdTag
inductive AdapterIdTag
inductive CompositionIdTag
inductive PolicyIdTag
inductive RuntimeIdTag
inductive DeviceIdTag
inductive BackendIdTag
inductive ToolchainIdTag

abbrev StateId := ScalarIdentifier StateIdTag
abbrev ProvenanceId := ScalarIdentifier ProvenanceIdTag
abbrev ProducerId := ScalarIdentifier ProducerIdTag
abbrev ExecutionId := ScalarIdentifier ExecutionIdTag
abbrev AttemptId := ScalarIdentifier AttemptIdTag
abbrev WorkerId := ScalarIdentifier WorkerIdTag
abbrev WorkerBootId := ScalarIdentifier WorkerBootIdTag
abbrev DependencyId := ScalarIdentifier DependencyIdTag
abbrev ModelId := ScalarIdentifier ModelIdTag
abbrev AdapterId := ScalarIdentifier AdapterIdTag
abbrev CompositionId := ScalarIdentifier CompositionIdTag
abbrev PolicyId := ScalarIdentifier PolicyIdTag
abbrev RuntimeId := ScalarIdentifier RuntimeIdTag
abbrev DeviceId := ScalarIdentifier DeviceIdTag
abbrev BackendId := ScalarIdentifier BackendIdTag
abbrev ToolchainId := ScalarIdentifier ToolchainIdTag

inductive ProvenanceGenerationTag
inductive AttemptGenerationTag
inductive StateGenerationTag
inductive ProducerGenerationTag
inductive DependencyGenerationTag
inductive PolicyGenerationTag
inductive RuntimeGenerationTag
inductive ArtifactGenerationTag
inductive ModelGenerationTag
inductive AdapterGenerationTag
inductive CompositionGenerationTag

abbrev ProvenanceGeneration := ScalarIdentifier ProvenanceGenerationTag
abbrev AttemptGeneration := ScalarIdentifier AttemptGenerationTag
abbrev StateGeneration := ScalarIdentifier StateGenerationTag
abbrev ProducerGeneration := ScalarIdentifier ProducerGenerationTag
abbrev DependencyGeneration := ScalarIdentifier DependencyGenerationTag
abbrev PolicyGeneration := ScalarIdentifier PolicyGenerationTag
abbrev RuntimeGeneration := ScalarIdentifier RuntimeGenerationTag
abbrev ArtifactGeneration := ScalarIdentifier ArtifactGenerationTag
abbrev ModelGeneration := ScalarIdentifier ModelGenerationTag
abbrev AdapterGeneration := ScalarIdentifier AdapterGenerationTag
abbrev CompositionGeneration := ScalarIdentifier CompositionGenerationTag

end StateProvenance
