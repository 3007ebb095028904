import StateProvenance.Persist

/-! The payload of a publish frame: the authority claim in thirteen 64-bit words, then the record. -/

namespace StateProvenance

open Std Library.OrderedMap Library.ByteCodec

def optionalWord {Tag : Type} (g : Option (ScalarIdentifier Tag)) : Chunk :=
  BinaryWriter.u64 (g.elim 0 ScalarIdentifier.get)

def encodeClaim (c : AuthorityClaim) : List Chunk :=
  [BinaryWriter.u64 c.coordinatorEpoch, BinaryWriter.id c.workerId, BinaryWriter.id c.workerBoot,
    BinaryWriter.id c.attemptId, BinaryWriter.id c.attemptGeneration, BinaryWriter.id c.stateGeneration,
    BinaryWriter.id c.provenanceGeneration, optionalWord c.artifactGeneration,
    optionalWord c.modelGeneration, optionalWord c.adapterGeneration, optionalWord c.compositionGeneration,
    optionalWord c.policyGeneration, optionalWord c.dependencyGeneration]

structure ClaimReader where
  -- The reader and the one variable that every word is read into; a failed read leaves it as it is.
  r : BinaryReader
  u : UInt64 := 0

def ClaimReader.next : StateM ClaimReader UInt64 := fun s =>
  match s.r.u64 with
  | (some u, r) => (u, ⟨r, u⟩)
  | (none, r) => (s.u, ⟨r, s.u⟩)

def ClaimReader.nextId {Tag : Type} : StateM ClaimReader (ScalarIdentifier Tag) := do
  let u ← ClaimReader.next
  pure ⟨u⟩

def ClaimReader.nextOptional {Tag : Type} (old : Option (ScalarIdentifier Tag)) :
    StateM ClaimReader (Option (ScalarIdentifier Tag)) := do
  let u ← ClaimReader.next
  pure (if u ≠ 0 then some ⟨u⟩ else old)

def readClaim (c : AuthorityClaim) : StateM ClaimReader AuthorityClaim := do
  let coordinatorEpoch ← ClaimReader.next
  let workerId ← ClaimReader.nextId
  let workerBoot ← ClaimReader.nextId
  let attemptId ← ClaimReader.nextId
  let attemptGeneration ← ClaimReader.nextId
  let stateGeneration ← ClaimReader.nextId
  let provenanceGeneration ← ClaimReader.nextId
  let artifactGeneration ← ClaimReader.nextOptional c.artifactGeneration
  let modelGeneration ← ClaimReader.nextOptional c.modelGeneration
  let adapterGeneration ← ClaimReader.nextOptional c.adapterGeneration
  let compositionGeneration ← ClaimReader.nextOptional c.compositionGeneration
  let policyGeneration ← ClaimReader.nextOptional c.policyGeneration
  let dependencyGeneration ← ClaimReader.nextOptional c.dependencyGeneration
  pure {
    coordinatorEpoch, workerId, workerBoot, attemptId, attemptGeneration, stateGeneration
    provenanceGeneration, artifactGeneration, modelGeneration, adapterGeneration, compositionGeneration
    policyGeneration, dependencyGeneration }

def decodeClaim (payload : ByteString) (off : ℕ) (c : AuthorityClaim) : AuthorityClaim × ℕ :=
  let res := readClaim c ⟨⟨payload.drop off, true⟩, 0⟩
  (res.1, off + (payload.length - res.2.r.remaining))

def encodePublishPayload (d : RecordData) (c : AuthorityClaim) : Except String ByteString :=
  emit (encodeClaim c ++ writeRecord d)

def decodePublishPayload (payload : ByteString) : Option (RecordData × AuthorityClaim) :=
  if payload.length < 104 then none
  else
    let (c, off) := decodeClaim payload 0 {}
    match readRecord {} ⟨payload.drop off, true⟩ with
    | .error _ => none
    | .ok (d, _) => some (d, c)

end StateProvenance
