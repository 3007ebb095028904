import StateProvenance.Store
import StateProvenance.Library.ByteCodec

/-! Versioned binary persistence. The writer is the list of the parts it appends, in the source's order;
each field of the reader names the error that its failure returns. -/

namespace StateProvenance

open Std Library.OrderedMap Library.ByteCodec Digest

def kFormatVersion : UInt32 := 1
def kMaxPayloadLen : UInt64 := 512 * 1024 * 1024
def kMaxStringLen : UInt32 := 64 * 1024 * 1024
def kMaxVecLen : UInt32 := (1 : UInt32) <<< 26
def kMaxRecords : UInt64 := (1 : UInt64) <<< 24
def kPayloadMagic : UInt64 := 0x53505256
def kFileMagic : List UInt8 := [0x53, 0x50, 0x52, 0x4F, 0x56, 0x31, 0x2E, 0x30]

namespace BinaryWriter

def u8 (v : UInt8) : Chunk := .ok [v]

def u32 (v : UInt32) : Chunk := .ok (toLE 4 v.toNat)

def u64 (v : UInt64) : Chunk := .ok (toLE 8 v.toNat)

def i64 (v : Int64) : Chunk := u64 v.toUInt64

def str (s : ByteString) : Chunk :=
  if s.length > kMaxStringLen.toNat then .error "string length bound exceeded"
  else .ok (toLE 4 s.length.toUInt32.toNat ++ s)

def id {Tag : Type} (v : ScalarIdentifier Tag) : Chunk := u64 v.get

def enum {E : Type} [EnumClass E] (v : EnumValue E) : Chunk := u8 v.toByte

def size (n : ℕ) : Chunk := u32 n.toUInt32

end BinaryWriter

abbrev BinaryReader := Cursor

namespace BinaryReader

def u8 (r : BinaryReader) : Option UInt8 × BinaryReader :=
  ((r.take 1).1.map fun b => b.headD 0, (r.take 1).2)

def u32 (r : BinaryReader) : Option UInt32 × BinaryReader :=
  ((r.take 4).1.map fun b => (ofLE b).toUInt32, (r.take 4).2)

def u64 (r : BinaryReader) : Option UInt64 × BinaryReader :=
  ((r.take 8).1.map fun b => (ofLE b).toUInt64, (r.take 8).2)

def i64 (r : BinaryReader) : Option Int64 × BinaryReader := (r.u64.1.map UInt64.toInt64, r.u64.2)

def str (r : BinaryReader) : Option ByteString × BinaryReader :=
  match u32 r with
  | (none, r) => (none, r)
  | (some len, r) => if len > kMaxStringLen then (none, { r with ok := false }) else r.take len.toNat

end BinaryReader

namespace ReadField

def word (err : String) : Parse UInt64 := need BinaryReader.u64 err

def signed (err : String) : Parse Int64 := need BinaryReader.i64 err

def str (err : String) : Parse ByteString := need BinaryReader.str err

def id {Tag : Type} (err : String) : Parse (ScalarIdentifier Tag) := do
  let u ← need BinaryReader.u64 err
  pure ⟨u⟩

def enum {E : Type} [EnumClass E] (err invalid : String) : Parse (EnumValue E) := do
  let b ← need BinaryReader.u8 err
  check (EnumValue.ofByte (E := E) b).isValid invalid
  pure (.ofByte b)

def count (err : String) : Parse ℕ := do
  let n ← need BinaryReader.u32 err
  check (n ≤ kMaxVecLen) err
  pure n.toNat

end ReadField

section WriteRecord

open BinaryWriter

def identityChunks (d : RecordData) : List Chunk :=
  [id d.provenanceId, id d.provenanceGeneration, id d.subjectId, enum d.subjectKind,
    id d.stateGeneration, id d.producerId, id d.producerGeneration, id d.executionId, id d.attemptId,
    id d.attemptGeneration, i64 d.createdAt]

def modelChunks (d : RecordData) : List Chunk :=
  [id d.modelId, id d.modelGeneration, str d.modelRevision, str d.tokenizer, id d.adapterId,
    id d.adapterGeneration, str d.adapterRevision, id d.compositionId, id d.compositionGeneration,
    str d.compositionFingerprint]

def runtimeChunks (d : RecordData) : List Chunk :=
  [id d.runtimeId, id d.runtimeGeneration, id d.artifactGeneration, id d.backendId, id d.toolchainId,
    id d.deviceId, str d.architecture, str d.computeCapability, str d.abi, str d.dtype, str d.layout,
    str d.shape]

def dependencyChunks (dep : Dependency) : List Chunk :=
  [id dep.id, id dep.generation, str dep.kind, str dep.revision]

def requirementChunks (req : CompatibilityRequirement) : List Chunk :=
  [enum req.dimension, str req.requiredValue, str req.note]

def referenceChunks (d : RecordData) : List Chunk :=
  size d.inputStates.length :: (d.inputStates.flatMap (fun s => [BinaryWriter.id s]) ++
    size d.parentProvenance.length :: (d.parentProvenance.flatMap (fun s => [BinaryWriter.id s]) ++
      size d.dependencies.length :: (d.dependencies.flatMap dependencyChunks ++
        size d.requirements.length :: d.requirements.flatMap requirementChunks)))

def metadataChunks (d : RecordData) : List Chunk :=
  [id d.policyId, id d.policyGeneration, str d.policyFingerprint, str d.contentDigest,
    u64 d.coordinatorEpoch, id d.workerId, id d.workerBoot, enum d.evidence, enum d.validity,
    enum d.invalidationReason, enum d.reuseEligibility, str d.note]

def writeRecord (d : RecordData) : List Chunk :=
  identityChunks d ++ (modelChunks d ++ (runtimeChunks d ++ (referenceChunks d ++ metadataChunks d)))

end WriteRecord

section ReadRecord

open ReadField

def readIdentity (d : RecordData) : Parse RecordData := do
  let provenanceId ← id "truncated record(provenance_id)"
  let provenanceGeneration ← id "truncated record(provenance_generation)"
  let subjectId ← id "truncated record(subject_id)"
  let subjectKind ← enum "truncated record(subject_kind)" "invalid enum: subject_kind"
  let stateGeneration ← id "truncated record(state_generation)"
  let producerId ← id "truncated record(producer_id)"
  let producerGeneration ← id "truncated record(producer_generation)"
  let executionId ← id "truncated record(execution_id)"
  let attemptId ← id "truncated record(attempt_id)"
  let attemptGeneration ← id "truncated record(attempt_generation)"
  let createdAt ← signed "truncated record(created_at)"
  pure { d with
    provenanceId, provenanceGeneration, subjectId, subjectKind, stateGeneration, producerId
    producerGeneration, executionId, attemptId, attemptGeneration, createdAt }

def readModel (d : RecordData) : Parse RecordData := do
  let modelId ← id "truncated record(model_id)"
  let modelGeneration ← id "truncated record(model_generation)"
  let modelRevision ← str "truncated record(model_revision)"
  let tokenizer ← str "truncated record(tokenizer)"
  let adapterId ← id "truncated record(adapter_id)"
  let adapterGeneration ← id "truncated record(adapter_generation)"
  let adapterRevision ← str "truncated record(adapter_revision)"
  let compositionId ← id "truncated record(composition_id)"
  let compositionGeneration ← id "truncated record(composition_generation)"
  let compositionFingerprint ← str "truncated record(composition_fingerprint)"
  pure { d with
    modelId, modelGeneration, modelRevision, tokenizer, adapterId, adapterGeneration, adapterRevision
    compositionId, compositionGeneration, compositionFingerprint }

def readRuntime (d : RecordData) : Parse RecordData := do
  let runtimeId ← id "truncated record(runtime_id)"
  let runtimeGeneration ← id "truncated record(runtime_generation)"
  let artifactGeneration ← id "truncated record(artifact_generation)"
  let backendId ← id "truncated record(backend_id)"
  let toolchainId ← id "truncated record(toolchain_id)"
  let deviceId ← id "truncated record(device_id)"
  let architecture ← str "truncated record(architecture)"
  let computeCapability ← str "truncated record(compute_capability)"
  let abi ← str "truncated record(abi)"
  let dtype ← str "truncated record(dtype)"
  let layout ← str "truncated record(layout)"
  let shape ← str "truncated record(shape)"
  pure { d with
    runtimeId, runtimeGeneration, artifactGeneration, backendId, toolchainId, deviceId, architecture
    computeCapability, abi, dtype, layout, shape }

def readDependency : Parse Dependency := do
  let depId ← id "truncated dependency id"
  let generation ← id "truncated dependency generation"
  let kind ← str "truncated dependency kind"
  let revision ← str "truncated dependency revision"
  pure { id := depId, generation, kind, revision }

def readRequirement : Parse CompatibilityRequirement := do
  let dimension ← enum "truncated requirement dimension" "invalid enum: requirement dimension"
  let requiredValue ← str "truncated requirement value"
  let note ← str "truncated requirement note"
  pure { dimension, requiredValue, note }

def readReferences (d : RecordData) : Parse RecordData := do
  let n ← count "invalid input_states count"
  let inputStates ← many (id "truncated input_states") n
  let n ← count "invalid parent_provenance count"
  let parentProvenance ← many (id "truncated parent_provenance") n
  let n ← count "invalid dependencies count"
  let dependencies ← many readDependency n
  let n ← count "invalid requirements count"
  let requirements ← many readRequirement n
  pure { d with
    inputStates := d.inputStates ++ inputStates
    parentProvenance := d.parentProvenance ++ parentProvenance
    dependencies := d.dependencies ++ dependencies
    requirements := d.requirements ++ requirements }

def readMetadata (d : RecordData) : Parse RecordData := do
  let policyId ← id "truncated record(policy_id)"
  let policyGeneration ← id "truncated record(policy_generation)"
  let policyFingerprint ← str "truncated record(policy_fingerprint)"
  let contentDigest ← str "truncated record(content_digest)"
  let coordinatorEpoch ← word "truncated record(coordinator_epoch)"
  let workerId ← id "truncated record(worker_id)"
  let workerBoot ← id "truncated record(worker_boot)"
  let evidence ← enum "truncated record(evidence)" "invalid enum: evidence"
  let validity ← enum "truncated record(validity)" "invalid enum: validity"
  let invalidationReason ← enum "truncated record(invalidation_reason)" "invalid enum: invalidation_reason"
  let reuseEligibility ← enum "truncated record(reuse_eligibility)" "invalid enum: reuse_eligibility"
  let note ← str "truncated record(note)"
  pure { d with
    policyId, policyGeneration, policyFingerprint, contentDigest, coordinatorEpoch, workerId, workerBoot
    evidence, validity, invalidationReason, reuseEligibility, note }

def readRecord (d : RecordData) : Parse RecordData := do
  let d ← readIdentity d
  let d ← readModel d
  let d ← readRuntime d
  let d ← readReferences d
  let d ← readMetadata d
  check (validateRecord d).isNone ("record failed validation: " ++ (validateRecord d).getD "")
  pure d

end ReadRecord

def bootChunks (e : WorkerId × WorkerBootId) : List Chunk := [BinaryWriter.id e.1, BinaryWriter.id e.2]

def generationChunks (s : AuthoritySnapshot) : List Chunk :=
  [BinaryWriter.id s.attemptId, BinaryWriter.id s.attemptGeneration, BinaryWriter.id s.stateGeneration,
    BinaryWriter.id s.provenanceGeneration, BinaryWriter.id s.artifactGeneration,
    BinaryWriter.id s.modelGeneration, BinaryWriter.id s.adapterGeneration,
    BinaryWriter.id s.compositionGeneration, BinaryWriter.id s.policyGeneration,
    BinaryWriter.id s.dependencyGeneration]

def writeAuthority (s : AuthoritySnapshot) : List Chunk :=
  BinaryWriter.u64 s.epoch :: BinaryWriter.size s.boots.size ::
    (s.boots.toList.flatMap bootChunks ++ generationChunks s)

def readBoot : Parse (WorkerId × WorkerBootId) := do
  let w ← ReadField.id "truncated boots(worker)"
  let b ← ReadField.id "truncated boots(boot)"
  pure (w, b)

def readGenerations (epoch : UInt64) (boots : OrdMap WorkerId WorkerBootId) : Parse AuthoritySnapshot := do
  let attemptId ← ReadField.id "truncated authority(attempt_id)"
  let attemptGeneration ← ReadField.id "truncated authority(attempt_generation)"
  let stateGeneration ← ReadField.id "truncated authority(state_generation)"
  let provenanceGeneration ← ReadField.id "truncated authority(provenance_generation)"
  let artifactGeneration ← ReadField.id "truncated authority(artifact_generation)"
  let modelGeneration ← ReadField.id "truncated authority(model_generation)"
  let adapterGeneration ← ReadField.id "truncated authority(adapter_generation)"
  let compositionGeneration ← ReadField.id "truncated authority(composition_generation)"
  let policyGeneration ← ReadField.id "truncated authority(policy_generation)"
  let dependencyGeneration ← ReadField.id "truncated authority(dependency_generation)"
  pure {
    epoch, boots, attemptId, attemptGeneration, stateGeneration, provenanceGeneration, artifactGeneration
    modelGeneration, adapterGeneration, compositionGeneration, policyGeneration, dependencyGeneration }

def readAuthority : Parse AuthoritySnapshot := do
  let epoch ← ReadField.word "truncated authority(epoch)"
  let n ← ReadField.count "invalid boots count"
  let boots ← many readBoot n
  readGenerations epoch (fill Prod.fst Prod.snd boots)

def statusChunks (e : StateId × RecordStatus) : List Chunk :=
  [BinaryWriter.id e.1, BinaryWriter.enum e.2.validity, BinaryWriter.enum e.2.reason,
    BinaryWriter.id e.2.provenanceGeneration, BinaryWriter.str e.2.detail]

def snapshotChunks (s : StoreSnapshot) : List Chunk :=
  BinaryWriter.u64 kPayloadMagic :: BinaryWriter.u32 kFormatVersion ::
    BinaryWriter.u64 s.records.length.toUInt64 ::
      (s.records.flatMap (fun rec => writeRecord rec.d) ++
        BinaryWriter.size s.status.size :: (s.status.toList.flatMap statusChunks ++ writeAuthority s.authority))

def encodeSnapshot (s : StoreSnapshot) : Except String ByteString := emit (snapshotChunks s)

def readRecords : ℕ → List ProvenanceRecord → Parse (List ProvenanceRecord)
  | 0, records => pure records
  | n + 1, records => do
    let d ← readRecord {}
    check (!records.any fun rec => rec.d.provenanceId = d.provenanceId) "duplicate provenance id in stream"
    readRecords n (records ++ [⟨d⟩])

def readStatus : Parse (StateId × RecordStatus) := do
  let sid ← ReadField.id "truncated status id"
  let validity ← ReadField.enum "truncated status validity" "invalid enum: status validity"
  let reason ← ReadField.enum "truncated status reason" "invalid enum: status reason"
  let provenanceGeneration ← ReadField.id "truncated status provenance generation"
  let detail ← ReadField.str "truncated status detail"
  pure (sid, { validity, reason, provenanceGeneration, detail })

def readSnapshot : Parse StoreSnapshot := do
  let magic ← need BinaryReader.u64 "truncated: missing payload magic"
  check (magic = kPayloadMagic) "bad payload magic"
  let ver ← need BinaryReader.u32 "truncated: missing version"
  check (ver = kFormatVersion) "unsupported format version"
  let recordCount ← need BinaryReader.u64 "truncated: missing record count"
  check (recordCount ≤ kMaxRecords) "record count exceeds bound"
  let records ← readRecords recordCount.toNat []
  let n ← ReadField.count "invalid status count"
  let status ← many readStatus n
  let authority ← readAuthority
  pure { records, status := fill Prod.fst Prod.snd status, authority }

def decodeSnapshot (data : ByteString) : Except String StoreSnapshot :=
  match readSnapshot ⟨data, true⟩ with
  | .error e => .error e
  | .ok (s, r) => if r.remaining ≠ 0 then .error "trailing data after snapshot" else .ok s

/-! Files: a header of 28 bytes with the length and the checksum of the payload that follows it. -/

def fileHeader (payload : ByteString) : List Chunk :=
  kFileMagic.map BinaryWriter.u8 ++
    [BinaryWriter.u32 kFormatVersion, BinaryWriter.u32 0, BinaryWriter.u64 payload.length.toUInt64,
      BinaryWriter.u32 (crc32 payload)]

def fileImage (s : StoreSnapshot) : Except String ByteString := do
  let payload ← encodeSnapshot s
  let header ← emit (fileHeader payload)
  pure (header ++ payload)

structure LoadResult where
  snapshot : Option StoreSnapshot := none
  error : String := ""
  storedCrc : UInt32 := 0
  computedCrc : UInt32 := 0

def readMagic : List UInt8 → Parse Unit
  | [] => pure ()
  | m :: rest => do
    let c ← need BinaryReader.u8 "bad file magic"
    check (c = m) "bad file magic"
    readMagic rest

-- The header reader has its 28 bytes; the source does not test the reads after the magic.
def readHeader : Parse (UInt64 × UInt32) := do
  readMagic kFileMagic
  let ver ← need BinaryReader.u32 "unsupported file version"
  check (ver = kFormatVersion) "unsupported file version"
  let _ ← need BinaryReader.u32 ""
  let payloadLen ← need BinaryReader.u64 ""
  let crc ← need BinaryReader.u32 ""
  pure (payloadLen, crc)

def loadFile (bytes : ByteString) : LoadResult :=
  if bytes.length < 28 then { error := "file too small (truncated header)" }
  else
    match readHeader ⟨bytes.take 28, true⟩ with
    | .error error => { error }
    | .ok ((payloadLen, storedCrc), _) =>
      if payloadLen > kMaxPayloadLen then { error := "payload length exceeds bound", storedCrc }
      else if payloadLen.toNat > bytes.length - 28 then { error := "truncated payload", storedCrc }
      else if payloadLen.toNat + 28 < bytes.length then { error := "trailing garbage after payload", storedCrc }
      else if payloadLen.toNat + 28 ≠ bytes.length then { error := "payload length mismatch", storedCrc }
      else
        let payload := (bytes.drop 28).take payloadLen.toNat
        let computedCrc := crc32 payload
        if computedCrc ≠ storedCrc then
          { error := "crc32 mismatch (corruption detected)", storedCrc, computedCrc }
        else
          match decodeSnapshot payload with
          | .error error => { error, storedCrc, computedCrc }
          | .ok s => { snapshot := some s, storedCrc, computedCrc }

end StateProvenance
