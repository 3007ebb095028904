import StateProvenance.Persist
import StateProvenance.Restore

/-! Encoding and decoding a snapshot. Each part of the reader takes back what the same part of the writer
appended, in front of any further bytes; what is decoded can be loaded. -/

namespace StateProvenance

open Std Library.OrderedMap Library.ByteCodec

def RecordData.strings (d : RecordData) : List ByteString :=
  [d.modelRevision, d.tokenizer, d.adapterRevision, d.compositionFingerprint, d.architecture,
    d.computeCapability, d.abi, d.dtype, d.layout, d.shape] ++
  (d.dependencies.flatMap (fun dep => [dep.kind, dep.revision]) ++
    (d.requirements.flatMap (fun req => [req.requiredValue, req.note]) ++
      [d.policyFingerprint, d.contentDigest, d.note]))

@[mk_iff] structure RecordBounds (d : RecordData) : Prop where
  strings : ∀ s ∈ d.strings, s.length ≤ kMaxStringLen.toNat
  inputStates : d.inputStates.length ≤ kMaxVecLen.toNat
  parentProvenance : d.parentProvenance.length ≤ kMaxVecLen.toNat
  dependencies : d.dependencies.length ≤ kMaxVecLen.toNat
  requirements : d.requirements.length ≤ kMaxVecLen.toNat

@[mk_iff] structure InBounds (s : StoreSnapshot) : Prop where
  recordCount : s.records.length ≤ kMaxRecords.toNat
  records : ∀ rec ∈ s.records, RecordBounds rec.d
  statusCount : s.status.size ≤ kMaxVecLen.toNat
  details : ∀ e ∈ s.status.toList, e.2.detail.length ≤ kMaxStringLen.toNat
  bootCount : s.authority.boots.size ≤ kMaxVecLen.toNat

structure StringsFit (s : StoreSnapshot) : Prop where
  records : ∀ rec ∈ s.records, ∀ x ∈ rec.d.strings, x.length ≤ kMaxStringLen.toNat
  details : ∀ e ∈ s.status.toList, e.2.detail.length ≤ kMaxStringLen.toNat

lemma InBounds.stringsFit {s : StoreSnapshot} (h : InBounds s) : StringsFit s :=
  ⟨fun rec hr => (h.records rec hr).strings, h.details⟩

@[mk_iff] structure RecordNamed (d : RecordData) : Prop where
  subjectKind : d.subjectKind.isValid = true
  requirements : ∀ req ∈ d.requirements, req.dimension.isValid = true
  evidence : d.evidence.isValid = true
  validity : d.validity.isValid = true
  invalidationReason : d.invalidationReason.isValid = true
  reuseEligibility : d.reuseEligibility.isValid = true

@[mk_iff] structure StatusNamed (st : RecordStatus) : Prop where
  validity : st.validity.isValid = true
  reason : st.reason.isValid = true

@[mk_iff] structure Named (s : StoreSnapshot) : Prop where
  records : ∀ rec ∈ s.records, RecordNamed rec.d
  status : ∀ e ∈ s.status.toList, StatusNamed e.2

instance (d : RecordData) : Decidable (RecordBounds d) := decidable_of_iff' _ (recordBounds_iff d)

instance (s : StoreSnapshot) : Decidable (InBounds s) := decidable_of_iff' _ (inBounds_iff s)

instance (d : RecordData) : Decidable (RecordNamed d) := decidable_of_iff' _ (recordNamed_iff d)

instance (st : RecordStatus) : Decidable (StatusNamed st) := decidable_of_iff' _ (statusNamed_iff st)

instance (s : StoreSnapshot) : Decidable (Named s) := decidable_of_iff' _ (named_iff s)

section Fields

variable {must : Prop} (err : String)

lemma toUInt64_ofLE (v : UInt64) : (ofLE (toLE 8 v.toNat)).toUInt64 = v := by
  have hlt : v.toNat < 256 ^ 8 := v.toNat_lt
  rw [ofLE_toLE, Nat.mod_eq_of_lt hlt]
  simp

lemma toUInt32_ofLE (v : UInt32) : (ofLE (toLE 4 v.toNat)).toUInt32 = v := by
  have hlt : v.toNat < 256 ^ 4 := v.toNat_lt
  rw [ofLE_toLE, Nat.mod_eq_of_lt hlt]
  simp

lemma u64_append (v : UInt64) (rest : ByteString) :
    BinaryReader.u64 ⟨toLE 8 v.toNat ++ rest, true⟩ = (some v, ⟨rest, true⟩) := by
  have htake := Cursor.take_append (toLE 8 v.toNat) rest
  rw [length_toLE] at htake
  rw [BinaryReader.u64, htake, Option.map_some, toUInt64_ofLE]

lemma reads_word (v : UInt64) : Reads must (ReadField.word err) [BinaryWriter.u64 v] v := by
  have h : Reads must (need BinaryReader.u64 err) [BinaryWriter.u64 v] (ofLE (toLE 8 v.toNat)).toUInt64 :=
    Reads.take (f := fun b => (ofLE b).toUInt64) (fun _ => rfl) (length_toLE 8 v.toNat)
  rwa [toUInt64_ofLE] at h

lemma reads_signed (v : Int64) : Reads must (ReadField.signed err) [BinaryWriter.i64 v] v := by
  have h : Reads must (need BinaryReader.i64 err) [BinaryWriter.i64 v]
      (ofLE (toLE 8 v.toUInt64.toNat)).toUInt64.toInt64 := by
    apply Reads.take (f := fun b => (ofLE b).toUInt64.toInt64) _ (length_toLE 8 v.toUInt64.toNat)
    intro r
    simp only [BinaryReader.i64, BinaryReader.u64, Option.map_map]
    rfl
  rwa [toUInt64_ofLE, Int64.toInt64_toUInt64] at h

lemma reads_u32 (v : UInt32) : Reads must (need BinaryReader.u32 err) [BinaryWriter.u32 v] v := by
  have h : Reads must (need BinaryReader.u32 err) [BinaryWriter.u32 v] (ofLE (toLE 4 v.toNat)).toUInt32 :=
    Reads.take (f := fun b => (ofLE b).toUInt32) (fun _ => rfl) (length_toLE 4 v.toNat)
  rwa [toUInt32_ofLE] at h

lemma reads_id {Tag : Type} (v : ScalarIdentifier Tag) :
    Reads must (ReadField.id err) [BinaryWriter.id v] v :=
  (reads_word err v.get).cons (Reads.pure v)

lemma reads_enum {E : Type} [EnumClass E] (invalid : String) {v : EnumValue E} (h : must → v.isValid = true) :
    Reads must (ReadField.enum err invalid) [BinaryWriter.enum v] v := by
  have hbyte : Reads must (need BinaryReader.u8 err) [BinaryWriter.enum v] v.toByte :=
    Reads.take (f := fun b => b.headD 0) (fun _ => rfl) rfl
  refine hbyte.cons (Reads.check (fun hm => ?_) ?_)
  · rw [EnumValue.ofByte_toByte]
    exact h hm
  · rw [EnumValue.ofByte_toByte]
    exact Reads.pure v

lemma toNat_toUInt32 {n : ℕ} (h : n < 2 ^ 32) : n.toUInt32.toNat = n := by
  rw [Nat.toUInt32_eq, UInt32.toNat_ofNat_of_lt' h]

lemma toNat_toUInt64 {n : ℕ} (h : n < 2 ^ 64) : n.toUInt64.toNat = n := by
  rw [Nat.toUInt64_eq, UInt64.toNat_ofNat_of_lt' h]

lemma reads_count {n : ℕ} (h : n ≤ kMaxVecLen.toNat) :
    Reads must (ReadField.count err) [BinaryWriter.size n] n := by
  have hn : n.toUInt32.toNat = n := toNat_toUInt32 (h.trans_lt kMaxVecLen.toNat_lt)
  refine (reads_u32 err n.toUInt32).cons (Reads.check (fun _ => ?_) ?_)
  · rw [decide_eq_true_iff, UInt32.le_iff_toNat_le, hn]
    exact h
  · rw [hn]
    exact Reads.pure n

lemma reads_str (s : ByteString) : Reads must (ReadField.str err) [BinaryWriter.str s] s := by
  intro w hw rest
  obtain ⟨b, v, hb, hv, rfl⟩ := (emit_cons_eq_ok _ _ w).mp hw
  cases hv
  rw [BinaryWriter.str] at hb
  split at hb
  · contradiction
  next hlen =>
  obtain rfl := Except.ok.inj hb
  left
  have hn : s.length.toUInt32.toNat = s.length :=
    toNat_toUInt32 ((Nat.not_lt.mp hlen).trans_lt kMaxStringLen.toNat_lt)
  have hread : BinaryReader.u32 ⟨toLE 4 s.length.toUInt32.toNat ++ (s ++ rest), true⟩ =
      (some s.length.toUInt32, ⟨s ++ rest, true⟩) := by
    have htake := Cursor.take_append (toLE 4 s.length.toUInt32.toNat) (s ++ rest)
    rw [length_toLE] at htake
    rw [BinaryReader.u32, htake, Option.map_some, toUInt32_ofLE]
  have hle : ¬ s.length.toUInt32 > kMaxStringLen := by
    rw [gt_iff_lt, UInt32.lt_iff_toNat_lt, hn]
    exact hlen
  have hstr : BinaryReader.str ⟨toLE 4 s.length.toUInt32.toNat ++ (s ++ rest), true⟩ =
      (some s, ⟨rest, true⟩) := by
    rw [BinaryReader.str, hread]
    simp only [hle, if_false, hn, Cursor.take_append]
  rw [List.append_nil, List.append_assoc, ReadField.str, need, hstr]

end Fields

section Record

variable {must : Prop} {d : RecordData}

lemma reads_identity (base : RecordData) (hn : must → RecordNamed d) :
    Reads must (readIdentity base) (identityChunks d) { base with
      provenanceId := d.provenanceId, provenanceGeneration := d.provenanceGeneration
      subjectId := d.subjectId, subjectKind := d.subjectKind, stateGeneration := d.stateGeneration
      producerId := d.producerId, producerGeneration := d.producerGeneration, executionId := d.executionId
      attemptId := d.attemptId, attemptGeneration := d.attemptGeneration, createdAt := d.createdAt } := by
  rw [readIdentity, identityChunks]
  iterate 3 apply (reads_id _ _).cons
  apply (reads_enum _ _ fun hm => (hn hm).subjectKind).cons
  iterate 6 apply (reads_id _ _).cons
  apply (reads_signed _ _).cons
  exact Reads.pure _

lemma reads_model (base : RecordData) :
    Reads must (readModel base) (modelChunks d) { base with
      modelId := d.modelId, modelGeneration := d.modelGeneration, modelRevision := d.modelRevision
      tokenizer := d.tokenizer, adapterId := d.adapterId, adapterGeneration := d.adapterGeneration
      adapterRevision := d.adapterRevision, compositionId := d.compositionId
      compositionGeneration := d.compositionGeneration
      compositionFingerprint := d.compositionFingerprint } := by
  rw [readModel, modelChunks]
  iterate 2 apply (reads_id _ _).cons
  iterate 2 apply (reads_str _ _).cons
  iterate 2 apply (reads_id _ _).cons
  apply (reads_str _ _).cons
  iterate 2 apply (reads_id _ _).cons
  apply (reads_str _ _).cons
  exact Reads.pure _

lemma reads_runtime (base : RecordData) :
    Reads must (readRuntime base) (runtimeChunks d) { base with
      runtimeId := d.runtimeId, runtimeGeneration := d.runtimeGeneration
      artifactGeneration := d.artifactGeneration, backendId := d.backendId, toolchainId := d.toolchainId
      deviceId := d.deviceId, architecture := d.architecture, computeCapability := d.computeCapability
      abi := d.abi, dtype := d.dtype, layout := d.layout, shape := d.shape } := by
  rw [readRuntime, runtimeChunks]
  iterate 6 apply (reads_id _ _).cons
  iterate 6 apply (reads_str _ _).cons
  exact Reads.pure _

lemma reads_dependency (dep : Dependency) : Reads must readDependency (dependencyChunks dep) dep := by
  rw [readDependency, dependencyChunks]
  iterate 2 apply (reads_id _ _).cons
  iterate 2 apply (reads_str _ _).cons
  exact Reads.pure _

lemma reads_requirement {req : CompatibilityRequirement} (h : must → req.dimension.isValid = true) :
    Reads must readRequirement (requirementChunks req) req := by
  rw [readRequirement, requirementChunks]
  apply (reads_enum _ _ h).cons
  iterate 2 apply (reads_str _ _).cons
  exact Reads.pure _

lemma reads_references {base : RecordData} (hb : RecordBounds d) (hn : must → RecordNamed d) :
    Reads must (readReferences base) (referenceChunks d) { base with
      inputStates := base.inputStates ++ d.inputStates
      parentProvenance := base.parentProvenance ++ d.parentProvenance
      dependencies := base.dependencies ++ d.dependencies
      requirements := base.requirements ++ d.requirements } := by
  rw [readReferences, referenceChunks]
  refine (reads_count _ hb.inputStates).cons ((Reads.many fun x _ => reads_id _ x).append ?_)
  refine (reads_count _ hb.parentProvenance).cons ((Reads.many fun q _ => reads_id _ q).append ?_)
  refine (reads_count _ hb.dependencies).cons ((Reads.many fun dep _ => reads_dependency dep).append ?_)
  apply (reads_count _ hb.requirements).cons
  refine (Reads.many fun req hr => ?_).last (Reads.pure _)
  exact reads_requirement fun hm => (hn hm).requirements req hr

lemma reads_metadata (base : RecordData) (hn : must → RecordNamed d) :
    Reads must (readMetadata base) (metadataChunks d) { base with
      policyId := d.policyId, policyGeneration := d.policyGeneration
      policyFingerprint := d.policyFingerprint, contentDigest := d.contentDigest
      coordinatorEpoch := d.coordinatorEpoch, workerId := d.workerId, workerBoot := d.workerBoot
      evidence := d.evidence, validity := d.validity, invalidationReason := d.invalidationReason
      reuseEligibility := d.reuseEligibility, note := d.note } := by
  rw [readMetadata, metadataChunks]
  iterate 2 apply (reads_id _ _).cons
  iterate 2 apply (reads_str _ _).cons
  apply (reads_word _ _).cons
  iterate 2 apply (reads_id _ _).cons
  apply (reads_enum _ _ fun hm => (hn hm).evidence).cons
  apply (reads_enum _ _ fun hm => (hn hm).validity).cons
  apply (reads_enum _ _ fun hm => (hn hm).invalidationReason).cons
  apply (reads_enum _ _ fun hm => (hn hm).reuseEligibility).cons
  apply (reads_str _ _).cons
  exact Reads.pure _

lemma reads_record (hb : RecordBounds d) (hn : must → RecordNamed d) (hv : must → validateRecord d = none) :
    Reads must (readRecord {}) (writeRecord d) d := by
  rw [readRecord, writeRecord]
  refine (reads_identity {} hn).append ((reads_model _).append ((reads_runtime _).append ?_))
  apply (reads_references hb hn).append
  apply (reads_metadata _ hn).last
  refine Reads.check (fun hm => ?_) (Reads.pure d)
  exact Option.isNone_iff_eq_none.mpr (hv hm)

lemma reads_records {l acc : List ProvenanceRecord} (hb : ∀ rec ∈ l, RecordBounds rec.d)
    (hn : must → ∀ rec ∈ l, RecordNamed rec.d) (hv : must → ∀ rec ∈ l, validateRecord rec.d = none)
    (hp : must → (provenanceIds (acc ++ l)).Nodup) :
    Reads must (readRecords l.length acc) (l.flatMap fun rec => writeRecord rec.d) (acc ++ l) := by
  induction l generalizing acc with
  | nil =>
    rw [List.append_nil]
    exact Reads.pure acc
  | cons rec l ih =>
    have hsplit : acc ++ rec :: l = acc ++ [rec] ++ l := by simp
    rw [hsplit] at hp ⊢
    have hrec : Reads must (readRecord {}) (writeRecord rec.d) rec.d :=
      reads_record (hb rec List.mem_cons_self) (fun hm => hn hm rec List.mem_cons_self)
        fun hm => hv hm rec List.mem_cons_self
    refine hrec.append (Reads.check (fun hm => ?_) ?_)
    · have hdisjoint := hp hm
      rw [← hsplit, provenanceIds, List.map_append, List.nodup_append] at hdisjoint
      simp only [Bool.not_eq_true', List.any_eq_false, decide_eq_true_eq]
      exact fun r hr => hdisjoint.2.2 _ (List.mem_map_of_mem hr) _ List.mem_cons_self
    · exact ih (fun r hr => hb r (List.mem_cons_of_mem _ hr))
        (fun hm r hr => hn hm r (List.mem_cons_of_mem _ hr))
        (fun hm r hr => hv hm r (List.mem_cons_of_mem _ hr)) hp

end Record

section Snapshot

variable {must : Prop} {s : StoreSnapshot}

lemma reads_status {e : StateId × RecordStatus} (hn : must → StatusNamed e.2) :
    Reads must readStatus (statusChunks e) e := by
  rw [readStatus, statusChunks]
  apply (reads_id _ _).cons
  apply (reads_enum _ _ fun hm => (hn hm).validity).cons
  apply (reads_enum _ _ fun hm => (hn hm).reason).cons
  apply (reads_id _ _).cons
  apply (reads_str _ _).cons
  exact Reads.pure _

lemma reads_boot (e : WorkerId × WorkerBootId) : Reads must readBoot (bootChunks e) e := by
  rw [readBoot, bootChunks]
  iterate 2 apply (reads_id _ _).cons
  exact Reads.pure _

lemma reads_generations (a : AuthoritySnapshot) :
    Reads must (readGenerations a.epoch a.boots) (generationChunks a) a := by
  rw [readGenerations, generationChunks]
  iterate 10 apply (reads_id _ _).cons
  exact Reads.pure _

lemma reads_authority {a : AuthoritySnapshot} (hb : a.boots.size ≤ kMaxVecLen.toNat) :
    Reads must readAuthority (writeAuthority a) a := by
  have hboots : Reads must (many readBoot a.boots.toList.length) _ a.boots.toList :=
    Reads.many fun e _ => reads_boot e
  rw [ExtTreeMap.length_toList] at hboots
  rw [readAuthority, writeAuthority]
  refine (reads_word _ _).cons ((reads_count _ hb).cons (hboots.append ?_))
  rw [fill_toList]
  exact reads_generations a

lemma reads_snapshot (hb : InBounds s) (hn : must → Named s) (hl : must → Loadable s) :
    Reads must readSnapshot (snapshotChunks s) s := by
  have hcount : s.records.length.toUInt64.toNat = s.records.length :=
    toNat_toUInt64 (hb.recordCount.trans_lt kMaxRecords.toNat_lt)
  have hrecords : Reads must (readRecords s.records.length []) _ s.records :=
    reads_records hb.records (fun hm => (hn hm).records) (fun hm => (hl hm).valid) fun hm => (hl hm).distinct
  have hstatus : Reads must (many readStatus s.status.toList.length) _ s.status.toList :=
    Reads.many fun e he => reads_status fun hm => (hn hm).status e he
  rw [ExtTreeMap.length_toList] at hstatus
  rw [readSnapshot, snapshotChunks]
  refine (reads_word _ _).cons (Reads.check (fun _ => by simp) ?_)
  refine (reads_u32 _ _).cons (Reads.check (fun _ => by simp) ?_)
  refine (reads_word _ _).cons (Reads.check (fun _ => ?_) ?_)
  · rw [decide_eq_true_iff, UInt64.le_iff_toNat_le, hcount]
    exact hb.recordCount
  rw [hcount]
  refine hrecords.append ((reads_count _ hb.statusCount).cons (hstatus.append ?_))
  apply (reads_authority hb.bootCount).last
  rw [fill_toList]
  exact Reads.pure s

@[simp] lemma u64_eq_ok (v : UInt64) : ∃ b, BinaryWriter.u64 v = .ok b := ⟨_, rfl⟩

@[simp] lemma u32_eq_ok (v : UInt32) : ∃ b, BinaryWriter.u32 v = .ok b := ⟨_, rfl⟩

@[simp] lemma i64_eq_ok (v : Int64) : ∃ b, BinaryWriter.i64 v = .ok b := ⟨_, rfl⟩

@[simp] lemma id_eq_ok {Tag : Type} (v : ScalarIdentifier Tag) : ∃ b, BinaryWriter.id v = .ok b := ⟨_, rfl⟩

@[simp] lemma enum_eq_ok {E : Type} [EnumClass E] (v : EnumValue E) : ∃ b, BinaryWriter.enum v = .ok b :=
  ⟨_, rfl⟩

@[simp] lemma size_eq_ok (n : ℕ) : ∃ b, BinaryWriter.size n = .ok b := ⟨_, rfl⟩

@[simp] lemma str_eq_ok_iff (v : ByteString) :
    (∃ b, BinaryWriter.str v = .ok b) ↔ v.length ≤ kMaxStringLen.toNat := by
  rw [BinaryWriter.str]
  split
  · next h => simpa using h
  · next h => simpa using h

lemma emits_writeRecord_iff (d : RecordData) :
    Emits (writeRecord d) ↔ ∀ x ∈ d.strings, x.length ≤ kMaxStringLen.toNat := by
  simp only [RecordData.strings, List.forall_mem_append, List.forall_mem_flatMap]
  simp [writeRecord, identityChunks, modelChunks, runtimeChunks, referenceChunks, metadataChunks,
    dependencyChunks, requirementChunks, and_assoc]

lemma emits_snapshotChunks_iff (s : StoreSnapshot) : Emits (snapshotChunks s) ↔ StringsFit s := by
  have hstatus : (∀ e ∈ s.status.toList, Emits (statusChunks e)) ↔
      ∀ e ∈ s.status.toList, e.2.detail.length ≤ kMaxStringLen.toNat := by
    simp only [statusChunks, emits_cons, emits_nil, id_eq_ok, enum_eq_ok, str_eq_ok_iff, true_and, and_true]
  have hauthority : Emits (writeAuthority s.authority) := by
    simp [writeAuthority, bootChunks, generationChunks]
  simp only [snapshotChunks, emits_cons, emits_append, emits_flatMap, u64_eq_ok, u32_eq_ok, size_eq_ok,
    true_and, emits_writeRecord_iff, hstatus, hauthority, and_true]
  exact ⟨fun h => ⟨h.1, h.2⟩, fun h => ⟨h.records, h.details⟩⟩

lemma emits_snapshotChunks (hb : InBounds s) : Emits (snapshotChunks s) :=
  (emits_snapshotChunks_iff s).mpr hb.stringsFit

lemma decodeSnapshot_emit (must : Prop) (hb : InBounds s) (hn : must → Named s) (hl : must → Loadable s)
    {bytes : ByteString} (h : encodeSnapshot s = .ok bytes) :
    decodeSnapshot bytes = .ok s ∨ ¬ must ∧ ∃ e, decodeSnapshot bytes = .error e := by
  have hread := reads_snapshot hb hn hl bytes h []
  rw [List.append_nil] at hread
  rw [decodeSnapshot]
  rcases hread with hread | ⟨hm, e, hread⟩
  · rw [hread]
    exact Or.inl rfl
  · rw [hread]
    exact Or.inr ⟨hm, e, rfl⟩

lemma eq_of_decode_encode (hb : InBounds s) {bytes : ByteString} {t : StoreSnapshot}
    (he : encodeSnapshot s = .ok bytes) (hd : decodeSnapshot bytes = .ok t) : t = s := by
  rcases decodeSnapshot_emit False hb False.elim False.elim he with h | ⟨-, e, h⟩
  · exact (Except.ok.inj (h.symm.trans hd)).symm
  · rw [h] at hd
    contradiction

lemma decodeSnapshot_encode (hl : Loadable s) (hn : Named s) (hb : InBounds s) {bytes : ByteString}
    (h : encodeSnapshot s = .ok bytes) : decodeSnapshot bytes = .ok s := by
  rcases decodeSnapshot_emit True hb (fun _ => hn) (fun _ => hl) h with hd | ⟨hm, -⟩
  · exact hd
  · exact absurd trivial hm

theorem decode_encode (hl : Loadable s) (hn : Named s) (hb : InBounds s) :
    ∃ bytes, encodeSnapshot s = .ok bytes ∧ decodeSnapshot bytes = .ok s := by
  obtain ⟨bytes, h⟩ := emits_snapshotChunks hb
  exact ⟨bytes, h, decodeSnapshot_encode hl hn hb h⟩

def sampleSnapshot : StoreSnapshot where
  records := [⟨.produced 1⟩]
  status := (∅ : OrdMap StateId RecordStatus).insert ⟨1⟩ {}
  authority := { boots := (∅ : OrdMap WorkerId WorkerBootId).insert ⟨1⟩ ⟨1⟩ }

def RecordData.full : RecordData where
  provenanceId := ⟨20⟩
  provenanceGeneration := ⟨3⟩
  subjectId := ⟨2⟩
  subjectKind := .named .kvState
  stateGeneration := ⟨4⟩
  producerId := ⟨5⟩
  producerGeneration := ⟨6⟩
  executionId := ⟨7⟩
  attemptId := ⟨8⟩
  attemptGeneration := ⟨9⟩
  createdAt := -1
  modelId := ⟨10⟩
  modelGeneration := ⟨11⟩
  modelRevision := ByteString.ofText "r1"
  tokenizer := ByteString.ofText "bpe"
  adapterId := ⟨12⟩
  adapterGeneration := ⟨13⟩
  adapterRevision := ByteString.ofText "r2"
  compositionId := ⟨14⟩
  compositionGeneration := ⟨15⟩
  compositionFingerprint := [0, 255]
  runtimeId := ⟨16⟩
  runtimeGeneration := ⟨17⟩
  artifactGeneration := ⟨18⟩
  backendId := ⟨19⟩
  toolchainId := ⟨21⟩
  deviceId := ⟨22⟩
  architecture := ByteString.ofText "sm_120"
  computeCapability := ByteString.ofText "12.0"
  abi := ByteString.ofText "c++17"
  dtype := ByteString.ofText "bf16"
  layout := ByteString.ofText "paged"
  shape := ByteString.ofText "16x8"
  inputStates := [⟨1⟩]
  parentProvenance := [⟨1⟩]
  dependencies :=
    [⟨⟨23⟩, ⟨24⟩, ByteString.ofText "lib", ByteString.ofText "r3"⟩, ⟨⟨25⟩, ⟨26⟩, ByteString.ofText "model", []⟩]
  requirements :=
    [⟨.named .layout, ByteString.ofText "paged", ByteString.ofText "note"⟩, ⟨.named .dtype, ByteString.ofText "bf16", []⟩]
  policyId := ⟨27⟩
  policyGeneration := ⟨28⟩
  policyFingerprint := [1]
  contentDigest := [2, 3]
  coordinatorEpoch := 29
  workerId := ⟨30⟩
  workerBoot := ⟨31⟩
  evidence := .named .measured
  validity := .named .stale
  invalidationReason := .named .operatorInvalidation
  reuseEligibility := .named .stale
  note := ByteString.ofText "note"

def fullSnapshot : StoreSnapshot where
  records := [⟨.produced 1⟩, ⟨.full⟩]
  status := ((∅ : OrdMap StateId RecordStatus).insert ⟨1⟩ {}).insert ⟨2⟩
    ⟨.named .invalidated, .named .corruptState, ⟨3⟩, ByteString.ofText "causal:2"⟩
  authority :=
    { epoch := 32, boots := ((∅ : OrdMap WorkerId WorkerBootId).insert ⟨1⟩ ⟨33⟩).insert ⟨30⟩ ⟨31⟩, attemptId := ⟨34⟩
      attemptGeneration := ⟨35⟩, stateGeneration := ⟨36⟩, provenanceGeneration := ⟨37⟩, artifactGeneration := ⟨38⟩
      modelGeneration := ⟨39⟩, adapterGeneration := ⟨40⟩, compositionGeneration := ⟨41⟩, policyGeneration := ⟨42⟩
      dependencyGeneration := ⟨43⟩ }

lemma loadable_fullSnapshot : Loadable fullSnapshot := by decide +kernel

lemma named_fullSnapshot : Named fullSnapshot := by decide +kernel

lemma inBounds_fullSnapshot : InBounds fullSnapshot := by decide +kernel

theorem fullSnapshot_decode_encode :
    ∃ bytes, encodeSnapshot fullSnapshot = .ok bytes ∧ decodeSnapshot bytes = .ok fullSnapshot :=
  decode_encode loadable_fullSnapshot named_fullSnapshot inBounds_fullSnapshot

def fullStream : ByteString := (encodeSnapshot fullSnapshot).toOption.getD []

lemma encodeSnapshot_fullStream : encodeSnapshot fullSnapshot = .ok fullStream := by
  obtain ⟨bytes, h⟩ := emits_snapshotChunks inBounds_fullSnapshot
  have hbytes : encodeSnapshot fullSnapshot = .ok bytes := h
  rw [fullStream, hbytes]
  rfl

lemma decodeSnapshot_fullStream : decodeSnapshot fullStream = .ok fullSnapshot :=
  decodeSnapshot_encode loadable_fullSnapshot named_fullSnapshot inBounds_fullSnapshot encodeSnapshot_fullStream

end Snapshot

section Guarantees

lemma ensures_enum {E : Type} [EnumClass E] (err invalid : String) :
    Ensures (ReadField.enum err invalid : Parse (EnumValue E)) fun v => v.isValid = true := by
  apply Ensures.skip
  intro b
  exact Ensures.check fun h => Ensures.pure h

lemma ensures_identity (base : RecordData) :
    Ensures (readIdentity base) fun d => d.subjectKind.isValid = true ∧ d.requirements = base.requirements := by
  rw [readIdentity]
  iterate 3 (apply Ensures.skip; intro _)
  refine (ensures_enum _ _).bind fun kind hkind => ?_
  iterate 7 (apply Ensures.skip; intro _)
  exact Ensures.pure ⟨hkind, rfl⟩

lemma ensures_model (base : RecordData) : Ensures (readModel base) fun d =>
    d.subjectKind = base.subjectKind ∧ d.requirements = base.requirements := by
  rw [readModel]
  iterate 10 (apply Ensures.skip; intro _)
  exact Ensures.pure ⟨rfl, rfl⟩

lemma ensures_runtime (base : RecordData) : Ensures (readRuntime base) fun d =>
    d.subjectKind = base.subjectKind ∧ d.requirements = base.requirements := by
  rw [readRuntime]
  iterate 12 (apply Ensures.skip; intro _)
  exact Ensures.pure ⟨rfl, rfl⟩

lemma ensures_requirement : Ensures readRequirement fun req => req.dimension.isValid = true := by
  rw [readRequirement]
  refine (ensures_enum _ _).bind fun dimension hdimension => ?_
  iterate 2 (apply Ensures.skip; intro _)
  exact Ensures.pure hdimension

lemma ensures_references {base : RecordData} (hbase : base.requirements = []) :
    Ensures (readReferences base) fun d =>
      d.subjectKind = base.subjectKind ∧ ∀ req ∈ d.requirements, req.dimension.isValid = true := by
  rw [readReferences]
  iterate 7 (apply Ensures.skip; intro _)
  refine (ensures_requirement.many _).bind fun requirements hrequirements => Ensures.pure ⟨rfl, ?_⟩
  simpa only [hbase, List.nil_append] using hrequirements

lemma ensures_metadata {base : RecordData} (hkind : base.subjectKind.isValid = true)
    (hreq : ∀ req ∈ base.requirements, req.dimension.isValid = true) :
    Ensures (readMetadata base) RecordNamed := by
  rw [readMetadata]
  iterate 7 (apply Ensures.skip; intro _)
  refine (ensures_enum _ _).bind fun evidence hevidence => ?_
  refine (ensures_enum _ _).bind fun validity hvalidity => ?_
  refine (ensures_enum _ _).bind fun reason hreason => ?_
  refine (ensures_enum _ _).bind fun eligibility heligibility => ?_
  apply Ensures.skip
  intro note
  exact Ensures.pure ⟨hkind, hreq, hevidence, hvalidity, hreason, heligibility⟩

lemma ensures_record : Ensures (readRecord {}) fun d => validateRecord d = none ∧ RecordNamed d := by
  rw [readRecord]
  refine (ensures_identity {}).bind fun d₁ h₁ => (ensures_model d₁).bind fun d₂ h₂ =>
    (ensures_runtime d₂).bind fun d₃ h₃ => ?_
  have hempty : d₃.requirements = [] := h₃.2.trans (h₂.2.trans h₁.2)
  have hkind : d₃.subjectKind = d₁.subjectKind := h₃.1.trans h₂.1
  refine (ensures_references hempty).bind fun d₄ h₄ => ?_
  have hvalid : d₄.subjectKind.isValid = true := by rw [h₄.1, hkind, h₁.1]
  refine (ensures_metadata hvalid h₄.2).bind fun d hd => Ensures.check fun hv => ?_
  exact Ensures.pure ⟨Option.isNone_iff_eq_none.mp hv, hd⟩

lemma ensures_records {n : ℕ} {acc : List ProvenanceRecord}
    (hacc : ∀ rec ∈ acc, validateRecord rec.d = none ∧ RecordNamed rec.d) (hp : (provenanceIds acc).Nodup) :
    Ensures (readRecords n acc) fun l =>
      (∀ rec ∈ l, validateRecord rec.d = none ∧ RecordNamed rec.d) ∧ (provenanceIds l).Nodup := by
  induction n generalizing acc with
  | zero => exact Ensures.pure ⟨hacc, hp⟩
  | succ n ih =>
    refine ensures_record.bind fun d hd => Ensures.check fun hnew => ih (fun rec hr => ?_) ?_
    · rcases List.mem_append.mp hr with hr | hr
      · exact hacc rec hr
      · obtain rfl := List.mem_singleton.mp hr
        exact hd
    · simp only [Bool.not_eq_true', List.any_eq_false, decide_eq_true_eq] at hnew
      rw [provenanceIds, List.map_append, List.nodup_append]
      refine ⟨hp, by simp, ?_⟩
      rintro q hq q' hq' rfl
      obtain ⟨rec, hr, rfl⟩ := List.mem_map.mp hq
      exact hnew rec hr (List.mem_singleton.mp hq')

lemma ensures_status : Ensures readStatus fun e => StatusNamed e.2 := by
  rw [readStatus]
  apply Ensures.skip
  intro sid
  refine (ensures_enum _ _).bind fun validity hvalidity => ?_
  refine (ensures_enum _ _).bind fun reason hreason => ?_
  iterate 2 (apply Ensures.skip; intro _)
  exact Ensures.pure ⟨hvalidity, hreason⟩

lemma ensures_snapshot : Ensures readSnapshot fun s => Loadable s ∧ Named s := by
  rw [readSnapshot]
  iterate 3
    apply Ensures.skip
    intro _
    refine Ensures.check fun _ => ?_
  refine (ensures_records (by simp) (by simp [provenanceIds])).bind fun records hrecords => ?_
  apply Ensures.skip
  intro n
  refine (ensures_status.many _).bind fun status hstatus => ?_
  apply Ensures.skip
  intro authority
  refine Ensures.pure ⟨⟨fun rec hr => (hrecords.1 rec hr).1, hrecords.2⟩,
    ⟨fun rec hr => (hrecords.1 rec hr).2, fun e he => ?_⟩⟩
  obtain ⟨a, ha, -, hval⟩ := exists_of_fill _ _ (ExtTreeMap.mem_toList_iff_getElem?_eq_some.mp he)
  rw [← hval]
  exact hstatus a ha

lemma readSnapshot_of_decode {bytes : ByteString} {s : StoreSnapshot} (h : decodeSnapshot bytes = .ok s) :
    ∃ r, readSnapshot ⟨bytes, true⟩ = .ok (s, r) := by
  rw [decodeSnapshot] at h
  cases hr : readSnapshot ⟨bytes, true⟩ with
  | error e => simp [hr] at h
  | ok x =>
    simp only [hr] at h
    split at h
    · contradiction
    · exact ⟨x.2, congrArg (fun t => Except.ok (t, x.2)) (Except.ok.inj h)⟩

lemma decodeSnapshot_loadable {bytes : ByteString} {s : StoreSnapshot} (h : decodeSnapshot bytes = .ok s) :
    Loadable s := by
  obtain ⟨r, hr⟩ := readSnapshot_of_decode h
  exact (ensures_snapshot _ _ _ hr).1

lemma decodeSnapshot_named {bytes : ByteString} {s : StoreSnapshot} (h : decodeSnapshot bytes = .ok s) :
    Named s := by
  obtain ⟨r, hr⟩ := readSnapshot_of_decode h
  exact (ensures_snapshot _ _ _ hr).2

end Guarantees

end StateProvenance
