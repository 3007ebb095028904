import StateProvenance.Checksum
import StateProvenance.PersistRoundTrip
import StateProvenance.Reachable

/-! Snapshot files: which saved stores load again, and what an altered file can load as. -/

namespace StateProvenance

open Std Library.OrderedMap Library.ByteCodec Digest

def recordSize (d : RecordData) : ℕ :=
  289 + (d.strings.map List.length).sum + 8 * d.inputStates.length + 8 * d.parentProvenance.length
    + 24 * d.dependencies.length + 9 * d.requirements.length

def payloadSize (s : StoreSnapshot) : ℕ :=
  116 + (s.records.map fun rec => recordSize rec.d).sum
    + (s.status.toList.map fun e => 22 + e.2.detail.length).sum + 16 * s.authority.boots.size

section Size

lemma chunkSize_str {s : ByteString} (h : s.length ≤ kMaxStringLen.toNat) :
    chunkSize (BinaryWriter.str s) = 4 + s.length := by
  rw [BinaryWriter.str, if_neg (Nat.not_lt.mpr h), chunkSize, List.length_append, length_toLE]

@[simp] lemma chunkSize_u32 (v : UInt32) : chunkSize (BinaryWriter.u32 v) = 4 := length_toLE 4 _

@[simp] lemma chunkSize_u64 (v : UInt64) : chunkSize (BinaryWriter.u64 v) = 8 := length_toLE 8 _

@[simp] lemma chunkSize_i64 (v : Int64) : chunkSize (BinaryWriter.i64 v) = 8 := length_toLE 8 _

@[simp] lemma chunkSize_id {Tag : Type} (v : ScalarIdentifier Tag) : chunkSize (BinaryWriter.id v) = 8 :=
  length_toLE 8 _

@[simp] lemma chunkSize_enum {E : Type} [EnumClass E] (v : EnumValue E) : chunkSize (BinaryWriter.enum v) = 1 :=
  rfl

@[simp] lemma chunkSize_size (n : ℕ) : chunkSize (BinaryWriter.size n) = 4 := length_toLE 4 _

lemma size_dependencies {l : List Dependency}
    (h : ∀ x ∈ l.flatMap (fun dep => [dep.kind, dep.revision]), x.length ≤ kMaxStringLen.toNat) :
    ((l.flatMap dependencyChunks).map chunkSize).sum =
      24 * l.length + ((l.flatMap fun dep => [dep.kind, dep.revision]).map List.length).sum := by
  induction l with
  | nil => rfl
  | cons dep l ih =>
    simp only [List.flatMap_cons, List.forall_mem_append, List.forall_mem_cons] at h
    have hl := ih h.2
    simp only [List.flatMap_cons, List.map_append, List.sum_append, hl, List.length_cons]
    simp only [dependencyChunks, List.map_cons, List.map_nil, List.sum_cons, List.sum_nil, chunkSize_id,
      chunkSize_str h.1.1, chunkSize_str h.1.2.1]
    omega

lemma size_requirements {l : List CompatibilityRequirement}
    (h : ∀ x ∈ l.flatMap (fun req => [req.requiredValue, req.note]), x.length ≤ kMaxStringLen.toNat) :
    ((l.flatMap requirementChunks).map chunkSize).sum =
      9 * l.length + ((l.flatMap fun req => [req.requiredValue, req.note]).map List.length).sum := by
  induction l with
  | nil => rfl
  | cons req l ih =>
    simp only [List.flatMap_cons, List.forall_mem_append, List.forall_mem_cons] at h
    have hl := ih h.2
    simp only [List.flatMap_cons, List.map_append, List.sum_append, hl, List.length_cons]
    simp only [requirementChunks, List.map_cons, List.map_nil, List.sum_cons, List.sum_nil, chunkSize_enum,
      chunkSize_str h.1.1, chunkSize_str h.1.2.1]
    omega

lemma size_ids {Tag : Type} (l : List (ScalarIdentifier Tag)) :
    ((l.flatMap fun x => [BinaryWriter.id x]).map chunkSize).sum = 8 * l.length := by
  rw [sum_chunkSize_flatMap]
  simp [Nat.mul_comm]

lemma size_writeRecord {d : RecordData} (h : ∀ x ∈ d.strings, x.length ≤ kMaxStringLen.toNat) :
    ((writeRecord d).map chunkSize).sum = recordSize d := by
  simp only [RecordData.strings, List.forall_mem_append, List.forall_mem_cons] at h
  obtain ⟨⟨h1, h2, h3, h4, h5, h6, h7, h8, h9, h10, -⟩, hdeps, hreqs, h11, h12, h13, -⟩ := h
  simp only [writeRecord, identityChunks, modelChunks, runtimeChunks, referenceChunks, metadataChunks,
    List.map_append, List.sum_append, List.map_cons, List.sum_cons, List.map_nil, List.sum_nil,
    chunkSize_id, chunkSize_enum, chunkSize_i64, chunkSize_u64, chunkSize_size, size_ids,
    size_dependencies hdeps, size_requirements hreqs, chunkSize_str h1, chunkSize_str h2, chunkSize_str h3,
    chunkSize_str h4, chunkSize_str h5, chunkSize_str h6, chunkSize_str h7, chunkSize_str h8,
    chunkSize_str h9, chunkSize_str h10, chunkSize_str h11, chunkSize_str h12, chunkSize_str h13]
  simp only [recordSize, RecordData.strings, List.map_append, List.sum_append, List.map_cons,
    List.sum_cons, List.map_nil, List.sum_nil]
  omega

lemma length_encode {s : StoreSnapshot} (hf : StringsFit s) {payload : ByteString}
    (h : encodeSnapshot s = .ok payload) : payload.length = payloadSize s := by
  have hrecords : ((s.records.flatMap fun rec => writeRecord rec.d).map chunkSize).sum =
      (s.records.map fun rec => recordSize rec.d).sum := by
    rw [sum_chunkSize_flatMap]
    refine congrArg List.sum (List.map_congr_left fun rec hr => ?_)
    exact size_writeRecord (hf.records rec hr)
  have hstatus : ((s.status.toList.flatMap statusChunks).map chunkSize).sum =
      (s.status.toList.map fun e => 22 + e.2.detail.length).sum := by
    rw [sum_chunkSize_flatMap]
    refine congrArg List.sum (List.map_congr_left fun e he => ?_)
    simp only [statusChunks, List.map_cons, List.map_nil, List.sum_cons, List.sum_nil, chunkSize_id,
      chunkSize_enum, chunkSize_str (hf.details e he)]
    omega
  have hboots : ((s.authority.boots.toList.flatMap bootChunks).map chunkSize).sum =
      16 * s.authority.boots.size := by
    rw [sum_chunkSize_flatMap, ← ExtTreeMap.length_toList]
    simp [bootChunks, Nat.mul_comm]
  rw [length_emit h, payloadSize]
  simp only [snapshotChunks, writeAuthority, generationChunks, List.map_append, List.sum_append,
    List.map_cons, List.sum_cons, List.map_nil, List.sum_nil, chunkSize_u64, chunkSize_u32, chunkSize_size,
    chunkSize_id, hrecords, hstatus, hboots]
  omega

lemma recordSize_le_payloadSize {s : StoreSnapshot} {rec : ProvenanceRecord} (hr : rec ∈ s.records) :
    recordSize rec.d ≤ payloadSize s := by
  have hle := List.single_le_sum (fun _ _ => Nat.zero_le _) _
    (List.mem_map_of_mem (f := fun rec : ProvenanceRecord => recordSize rec.d) hr)
  rw [payloadSize]
  omega

lemma inBounds_of_payloadSize {s : StoreSnapshot} (hf : StringsFit s)
    (h : payloadSize s ≤ kMaxPayloadLen.toNat) : InBounds s := by
  have hmax : kMaxPayloadLen.toNat = 536870912 := rfl
  have hvec : kMaxVecLen.toNat = 67108864 := rfl
  have hrec : kMaxRecords.toNat = 16777216 := rfl
  have hone : ∀ rec ∈ s.records, recordSize rec.d ≤ 536870912 := fun rec hr =>
    (recordSize_le_payloadSize hr).trans h
  have hcount : s.records.length * 289 ≤ (s.records.map fun rec => recordSize rec.d).sum := by
    have hle := List.card_nsmul_le_sum (s.records.map fun rec => recordSize rec.d) 289 (by
      intro n hn
      obtain ⟨rec, -, rfl⟩ := List.mem_map.mp hn
      rw [recordSize]
      omega)
    rwa [List.length_map, smul_eq_mul] at hle
  have hstatus : s.status.size * 22 ≤ (s.status.toList.map fun e => 22 + e.2.detail.length).sum := by
    have hle := List.card_nsmul_le_sum (s.status.toList.map fun e => 22 + e.2.detail.length) 22 (by
      intro n hn
      obtain ⟨e, -, rfl⟩ := List.mem_map.mp hn
      omega)
    rwa [List.length_map, ExtTreeMap.length_toList, smul_eq_mul] at hle
  rw [payloadSize] at h
  refine ⟨by omega, fun rec hr => ?_, by omega, hf.details, by omega⟩
  have hr' := hone rec hr
  rw [recordSize] at hr'
  exact ⟨hf.records rec hr, by omega, by omega, by omega, by omega⟩

end Size

section Load

lemma reads_u8 {must : Prop} (err : String) (v : UInt8) :
    Reads must (need BinaryReader.u8 err) [BinaryWriter.u8 v] v :=
  Reads.take (f := fun b => b.headD 0) (fun _ => rfl) rfl

lemma reads_magic {must : Prop} (l : List UInt8) : Reads must (readMagic l) (l.map BinaryWriter.u8) () := by
  induction l with
  | nil => exact Reads.pure ()
  | cons m l ih =>
    rw [readMagic, List.map_cons]
    exact (reads_u8 _ m).cons (Reads.check (fun _ => by simp) ih)

lemma reads_header {must : Prop} (payload : ByteString) :
    Reads must readHeader (fileHeader payload) (payload.length.toUInt64, crc32 payload) := by
  rw [readHeader, fileHeader]
  apply (reads_magic kFileMagic).append
  refine (reads_u32 _ _).cons (Reads.check (fun _ => by simp) ?_)
  apply (reads_u32 _ 0).cons
  apply (reads_word "" _).cons
  apply (reads_u32 _ _).cons
  exact Reads.pure _

lemma take_payload {bytes : ByteString} {n : ℕ} (h : n + 28 = bytes.length) :
    (bytes.drop 28).take n = bytes.drop 28 := by
  apply List.take_of_length_le
  rw [List.length_drop]
  omega

lemma loadFile_eq_some_iff (bytes : ByteString) (s : StoreSnapshot) :
    (loadFile bytes).snapshot = some s ↔ ∃ payloadLen crc r,
      readHeader ⟨bytes.take 28, true⟩ = .ok ((payloadLen, crc), r) ∧ payloadLen ≤ kMaxPayloadLen ∧
        payloadLen.toNat + 28 = bytes.length ∧ crc32 (bytes.drop 28) = crc ∧
          decodeSnapshot (bytes.drop 28) = .ok s := by
  constructor
  · intro h
    rw [loadFile] at h
    split at h
    · contradiction
    split at h
    · contradiction
    next payloadLen crc r hr =>
    split at h
    · contradiction
    next hmax =>
    split at h
    · contradiction
    split at h
    · contradiction
    split at h
    · contradiction
    next hlen =>
    simp only [take_payload (not_not.mp hlen)] at h
    split at h
    · contradiction
    next hcrc =>
    split at h
    · contradiction
    next s' hd =>
    obtain rfl := Option.some.inj h
    exact ⟨payloadLen, crc, r, hr, UInt64.not_lt.mp hmax, not_not.mp hlen, not_not.mp hcrc, hd⟩
  · rintro ⟨payloadLen, crc, r, hr, hmax, hlen, hcrc, hd⟩
    rw [loadFile, if_neg (by omega), hr]
    simp only
    rw [if_neg (UInt64.not_lt.mpr hmax), if_neg (by omega), if_neg (by omega), if_neg (not_not.mpr hlen),
      take_payload hlen, if_neg (not_not.mpr hcrc), hd]

lemma sum_chunkSize_fileHeader (payload : ByteString) : ((fileHeader payload).map chunkSize).sum = 28 := by
  have hmagic : ((kFileMagic.map BinaryWriter.u8).map chunkSize).sum = 8 := rfl
  rw [fileHeader, List.map_append, List.sum_append, hmagic]
  simp

lemma fileImage_parts {s : StoreSnapshot} {payload bytes : ByteString} (hp : encodeSnapshot s = .ok payload)
    (h : fileImage s = .ok bytes) : ∃ header, bytes = header ++ payload ∧ header.length = 28 ∧
      readHeader ⟨header, true⟩ = .ok ((payload.length.toUInt64, crc32 payload), ⟨[], true⟩) := by
  obtain ⟨header, hh⟩ : Emits (fileHeader payload) := by simp [fileHeader, kFileMagic, BinaryWriter.u8]
  refine ⟨header, ?_, (length_emit hh).trans (sum_chunkSize_fileHeader payload), ?_⟩
  · have hok : fileImage s = .ok (header ++ payload) := by
      rw [fileImage, hp]
      simp only [bind, Except.bind, hh]
      rfl
    exact Except.ok.inj (h.symm.trans hok)
  · rcases @reads_header True payload header hh [] with hr | ⟨hm, -⟩
    · rwa [List.append_nil] at hr
    · exact absurd trivial hm

lemma loadFile_fileImage_iff {s : StoreSnapshot} {payload bytes : ByteString}
    (hp : encodeSnapshot s = .ok payload) (h : fileImage s = .ok bytes) (t : StoreSnapshot) :
    (loadFile bytes).snapshot = some t ↔
      payload.length ≤ kMaxPayloadLen.toNat ∧ decodeSnapshot payload = .ok t := by
  obtain ⟨header, hbytes, hlen, hread⟩ := fileImage_parts hp h
  have htake : bytes.take 28 = header := by rw [hbytes, ← hlen, List.take_left]
  have hdrop : bytes.drop 28 = payload := by rw [hbytes, ← hlen, List.drop_left]
  rw [loadFile_eq_some_iff, htake, hdrop, hread]
  have hword : payload.length.toUInt64.toNat = payload.length % 2 ^ 64 := by
    rw [Nat.toUInt64_eq, UInt64.toNat_ofNat']
  have hmax : kMaxPayloadLen.toNat < 2 ^ 64 := kMaxPayloadLen.toNat_lt
  have htotal : bytes.length = payload.length + 28 := by
    rw [hbytes, List.length_append, hlen, Nat.add_comm]
  constructor
  · rintro ⟨payloadLen, crc, r, he, hle, hl, -, hd⟩
    obtain ⟨⟨rfl, rfl⟩, rfl⟩ : (payload.length.toUInt64 = payloadLen ∧ crc32 payload = crc) ∧ _ = r := by
      simpa only [Except.ok.injEq, Prod.mk.injEq] using he
    rw [UInt64.le_iff_toNat_le] at hle
    exact ⟨by omega, hd⟩
  · rintro ⟨hle, hd⟩
    refine ⟨_, _, _, rfl, ?_, ?_, rfl, hd⟩
    · rw [UInt64.le_iff_toNat_le, hword]
      omega
    · rw [hword]
      omega

lemma fileImage_eq_ok {s : StoreSnapshot} {payload : ByteString} (hp : encodeSnapshot s = .ok payload) :
    ∃ bytes, fileImage s = .ok bytes := by
  obtain ⟨header, hh⟩ : Emits (fileHeader payload) := by simp [fileHeader, kFileMagic, BinaryWriter.u8]
  refine ⟨header ++ payload, ?_⟩
  rw [fileImage, hp]
  simp only [bind, Except.bind, hh]
  rfl

lemma encode_of_fileImage {s : StoreSnapshot} {bytes : ByteString} (h : fileImage s = .ok bytes) :
    ∃ payload, encodeSnapshot s = .ok payload := by
  cases hp : encodeSnapshot s with
  | error e =>
    rw [fileImage, hp] at h
    contradiction
  | ok payload => exact ⟨payload, rfl⟩

end Load

/-! What is saved loads again, unless a value of an enumeration has no name or the payload is too long. -/

namespace ProvenanceStore

def SavedLoads (s : ProvenanceStore) : Prop :=
  ∀ bytes, fileImage s.snapshot = .ok bytes → (loadFile bytes).snapshot = some s.snapshot

lemma Core.savedLoads {s : ProvenanceStore} (h : s.Core)
    (hcond : StringsFit s.snapshot → Named s.snapshot ∧ payloadSize s.snapshot ≤ kMaxPayloadLen.toNat) :
    s.SavedLoads := by
  intro bytes himage
  obtain ⟨payload, hp⟩ := encode_of_fileImage himage
  have hf : StringsFit s.snapshot := (emits_snapshotChunks_iff s.snapshot).mp ⟨payload, hp⟩
  obtain ⟨hn, hsize⟩ := hcond hf
  have hd := decodeSnapshot_encode (loadable_snapshot h) hn (inBounds_of_payloadSize hf hsize) hp
  refine (loadFile_fileImage_iff hp himage s.snapshot).mpr ⟨?_, hd⟩
  rwa [length_encode hf hp]

theorem savedLoads_iff {s : ProvenanceStore} (h : LoadReachable s) :
    s.SavedLoads ↔ (StringsFit s.snapshot → Named s.snapshot ∧ payloadSize s.snapshot ≤ kMaxPayloadLen.toNat) := by
  refine ⟨fun hload hf => ?_, h.core.savedLoads⟩
  obtain ⟨payload, hp⟩ := (emits_snapshotChunks_iff s.snapshot).mpr hf
  obtain ⟨bytes, himage⟩ := fileImage_eq_ok hp
  obtain ⟨hlen, hd⟩ := (loadFile_fileImage_iff hp himage s.snapshot).mp (hload _ himage)
  rw [length_encode hf hp] at hlen
  exact ⟨decodeSnapshot_named hd, hlen⟩

theorem pair_savedLoads : (pair (.produced 1)).SavedLoads :=
  (savedLoads_iff (reachable_pair (.produced 1)).loadReachable).mpr fun _ =>
    ⟨by decide, by decide⟩

def longRecord (text : ByteString) : RecordData :=
  { RecordData.produced 1 with
    modelRevision := text, tokenizer := text, adapterRevision := text, compositionFingerprint := text
    architecture := text, computeCapability := text, abi := text, dtype := text, layout := text }

lemma length_strings_longRecord {text : ByteString} (h : text.length ≤ kMaxStringLen.toNat) :
    ∀ x ∈ (longRecord text).strings, x.length ≤ kMaxStringLen.toNat := by
  simp only [RecordData.strings, longRecord, RecordData.produced, List.flatMap_nil, List.forall_mem_append,
    List.forall_mem_cons]
  simp [h]

lemma le_recordSize_longRecord (text : ByteString) : 9 * text.length ≤ recordSize (longRecord text) := by
  simp only [recordSize, RecordData.strings, longRecord, List.map_append, List.map_cons, List.sum_append,
    List.sum_cons]
  omega

structure Blank (s : ProvenanceStore) : Prop where
  core : s.Core
  records : s.records = ∅
  provToState : s.provToState = ∅
  status : s.status = ∅

lemma blank_empty : ({} : ProvenanceStore).Blank := ⟨live_empty.toCore, rfl, rfl, rfl⟩

namespace Blank

variable {s : ProvenanceStore} (h : s.Blank) {d : RecordData}

include h

lemma publish_first (hv : validateRecord d = none) (hi : d.inputStates = []) (hp : d.parentProvenance = []) :
    ∃ g, s.publish d = (.ok { ok := true, record := some ⟨d⟩ }, s.commit d g) := by
  obtain ⟨g, -, hrun⟩ := publish_accepted h.core hv
    { inputs := by simp [hi]
      parents := by simp [hp]
      newSubject := by simp [h.records]
      newProvenance := by simp [h.provToState] }
  exact ⟨g, hrun⟩

lemma snapshot_records (d : RecordData) (g : ProvenanceGraph) : (s.commit d g).snapshot.records = [⟨d⟩] := by
  rw [snapshot, commit, h.records]
  rfl

lemma snapshot_status (d : RecordData) (g : ProvenanceGraph) : (s.commit d g).snapshot.status.toList =
    [(d.subjectId, ⟨d.validity, d.invalidationReason, d.provenanceGeneration, d.note⟩)] := by
  rw [snapshot, commit, h.status]
  rfl

lemma stringsFit_iff (g : ProvenanceGraph) : StringsFit (s.commit d g).snapshot ↔
    ∀ x ∈ d.strings, x.length ≤ kMaxStringLen.toNat := by
  have hone := h.snapshot_records d g
  refine ⟨fun hf => hf.records ⟨d⟩ ?_, fun hd => ⟨fun rec hr => ?_, fun e he => ?_⟩⟩
  · rw [hone]
    exact List.mem_singleton_self _
  · rw [hone, List.mem_singleton] at hr
    rwa [hr]
  · rw [h.snapshot_status, List.mem_singleton] at he
    rw [he]
    exact hd d.note (by simp [RecordData.strings])

end Blank

theorem long_save_refused : ¬ ∀ s, Reachable s → s.SavedLoads := by
  intro h
  obtain ⟨text, htext⟩ : ∃ text : ByteString, text.length = kMaxStringLen.toNat :=
    ⟨List.replicate _ 0, List.length_replicate⟩
  obtain ⟨g, hpublish⟩ := blank_empty.publish_first (d := longRecord text) rfl rfl rfl
  have hreach : Reachable (({} : ProvenanceStore).commit (longRecord text) g) := by
    have hstep := Reachable.empty.publish (longRecord text)
    rwa [hpublish] at hstep
  have hf := (blank_empty.stringsFit_iff g).mpr (length_strings_longRecord (Nat.le_of_eq htext))
  have hsize := ((savedLoads_iff hreach.loadReachable).mp (h _ hreach) hf).2
  have hone : recordSize (longRecord text) ≤ payloadSize _ :=
    recordSize_le_payloadSize (blank_empty.snapshot_records (longRecord text) g ▸ List.mem_singleton_self _)
  have hlong := le_recordSize_longRecord text
  have hstring : kMaxStringLen.toNat = 67108864 := rfl
  have hmax : kMaxPayloadLen.toNat = 536870912 := rfl
  omega

end ProvenanceStore

def AgreeOutside (a b : ByteString) (lo hi : ℕ) : Prop := ∀ j, j < lo ∨ hi ≤ j → a[j]? = b[j]?

lemma AgreeOutside.take_eq {a b : ByteString} {lo hi : ℕ} (h : AgreeOutside a b lo hi) :
    a.take lo = b.take lo := by
  apply List.ext_getElem?
  intro j
  rw [List.getElem?_take, List.getElem?_take]
  split
  · next hj => exact h j (Or.inl hj)
  · rfl

lemma AgreeOutside.drop_eq {a b : ByteString} {lo hi : ℕ} (h : AgreeOutside a b lo hi) :
    a.drop hi = b.drop hi := by
  apply List.ext_getElem?
  intro j
  rw [List.getElem?_drop, List.getElem?_drop]
  exact h (hi + j) (Or.inr (Nat.le_add_right hi j))

lemma window_eq_of_crc32_eq {a b : ByteString} (hlen : a.length = b.length) {i : ℕ}
    (h : AgreeOutside a b i (i + 4)) (hcrc : crc32 a = crc32 b) : a = b := by
  have hsplit : ∀ l : ByteString, l = l.take i ++ (l.drop i).take 4 ++ l.drop (i + 4) := by
    intro l
    rw [← List.drop_drop, List.append_assoc, List.take_append_drop, List.take_append_drop]
  rw [hsplit a, hsplit b, h.take_eq, h.drop_eq] at hcrc ⊢
  have hmid := crc32_burst (by simp [hlen]) (by simp) hcrc
  rw [hmid]

theorem altered_file_same {file altered : ByteString} {s : StoreSnapshot}
    (hload : (loadFile file).snapshot = some s) (hlen : altered.length = file.length)
    (halt : AgreeOutside altered file 0 28 ∨ ∃ i ≥ 28, AgreeOutside altered file i (i + 4)) :
    (loadFile altered).snapshot = none ∨ (loadFile altered).snapshot = some s := by
  cases ht : (loadFile altered).snapshot with
  | none => exact Or.inl rfl
  | some t =>
    right
    obtain ⟨payloadLen, crc, r, hr, -, -, hcrc, hd⟩ := (loadFile_eq_some_iff file s).mp hload
    obtain ⟨payloadLen', crc', r', hr', -, -, hcrc', hd'⟩ := (loadFile_eq_some_iff altered t).mp ht
    have hpayload : altered.drop 28 = file.drop 28 := by
      rcases halt with hheader | ⟨i, hi, hwindow⟩
      · exact hheader.drop_eq
      · -- The header is the same, so the stored checksum is that of both payloads.
        have htake : altered.take 28 = file.take 28 := by
          rw [← Nat.min_eq_left hi, ← List.take_take, hwindow.take_eq, List.take_take]
        rw [htake, hr] at hr'
        obtain ⟨⟨-, rfl⟩, -⟩ : (payloadLen = payloadLen' ∧ crc = crc') ∧ r = r' := by
          simpa only [Except.ok.injEq, Prod.mk.injEq] using hr'
        have hinner : AgreeOutside (altered.drop 28) (file.drop 28) (i - 28) (i - 28 + 4) := by
          intro j hj
          rw [List.getElem?_drop, List.getElem?_drop]
          apply hwindow
          omega
        exact window_eq_of_crc32_eq (by simp [hlen]) hinner (hcrc'.trans hcrc.symm)
    rw [hpayload] at hd'
    rw [Except.ok.inj (hd'.symm.trans hd)]

def sampleFile : ByteString := (fileImage sampleSnapshot).toOption.getD []

theorem altered_sampleFile_same : (loadFile (sampleFile.set 40 7)).snapshot = none ∨
    (loadFile (sampleFile.set 40 7)).snapshot = some sampleSnapshot := by
  have hb : InBounds sampleSnapshot := by decide
  have hn : Named sampleSnapshot := by decide
  have hl : Loadable sampleSnapshot := by decide
  obtain ⟨payload, hp⟩ := emits_snapshotChunks hb
  obtain ⟨bytes, himage⟩ := fileImage_eq_ok hp
  have hload : (loadFile bytes).snapshot = some sampleSnapshot := by
    refine (loadFile_fileImage_iff hp himage _).mpr ⟨?_, decodeSnapshot_encode hl hn hb hp⟩
    rw [length_encode hb.stringsFit hp]
    decide
  have hfile : sampleFile = bytes := by rw [sampleFile, himage]; rfl
  rw [← hfile] at hload
  refine altered_file_same hload List.length_set (Or.inr ⟨40, by decide, fun j hj => ?_⟩)
  exact List.getElem?_set_ne (by omega)

end StateProvenance
