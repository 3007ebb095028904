import StateProvenance.PersistRoundTrip

/-! Accepted snapshot streams. Whatever bytes the decoder accepts are the emission of the entries that it
listed, in the order of the stream; only the two maps forget repeated and out-of-order keys. -/

namespace StateProvenance

open Std Library.OrderedMap Library.ByteCodec

section Fields

variable (err : String)

lemma toLE_toUInt64 {bytes : ByteString} (h : bytes.length = 8) :
    toLE 8 (ofLE bytes).toUInt64.toNat = bytes := by
  have hlt := ofLE_lt bytes
  rw [h] at hlt
  rw [toNat_toUInt64 hlt]
  have hback := toLE_ofLE bytes
  rwa [h] at hback

lemma toLE_toUInt32 {bytes : ByteString} (h : bytes.length = 4) :
    toLE 4 (ofLE bytes).toUInt32.toNat = bytes := by
  have hlt := ofLE_lt bytes
  rw [h] at hlt
  rw [toNat_toUInt32 hlt]
  have hback := toLE_ofLE bytes
  rwa [h] at hback

lemma parses_word : Parses (ReadField.word err) fun v cs => cs = [BinaryWriter.u64 v] := by
  apply Parses.field (f := fun b => (ofLE b).toUInt64) fun _ => rfl
  intro bytes hlen
  rw [BinaryWriter.u64, toLE_toUInt64 hlen]

lemma parses_signed : Parses (ReadField.signed err) fun v cs => cs = [BinaryWriter.i64 v] := by
  apply Parses.field (f := fun b => (ofLE b).toUInt64.toInt64)
  · intro r
    simp only [BinaryReader.i64, BinaryReader.u64, Option.map_map]
    rfl
  · intro bytes hlen
    rw [BinaryWriter.i64, BinaryWriter.u64, UInt64.toUInt64_toInt64, toLE_toUInt64 hlen]

lemma parses_u32 : Parses (need BinaryReader.u32 err) fun v cs => cs = [BinaryWriter.u32 v] := by
  apply Parses.field (f := fun b => (ofLE b).toUInt32) fun _ => rfl
  intro bytes hlen
  rw [BinaryWriter.u32, toLE_toUInt32 hlen]

lemma parses_id {Tag : Type} :
    Parses (ReadField.id err : Parse (ScalarIdentifier Tag)) fun v cs => cs = [BinaryWriter.id v] :=
  (parses_word err).step fun _ => Parses.pure rfl

lemma parses_enum {E : Type} [EnumClass E] (invalid : String) :
    Parses (ReadField.enum err invalid : Parse (EnumValue E)) fun v cs => cs = [BinaryWriter.enum v] := by
  have hbyte : Parses (need BinaryReader.u8 err) fun b cs => cs = [BinaryWriter.u8 b] := by
    apply Parses.field (f := fun b => b.headD 0) fun _ => rfl
    intro bytes hlen
    obtain ⟨b, rfl⟩ := List.length_eq_one_iff.mp hlen
    rfl
  refine hbyte.step fun b => Parses.check fun _ => Parses.pure ?_
  rw [BinaryWriter.enum, EnumValue.toByte_ofByte, List.append_nil]

lemma parses_count : Parses (ReadField.count err) fun n cs =>
    cs = [BinaryWriter.size n] ∧ n ≤ kMaxVecLen.toNat := by
  refine (parses_u32 err).step fun n => Parses.check fun hn => Parses.pure ⟨?_, ?_⟩
  · simp [BinaryWriter.size]
  · rwa [decide_eq_true_iff, UInt32.le_iff_toNat_le] at hn

lemma str_eq_bind : ReadField.str err = (do
    let len ← need BinaryReader.u32 err
    check (len ≤ kMaxStringLen) err
    need (fun r => r.take len.toNat) err) := by
  funext r
  have hbind : ∀ {α β : Type} (p : Parse α) (f : α → Parse β) (r : Cursor),
      (p >>= f) r = (p r).bind fun x => f x.1 x.2 := fun _ _ _ => rfl
  rw [hbind, ReadField.str, need, need, BinaryReader.str]
  rcases BinaryReader.u32 r with ⟨len, r₁⟩
  cases len with
  | none => rfl
  | some len =>
    by_cases hlen : len ≤ kMaxStringLen
    · have hcap : ¬ len > kMaxStringLen := UInt32.not_lt.mpr hlen
      simp [Except.bind, hbind, check, need, hlen, hcap]
    · have hcap : len > kMaxStringLen := UInt32.not_le.mp hlen
      simp [Except.bind, hbind, check, hlen, hcap]

lemma parses_str : Parses (ReadField.str err) fun s cs => cs = [BinaryWriter.str s] := by
  have hraw : Parses (ReadField.str err) fun s cs => ∃ len : UInt32, len ≤ kMaxStringLen ∧
      s.length = len.toNat ∧ cs = [BinaryWriter.u32 len, .ok s] := by
    rw [str_eq_bind]
    refine (parses_u32 err).step fun len => Parses.check fun hlen => ?_
    refine (Parses.take (n := len.toNat) (f := fun b => b) fun r => ?_).regroup ?_
    · rw [Option.map_id']
    · rintro s cs ⟨bytes, hbytes, rfl, rfl⟩
      exact ⟨_, ⟨len, of_decide_eq_true hlen, hbytes, rfl⟩, rfl⟩
  refine hraw.regroup ?_
  rintro s cs ⟨len, hle, hlen, rfl⟩
  refine ⟨_, rfl, ?_⟩
  have hcap : ¬ s.length > kMaxStringLen.toNat := by
    rw [hlen, Nat.not_lt]
    exact UInt32.le_iff_toNat_le.mp hle
  rw [BinaryWriter.str, if_neg hcap, hlen]
  simp [BinaryWriter.u32, emit, Except.map]

end Fields

section Record

def RecordData.references (d : RecordData) :
    List StateId × List ProvenanceId × List Dependency × List CompatibilityRequirement :=
  (d.inputStates, d.parentProvenance, d.dependencies, d.requirements)

structure VecsFit (d : RecordData) : Prop where
  inputStates : d.inputStates.length ≤ kMaxVecLen.toNat
  parentProvenance : d.parentProvenance.length ≤ kMaxVecLen.toNat
  dependencies : d.dependencies.length ≤ kMaxVecLen.toNat
  requirements : d.requirements.length ≤ kMaxVecLen.toNat

lemma parses_identity (base : RecordData) : Parses (readIdentity base) fun d cs =>
    cs = identityChunks d ∧ d.references = base.references := by
  rw [readIdentity]
  iterate 3 (apply (parses_id _).step; intro _)
  apply (parses_enum _ _).step
  intro _
  iterate 6 (apply (parses_id _).step; intro _)
  apply (parses_signed _).step
  intro _
  exact Parses.pure ⟨rfl, rfl⟩

lemma parses_model (base : RecordData) : Parses (readModel base) fun d cs =>
    cs = modelChunks d ∧ identityChunks d = identityChunks base ∧ d.references = base.references := by
  rw [readModel]
  iterate 2 (apply (parses_id _).step; intro _)
  iterate 2 (apply (parses_str _).step; intro _)
  iterate 2 (apply (parses_id _).step; intro _)
  apply (parses_str _).step
  intro _
  iterate 2 (apply (parses_id _).step; intro _)
  apply (parses_str _).step
  intro _
  exact Parses.pure ⟨rfl, rfl, rfl⟩

lemma parses_runtime (base : RecordData) : Parses (readRuntime base) fun d cs =>
    cs = runtimeChunks d ∧ identityChunks d = identityChunks base ∧ modelChunks d = modelChunks base ∧
      d.references = base.references := by
  rw [readRuntime]
  iterate 6 (apply (parses_id _).step; intro _)
  iterate 6 (apply (parses_str _).step; intro _)
  exact Parses.pure ⟨rfl, rfl, rfl, rfl⟩

lemma parses_dependency : Parses readDependency fun dep cs => cs = dependencyChunks dep := by
  rw [readDependency]
  iterate 2 (apply (parses_id _).step; intro _)
  iterate 2 (apply (parses_str _).step; intro _)
  exact Parses.pure rfl

lemma parses_requirement : Parses readRequirement fun req cs => cs = requirementChunks req := by
  rw [readRequirement]
  apply (parses_enum _ _).step
  intro _
  iterate 2 (apply (parses_str _).step; intro _)
  exact Parses.pure rfl

lemma parses_vec {α β : Type} {p : Parse α} {enc : α → List Chunk} (hp : Parses p fun a cs => cs = enc a)
    (err : String) {f : List α → Parse β} {Q : β → List Chunk → Prop}
    (hf : ∀ as, as.length ≤ kMaxVecLen.toNat →
      Parses (f as) fun b ds => Q b (BinaryWriter.size as.length :: (as.flatMap enc ++ ds))) :
    Parses (ReadField.count err >>= fun n => many p n >>= f) Q := by
  refine (parses_count err).bind fun n cs hn => (hp.many n).bind fun as ds has => ?_
  obtain ⟨rfl, hle⟩ := hn
  obtain ⟨rfl, rfl⟩ := has
  exact hf as hle

lemma parses_references {base : RecordData} (hbase : base.references = ([], [], [], [])) :
    Parses (readReferences base) fun d cs => cs = referenceChunks d ∧ VecsFit d ∧
      identityChunks d = identityChunks base ∧ modelChunks d = modelChunks base ∧
        runtimeChunks d = runtimeChunks base := by
  simp only [RecordData.references, Prod.mk.injEq] at hbase
  obtain ⟨hstates, hparents, hdeps, hreqs⟩ := hbase
  rw [readReferences]
  refine parses_vec (parses_id _) _ fun states hs => parses_vec (parses_id _) _ fun parents hp =>
    parses_vec parses_dependency _ fun deps hd => parses_vec parses_requirement _ fun reqs hr => ?_
  rw [hstates, hparents, hdeps, hreqs]
  exact Parses.pure ⟨by simp [referenceChunks], ⟨hs, hp, hd, hr⟩, rfl, rfl, rfl⟩

lemma parses_metadata (base : RecordData) : Parses (readMetadata base) fun d cs =>
    cs = metadataChunks d ∧ identityChunks d = identityChunks base ∧ modelChunks d = modelChunks base ∧
      runtimeChunks d = runtimeChunks base ∧ d.references = base.references := by
  rw [readMetadata]
  iterate 2 (apply (parses_id _).step; intro _)
  iterate 2 (apply (parses_str _).step; intro _)
  apply (parses_word _).step
  intro _
  iterate 2 (apply (parses_id _).step; intro _)
  iterate 4 (apply (parses_enum _ _).step; intro _)
  apply (parses_str _).step
  intro _
  exact Parses.pure ⟨rfl, rfl, rfl, rfl, rfl⟩

lemma parses_record : Parses (readRecord {}) fun d cs => cs = writeRecord d ∧ VecsFit d := by
  rw [readRecord]
  refine (parses_identity {}).bind fun d₁ cs₁ h₁ => (parses_model d₁).bind fun d₂ cs₂ h₂ =>
    (parses_runtime d₂).bind fun d₃ cs₃ h₃ => ?_
  obtain ⟨rfl, hr₁⟩ := h₁
  obtain ⟨rfl, hi₂, hr₂⟩ := h₂
  obtain ⟨rfl, hi₃, hm₃, hr₃⟩ := h₃
  refine (parses_references (hr₃.trans (hr₂.trans hr₁))).bind fun d₄ cs₄ h₄ =>
    (parses_metadata d₄).bind fun d₅ cs₅ h₅ => Parses.check fun _ => Parses.pure ?_
  obtain ⟨rfl, hv, hi₄, hm₄, hrt₄⟩ := h₄
  obtain ⟨rfl, hi₅, hm₅, hrt₅, hr₅⟩ := h₅
  simp only [RecordData.references, Prod.mk.injEq] at hr₅
  obtain ⟨hs, hp, hd, hq⟩ := hr₅
  constructor
  · have href : referenceChunks d₅ = referenceChunks d₄ := by
      simp only [referenceChunks, hs, hp, hd, hq]
    rw [writeRecord, href, hi₅, hi₄, hi₃, hi₂, hm₅, hm₄, hm₃, hrt₅, hrt₄, List.append_nil]
  · exact ⟨hs ▸ hv.inputStates, hp ▸ hv.parentProvenance, hd ▸ hv.dependencies, hq ▸ hv.requirements⟩

lemma parses_records (n : ℕ) (acc : List ProvenanceRecord) : Parses (readRecords n acc) fun l cs =>
    ∃ new, l = acc ++ new ∧ new.length = n ∧ (cs = new.flatMap fun rec => writeRecord rec.d) ∧
      ∀ rec ∈ new, VecsFit rec.d := by
  induction n generalizing acc with
  | zero => exact Parses.pure ⟨[], by simp⟩
  | succ n ih =>
    refine parses_record.bind fun d cs hd => Parses.check fun _ => (ih (acc ++ [⟨d⟩])).regroup ?_
    obtain ⟨rfl, hfit⟩ := hd
    rintro l ds ⟨new, rfl, rfl, rfl, hnew⟩
    refine ⟨_, ⟨⟨d⟩ :: new, by simp, by simp, rfl, ?_⟩, rfl⟩
    exact List.forall_mem_cons.mpr ⟨hfit, hnew⟩

end Record

structure Listing where
  records : List ProvenanceRecord
  status : List (StateId × RecordStatus)
  boots : List (WorkerId × WorkerBootId)
  authority : AuthoritySnapshot

namespace Listing

def snapshot (l : Listing) : StoreSnapshot where
  records := l.records
  status := fill Prod.fst Prod.snd l.status
  authority := l.authority

def ofSnapshot (s : StoreSnapshot) : Listing where
  records := s.records
  status := s.status.toList
  boots := s.authority.boots.toList
  authority := s.authority

def chunks (l : Listing) : List Chunk :=
  BinaryWriter.u64 kPayloadMagic :: BinaryWriter.u32 kFormatVersion ::
    BinaryWriter.u64 l.records.length.toUInt64 ::
      (l.records.flatMap (fun rec => writeRecord rec.d) ++
        BinaryWriter.size l.status.length :: (l.status.flatMap statusChunks ++
          BinaryWriter.u64 l.authority.epoch :: BinaryWriter.size l.boots.length ::
            (l.boots.flatMap bootChunks ++ generationChunks l.authority)))

structure Fits (l : Listing) : Prop where
  recordCount : l.records.length ≤ kMaxRecords.toNat
  records : ∀ rec ∈ l.records, VecsFit rec.d
  statusCount : l.status.length ≤ kMaxVecLen.toNat
  bootCount : l.boots.length ≤ kMaxVecLen.toNat
  boots : l.authority.boots = fill Prod.fst Prod.snd l.boots

end Listing

def readListing : Parse Listing := do
  let magic ← need BinaryReader.u64 "truncated: missing payload magic"
  check (magic = kPayloadMagic) "bad payload magic"
  let ver ← need BinaryReader.u32 "truncated: missing version"
  check (ver = kFormatVersion) "unsupported format version"
  let recordCount ← need BinaryReader.u64 "truncated: missing record count"
  check (recordCount ≤ kMaxRecords) "record count exceeds bound"
  let records ← readRecords recordCount.toNat []
  let n ← ReadField.count "invalid status count"
  let status ← many readStatus n
  let epoch ← ReadField.word "truncated authority(epoch)"
  let n ← ReadField.count "invalid boots count"
  let boots ← many readBoot n
  let authority ← readGenerations epoch (fill Prod.fst Prod.snd boots)
  pure { records, status, boots, authority }

def listing (bytes : ByteString) : Option Listing :=
  match readListing ⟨bytes, true⟩ with
  | .error _ => none
  | .ok (l, _) => some l

lemma readSnapshot_eq_map : readSnapshot = Listing.snapshot <$> readListing := by
  simp only [readSnapshot, readListing, readAuthority, map_bind, bind_assoc, map_pure]
  rfl

section Listing

lemma parses_status : Parses readStatus fun e cs => cs = statusChunks e := by
  rw [readStatus]
  apply (parses_id _).step
  intro _
  iterate 2 (apply (parses_enum _ _).step; intro _)
  apply (parses_id _).step
  intro _
  apply (parses_str _).step
  intro _
  exact Parses.pure rfl

lemma parses_boot : Parses readBoot fun e cs => cs = bootChunks e := by
  rw [readBoot]
  iterate 2 (apply (parses_id _).step; intro _)
  exact Parses.pure rfl

lemma parses_generations (epoch : UInt64) (boots : OrdMap WorkerId WorkerBootId) :
    Parses (readGenerations epoch boots) fun a cs =>
      cs = generationChunks a ∧ a.epoch = epoch ∧ a.boots = boots := by
  rw [readGenerations]
  iterate 10 (apply (parses_id _).step; intro _)
  exact Parses.pure ⟨rfl, rfl, rfl⟩

lemma parses_listing : Parses readListing fun l cs => cs = l.chunks ∧ l.Fits := by
  rw [readListing]
  refine (parses_word _).step fun magic => Parses.check fun hmagic => (parses_u32 _).step fun ver =>
    Parses.check fun hver => (parses_word _).step fun recordCount => Parses.check fun hcount => ?_
  obtain rfl := of_decide_eq_true hmagic
  obtain rfl := of_decide_eq_true hver
  refine (parses_records _ _).bind fun records cs hrecords => parses_vec parses_status _ fun status hs =>
    (parses_word _).step fun epoch => parses_vec parses_boot _ fun boots hb =>
      (parses_generations _ _).bind fun authority ds ha => Parses.pure ?_
  obtain ⟨new, rfl, hlen, rfl, hfit⟩ := hrecords
  obtain ⟨rfl, rfl, hboots⟩ := ha
  have hword : UInt64.ofNat records.length = recordCount := by simp [hlen]
  refine ⟨?_, ⟨?_, hfit, hs, hb, hboots⟩⟩
  · simp [Listing.chunks, hword]
  · rw [hlen]
    exact UInt64.le_iff_toNat_le.mp (of_decide_eq_true hcount)

lemma reads_listing {l : Listing} (hfit : l.Fits) (hl : Emits l.chunks) :
    Reads False readListing l.chunks l := by
  have hcount : l.records.length.toUInt64.toNat = l.records.length :=
    toNat_toUInt64 (hfit.recordCount.trans_lt kMaxRecords.toNat_lt)
  have hbounds : ∀ rec ∈ l.records, RecordBounds rec.d := by
    simp only [Listing.chunks, emits_cons, emits_append, emits_flatMap] at hl
    intro rec hr
    have hv := hfit.records rec hr
    exact ⟨(emits_writeRecord_iff rec.d).mp (hl.2.2.2.1 rec hr), hv.inputStates, hv.parentProvenance,
      hv.dependencies, hv.requirements⟩
  rw [readListing, Listing.chunks]
  refine (reads_word _ _).cons (Reads.check False.elim ?_)
  refine (reads_u32 _ _).cons (Reads.check False.elim ?_)
  refine (reads_word _ _).cons (Reads.check False.elim ?_)
  rw [hcount]
  refine (reads_records hbounds False.elim False.elim False.elim).append ?_
  refine (reads_count _ hfit.statusCount).cons ((Reads.many fun e _ => reads_status False.elim).append ?_)
  refine (reads_word _ _).cons ((reads_count _ hfit.bootCount).cons ?_)
  refine (Reads.many fun e _ => reads_boot e).append ?_
  rw [← hfit.boots]
  exact (reads_generations _).last (Reads.pure l)

lemma chunks_ofSnapshot (s : StoreSnapshot) : (Listing.ofSnapshot s).chunks = snapshotChunks s := by
  simp only [Listing.chunks, Listing.ofSnapshot, snapshotChunks, writeAuthority, ExtTreeMap.length_toList]

lemma decodeSnapshot_eq_ok {bytes : ByteString} {s : StoreSnapshot} (h : decodeSnapshot bytes = .ok s) :
    ∃ l, s = l.snapshot ∧ l.Fits ∧ emit l.chunks = .ok bytes ∧
      ∀ rest, readListing ⟨bytes ++ rest, true⟩ = .ok (l, ⟨rest, true⟩) := by
  have hmap : ∀ r, readSnapshot r = (readListing r).map fun x => (x.1.snapshot, x.2) := by
    intro r
    rw [readSnapshot_eq_map]
    rfl
  rw [decodeSnapshot, hmap] at h
  cases hl : readListing ⟨bytes, true⟩ with
  | error e => simp [hl, Except.map] at h
  | ok x =>
    rcases x with ⟨l, r⟩
    obtain ⟨cs, w, ⟨rfl, hfit⟩, hw, hrest, hok, hagain⟩ := parses_listing _ _ _ hl
    simp only [hl, Except.map] at h
    split at h
    · contradiction
    · next hdone =>
      obtain rfl := Except.ok.inj h
      have hend : r.rest = [] := by
        rw [Cursor.remaining, hok, if_pos rfl, not_not] at hdone
        exact List.length_eq_zero_iff.mp hdone
      obtain rfl : bytes = w := by simpa [hend] using hrest
      exact ⟨l, rfl, hfit, hw, hagain⟩

lemma decodeSnapshot_append {bytes rest : ByteString} {s : StoreSnapshot} (h : decodeSnapshot bytes = .ok s)
    (hrest : rest ≠ []) : decodeSnapshot (bytes ++ rest) = .error "trailing data after snapshot" := by
  obtain ⟨l, rfl, -, -, hagain⟩ := decodeSnapshot_eq_ok h
  have hread : readSnapshot ⟨bytes ++ rest, true⟩ = .ok (l.snapshot, ⟨rest, true⟩) := by
    rw [readSnapshot_eq_map]
    exact congrArg (Except.map fun x => (Listing.snapshot x.1, x.2)) (hagain rest)
  rw [decodeSnapshot, hread]
  simp [Cursor.remaining, hrest]

theorem accepted_prefix_free {bytes : ByteString} {s : StoreSnapshot} (h : decodeSnapshot bytes = .ok s)
    (other : ByteString) (hne : other ≠ bytes) (hpart : other <+: bytes ∨ bytes <+: other) :
    ∃ e, decodeSnapshot other = .error e := by
  rcases hpart with ⟨rest, rfl⟩ | ⟨rest, rfl⟩
  · have hrest : rest ≠ [] := by
      rintro rfl
      simp at hne
    cases ho : decodeSnapshot other with
    | error e => exact ⟨e, rfl⟩
    | ok t =>
      rw [decodeSnapshot_append ho hrest] at h
      contradiction
  · have hrest : rest ≠ [] := by
      rintro rfl
      simp at hne
    exact ⟨_, decodeSnapshot_append h hrest⟩

theorem fullStream_prefix_free :
    (∃ e, decodeSnapshot fullStream.dropLast = .error e) ∧ ∃ e, decodeSnapshot (fullStream ++ [0]) = .error e :=
  ⟨accepted_prefix_free decodeSnapshot_fullStream _ (by decide +kernel) (.inl (List.dropLast_prefix _)),
    accepted_prefix_free decodeSnapshot_fullStream _ (by simp) (.inr (List.prefix_append _ _))⟩

def StrictKeys (bytes : ByteString) : Prop :=
  ∀ l, listing bytes = some l → Ascending l.status ∧ Ascending l.boots

theorem encode_decode_iff {bytes : ByteString} {s : StoreSnapshot} (h : decodeSnapshot bytes = .ok s) :
    encodeSnapshot s = .ok bytes ↔ StrictKeys bytes := by
  obtain ⟨l, rfl, hfit, hemit, hagain⟩ := decodeSnapshot_eq_ok h
  have hread := hagain []
  rw [List.append_nil] at hread
  have hlisting : listing bytes = some l := by rw [listing, hread]
  rw [StrictKeys, encodeSnapshot, ← chunks_ofSnapshot]
  constructor
  · intro he l' hl'
    obtain rfl : l = l' := Option.some.inj (hlisting.symm.trans hl')
    have hfit' : (Listing.ofSnapshot l.snapshot).Fits := by
      refine ⟨hfit.recordCount, hfit.records, ?_, ?_, (fill_toList _).symm⟩
      · exact ExtTreeMap.length_toList.trans_le ((size_fill_le _ _ l.status).trans hfit.statusCount)
      · have hsize := size_fill_le Prod.fst Prod.snd l.boots
        rw [← hfit.boots] at hsize
        exact ExtTreeMap.length_toList.trans_le (hsize.trans hfit.bootCount)
    have hsame := reads_listing hfit' ⟨bytes, he⟩ bytes he []
    rw [List.append_nil, hread] at hsame
    have hl : l = Listing.ofSnapshot l.snapshot := by
      rcases hsame with hs | ⟨-, e, hs⟩
      · exact (Prod.mk.inj (Except.ok.inj hs)).1
      · contradiction
    rw [hl]
    exact ⟨ascending_toList _, ascending_toList _⟩
  · intro hkeys
    obtain ⟨hstatus, hboots⟩ := hkeys l hlisting
    have hl : Listing.ofSnapshot l.snapshot = l := by
      rw [Listing.ofSnapshot, Listing.snapshot, hstatus.toList_fill, hfit.boots, hboots.toList_fill]
    rw [hl, hemit]

theorem fullStream_strictKeys : StrictKeys fullStream :=
  (encode_decode_iff decodeSnapshot_fullStream).mp encodeSnapshot_fullStream

def repeatedStatus : ByteString :=
  ((emit (Listing.chunks ⟨[], [(⟨1⟩, {}), (⟨1⟩, {})], [], {}⟩)).toOption).getD []

theorem repeated_status_accepted :
    ¬ ∀ bytes s, decodeSnapshot bytes = .ok s → encodeSnapshot s = .ok bytes := by
  -- The status of subject 1 is listed twice and encoded once.
  intro h
  have hdecoded : (decodeSnapshot repeatedStatus).toOption.isSome = true := by decide +kernel
  have hlost : (decodeSnapshot repeatedStatus).bind encodeSnapshot ≠ .ok repeatedStatus := by decide +kernel
  generalize repeatedStatus = bytes at *
  cases hd : decodeSnapshot bytes with
  | error e =>
    rw [hd] at hdecoded
    contradiction
  | ok s =>
    rw [hd] at hlost
    exact hlost (h bytes s hd)

end Listing

end StateProvenance
