import StateProvenance.RestoreFaults

/-! The secondary indexes against a scan of every record, and the validity index after a restore. -/

namespace StateProvenance

open Std Library.OrderedMap Library

namespace ProvenanceStore

def scan (s : ProvenanceStore) (p : RecordData → Bool) : List StateId :=
  s.ids.filter fun x => (s.find x).any fun rec => p rec.d

structure IndexesScan (s : ProvenanceStore) : Prop where
  ordered : s.ids.Pairwise fun a b => compare a b = .lt
  byModel : ∀ k, k.valid = true → s.byModel k = s.scan fun d => d.modelId = k
  byAdapter : ∀ k, k.valid = true → s.byAdapter k = s.scan fun d => d.adapterId = k
  byProducer : ∀ k, k.valid = true → s.byProducer k = s.scan fun d => d.producerId = k
  byExecution : ∀ k, k.valid = true → s.byExecution k = s.scan fun d => d.executionId = k
  byAttempt : ∀ k, k.valid = true → s.byAttempt k = s.scan fun d => d.attemptId = k
  byArtifactGeneration : ∀ k, k.valid = true →
    s.byArtifactGeneration k = s.scan fun d => d.artifactGeneration = k
  byDependency : ∀ k, k.valid = true → s.byDependency k = s.scan fun d => d.dependencies.any fun dep => dep.id = k
  byEvidence : ∀ v, s.byEvidence v = s.scan fun d => d.evidence = v
  byValidity : ∀ v, s.byValidity v = s.ids.filter fun x => s.validityOf x = v

lemma mem_scan (s : ProvenanceStore) (p : RecordData → Bool) (x : StateId) :
    x ∈ s.scan p ↔ ∃ rec : ProvenanceRecord, s.records[x]? = some rec ∧ p rec.d = true := by
  rw [scan, List.mem_filter, ids, ExtTreeMap.mem_keys, ExtTreeMap.mem_iff_isSome_getElem?, find]
  cases s.records[x]? <;> simp

lemma ordered_scan (s : ProvenanceStore) (p : RecordData → Bool) :
    (s.scan p).Pairwise fun a b => compare a b = .lt :=
  ExtTreeMap.ordered_keys.filter _

lemma mem_idKey {Tag : Type} {k : ScalarIdentifier Tag} (hk : k.valid = true) (id : ScalarIdentifier Tag) :
    k ∈ idKey id ↔ id = k := by
  rw [idKey]
  split
  · rw [List.mem_singleton, eq_comm]
  · next hid =>
    simp only [List.not_mem_nil, false_iff]
    rintro rfl
    exact hid hk

lemma indexQuery_eq_scan {K : Type} [Ord K] [TransOrd K] {s : ProvenanceStore} {keys : RecordData → List K}
    {m : OrdMap K (OrdSet StateId)} (h : Indexed s.records keys m) {k : K} {p : RecordData → Bool}
    (hp : ∀ d, k ∈ keys d ↔ p d = true) : indexQuery m k = s.scan p := by
  apply eq_of_ordered ExtTreeSet.ordered_toList (s.ordered_scan p)
  intro x
  rw [ExtTreeSet.mem_toList, h.mem, mem_scan]
  simp only [hp]

lemma Live.byValidity_eq_filter {s : ProvenanceStore} (h : s.Live) (v : EnumValue ValidityState) :
    s.byValidity v = s.ids.filter fun x => s.validityOf x = v := by
  apply eq_of_ordered ExtTreeSet.ordered_toList (ExtTreeMap.ordered_keys.filter _)
  intro x
  have hids : x ∈ s.records.keys ↔ x ∈ s.status := ExtTreeMap.mem_keys.trans (h.status x).symm
  rw [ExtTreeSet.mem_toList, h.byValidity, List.mem_filter, hids, ExtTreeMap.mem_iff_isSome_getElem?,
    validityOf]
  cases s.status[x]? <;> simp

theorem reachable_indexesScan {s : ProvenanceStore} (h : Reachable s) : s.IndexesScan where
  ordered := ExtTreeMap.ordered_keys
  byModel := fun k hk => indexQuery_eq_scan h.live.indexes.byModel fun d => by simp [mem_idKey hk]
  byAdapter := fun k hk => indexQuery_eq_scan h.live.indexes.byAdapter fun d => by simp [mem_idKey hk]
  byProducer := fun k hk => indexQuery_eq_scan h.live.indexes.byProducer fun d => by simp [mem_idKey hk]
  byExecution := fun k hk => indexQuery_eq_scan h.live.indexes.byExecution fun d => by simp [mem_idKey hk]
  byAttempt := fun k hk => indexQuery_eq_scan h.live.indexes.byAttempt fun d => by simp [mem_idKey hk]
  byArtifactGeneration := fun k hk =>
    indexQuery_eq_scan h.live.indexes.byArtifact fun d => by simp [mem_idKey hk]
  byDependency := fun k hk => indexQuery_eq_scan h.live.indexes.byDependency fun d => by simp [mem_idKey hk]
  byEvidence := fun v => indexQuery_eq_scan h.live.indexes.byEvidence fun d => by simp [eq_comm]
  byValidity := h.live.byValidity_eq_filter

theorem pair_indexesScan :
    (pair (.produced 1)).IndexesScan ∧ (pair (.produced 1)).byExecution ⟨1⟩ = [⟨1⟩, ⟨2⟩] :=
  ⟨reachable_indexesScan (reachable_pair (.produced 1)), by decide⟩

def OverlayMatches (s : ProvenanceStore) : Prop :=
  ∀ x v, x ∈ s.byValidity v ↔ (s.find x).isSome = true ∧ s.validityOf x = v

namespace Restored

variable {t r : ProvenanceStore} {snap : StoreSnapshot}

lemma mem_byValidity (h : t.Restored snap r) (x : StateId) (v : EnumValue ValidityState) :
    x ∈ r.byValidity v ↔ (∃ st, snap.status[x]? = some st ∧ st.validity = v) ∨
      x ∈ r.records ∧ x ∉ snap.status ∧ .named .valid = v := by
  rw [ProvenanceStore.byValidity, indexQuery, ExtTreeSet.mem_toList, h.byValidity]

lemma validityOf_missing (h : t.Restored snap r) {x : StateId} (hx : x ∉ snap.status) :
    r.validityOf x = .named .unknown := by
  rw [validityOf, h.status, ExtTreeMap.getElem?_eq_none hx]

lemma validityOf_listed (h : t.Restored snap r) {x : StateId} {st : RecordStatus}
    (hst : snap.status[x]? = some st) : r.validityOf x = st.validity := by
  rw [validityOf, h.status, hst]

lemma keys_of_overlayMatches (h : t.Restored snap r) (hm : r.OverlayMatches) (x : StateId) :
    x ∈ snap.status ↔ x ∈ r.records := by
  rw [ExtTreeMap.mem_iff_isSome_getElem? (t := r.records)]
  constructor
  · intro hx
    obtain ⟨st, hst⟩ := Option.isSome_iff_exists.mp (ExtTreeMap.mem_iff_isSome_getElem?.mp hx)
    exact ((hm x st.validity).mp ((h.mem_byValidity x _).mpr (Or.inl ⟨st, hst, rfl⟩))).1
  · intro hx
    by_contra hn
    -- The record is listed as valid, and its validity is unknown.
    have hr : x ∈ r.records := ExtTreeMap.mem_iff_isSome_getElem?.mpr hx
    have hlisted := (hm x (.named .valid)).mp ((h.mem_byValidity x _).mpr (Or.inr ⟨hr, hn, rfl⟩))
    rw [h.validityOf_missing hn] at hlisted
    exact absurd hlisted.2 (by decide)

lemma overlayMatches_of_keys (h : t.Restored snap r) (hkeys : ∀ x, x ∈ snap.status ↔ x ∈ r.records) :
    r.OverlayMatches := by
  intro x v
  have hstored : (r.find x).isSome = true ↔ x ∈ snap.status := by
    rw [hkeys, ExtTreeMap.mem_iff_isSome_getElem?, find]
  rw [h.mem_byValidity, hstored, ← hkeys]
  by_cases hx : x ∈ snap.status
  · obtain ⟨st, hst⟩ := Option.isSome_iff_exists.mp (ExtTreeMap.mem_iff_isSome_getElem?.mp hx)
    rw [h.validityOf_listed hst, hst]
    simp [hx]
  · simp [hx]

end Restored

lemma HoldsExactly.mem_records {r : ProvenanceStore} {l : List ProvenanceRecord} (h : r.HoldsExactly l)
    (x : StateId) : x ∈ r.records ↔ x ∈ subjects l := by
  have hfind : x ∈ r.records ↔ ∃ rec, r.find x = some rec := by
    rw [ExtTreeMap.mem_iff_isSome_getElem?, Option.isSome_iff_exists, find]
  simp only [hfind, h x, subjects, List.mem_map]

theorem restored_overlay_iff {bytes : ByteString} {snap : StoreSnapshot} (hd : decodeSnapshot bytes = .ok snap)
    {t r : ProvenanceStore} (hrun : t.restore snap = (.ok (), r)) (hall : r.HoldsExactly snap.records) :
    r.OverlayMatches ↔ ∀ x, x ∈ snap.status ↔ x ∈ subjects snap.records := by
  have hl := decodeSnapshot_loadable hd
  have ho : Orderable snap.records := by
    by_contra hno
    rw [t.restore_refused hl.distinct hno] at hrun
    cases hrun
  obtain ⟨r', hrun', hr⟩ := t.restore_restored hl ho
  obtain rfl : r' = r := congrArg Prod.snd (hrun'.symm.trans hrun)
  simp only [← hall.mem_records]
  exact ⟨hr.keys_of_overlayMatches, hr.overlayMatches_of_keys⟩

theorem sampleSnapshot_overlay : ∃ r, ({} : ProvenanceStore).restore sampleSnapshot = (.ok (), r) ∧
    r.OverlayMatches := by
  have hl : Loadable sampleSnapshot := by decide
  obtain ⟨bytes, -, hd⟩ := decode_encode hl (by decide) (by decide)
  have ho : Orderable sampleSnapshot.records := orderable_single rfl (by decide)
  have hp : ParentsListed sampleSnapshot.records := List.forall_mem_singleton.mpr (by simp [RecordData.produced])
  obtain ⟨r, hrun, hr⟩ := ({} : ProvenanceStore).restore_restored hl ho
  have hall : r.HoldsExactly sampleSnapshot.records := (hr.holdsExactly_iff hl ho hrun).mpr hp
  refine ⟨r, hrun, (restored_overlay_iff hd hrun hall).mpr fun x => ?_⟩
  simp only [sampleSnapshot, subjects, RecordData.produced, List.map_cons, List.map_nil, List.mem_singleton,
    ExtTreeMap.mem_insert, LawfulEqCmp.compare_eq_iff_eq, ExtTreeMap.not_mem_empty, or_false]
  exact eq_comm

theorem missing_status_listed : ¬ ∀ bytes snap, decodeSnapshot bytes = .ok snap → ∀ t r : ProvenanceStore,
    t.restore snap = (.ok (), r) → r.HoldsExactly snap.records → r.OverlayMatches := by
  intro h
  obtain ⟨bytes, hd⟩ := decodes_single (d := .produced 1) (by decide) (by decide) (by decide)
  have hl := decodeSnapshot_loadable hd
  have ho : Orderable (single (.produced 1)).records := orderable_single rfl (by decide)
  have hp : ParentsListed (single (.produced 1)).records :=
    List.forall_mem_singleton.mpr (by simp [RecordData.produced])
  obtain ⟨r, hrun, hr⟩ := ({} : ProvenanceStore).restore_restored hl ho
  have hall : r.HoldsExactly (single (.produced 1)).records := (hr.holdsExactly_iff hl ho hrun).mpr hp
  have hkeys := (restored_overlay_iff hd hrun hall).mp (h bytes _ hd {} r hrun hall) ⟨1⟩
  simp [single, subjects, RecordData.produced] at hkeys

end ProvenanceStore

end StateProvenance
