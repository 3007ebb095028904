import StateProvenance.StoreInvariant
import StateProvenance.TopoOrder

/-! Rebuilding a store from a snapshot: which snapshots are refused, which records are kept, and that the
snapshot of a coherent store rebuilds its records, graph and indexes. -/

namespace StateProvenance

open Std Library.OrderedMap Library

@[mk_iff] structure Loadable (snap : StoreSnapshot) : Prop where
  valid : ∀ rec ∈ snap.records, validateRecord rec.d = none
  distinct : (provenanceIds snap.records).Nodup

instance (snap : StoreSnapshot) : Decidable (Loadable snap) := decidable_of_iff' _ (loadable_iff snap)

def ParentsListed (l : List ProvenanceRecord) : Prop :=
  ∀ rec ∈ l, ∀ q ∈ rec.d.parentProvenance, q ∈ provenanceIds l

namespace ProvenanceStore

structure Reinserted (s t : ProvenanceStore) (l : List ProvenanceRecord) : Prop where
  core : t.Core
  authority : t.authority = s.authority
  runtimeGeneration : t.runtimeGeneration = s.runtimeGeneration
  old : ∀ (x : StateId) (rec : ProvenanceRecord), s.records[x]? = some rec → t.records[x]? = some rec
  new : ∀ (x : StateId) (rec : ProvenanceRecord), t.records[x]? = some rec →
    s.records[x]? = some rec ∨ rec ∈ l

lemma reinsert_spec {l : List ProvenanceRecord} (hl : ∀ rec ∈ l, validateRecord rec.d = none)
    {s : ProvenanceStore} (h : s.Core) : ∃ t, reinsert l s = (.ok (), t) ∧ s.Reinserted t l := by
  induction l generalizing s with
  | nil => exact ⟨s, rfl, h, rfl, rfl, fun _ _ hr => hr, fun _ _ hr => Or.inl hr⟩
  | cons rec l ih =>
    have hstep := insertValidated_step h (hl rec List.mem_cons_self)
    have hcore := hstep.core h
    have hrest := fun r hr => hl r (List.mem_cons_of_mem _ hr)
    generalize he : s.insertValidated rec.d = r at hstep hcore
    cases hstep with
    | rejected error =>
      obtain ⟨t, hrun, ht⟩ := ih hrest h
      refine ⟨t, ?_, ht.core, ht.authority, ht.runtimeGeneration, ht.old, fun x r hr => ?_⟩
      · rw [reinsert, he]
        exact hrun
      · exact (ht.new x r hr).imp_right (List.mem_cons_of_mem _)
    | accepted g hv hi hg =>
      obtain ⟨t, hrun, ht⟩ := ih hrest hcore
      refine ⟨t, ?_, ht.core, ht.authority, ht.runtimeGeneration, fun x r hr => ?_, fun x r hr => ?_⟩
      · rw [reinsert, he]
        exact hrun
      · apply ht.old
        rw [getElem?_commit_records, if_neg, hr]
        rintro rfl
        exact hi.newSubject (ExtTreeMap.mem_iff_isSome_getElem?.mpr (by rw [hr]; rfl))
      · rcases ht.new x r hr with hc | hm
        · rw [getElem?_commit_records] at hc
          split at hc
          · obtain rfl := Option.some.inj hc
            exact Or.inr List.mem_cons_self
          · exact Or.inl hc
        · exact Or.inr (List.mem_cons_of_mem _ hm)

structure Insertion (s : ProvenanceStore) (l : List ProvenanceRecord) : Prop where
  subjects : (subjects l).Nodup
  provenanceIds : (provenanceIds l).Nodup
  newSubject : ∀ rec ∈ l, rec.d.subjectId ∉ s.records
  newProvenance : ∀ rec ∈ l, rec.d.provenanceId ∉ s.provToState
  inputs : ∀ before rec after, l = before ++ rec :: after → ∀ x ∈ rec.d.inputStates,
    x ∈ s.records ∨ x ∈ StateProvenance.subjects before
  parents : ∀ before rec after, l = before ++ rec :: after → ∀ q ∈ rec.d.parentProvenance,
    q ∈ s.provToState ∨ q ∈ StateProvenance.provenanceIds before

lemma Insertion.head {s : ProvenanceStore} {rec : ProvenanceRecord} {l : List ProvenanceRecord}
    (h : s.Insertion (rec :: l)) : s.Insertable rec.d where
  inputs := by
    intro x hx
    simpa using h.inputs [] rec l rfl x hx
  parents := by
    intro q hq
    simpa using h.parents [] rec l rfl q hq
  newSubject := h.newSubject rec List.mem_cons_self
  newProvenance := h.newProvenance rec List.mem_cons_self

lemma Insertion.tail {s : ProvenanceStore} {rec : ProvenanceRecord} {l : List ProvenanceRecord}
    (h : s.Insertion (rec :: l)) (g : ProvenanceGraph) : (s.commit rec.d g).Insertion l := by
  obtain ⟨hsub, hsubs⟩ := List.nodup_cons.mp h.subjects
  obtain ⟨hprov, hprovs⟩ := List.nodup_cons.mp h.provenanceIds
  refine ⟨hsubs, hprovs, fun r hr => ?_, fun r hr => ?_, ?_, ?_⟩
  · rw [mem_commit_records]
    rintro (he | hm)
    · exact hsub (List.mem_map.mpr ⟨r, hr, he.symm⟩)
    · exact h.newSubject r (List.mem_cons_of_mem _ hr) hm
  · rw [mem_commit_prov]
    rintro (he | hm)
    · exact hprov (List.mem_map.mpr ⟨r, hr, he.symm⟩)
    · exact h.newProvenance r (List.mem_cons_of_mem _ hr) hm
  · rintro before r after rfl x hx
    rw [mem_commit_records]
    rcases h.inputs (rec :: before) r after rfl x hx with hm | hm
    · exact Or.inl (Or.inr hm)
    · rcases List.mem_cons.mp hm with rfl | hm
      · exact Or.inl (Or.inl rfl)
      · exact Or.inr hm
  · rintro before r after rfl q hq
    rw [mem_commit_prov]
    rcases h.parents (rec :: before) r after rfl q hq with hm | hm
    · exact Or.inl (Or.inr hm)
    · rcases List.mem_cons.mp hm with rfl | hm
      · exact Or.inl (Or.inl rfl)
      · exact Or.inr hm

lemma reinsert_complete {l : List ProvenanceRecord} (hl : ∀ rec ∈ l, validateRecord rec.d = none)
    {s : ProvenanceStore} (h : s.Core) (hi : s.Insertion l) {t : ProvenanceStore}
    (hrun : reinsert l s = (.ok (), t)) : ∀ rec ∈ l, t.records[rec.d.subjectId]? = some rec := by
  induction l generalizing s with
  | nil => simp
  | cons rec l ih =>
    have hv := hl rec List.mem_cons_self
    have hrest := fun r hr => hl r (List.mem_cons_of_mem _ hr)
    obtain ⟨g, hg, he⟩ := insertValidated_accepted h hv hi.head
    have hcore := h.commit hi.head hv hg
    rw [reinsert, he] at hrun
    intro r hr
    rcases List.mem_cons.mp hr with rfl | hr
    · obtain ⟨t', hrun', ht⟩ := reinsert_spec hrest hcore
      obtain rfl : t = t' := congrArg Prod.snd (hrun.symm.trans hrun')
      apply ht.old
      rw [getElem?_commit_records, if_pos rfl]
    · exact ih hrest hcore (hi.tail g) hrun r hr

lemma core_cleared (s : ProvenanceStore) (snap : StoreSnapshot) : (s.cleared snap).Core where
  keyed := by simp [cleared]
  prov := by simp [cleared]
  graph := ProvenanceGraph.wellFormed_empty
  nodes := by simp [cleared]
  arcs := by simp [cleared, ProvenanceGraph.Arc]
  resolved := by simp [cleared]
  indexes := indexesExact_empty

lemma live_cleared (s : ProvenanceStore) (snap : StoreSnapshot) : (s.cleared snap).Live where
  toCore := s.core_cleared snap
  status := by simp [cleared]
  byValidity := by simp [cleared]

lemma restore_refused (s : ProvenanceStore) {snap : StoreSnapshot}
    (hp : (provenanceIds snap.records).Nodup) (h : ¬ Orderable snap.records) :
    s.restore snap =
      (.error "restore refused: persisted provenance graph contains a cycle", s.cleared snap) :=
  if_pos (mt (recordsInTopoOrder_length_iff hp).mp h)

lemma restore_accepted (s : ProvenanceStore) {snap : StoreSnapshot} (hl : Loadable snap)
    (h : Orderable snap.records) :
    ∃ t, reinsert (recordsInTopoOrder snap) (s.cleared snap) = (.ok (), t) ∧
      s.restore snap = (.ok (), t.overlay snap.status) := by
  have hvalid : ∀ rec ∈ recordsInTopoOrder snap, validateRecord rec.d = none := by
    intro rec hr
    exact hl.valid rec ((recordsInTopoOrder_order hl.distinct h).perm.mem_iff.mp hr)
  obtain ⟨t, hrun, -⟩ := reinsert_spec hvalid (s.core_cleared snap)
  refine ⟨t, hrun, ?_⟩
  rw [restore]
  simp only [(recordsInTopoOrder_length_iff hl.distinct).mpr h, ne_eq, not_true_eq_false, if_false, hrun]

lemma mem_overlay_byValidity (s : ProvenanceStore) (status : OrdMap StateId RecordStatus)
    (v : EnumValue ValidityState) (x : StateId) :
    x ∈ (s.overlay status).indexes.byValidity.getD v ∅ ↔
      (∃ st, status[x]? = some st ∧ st.validity = v) ∨ x ∈ s.records ∧ x ∉ status ∧ .named .valid = v := by
  have hfold : ∀ (l : List StateId) (m : OrdMap (EnumValue ValidityState) (OrdSet StateId)),
      l.foldl (fun m id => if id ∈ status then m else addTo m (.named .valid) id) m =
        (l.filter fun id => id ∉ status).foldl (fun m id => addTo m (.named .valid) id) m := by
    intro l m
    rw [List.foldl_filter]
    apply List.foldl_ext _ _ _
    intro m id _
    by_cases hid : id ∈ status <;> simp [hid]
  rw [overlay]
  simp only [hfold]
  rw [mem_foldl_addTo (fun _ : StateId => EnumValue.named ValidityState.valid) fun id => id,
    mem_foldl_addTo (fun e : StateId × RecordStatus => e.2.validity) Prod.fst]
  simp only [List.mem_filter, ExtTreeMap.mem_keys, decide_eq_true_eq, Prod.exists,
    ExtTreeMap.mem_toList_iff_getElem?_eq_some]
  constructor
  · rintro (⟨id, ⟨hr, hs⟩, rfl, rfl⟩ | ⟨id, st, hst, rfl, rfl⟩ | hm)
    · exact Or.inr ⟨hr, hs, rfl⟩
    · exact Or.inl ⟨st, hst, rfl⟩
    · simp at hm
  · rintro (⟨st, hst, rfl⟩ | ⟨hr, hs, rfl⟩)
    · exact Or.inr (Or.inl ⟨x, st, hst, rfl, rfl⟩)
    · exact Or.inl ⟨x, ⟨hr, hs⟩, rfl, rfl⟩

structure Restored (s : ProvenanceStore) (snap : StoreSnapshot) (r : ProvenanceStore) : Prop where
  core : r.Core
  status : r.status = snap.status
  byValidity : ∀ v x, x ∈ r.indexes.byValidity.getD v ∅ ↔
    (∃ st, snap.status[x]? = some st ∧ st.validity = v) ∨
      x ∈ r.records ∧ x ∉ snap.status ∧ .named .valid = v
  authority : r.authority = rebuildAuthority snap.authority
  runtimeGeneration : r.runtimeGeneration = s.runtimeGeneration
  fromSnapshot : ∀ (x : StateId) (rec : ProvenanceRecord), r.records[x]? = some rec → rec ∈ snap.records

lemma Restored.live {s r : ProvenanceStore} {snap : StoreSnapshot} (h : s.Restored snap r)
    (hkeys : ∀ x, x ∈ snap.status ↔ x ∈ r.records) : r.Live where
  toCore := h.core
  status := by
    intro x
    rw [h.status, hkeys]
  byValidity := by
    intro v x
    rw [h.byValidity, h.status, hkeys, or_iff_left]
    rintro ⟨hr, hn, -⟩
    exact hn hr

lemma restore_restored (s : ProvenanceStore) {snap : StoreSnapshot} (hl : Loadable snap)
    (h : Orderable snap.records) : ∃ r, s.restore snap = (.ok (), r) ∧ s.Restored snap r := by
  have hperm := (recordsInTopoOrder_order hl.distinct h).perm
  have hvalid : ∀ rec ∈ recordsInTopoOrder snap, validateRecord rec.d = none :=
    fun rec hr => hl.valid rec (hperm.mem_iff.mp hr)
  obtain ⟨t, hrun, ht⟩ := reinsert_spec hvalid (s.core_cleared snap)
  obtain ⟨t', hrun', hrestore⟩ := s.restore_accepted hl h
  obtain rfl : t = t' := congrArg Prod.snd (hrun.symm.trans hrun')
  refine ⟨_, hrestore, ht.core.withOverlay _ _, rfl, t.mem_overlay_byValidity _, ht.authority,
    ht.runtimeGeneration, fun x rec hx => ?_⟩
  rcases ht.new x rec hx with hx | hm
  · simp [cleared] at hx
  · exact hperm.mem_iff.mp hm

lemma restore_keeps (s : ProvenanceStore) {snap : StoreSnapshot} (hl : Loadable snap)
    (h : Orderable snap.records) (hp : ParentsListed snap.records) :
    ∀ rec ∈ snap.records, (s.restore snap).2.records[rec.d.subjectId]? = some rec := by
  have horder := recordsInTopoOrder_order hl.distinct h
  have hvalid : ∀ rec ∈ recordsInTopoOrder snap, validateRecord rec.d = none :=
    fun rec hr => hl.valid rec (horder.perm.mem_iff.mp hr)
  obtain ⟨t, hrun, hrestore⟩ := s.restore_accepted hl h
  have hins : (s.cleared snap).Insertion (recordsInTopoOrder snap) := by
    refine ⟨?_, ?_, by simp [cleared], by simp [cleared], fun before rec after he x hx => ?_,
      fun before rec after he q hq => ?_⟩
    · exact (horder.perm.map _).nodup_iff.mpr h.subjects
    · exact (horder.perm.map _).nodup_iff.mpr hl.distinct
    · exact Or.inr (horder.inputs before rec after he x hx)
    · have hrec : rec ∈ snap.records := horder.perm.mem_iff.mp (by simp [he])
      obtain ⟨r, hr, hrq⟩ := List.mem_map.mp (hp rec hrec q hq)
      have hb := horder.parents before rec after he q hq r hr hrq
      exact Or.inr (List.mem_map.mpr ⟨r, hb, hrq⟩)
  intro rec hr
  rw [hrestore]
  exact reinsert_complete hvalid (s.core_cleared snap) hins hrun rec (horder.perm.mem_iff.mpr hr)

/-! The core is determined by the records: the graph by what they refer to. -/

def links (rec : ProvenanceRecord) : ProvenanceId × List StateId × List ProvenanceId :=
  (rec.d.provenanceId, rec.d.inputStates, rec.d.parentProvenance)

def SameLinks (s t : ProvenanceStore) : Prop := ∀ x : StateId, s.records[x]?.map links = t.records[x]?.map links

section SameLinks

variable {s t : ProvenanceStore} (h : s.SameLinks t)

include h

lemma SameLinks.exists_iff (x : StateId) (P : ProvenanceId × List StateId × List ProvenanceId → Prop) :
    (∃ rec : ProvenanceRecord, s.records[x]? = some rec ∧ P (links rec)) ↔
      ∃ rec : ProvenanceRecord, t.records[x]? = some rec ∧ P (links rec) := by
  have hx := h x
  cases hs : s.records[x]? <;> cases ht : t.records[x]? <;> simp_all

lemma SameLinks.mem_iff (x : StateId) : x ∈ s.records ↔ x ∈ t.records := by
  have hx := congrArg Option.isSome (h x)
  rw [Option.isSome_map, Option.isSome_map] at hx
  rw [ExtTreeMap.mem_iff_isSome_getElem?, ExtTreeMap.mem_iff_isSome_getElem?, hx]

lemma SameLinks.provToState_eq (hs : s.Core) (ht : t.Core) : s.provToState = t.provToState := by
  refine ExtTreeMap.ext_getElem? fun q => Option.ext fun x => ?_
  rw [hs.prov, ht.prov]
  exact h.exists_iff x fun l => l.1 = q

lemma SameLinks.graph_eq (hs : s.Core) (ht : t.Core) : s.graph = t.graph := by
  have harc : ∀ p c, s.graph.Arc p c ↔ t.graph.Arc p c := by
    intro p c
    rw [hs.arcs, ht.arcs]
    simp only [IsParent, h.provToState_eq hs ht]
    exact h.exists_iff c fun l => p ∈ l.2.1 ∨ ∃ q ∈ l.2.2, t.provToState[q]? = some p
  have hnode : ∀ x, x ∈ s.graph.nodeSet ↔ x ∈ t.graph.nodeSet := by
    intro x
    rw [hs.nodes, ht.nodes, h.mem_iff]
  have hnodes : s.graph.nodeSet = t.graph.nodeSet := set_ext hnode
  have hparents : s.graph.parentSets = t.graph.parentSets :=
    map_ext_getD (fun x => by rw [hs.graph.parentKeys, ht.graph.parentKeys, hnode]) fun c p => harc p c
  refine ProvenanceGraph.ext hnodes hparents ?_ ?_
  · apply map_ext_getD (fun x => by rw [hs.graph.childKeys, ht.graph.childKeys, hnode])
    intro p c
    rw [hs.graph.mirror, ht.graph.mirror, harc]
  · rw [hs.graph.arcCount, ht.graph.arcCount, hnodes, hparents]

end SameLinks

lemma Core.provToState_eq {s t : ProvenanceStore} (hs : s.Core) (ht : t.Core) (hr : s.records = t.records) :
    s.provToState = t.provToState :=
  SameLinks.provToState_eq (fun x => by rw [hr]) hs ht

lemma Core.graph_eq {s t : ProvenanceStore} (hs : s.Core) (ht : t.Core) (hr : s.records = t.records) :
    s.graph = t.graph :=
  SameLinks.graph_eq (fun x => by rw [hr]) hs ht

lemma Core.indexes_eq {s t : ProvenanceStore} (hs : s.Core) (ht : t.Core) (hr : s.records = t.records) :
    s.indexes = { t.indexes with byValidity := s.indexes.byValidity } :=
  hs.indexes.unique (hr ▸ ht.indexes)

section Snapshot

variable {s : ProvenanceStore}

lemma mem_snapshot (s : ProvenanceStore) (rec : ProvenanceRecord) :
    rec ∈ s.snapshot.records ↔ ∃ x : StateId, s.records[x]? = some rec := by
  simp only [snapshot, List.mem_map, Prod.exists, ExtTreeMap.mem_toList_iff_getElem?_eq_some]
  constructor
  · rintro ⟨x, r, hx, rfl⟩
    exact ⟨x, hx⟩
  · rintro ⟨x, hx⟩
    exact ⟨x, rec, hx, rfl⟩

variable (h : s.Core)

include h

lemma subjects_snapshot : subjects s.snapshot.records = s.records.keys := by
  rw [subjects, snapshot, List.map_map, ← ExtTreeMap.map_fst_toList_eq_keys]
  apply List.map_congr_left
  intro e he
  exact (h.keyed e.1 e.2 (ExtTreeMap.mem_toList_iff_getElem?_eq_some.mp he)).1

lemma mem_subjects_snapshot (x : StateId) : x ∈ subjects s.snapshot.records ↔ x ∈ s.records := by
  rw [subjects_snapshot h, ExtTreeMap.mem_keys]

lemma getElem?_of_mem_snapshot {rec : ProvenanceRecord} (hr : rec ∈ s.snapshot.records) :
    s.records[rec.d.subjectId]? = some rec := by
  obtain ⟨x, hx⟩ := (mem_snapshot s rec).mp hr
  rwa [(h.keyed x rec hx).1]

lemma loadable_snapshot : Loadable s.snapshot where
  valid := by
    intro rec hr
    exact (h.keyed _ rec (getElem?_of_mem_snapshot h hr)).2
  distinct := by
    have hsub : (subjects s.snapshot.records).Nodup := by
      rw [subjects_snapshot h]
      exact ExtTreeMap.nodup_keys
    refine List.Nodup.map_on (fun r hr r' hr' he => ?_) (List.Nodup.of_map _ hsub)
    have hx := (h.prov _ _).mpr ⟨r, getElem?_of_mem_snapshot h hr, he⟩
    have hx' := (h.prov _ _).mpr ⟨r', getElem?_of_mem_snapshot h hr', rfl⟩
    exact List.inj_on_of_nodup_map hsub hr hr' (Option.some.inj (hx.symm.trans hx'))

lemma derives_snapshot (p c : StateId) : Derives s.snapshot.records p c ↔ s.graph.Arc p c := by
  rw [h.arcs]
  constructor
  · rintro ⟨rec, hr, rfl, hx | ⟨q, hq, r, hrs, rfl, rfl⟩⟩
    · exact ⟨rec, getElem?_of_mem_snapshot h hr, Or.inl hx⟩
    · refine ⟨rec, getElem?_of_mem_snapshot h hr, Or.inr ⟨_, hq, ?_⟩⟩
      exact (h.prov _ _).mpr ⟨r, getElem?_of_mem_snapshot h hrs, rfl⟩
  · rintro ⟨rec, hx, hpar⟩
    refine ⟨rec, (mem_snapshot s rec).mpr ⟨c, hx⟩, (h.keyed c rec hx).1, hpar.imp_right ?_⟩
    rintro ⟨q, hq, hqp⟩
    obtain ⟨r, hr, hrq⟩ := (h.prov q p).mp hqp
    exact ⟨q, hq, r, (mem_snapshot s r).mpr ⟨p, hr⟩, hrq, (h.keyed p r hr).1⟩

lemma orderable_snapshot : Orderable s.snapshot.records where
  subjects := by
    rw [subjects_snapshot h]
    exact ExtTreeMap.nodup_keys
  inputs := by
    intro rec hr x hx
    rw [mem_subjects_snapshot h]
    exact (h.resolved _ rec (getElem?_of_mem_snapshot h hr)).inputs x hx
  acyclic := by
    intro x hx
    have hrel : Derives s.snapshot.records = s.graph.Arc :=
      funext fun p => funext fun c => propext (derives_snapshot h p c)
    rw [hrel] at hx
    exact h.graph.acyclic x hx

lemma parentsListed_snapshot : ParentsListed s.snapshot.records := by
  intro rec hr q hq
  have hqm := (h.resolved _ rec (getElem?_of_mem_snapshot h hr)).parents q hq
  obtain ⟨x, hx⟩ := Option.isSome_iff_exists.mp (ExtTreeMap.mem_iff_isSome_getElem?.mp hqm)
  obtain ⟨r, hrx, hrq⟩ := (h.prov q x).mp hx
  exact List.mem_map.mpr ⟨r, (mem_snapshot s r).mpr ⟨x, hrx⟩, hrq⟩

lemma restore_snapshot (t : ProvenanceStore) :
    ∃ r, t.restore s.snapshot = (.ok (), r) ∧ t.Restored s.snapshot r ∧ r.records = s.records := by
  have hl := loadable_snapshot h
  have ho := orderable_snapshot h
  obtain ⟨r, hrun, hr⟩ := t.restore_restored hl ho
  refine ⟨r, hrun, hr, ExtTreeMap.ext_getElem? fun x => Option.ext fun rec => ?_⟩
  constructor
  · intro hx
    have hm := getElem?_of_mem_snapshot h (hr.fromSnapshot x rec hx)
    rwa [(hr.core.keyed x rec hx).1] at hm
  · intro hx
    have hk := t.restore_keeps hl ho (parentsListed_snapshot h) rec ((mem_snapshot s rec).mpr ⟨x, hx⟩)
    rwa [hrun, (h.keyed x rec hx).1] at hk

omit h in
lemma restore_snapshot_live (h : s.Live) (t : ProvenanceStore) : (t.restore s.snapshot).2.Live := by
  obtain ⟨r, hrun, hr, hrecords⟩ := restore_snapshot h.toCore t
  rw [hrun]
  apply hr.live
  intro x
  rw [hrecords]
  exact h.status x

end Snapshot

end ProvenanceStore

end StateProvenance
