import StateProvenance.PersistRoundTrip
import StateProvenance.Reachable

/-! What a restore can lose: records whose parents the snapshot does not list, and the store itself when
the snapshot is refused. -/

namespace StateProvenance

open Std Library.OrderedMap Library

namespace ProvenanceStore

def HoldsExactly (s : ProvenanceStore) (l : List ProvenanceRecord) : Prop :=
  ∀ x rec, s.find x = some rec ↔ rec ∈ l ∧ rec.d.subjectId = x

def RestoreThrows (t : ProvenanceStore) (snap : StoreSnapshot) : Prop := ∃ e, (t.restore snap).1 = .error e

lemma restoreThrows_iff (t : ProvenanceStore) {snap : StoreSnapshot} (hl : Loadable snap) :
    t.RestoreThrows snap ↔ ¬ Orderable snap.records := by
  by_cases ho : Orderable snap.records
  · obtain ⟨r, hrun, -⟩ := t.restore_restored hl ho
    simp [RestoreThrows, hrun, ho]
  · simp [RestoreThrows, t.restore_refused hl.distinct ho, ho]

lemma Restored.holdsExactly_iff {t r : ProvenanceStore} {snap : StoreSnapshot} (hl : Loadable snap)
    (ho : Orderable snap.records) (hrun : t.restore snap = (.ok (), r)) (hr : t.Restored snap r) :
    r.HoldsExactly snap.records ↔ ParentsListed snap.records := by
  constructor
  · intro h rec hrec q hq
    have hfind := (h rec.d.subjectId rec).mpr ⟨hrec, rfl⟩
    obtain ⟨x, hx⟩ := Option.isSome_iff_exists.mp
      (ExtTreeMap.mem_iff_isSome_getElem?.mp ((hr.core.resolved _ rec hfind).parents q hq))
    obtain ⟨parent, hp, hpq⟩ := (hr.core.prov q x).mp hx
    exact List.mem_map.mpr ⟨parent, hr.fromSnapshot x parent hp, hpq⟩
  · intro hp x rec
    constructor
    · intro hx
      exact ⟨hr.fromSnapshot x rec hx, (hr.core.keyed x rec hx).1⟩
    · rintro ⟨hrec, rfl⟩
      have hk := t.restore_keeps hl ho hp rec hrec
      rwa [hrun] at hk

theorem restore_throws_or_holds_iff {bytes : ByteString} {snap : StoreSnapshot}
    (hd : decodeSnapshot bytes = .ok snap) (t : ProvenanceStore) :
    (t.RestoreThrows snap ∨ (t.restore snap).2.HoldsExactly snap.records) ↔
      ¬ Orderable snap.records ∨ ParentsListed snap.records := by
  have hl := decodeSnapshot_loadable hd
  rw [t.restoreThrows_iff hl]
  by_cases ho : Orderable snap.records
  · obtain ⟨r, hrun, hr⟩ := t.restore_restored hl ho
    rw [hrun, hr.holdsExactly_iff hl ho hrun]
  · simp [ho]

lemma orderable_fullSnapshot : Orderable fullSnapshot.records where
  subjects := by decide
  inputs := by decide
  acyclic := by
    have hlt : ∀ p x, Derives fullSnapshot.records p x → p.value < x.value := by
      rintro p x ⟨rec, hr, rfl, hin | ⟨q, hq, r, hr', rfl, rfl⟩⟩
      · simp only [fullSnapshot, List.mem_cons, List.not_mem_nil, or_false] at hr
        rcases hr with rfl | rfl
        · contradiction
        · obtain rfl := List.mem_singleton.mp hin
          decide
      · simp only [fullSnapshot, List.mem_cons, List.not_mem_nil, or_false] at hr hr'
        rcases hr with rfl | rfl
        · contradiction
        · rcases hr' with rfl | rfl
          · decide
          · exact absurd (List.mem_singleton.mp hq) (by decide)
    intro x hx
    have htrans : ∀ y, Relation.TransGen (Derives fullSnapshot.records) x y → x.value < y.value := by
      intro y hy
      induction hy with
      | single h => exact hlt _ _ h
      | tail _ h ih => exact UInt64.lt_trans ih (hlt _ _ h)
    exact absurd (htrans x hx) (UInt64.lt_irrefl _)

theorem fullSnapshot_restore_holds :
    (({} : ProvenanceStore).restore fullSnapshot).2.HoldsExactly fullSnapshot.records := by
  have hparents : ParentsListed fullSnapshot.records := by
    unfold ParentsListed
    decide
  refine ((restore_throws_or_holds_iff decodeSnapshot_fullStream {}).mpr (.inr hparents)).resolve_left ?_
  rw [restoreThrows_iff {} (decodeSnapshot_loadable decodeSnapshot_fullStream)]
  exact not_not.mpr orderable_fullSnapshot

def single (d : RecordData) : StoreSnapshot := { records := [⟨d⟩] }

lemma decodes_single {d : RecordData} (hv : validateRecord d = none) (hn : RecordNamed d) (hb : RecordBounds d) :
    ∃ bytes, decodeSnapshot bytes = .ok (single d) := by
  have hbounds : InBounds (single d) :=
    ⟨show 1 ≤ kMaxRecords.toNat by decide, List.forall_mem_singleton.mpr hb, by simp [single],
      by simp [single], by simp [single]⟩
  have hnamed : Named (single d) := ⟨List.forall_mem_singleton.mpr hn, by simp [single]⟩
  have hload : Loadable (single d) := ⟨List.forall_mem_singleton.mpr hv, by simp [single, provenanceIds]⟩
  obtain ⟨bytes, he⟩ := emits_snapshotChunks hbounds
  exact ⟨bytes, decodeSnapshot_encode hload hnamed hbounds he⟩

lemma orderable_single {d : RecordData} (hi : d.inputStates = []) (hp : d.provenanceId ∉ d.parentProvenance) :
    Orderable (single d).records where
  subjects := List.nodup_singleton _
  inputs := List.forall_mem_singleton.mpr (by simp [hi])
  acyclic := by
    intro x hx
    obtain ⟨p, -, rec, hr, -, hin | ⟨q, hq, r, hrl, rfl, -⟩⟩ := Relation.TransGen.tail'_iff.mp hx
    · obtain rfl := List.mem_singleton.mp hr
      simp [hi] at hin
    · obtain rfl := List.mem_singleton.mp hr
      obtain rfl := List.mem_singleton.mp hrl
      exact hp hq

theorem unlisted_parent_dropped :
    ¬ ∀ bytes snap, decodeSnapshot bytes = .ok snap → ∀ t : ProvenanceStore,
      t.RestoreThrows snap ∨ (t.restore snap).2.HoldsExactly snap.records := by
  -- A record whose parent the snapshot does not list is dropped without an error.
  intro h
  let d : RecordData := { RecordData.produced 1 with parentProvenance := [⟨9⟩] }
  obtain ⟨bytes, hd⟩ := decodes_single (d := d) (by decide) (by decide) (by decide)
  have hl := decodeSnapshot_loadable hd
  have ho : Orderable (single d).records := orderable_single rfl (by decide)
  obtain ⟨r, hrun, hr⟩ := ({} : ProvenanceStore).restore_restored hl ho
  rcases h bytes (single d) hd {} with hthrows | hholds
  · exact (restoreThrows_iff {} hl).mp hthrows ho
  · rw [hrun, hr.holdsExactly_iff hl ho hrun] at hholds
    have hlisted := hholds ⟨d⟩ (List.mem_singleton_self _) ⟨9⟩ (List.mem_singleton_self _)
    revert hlisted
    decide

lemma overlay_byValidity_empty (t : ProvenanceStore) (hr : t.records = ∅) :
    (t.overlay ∅).indexes.byValidity = ∅ := by
  rw [overlay]
  rw [hr]
  rfl

lemma PublishStep.unchanged {s : ProvenanceStore} {d : RecordData} {r} (h : s.PublishStep d r)
    (hr : r.2.records = ∅) : r.2 = s := by
  cases h with
  | rejected error => rfl
  | accepted g hv hi hg =>
    have hm := (mem_commit_records s d g d.subjectId).mpr (Or.inl rfl)
    rw [hr] at hm
    simp at hm

lemma LoadReachable.byValidity_empty {s : ProvenanceStore} (h : LoadReachable s) (hr : s.records = ∅)
    (hs : s.status = ∅) : s.indexes.byValidity = ∅ := by
  induction h with
  | empty => rfl
  | publish hs' data ih =>
    have he := (publish_step hs'.core data).unchanged hr
    rw [he] at hr hs ⊢
    exact ih hr hs
  | publishFenced hs' data claim ih =>
    have he := (publishFenced_step hs'.core data claim).unchanged hr
    rw [he] at hr hs ⊢
    exact ih hr hs
  | @invalidate s hs' subj ih =>
    by_cases hm : subj.subject ∈ s.records
    · obtain ⟨status, byValidity, he⟩ := s.invalidate_frame subj
      have hrs : (s.invalidate subj).2.records = s.records := by rw [he]; rfl
      rw [← hrs, hr] at hm
      simp at hm
    · have he : (s.invalidate subj).2 = s := by rw [ProvenanceStore.invalidate, if_pos hm]
      rw [he] at hr hs ⊢
      exact ih hr hs
  | applyAuthority _ op ih => exact ih hr hs
  | @restore s _ snap hl _ =>
    by_cases ho : Orderable snap.records
    · obtain ⟨t, -, hrun⟩ := s.restore_accepted hl ho
      rw [hrun] at hr hs ⊢
      have hst : snap.status = ∅ := hs
      rw [hst]
      exact t.overlay_byValidity_empty hr
    · rw [s.restore_refused hl.distinct ho]
      rfl

lemma cleared_eq_iff {s : ProvenanceStore} (h : LoadReachable s) (snap : StoreSnapshot) :
    s.cleared snap = s ↔ s.records = ∅ ∧ s.status = ∅ ∧
      s.authority = rebuildAuthority snap.authority ∧ s.workers = rebuildWorkers snap.authority := by
  constructor
  · intro he
    rw [← he]
    exact ⟨rfl, rfl, rfl, rfl⟩
  · rintro ⟨hr, hs, ha, hw⟩
    have hcore := s.core_cleared snap
    have hrecords : (s.cleared snap).records = s.records := hr.symm
    have hindexes := hcore.indexes_eq h.core hrecords
    have hvalidity : (s.cleared snap).indexes.byValidity = s.indexes.byValidity :=
      (h.byValidity_empty hr hs).symm
    refine ProvenanceStore.ext hrecords (hcore.provToState_eq h.core hrecords)
      (hcore.graph_eq h.core hrecords) hs.symm ha.symm hw.symm rfl ?_
    rw [hindexes, hvalidity]

theorem refused_restore_unchanged_iff {s : ProvenanceStore} (h : LoadReachable s) {bytes : ByteString}
    {snap : StoreSnapshot} (hd : decodeSnapshot bytes = .ok snap) :
    (s.RestoreThrows snap → (s.restore snap).2 = s) ↔ Orderable snap.records ∨
      (s.records = ∅ ∧ s.status = ∅ ∧ s.authority = rebuildAuthority snap.authority ∧
        s.workers = rebuildWorkers snap.authority) := by
  -- A refusal has cleared the store: nothing changes exactly when there was nothing to lose.
  have hl := decodeSnapshot_loadable hd
  rw [s.restoreThrows_iff hl, ← cleared_eq_iff h]
  by_cases ho : Orderable snap.records
  · simp [ho]
  · simp [ho, s.restore_refused hl.distinct ho]

lemma not_orderable_single {d : RecordData} {x : StateId} (hx : x ∈ d.inputStates) (hne : x ≠ d.subjectId) :
    ¬ Orderable (single d).records := by
  intro h
  have hm := h.inputs ⟨d⟩ (List.mem_singleton_self _) x hx
  exact hne (List.mem_singleton.mp hm)

theorem empty_refused_unchanged : ({} : ProvenanceStore).RestoreThrows (single (.derivedFrom 2 1)) ∧
    (({} : ProvenanceStore).restore (single (.derivedFrom 2 1))).2 = {} := by
  obtain ⟨bytes, hd⟩ := decodes_single (d := .derivedFrom 2 1) (by decide) (by decide) (by decide)
  have hno : ¬ Orderable (single (.derivedFrom 2 1)).records :=
    not_orderable_single (x := ⟨1⟩) (List.mem_singleton_self _) (by decide)
  have hthrows := (restoreThrows_iff {} (decodeSnapshot_loadable hd)).mpr hno
  exact ⟨hthrows, (refused_restore_unchanged_iff .empty hd).mpr (Or.inr ⟨rfl, rfl, rfl, rfl⟩) hthrows⟩

theorem refused_restore_clears :
    ¬ ∀ s, Reachable s → ∀ bytes snap, decodeSnapshot bytes = .ok snap →
      s.RestoreThrows snap → (s.restore snap).2 = s := by
  intro h
  obtain ⟨bytes, hd⟩ := decodes_single (d := .derivedFrom 2 1) (by decide) (by decide) (by decide)
  have hl := decodeSnapshot_loadable hd
  have hno : ¬ Orderable (single (.derivedFrom 2 1)).records :=
    not_orderable_single (x := ⟨1⟩) (List.mem_singleton_self _) (by decide)
  have he := h (pair (.produced 1)) (reachable_pair _) bytes _ hd ((restoreThrows_iff _ hl).mpr hno)
  rw [restore_refused _ hl.distinct hno] at he
  have hrecords : (pair (.produced 1)).records.isEmpty = true := by
    rw [← he]
    rfl
  revert hrecords
  decide

end ProvenanceStore

end StateProvenance
