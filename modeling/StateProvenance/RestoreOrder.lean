import StateProvenance.CanonicalOrder
import StateProvenance.Reachable

/-! The order of a restore: on the snapshot of a store it is the topological order of the graph, and on other
records it is complete or empty. -/

namespace StateProvenance

open Std Library.OrderedMap Library

lemma topoOrder_least {l : List ProvenanceRecord} (hp : (provenanceIds l).Nodup) (ho : Orderable l) :
    Kahn.LeastTopological (recordNodes l) (Derives l) (topoOrder l) := by
  obtain ⟨inDeg, hinv⟩ := topoOrder_inv l
  have hlen : (topoOrder l).length = (recordNodes l).size := by
    rw [(topoOrder_length_iff hp).mpr ho, (size_recordNodes_eq_iff l).mpr ho.subjects]
  have hrel : Kahn.ParentOf (recordGraph l).parents = Derives l :=
    funext fun p => funext fun c => propext (parentOf_iff_derives hp ho.subjects p c)
  have hleast := hinv.leastTopological (topoOrder_leastReady l) hlen
  rwa [hrel] at hleast

lemma recordsInTopoOrder_eq_nil {s : StoreSnapshot} (hp : (provenanceIds s.records).Nodup)
    (h : ¬ Orderable s.records) : recordsInTopoOrder s = [] := by
  rw [recordsInTopoOrder]
  exact if_pos (mt (topoOrder_length_iff hp).mp h)

namespace ProvenanceStore

lemma Core.subjects_snapshot_order {s : ProvenanceStore} (h : s.Core) :
    s.graph.topologicalOrder = .ok (subjects (recordsInTopoOrder s.snapshot)) := by
  have hp := (loadable_snapshot h).distinct
  have ho := orderable_snapshot h
  obtain ⟨l, hl, hleast⟩ := h.graph.topologicalOrder_least
  have hnodes : recordNodes s.snapshot.records = s.graph.nodeSet := by
    refine set_ext fun x => ?_
    rw [mem_recordNodes, mem_subjects_snapshot h, h.nodes]
  have harcs : Derives s.snapshot.records = s.graph.Arc :=
    funext fun p => funext fun c => propext (derives_snapshot h p c)
  have htopo := topoOrder_least hp ho
  rw [hnodes, harcs] at htopo
  rw [(subjects_recordsInTopoOrder hp ho).1, hl, hleast.unique htopo]

end ProvenanceStore

theorem restore_order :
    (∀ s : ProvenanceStore, s.LoadReachable →
      s.graph.topologicalOrder = .ok (subjects (recordsInTopoOrder s.snapshot))) ∧
    ∀ snap : StoreSnapshot, snap.records ≠ [] → (provenanceIds snap.records).Nodup →
      (Orderable snap.records → RecordOrder snap.records (recordsInTopoOrder snap)) ∧
      (¬ Orderable snap.records → recordsInTopoOrder snap = []) :=
  ⟨fun _ h => h.core.subjects_snapshot_order,
    fun _ _ hp => ⟨recordsInTopoOrder_order hp, recordsInTopoOrder_eq_nil hp⟩⟩

theorem restore_order_pair :
    (ProvenanceStore.pair (.produced 1)).graph.topologicalOrder =
        .ok (subjects (recordsInTopoOrder (ProvenanceStore.pair (.produced 1)).snapshot)) ∧
      recordsInTopoOrder { records := [⟨.produced 1⟩, ⟨{ RecordData.produced 1 with provenanceId := ⟨2⟩ }⟩] } =
        [] := by
  refine ⟨restore_order.1 _ (ProvenanceStore.reachable_pair _).loadReachable, ?_⟩
  refine (restore_order.2 _ (List.cons_ne_nil _ _) (by decide)).2 fun ho => ?_
  exact absurd ho.subjects (by decide)

end StateProvenance
