import StateProvenance.Store

/-! The ordering pass over the records of a snapshot: when it succeeds, and what it returns then. -/

namespace StateProvenance

open Std Library.OrderedMap Library

abbrev subjects (l : List ProvenanceRecord) : List StateId := l.map fun rec => rec.d.subjectId

abbrev provenanceIds (l : List ProvenanceRecord) : List ProvenanceId := l.map fun rec => rec.d.provenanceId

lemma mem_recordParents (provs : OrdMap ProvenanceId StateId) (d : RecordData) (p : StateId) :
    p ∈ recordParents provs d ↔ p ∈ d.inputStates ∨ ∃ q ∈ d.parentProvenance, provs[q]? = some p := by
  have key : ∀ (l : List ProvenanceId) (ps : OrdSet StateId),
      p ∈ l.foldl (insertResolved provs) ps ↔
        p ∈ ps ∨ ∃ q ∈ l, provs[q]? = some p := by
    intro l
    induction l with
    | nil => simp
    | cons q l ih =>
      intro ps
      rw [List.foldl_cons, ih, insertResolved]
      simp only [List.mem_cons, exists_eq_or_imp]
      cases hq : provs[q]? with
      | none => simp
      | some x =>
        simp only [ExtTreeSet.mem_insert, LawfulEqCmp.compare_eq_iff_eq, Option.some.injEq]
        rw [or_assoc, or_left_comm]
  rw [recordParents, key, mem_foldl_insert]
  simp

lemma getD_pushChild (cid : StateId) {ps : List StateId} (hps : ps.Nodup) (m : OrdMap StateId (List StateId))
    (p : StateId) :
    (ps.foldl (fun m p => m.insert p (m.getD p [] ++ [cid])) m).getD p [] =
      if p ∈ ps then m.getD p [] ++ [cid] else m.getD p [] := by
  induction ps generalizing m with
  | nil => simp
  | cons q ps ih =>
    obtain ⟨hq, hps⟩ := List.nodup_cons.mp hps
    rw [List.foldl_cons, ih hps, ExtTreeMap.getD_insert]
    by_cases he : q = p
    · subst he
      simp [hq]
    · simp [he, Ne.symm he]

lemma getD_childrenOf (parents : OrdMap StateId (OrdSet StateId)) (p : StateId) :
    (childrenOf parents).getD p [] = (parents.toList.filter fun e => p ∈ e.2).map Prod.fst := by
  have key : ∀ (l : List (StateId × OrdSet StateId)) (m : OrdMap StateId (List StateId)),
      (l.foldl (fun m e => e.2.toList.foldl (fun m p => m.insert p (m.getD p [] ++ [e.1])) m) m).getD p [] =
        m.getD p [] ++ (l.filter fun e => p ∈ e.2).map Prod.fst := by
    intro l
    induction l with
    | nil => simp
    | cons e l ih =>
      intro m
      rw [List.foldl_cons, ih, getD_pushChild e.1 (nodup_toList e.2), List.filter_cons]
      by_cases hp : p ∈ e.2 <;> simp [hp]
  rw [childrenOf, key]
  simp

def recordNodes (l : List ProvenanceRecord) : OrdSet StateId :=
  l.foldl (fun s rec => s.insert rec.d.subjectId) ∅

lemma mem_recordNodes (l : List ProvenanceRecord) (x : StateId) : x ∈ recordNodes l ↔ x ∈ subjects l := by
  rw [recordNodes, mem_foldl_insert]
  simp

lemma mem_parentsMap (l : List ProvenanceRecord) (x : StateId) : x ∈ parentsMap l ↔ x ∈ recordNodes l := by
  rw [parentsMap, mem_fill, mem_recordNodes, List.mem_map]

lemma mem_toList_parentsMap (l : List ProvenanceRecord) (x : StateId) (ps : OrdSet StateId) :
    (x, ps) ∈ (parentsMap l).toList ↔ x ∈ recordNodes l ∧ (parentsMap l).getD x ∅ = ps := by
  rw [ExtTreeMap.mem_toList_iff_getElem?_eq_some, ExtTreeMap.getD_eq_getD_getElem?, ← mem_parentsMap,
    ExtTreeMap.mem_iff_isSome_getElem?]
  cases (parentsMap l)[x]? <;> simp

def recordGraph (l : List ProvenanceRecord) : Kahn.Graph StateId where
  nodes := recordNodes l
  parents x := (parentsMap l).getD x ∅
  children p := (childrenOf (parentsMap l)).getD p []
  nodup_children := by
    intro p _
    rw [getD_childrenOf]
    have hkeys : ((parentsMap l).toList.map Prod.fst).Nodup := by
      rw [ExtTreeMap.map_fst_toList_eq_keys]
      exact ExtTreeMap.nodup_keys
    exact (List.filter_sublist.map Prod.fst).nodup hkeys
  mem_children := by
    intro p _ c
    rw [getD_childrenOf, List.mem_map]
    simp only [List.mem_filter, decide_eq_true_eq, Prod.exists, mem_toList_parentsMap]
    constructor
    · rintro ⟨x, ps, ⟨⟨hx, rfl⟩, hp⟩, rfl⟩
      exact ⟨hx, hp⟩
    · rintro ⟨hc, hp⟩
      exact ⟨c, _, ⟨⟨hc, rfl⟩, hp⟩, rfl⟩

lemma mem_inDegreeMap (l : List ProvenanceRecord) (x : StateId) : x ∈ inDegreeMap l ↔ x ∈ recordNodes l := by
  rw [inDegreeMap, mem_fill, mem_recordNodes, List.mem_map]

lemma size_inDegreeMap (l : List ProvenanceRecord) : (inDegreeMap l).size = (recordNodes l).size := by
  rw [← ExtTreeMap.length_keys, ← ExtTreeSet.length_toList]
  refine List.Perm.length_eq ((List.perm_ext_iff_of_nodup ExtTreeMap.nodup_keys (nodup_toList _)).mpr ?_)
  intro x
  rw [ExtTreeMap.mem_keys, mem_inDegreeMap, ExtTreeSet.mem_toList]

lemma topoOrder_init (l : List ProvenanceRecord) :
    Kahn.Inv (recordGraph l) (inDegreeMap l) (Kahn.initialReady (inDegreeMap l)) [] := by
  apply Kahn.Inv.init
  · exact mem_inDegreeMap l
  · intro x hx
    obtain ⟨ps, hps⟩ := Option.isSome_iff_exists.mp
      (ExtTreeMap.mem_iff_isSome_getElem?.mp ((mem_parentsMap l x).mpr hx))
    have hdeg : (inDegreeMap l)[x]? = (parentsMap l)[x]?.map ExtTreeSet.size :=
      getElem?_fill_comp _ _ ExtTreeSet.size l x
    rw [ExtTreeMap.getD_eq_getD_getElem?, hdeg, hps]
    simp [recordGraph, ExtTreeMap.getD_eq_getD_getElem?, hps]

lemma topoOrder_inv (l : List ProvenanceRecord) :
    ∃ inDeg, Kahn.Inv (recordGraph l) inDeg ∅ (topoOrder l) :=
  Kahn.kahn_run (topoOrder_init l) (by simp [size_inDegreeMap, recordGraph])

lemma topoOrder_leastReady (l : List ProvenanceRecord) : Kahn.LeastReady (recordGraph l) (topoOrder l) :=
  Kahn.kahn_leastReady (topoOrder_init l) Kahn.leastReady_nil

def Derives (l : List ProvenanceRecord) (p c : StateId) : Prop :=
  ∃ rec ∈ l, rec.d.subjectId = c ∧
    (p ∈ rec.d.inputStates ∨
      ∃ q ∈ rec.d.parentProvenance, ∃ r ∈ l, r.d.provenanceId = q ∧ r.d.subjectId = p)

structure Orderable (l : List ProvenanceRecord) : Prop where
  subjects : (subjects l).Nodup
  inputs : ∀ rec ∈ l, ∀ x ∈ rec.d.inputStates, x ∈ StateProvenance.subjects l
  acyclic : ∀ x, ¬ Relation.TransGen (Derives l) x x

section Order

variable {l : List ProvenanceRecord}

lemma toList_recordNodes_subperm (l : List ProvenanceRecord) :
    (recordNodes l).toList.Subperm (subjects l) := by
  refine List.subperm_of_subset (nodup_toList _) fun x hx => ?_
  exact (mem_recordNodes l x).mp (ExtTreeSet.mem_toList.mp hx)

lemma size_recordNodes_le (l : List ProvenanceRecord) : (recordNodes l).size ≤ l.length := by
  simpa [ExtTreeSet.length_toList] using (toList_recordNodes_subperm l).length_le

lemma size_recordNodes_eq_iff (l : List ProvenanceRecord) :
    (recordNodes l).size = l.length ↔ (subjects l).Nodup := by
  constructor
  · intro h
    have hperm := (toList_recordNodes_subperm l).perm_of_length_le (by
      rw [ExtTreeSet.length_toList, h, List.length_map])
    exact hperm.nodup_iff.mp (nodup_toList _)
  · intro h
    have hperm := toList_perm_of_mem_iff h (mem_recordNodes l)
    rw [← ExtTreeSet.length_toList, hperm.length_eq, List.length_map]

lemma provMap_eq_some_iff (hp : (provenanceIds l).Nodup) (q : ProvenanceId) (p : StateId) :
    (provMap l)[q]? = some p ↔ ∃ r ∈ l, r.d.provenanceId = q ∧ r.d.subjectId = p := by
  constructor
  · exact exists_of_fill _ _
  · rintro ⟨r, hr, rfl, rfl⟩
    exact getElem?_fill (fun (rec : ProvenanceRecord) => rec.d.provenanceId) _ hp hr

variable (hp : (provenanceIds l).Nodup) (hs : (subjects l).Nodup)

include hp hs

lemma parentOf_iff_derives (p c : StateId) :
    Kahn.ParentOf (recordGraph l).parents p c ↔ Derives l p c := by
  have hval : ∀ rec ∈ l, (recordGraph l).parents rec.d.subjectId = recordParents (provMap l) rec.d := by
    intro rec hr
    exact getD_fill (fun (rec : ProvenanceRecord) => rec.d.subjectId) _ hs hr ∅
  have hmem : ∀ rec : ProvenanceRecord, p ∈ recordParents (provMap l) rec.d ↔ p ∈ rec.d.inputStates ∨
      ∃ q ∈ rec.d.parentProvenance, ∃ r ∈ l, r.d.provenanceId = q ∧ r.d.subjectId = p := by
    intro rec
    simp only [mem_recordParents, provMap_eq_some_iff hp]
  constructor
  · intro h
    have hc : c ∈ subjects l := by
      rw [← mem_recordNodes, ← mem_parentsMap]
      by_contra hc
      have he : (recordGraph l).parents c = ∅ := ExtTreeMap.getD_eq_fallback hc
      rw [Kahn.ParentOf, he] at h
      simp at h
    obtain ⟨rec, hr, rfl⟩ := List.mem_map.mp hc
    rw [Kahn.ParentOf, hval rec hr, hmem] at h
    exact ⟨rec, hr, rfl, h⟩
  · rintro ⟨rec, hr, rfl, h⟩
    rw [Kahn.ParentOf, hval rec hr, hmem]
    exact h

omit hs in
lemma topoOrder_length_iff : (topoOrder l).length = l.length ↔ Orderable l := by
  obtain ⟨inDeg, hinv⟩ := topoOrder_inv l
  have hsize := size_recordNodes_le l
  have hle : (topoOrder l).length ≤ (recordNodes l).size := by
    have := hinv.order_subperm.length_le
    rwa [ExtTreeSet.length_toList] at this
  have hcomplete := Kahn.complete_iff hinv
  constructor
  · intro hlen
    have hs := (size_recordNodes_eq_iff l).mp (by omega)
    have hrel : Kahn.ParentOf (recordGraph l).parents = Derives l :=
      funext fun p => funext fun c => propext (parentOf_iff_derives hp hs p c)
    obtain ⟨hclosed, hacyc⟩ := hcomplete.mp (show (topoOrder l).length = (recordNodes l).size by omega)
    refine ⟨hs, fun rec hr x hx => ?_, fun x hx => ?_⟩
    · rw [← mem_recordNodes]
      apply hclosed rec.d.subjectId ((mem_recordNodes l _).mpr (List.mem_map_of_mem hr))
      exact (parentOf_iff_derives hp hs x _).mpr ⟨rec, hr, rfl, Or.inl hx⟩
    · obtain ⟨p, -, rec, hr, rfl, -⟩ := Relation.TransGen.tail'_iff.mp hx
      refine hacyc rec.d.subjectId ((mem_recordNodes l _).mpr (List.mem_map_of_mem hr)) ?_
      rwa [hrel]
  · intro h
    have hrel : Kahn.ParentOf (recordGraph l).parents = Derives l :=
      funext fun p => funext fun c => propext (parentOf_iff_derives hp h.subjects p c)
    rw [← (size_recordNodes_eq_iff l).mpr h.subjects]
    refine hcomplete.mpr ⟨fun v _ p hpar => ?_, fun v _ => ?_⟩
    · obtain ⟨rec, hr, rfl, hx | ⟨q, -, r, hrl, -, rfl⟩⟩ := (parentOf_iff_derives hp h.subjects p v).mp hpar
      · exact (mem_recordNodes l p).mpr (h.inputs rec hr p hx)
      · exact (mem_recordNodes l _).mpr (List.mem_map_of_mem hrl)
    · rw [hrel]
      exact h.acyclic v

end Order

lemma recordsInTopoOrder_length_iff {s : StoreSnapshot} (hp : (provenanceIds s.records).Nodup) :
    (recordsInTopoOrder s).length = s.records.length ↔ Orderable s.records := by
  rw [← topoOrder_length_iff hp, recordsInTopoOrder]
  split
  · next hne =>
    refine iff_of_false (fun h => hne ?_) hne
    obtain ⟨inDeg, hinv⟩ := topoOrder_inv s.records
    have hle := hinv.order_subperm.length_le
    have hsize := size_recordNodes_le s.records
    rw [ExtTreeSet.length_toList] at hle
    simp only [List.length_nil] at h
    have hnodes : (recordGraph s.records).nodes = recordNodes s.records := rfl
    rw [hnodes] at hle
    omega
  · rw [List.length_map]

structure RecordOrder (l out : List ProvenanceRecord) : Prop where
  perm : out.Perm l
  inputs : ∀ before rec after, out = before ++ rec :: after → ∀ x ∈ rec.d.inputStates, x ∈ subjects before
  parents : ∀ before rec after, out = before ++ rec :: after → ∀ q ∈ rec.d.parentProvenance,
    ∀ r ∈ l, r.d.provenanceId = q → r ∈ before

lemma subjects_recordsInTopoOrder {s : StoreSnapshot} (hp : (provenanceIds s.records).Nodup)
    (h : Orderable s.records) :
    subjects (recordsInTopoOrder s) = topoOrder s.records ∧ (recordsInTopoOrder s).Perm s.records := by
  obtain ⟨inDeg, hinv⟩ := topoOrder_inv s.records
  have hlen := (topoOrder_length_iff hp).mpr h
  have hnodes := hinv.order_perm (by rw [hlen]; exact size_recordNodes_le s.records)
  have hmem : ∀ x, x ∈ topoOrder s.records ↔ x ∈ subjects s.records := by
    intro x
    rw [hnodes.mem_iff, ExtTreeSet.mem_toList]
    exact mem_recordNodes s.records x
  have hbyId : ∀ rec ∈ s.records, (recordsById s.records).getD rec.d.subjectId ⟨{}⟩ = rec :=
    fun rec hr => getD_fill _ _ h.subjects hr _
  have hout : recordsInTopoOrder s =
      (topoOrder s.records).map fun id => (recordsById s.records).getD id ⟨{}⟩ := by
    simp only [recordsInTopoOrder, hlen, ne_eq, not_true_eq_false, if_false]
  have hsub : subjects (recordsInTopoOrder s) = topoOrder s.records := by
    rw [hout, subjects, List.map_map]
    refine (List.map_congr_left fun id hid => ?_).trans (List.map_id _)
    obtain ⟨rec, hr, rfl⟩ := List.mem_map.mp ((hmem id).mp hid)
    simp [hbyId rec hr]
  refine ⟨hsub, (List.perm_ext_iff_of_nodup ?_ (List.Nodup.of_map _ h.subjects)).mpr fun rec => ?_⟩
  · have hn : (subjects (recordsInTopoOrder s)).Nodup := hsub ▸ hinv.nodup
    exact List.Nodup.of_map _ hn
  · rw [hout, List.mem_map]
    constructor
    · rintro ⟨id, hid, rfl⟩
      obtain ⟨rec, hr, rfl⟩ := List.mem_map.mp ((hmem id).mp hid)
      rwa [hbyId rec hr]
    · intro hr
      exact ⟨rec.d.subjectId, (hmem _).mpr (List.mem_map_of_mem hr), hbyId rec hr⟩

lemma recordsInTopoOrder_order {s : StoreSnapshot} (hp : (provenanceIds s.records).Nodup)
    (h : Orderable s.records) : RecordOrder s.records (recordsInTopoOrder s) := by
  obtain ⟨hsub, hperm⟩ := subjects_recordsInTopoOrder hp h
  obtain ⟨inDeg, hinv⟩ := topoOrder_inv s.records
  have hbefore : ∀ before rec after, recordsInTopoOrder s = before ++ rec :: after →
      ∀ p, Derives s.records p rec.d.subjectId → p ∈ subjects before := by
    intro before rec after he p hd
    have horder : topoOrder s.records = subjects before ++ rec.d.subjectId :: subjects after := by
      rw [← hsub, he]
      simp
    exact hinv.parentsFirst _ _ _ horder p ((parentOf_iff_derives hp h.subjects p _).mpr hd)
  refine ⟨hperm, fun before rec after he x hx => ?_, fun before rec after he q hq r hr hrq => ?_⟩
  · have hrec : rec ∈ s.records := hperm.mem_iff.mp (by simp [he])
    exact hbefore before rec after he x ⟨rec, hrec, rfl, Or.inl hx⟩
  · have hrec : rec ∈ s.records := hperm.mem_iff.mp (by simp [he])
    obtain ⟨r', hr', heq⟩ := List.mem_map.mp
      (hbefore before rec after he r.d.subjectId ⟨rec, hrec, rfl, Or.inr ⟨q, hq, r, hr, hrq, rfl⟩⟩)
    have hrl : r' ∈ s.records := hperm.mem_iff.mp (by simp [he, hr'])
    obtain rfl := List.inj_on_of_nodup_map h.subjects hrl hr heq
    exact hr'

end StateProvenance
