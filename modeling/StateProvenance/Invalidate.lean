import StateProvenance.Graph
import StateProvenance.Enums
import StateProvenance.Library.BreadthFirst

/-! Deterministic invalidation propagation: a breadth-first search from the roots in sorted order. -/

namespace StateProvenance

open Std Library.OrderedMap Library

structure InvalidatingSubject where
  subject : StateId
  reason : EnumValue InvalidationReason := .named .unknown
  detail : ByteString := []

structure InvalidationResult where
  affected : List StateId := []
  predecessor : OrdMap StateId StateId := ∅
  rootOf : OrdMap StateId StateId := ∅
  rootReason : OrdMap StateId (EnumValue InvalidationReason) := ∅
  rootDetail : OrdMap StateId ByteString := ∅

structure InvalidationChain where
  root : StateId := {}
  -- The source leaves the reason unset for a subject that is not affected.
  reason : Option (EnumValue InvalidationReason) := none
  detail : ByteString := []
  path : List StateId := []

def InvalidationResult.pathTo (r : InvalidationResult) (target : StateId) : List StateId :=
  (Traversal.trace r.predecessor (r.affected.length + 2) target).reverse

def InvalidationResult.chainFor (r : InvalidationResult) (target : StateId) : InvalidationChain :=
  match r.rootOf[target]? with
  | none => { root := target }
  | some root =>
    { root
      reason := some (r.rootReason.getD root (.named .unknown))
      detail := r.rootDetail.getD root []
      path := r.pathTo target }

abbrev RootTable := OrdMap StateId (EnumValue InvalidationReason) × OrdMap StateId ByteString

def addRoot (t : RootTable) (r : InvalidatingSubject) : RootTable :=
  if r.subject ∈ t.1 then t else (t.1.insert r.subject r.reason, t.2.insert r.subject r.detail)

def startSearch (ids : List StateId) : Traversal.Search StateId where
  pending := ids
  predecessor := fill id id ids
  rootOf := fill id id ids

def propagateInvalidation (graph : ProvenanceGraph) (roots : List InvalidatingSubject) :
    InvalidationResult :=
  let t := roots.foldl addRoot (∅, ∅)
  let run := Traversal.bfs graph.children (t.1.size + graph.nodeSet.size) [] (startSearch t.1.keys)
  { affected := stdSort (run.1 ++ run.2.pending)
    predecessor := run.2.predecessor
    rootOf := run.2.rootOf
    rootReason := t.1
    rootDetail := t.2 }

lemma mem_foldl_addRoot (roots : List InvalidatingSubject) (t : RootTable) (x : StateId) :
    x ∈ (roots.foldl addRoot t).1 ↔ x ∈ t.1 ∨ ∃ r ∈ roots, r.subject = x := by
  induction roots generalizing t with
  | nil => simp
  | cons r roots ih =>
    rw [List.foldl_cons, ih, addRoot]
    simp only [List.mem_cons, exists_eq_or_imp]
    split
    · next hr =>
      constructor
      · rintro (hx | hx)
        · exact Or.inl hx
        · exact Or.inr (Or.inr hx)
      · rintro (hx | rfl | hx)
        · exact Or.inl hx
        · exact Or.inl hr
        · exact Or.inr hx
    · rw [ExtTreeMap.mem_insert, LawfulEqCmp.compare_eq_iff_eq]
      tauto

def rootIds (roots : List InvalidatingSubject) : List StateId := (roots.foldl addRoot (∅, ∅)).1.keys

lemma mem_rootIds (roots : List InvalidatingSubject) (x : StateId) :
    x ∈ rootIds roots ↔ ∃ r ∈ roots, r.subject = x := by
  rw [rootIds, ExtTreeMap.mem_keys, mem_foldl_addRoot]
  simp

structure Propagated (g : ProvenanceGraph) (roots : List InvalidatingSubject) (done : List StateId) (m : ℕ)
    (depth : StateId → ℕ) (s : Traversal.Search StateId) : Prop where
  layered : Traversal.Layered g.children (rootIds roots) done [] [] m depth s
  closed : Traversal.Closed g.children done depth s
  affected : (propagateInvalidation g roots).affected = stdSort done
  predecessor : (propagateInvalidation g roots).predecessor = s.predecessor
  rootOf : (propagateInvalidation g roots).rootOf = s.rootOf

lemma exists_propagated {g : ProvenanceGraph} (h : g.WellFormed) (roots : List InvalidatingSubject) :
    ∃ done m depth s, Propagated g roots done m depth s := by
  have hnext : ∀ a, ∀ b ∈ g.children a, b ∈ rootIds roots ++ g.nodeSet.toList := by
    intro a b hb
    exact List.mem_append_right _ (ExtTreeSet.mem_toList.mpr (h.child_mem ((h.mem_children_iff a b).mp hb)))
  have hlen : (rootIds roots ++ g.nodeSet.toList).length =
      (roots.foldl addRoot (∅, ∅)).1.size + g.nodeSet.size := by
    rw [List.length_append, rootIds, ExtTreeMap.length_keys, ExtTreeSet.length_toList]
  obtain ⟨m, depth, hl, hc⟩ := Traversal.bfs_exhausts ExtTreeMap.nodup_keys
    (fun r hr => List.mem_append_left _ hr) hnext hlen.le (s := startSearch (rootIds roots)) rfl
  refine ⟨_, m, depth, _, hl, hc, ?_, rfl, rfl⟩
  have hpending := hl.pending
  rw [List.append_nil] at hpending
  simp only [propagateInvalidation]
  rw [rootIds] at hpending
  rw [hpending, List.append_nil]
  rfl

namespace Propagated

variable {g : ProvenanceGraph} {roots : List InvalidatingSubject} {done : List StateId} {m : ℕ}
  {depth : StateId → ℕ} {s : Traversal.Search StateId} (hp : Propagated g roots done m depth s)

include hp

lemma mem_affected (x : StateId) : x ∈ (propagateInvalidation g roots).affected ↔ x ∈ done := by
  rw [hp.affected, (stdSort_perm done).mem_iff]

lemma mem_affected_iff (h : g.WellFormed) (x : StateId) : x ∈ (propagateInvalidation g roots).affected ↔
    ∃ q ∈ roots, x = q.subject ∨ Relation.TransGen g.Arc q.subject x := by
  rw [hp.mem_affected, hp.layered.mem_done_iff hp.closed, h.edge_children]
  constructor
  · rintro ⟨r, hr, hpath⟩
    obtain ⟨q, hq, rfl⟩ := (mem_rootIds roots r).mp hr
    exact ⟨q, hq, Relation.reflTransGen_iff_eq_or_transGen.mp hpath⟩
  · rintro ⟨q, hq, hpath⟩
    exact ⟨q.subject, (mem_rootIds roots _).mpr ⟨q, hq, rfl⟩,
      Relation.reflTransGen_iff_eq_or_transGen.mpr hpath⟩

lemma ascending : (propagateInvalidation g roots).affected.Pairwise fun a b => compare a b = .lt := by
  rw [hp.affected]
  exact ordered_stdSort (List.Nodup.of_append_left hp.layered.nodup)

lemma found {x : StateId} (hx : x ∈ (propagateInvalidation g roots).affected) : x ∈ s.predecessor := by
  rwa [hp.mem_affected, hp.layered.mem_done] at hx

end Propagated

section Affected

variable {g : ProvenanceGraph} (h : g.WellFormed)

include h

lemma nodup_affected (roots : List InvalidatingSubject) : (propagateInvalidation g roots).affected.Nodup := by
  obtain ⟨done, m, depth, s, hp⟩ := exists_propagated h roots
  exact nodup_of_ordered hp.ascending

lemma mem_affected_single (subj : InvalidatingSubject) (x : StateId) :
    x ∈ (propagateInvalidation g [subj]).affected ↔
      x = subj.subject ∨ Relation.TransGen g.Arc subj.subject x := by
  obtain ⟨done, m, depth, s, hp⟩ := exists_propagated h [subj]
  rw [hp.mem_affected_iff h]
  simp

end Affected

end StateProvenance
