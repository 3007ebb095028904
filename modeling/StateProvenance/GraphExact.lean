import StateProvenance.CanonicalOrder

/-! What a graph built by the two mutations accepts as a new arc, and the arcs and closures it reports. -/

namespace StateProvenance

open Std Library.OrderedMap Library

namespace ProvenanceGraph

lemma nodup_pairs {f : StateId → List StateId} {pair : StateId → StateId → ArcEntry}
    (hf : ∀ x, (f x).Nodup) (hpair : Function.Injective2 pair) {l : List StateId} (hl : l.Nodup) :
    (l.flatMap fun x => (f x).map (pair x)).Nodup := by
  refine List.nodup_flatMap.mpr ⟨fun x _ => (hf x).map (hpair.right x), hl.imp ?_⟩
  intro a b hab e ha hb
  obtain ⟨y, -, rfl⟩ := List.mem_map.mp ha
  obtain ⟨z, -, he⟩ := List.mem_map.mp hb
  exact hab (hpair he).1.symm

lemma nodup_arcs (g : ProvenanceGraph) : g.arcs.Nodup := by
  rw [arcs, (stdSort_perm _).nodup_iff]
  refine nodup_pairs g.nodup_children ?_ (nodup_toList g.nodeSet)
  intro p p' c c' he
  cases he
  exact ⟨rfl, rfl⟩

namespace WellFormed

variable {g : ProvenanceGraph} (h : g.WellFormed)

include h

lemma mem_arcs (e : ArcEntry) : e ∈ g.arcs ↔ g.Arc e.parent e.child := by
  rw [arcs, (stdSort_perm _).mem_iff, List.mem_flatMap]
  constructor
  · rintro ⟨p, -, he⟩
    obtain ⟨c, hc, rfl⟩ := List.mem_map.mp he
    exact (h.mem_children_iff p c).mp hc
  · intro ha
    refine ⟨e.parent, ExtTreeSet.mem_toList.mpr (h.parent_mem ha), List.mem_map.mpr ⟨e.child, ?_, rfl⟩⟩
    exact (h.mem_children_iff _ _).mpr ha

lemma arcCount_eq_length : g.arcCount = g.arcs.length := by
  let byChild := g.nodeSet.toList.flatMap fun c => (g.parents c).map fun p => (⟨p, c⟩ : ArcEntry)
  have hn : byChild.Nodup := by
    refine nodup_pairs (fun x => nodup_toList _) ?_ (nodup_toList g.nodeSet)
    intro c c' p p' he
    cases he
    exact ⟨rfl, rfl⟩
  have hmem : ∀ e, e ∈ byChild ↔ e ∈ g.arcs := by
    intro e
    rw [h.mem_arcs, List.mem_flatMap]
    constructor
    · rintro ⟨c, -, he⟩
      obtain ⟨p, hp, rfl⟩ := List.mem_map.mp he
      exact (mem_parents g p c).mp hp
    · intro ha
      refine ⟨e.child, ExtTreeSet.mem_toList.mpr (h.child_mem ha), List.mem_map.mpr ⟨e.parent, ?_, rfl⟩⟩
      exact (mem_parents g _ _).mpr ha
  have hperm := (List.perm_ext_iff_of_nodup hn g.nodup_arcs).mpr hmem
  have hlen : byChild.length = (g.nodeSet.toList.map fun x => (g.parentSets.getD x ∅).size).sum := by
    simp only [byChild, List.length_flatMap, List.length_map, parents, ExtTreeSet.length_toList]
  rw [h.arcCount, ← hlen, hperm.length_eq]

lemma addArc_ok_iff (p c : StateId) : (g.addArc p c).1 = .ok true ↔ g.Legal p c := by
  constructor
  · intro hok
    rcases h.addArc_cases p c with ⟨e, he⟩ | ⟨hl, -⟩
    · rw [he] at hok
      contradiction
    · exact hl
  · intro hl
    rw [h.addArc_legal hl]

lemma addArc_rejected {p c : StateId} (hno : (g.addArc p c).1 ≠ .ok true) : (g.addArc p c).2 = g := by
  rcases h.addArc_cases p c with ⟨e, he⟩ | ⟨-, he⟩
  · rw [he]
  · rw [he] at hno
    exact absurd rfl hno

end WellFormed

theorem addArc_exact {g : ProvenanceGraph} (hg : g.Built) :
    (∀ p c, ((g.addArc p c).1 = .ok true ↔ p.valid = true ∧ c.valid = true ∧ p ≠ c ∧ g.hasNode p = true ∧
        g.hasNode c = true ∧ ¬ g.Arc p c ∧ ¬ Relation.TransGen g.Arc c p) ∧
      ((g.addArc p c).1 ≠ .ok true → (g.addArc p c).2 = g)) ∧
    (∀ x, x ∈ g.parentSets ↔ x ∈ g.childSets) ∧ (∀ p c, p ∈ g.parents c ↔ c ∈ g.children p) ∧
    (g.arcs.Nodup ∧ (∀ e, e ∈ g.arcs ↔ g.Arc e.parent e.child) ∧ g.arcCount = g.arcs.length) ∧
    (∀ x, ¬ Relation.TransGen g.Arc x x) ∧ g.isAcyclic = true := by
  have h := hg.wellFormed
  refine ⟨fun p c => ⟨?_, h.addArc_rejected⟩, fun x => ?_, fun p c => ?_,
    ⟨g.nodup_arcs, h.mem_arcs, h.arcCount_eq_length⟩, h.acyclic, h.isAcyclic_eq_true⟩
  · rw [h.addArc_ok_iff]
    simp only [hasNode, decide_eq_true_eq]
    constructor
    · intro hl
      exact ⟨h.valid p hl.parent, h.valid c hl.child, hl.ne, hl.parent, hl.child, hl.new, hl.noPath⟩
    · rintro ⟨-, -, hne, hp, hc, hnew, hpath⟩
      exact ⟨hne, hp, hc, hnew, hpath⟩
  · rw [h.parentKeys, h.childKeys]
  · rw [mem_parents, h.mem_children_iff]

theorem addArc_exact_chain :
    ((build [⟨1⟩, ⟨2⟩, ⟨4⟩] [⟨⟨1⟩, ⟨2⟩⟩, ⟨⟨2⟩, ⟨4⟩⟩]).addArc ⟨4⟩ ⟨1⟩).2 =
      build [⟨1⟩, ⟨2⟩, ⟨4⟩] [⟨⟨1⟩, ⟨2⟩⟩, ⟨⟨2⟩, ⟨4⟩⟩] := by
  have hexact := addArc_exact (built_build [⟨1⟩, ⟨2⟩, ⟨4⟩] [⟨⟨1⟩, ⟨2⟩⟩, ⟨⟨2⟩, ⟨4⟩⟩])
  refine (hexact.1 ⟨4⟩ ⟨1⟩).2 fun hok => ?_
  have hpath := ((hexact.1 ⟨4⟩ ⟨1⟩).1.mp hok).2.2.2.2.2.2
  refine hpath (Relation.TransGen.head (b := ⟨2⟩) ?_ (.single ?_))
  · exact ExtTreeSet.mem_iff_contains.mpr (by decide)
  · exact ExtTreeSet.mem_iff_contains.mpr (by decide)

/-- What a walk leaves on its stack when its fuel is used up. -/
def unfinished (g : ProvenanceGraph) (next : StateId → List StateId) (id : StateId) : List StateId :=
  if !g.hasNode id then []
  else
    let fuel := (next id).length + Traversal.work next g.nodeSet.toList
    Traversal.leftover next fuel (next id).reverse ∅

lemma unfinished_eq_nil {g : ProvenanceGraph} {next : StateId → List StateId}
    (hnext : ∀ x, x ∉ g.nodeSet → next x = []) (id : StateId) : g.unfinished next id = [] := by
  rw [unfinished]
  split
  · rfl
  · have hkeys : ∀ a, a ∉ g.nodeSet.toList → next a = [] :=
      fun a ha => hnext a (mt ExtTreeSet.mem_toList.mpr ha)
    apply Traversal.leftover_eq_nil hkeys
    rw [Traversal.unvisitedWork_empty, List.length_reverse]

lemma mem_sharedAncestors (g : ProvenanceGraph) (a b x : StateId) :
    x ∈ g.sharedAncestors a b ↔ x ∈ g.ancestors a ∧ x ∈ g.ancestors b :=
  mem_setIntersection (g.ordered_walk g.parents a) (g.ordered_walk g.parents b) x

lemma ordered_sharedAncestors (g : ProvenanceGraph) (a b : StateId) :
    (g.sharedAncestors a b).Pairwise fun x y => compare x y = .lt :=
  (g.ordered_walk g.parents a).sublist (setIntersection_sublist _ _)

theorem closures_exact {g : ProvenanceGraph} (hg : g.Built) (a b : StateId) :
    ((g.ancestors b).Pairwise (fun x y => compare x y = .lt) ∧
      ∀ x, x ∈ g.ancestors b ↔ Relation.TransGen g.Arc x b) ∧
    ((g.descendants a).Pairwise (fun x y => compare x y = .lt) ∧
      ∀ x, x ∈ g.descendants a ↔ Relation.TransGen g.Arc a x) ∧
    (a ∈ g.ancestors b ↔ b ∈ g.descendants a) ∧ a ∉ g.ancestors a ∧
    ((g.sharedAncestors a b).Pairwise (fun x y => compare x y = .lt) ∧
      ∀ x, x ∈ g.sharedAncestors a b ↔ x ∈ g.ancestors a ∧ x ∈ g.ancestors b) ∧
    g.unfinished g.parents b = [] ∧ g.unfinished g.children a = [] := by
  have h := hg.wellFormed
  refine ⟨⟨g.ordered_walk g.parents b, fun x => h.mem_ancestors x b⟩,
    ⟨g.ordered_walk g.children a, h.mem_descendants a⟩, ?_, ?_,
    ⟨g.ordered_sharedAncestors a b, g.mem_sharedAncestors a b⟩,
    unfinished_eq_nil (fun _ => h.parents_eq_nil) b, unfinished_eq_nil (fun _ => h.children_eq_nil) a⟩
  · rw [h.mem_ancestors, h.mem_descendants]
  · rw [h.mem_ancestors]
    exact h.acyclic a

theorem closures_exact_chain :
    (⟨1⟩ : StateId) ∈ (build [⟨1⟩, ⟨2⟩, ⟨4⟩] [⟨⟨1⟩, ⟨2⟩⟩, ⟨⟨2⟩, ⟨4⟩⟩]).ancestors ⟨4⟩ := by
  have hexact := closures_exact (built_build [⟨1⟩, ⟨2⟩, ⟨4⟩] [⟨⟨1⟩, ⟨2⟩⟩, ⟨⟨2⟩, ⟨4⟩⟩]) ⟨1⟩ ⟨4⟩
  refine (hexact.1.2 ⟨1⟩).mpr (Relation.TransGen.head (b := ⟨2⟩) ?_ (.single ?_))
  · exact ExtTreeSet.mem_iff_contains.mpr (by decide)
  · exact ExtTreeSet.mem_iff_contains.mpr (by decide)

end ProvenanceGraph

end StateProvenance
