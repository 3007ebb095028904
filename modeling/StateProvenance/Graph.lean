import StateProvenance.Ids
import StateProvenance.Library.Traversal
import StateProvenance.Library.Kahn

/-! Explicit directed derivation graph. Nodes are state ids, arcs point from parent to child. -/

namespace StateProvenance

open Std Library.OrderedMap Library

structure GraphError where
  what : String
deriving DecidableEq

@[ext] structure ProvenanceGraph where
  nodeSet : OrdSet StateId := ∅
  parentSets : OrdMap StateId (OrdSet StateId) := ∅
  childSets : OrdMap StateId (OrdSet StateId) := ∅
  arcCount : ℕ := 0

namespace ProvenanceGraph

def insertNode (g : ProvenanceGraph) (id : StateId) : ProvenanceGraph :=
  { g with
    nodeSet := g.nodeSet.insert id
    parentSets := g.parentSets.insertIfNew id ∅
    childSets := g.childSets.insertIfNew id ∅ }

def addNode (g : ProvenanceGraph) (id : StateId) : Except GraphError Bool × ProvenanceGraph :=
  if !id.valid then (.error ⟨"graph node id must be non-zero"⟩, g)
  else if id ∈ g.nodeSet then (.ok false, g)
  else (.ok true, g.insertNode id)

def hasNode (g : ProvenanceGraph) (id : StateId) : Bool := id ∈ g.nodeSet

def parents (g : ProvenanceGraph) (id : StateId) : List StateId := (g.parentSets.getD id ∅).toList

def children (g : ProvenanceGraph) (id : StateId) : List StateId := (g.childSets.getD id ∅).toList

def wouldCreateCycle (g : ProvenanceGraph) (parent child : StateId) : Bool :=
  Traversal.reaches g.children parent (g.nodeSet.toList.length + 1) [child] ∅

def insertArc (g : ProvenanceGraph) (parent child : StateId) : ProvenanceGraph :=
  { g with
    childSets := addTo g.childSets parent child
    parentSets := addTo g.parentSets child parent
    arcCount := g.arcCount + 1 }

def addArc (g : ProvenanceGraph) (parent child : StateId) : Except GraphError Bool × ProvenanceGraph :=
  if !parent.valid || !child.valid then (.error ⟨"arc endpoints must be non-zero"⟩, g)
  else if parent = child then (.error ⟨"self-dependency is not permitted"⟩, g)
  else if !g.hasNode parent || !g.hasNode child then
    (.error ⟨"arc endpoints must be registered nodes"⟩, g)
  else
    -- `children_[parent]` creates a missing entry, also on the way to a rejection.
    let g := { g with childSets := g.childSets.insertIfNew parent ∅ }
    if child ∈ g.childSets.getD parent ∅ then (.error ⟨"duplicate arc"⟩, g)
    else if g.wouldCreateCycle parent child then
      (.error ⟨"cycle would be created by arc parent->child"⟩, g)
    else (.ok true, g.insertArc parent child)

def walk (g : ProvenanceGraph) (next : StateId → List StateId) (id : StateId) : List StateId :=
  if !g.hasNode id then []
  else
    let fuel := (next id).length + Traversal.work next g.nodeSet.toList
    (Traversal.closure next fuel (next id).reverse ∅).toList

def ancestors (g : ProvenanceGraph) (id : StateId) : List StateId := g.walk g.parents id

def descendants (g : ProvenanceGraph) (id : StateId) : List StateId := g.walk g.children id

def sharedAncestors (g : ProvenanceGraph) (a b : StateId) : List StateId :=
  setIntersection (g.ancestors a) (g.ancestors b)

def roots (g : ProvenanceGraph) : List StateId :=
  g.nodeSet.toList.filter fun id => (g.parentSets.getD id ∅).isEmpty

def inDegrees (g : ProvenanceGraph) : OrdMap StateId ℕ :=
  fill id (fun id => (g.parentSets.getD id ∅).size) g.nodeSet.toList

def topologicalOrder (g : ProvenanceGraph) : Except GraphError (List StateId) :=
  let inDeg := g.inDegrees
  let result := Kahn.kahn g.children g.nodeSet.size inDeg (Kahn.initialReady inDeg) []
  if result.length ≠ g.nodeSet.size then .error ⟨"graph contains a cycle"⟩ else .ok result

structure ArcEntry where
  parent : StateId
  child : StateId
deriving DecidableEq

instance : Ord ArcEntry := ⟨fun a b => (compare a.parent b.parent).then (compare a.child b.child)⟩

instance : TransOrd ArcEntry :=
  inferInstanceAs (TransCmp (compareLex (compareOn ArcEntry.parent) (compareOn ArcEntry.child)))

instance : LawfulEqOrd ArcEntry where
  compare_self := ReflCmp.compare_self
  eq_of_compare := by
    rintro ⟨p, c⟩ ⟨p', c'⟩ h
    have hcompare : compare (⟨p, c⟩ : ArcEntry) ⟨p', c'⟩ = (compare p p').then (compare c c') := rfl
    simp only [hcompare, Ordering.then_eq_eq, LawfulEqCmp.compare_eq_iff_eq] at h
    rw [h.1, h.2]

def arcs (g : ProvenanceGraph) : List ArcEntry :=
  stdSort (g.nodeSet.toList.flatMap fun id => (g.children id).map fun ch => ⟨id, ch⟩)

def isAcyclic (g : ProvenanceGraph) : Bool :=
  match g.topologicalOrder with
  | .ok _ => true
  | .error _ => false

def Arc (g : ProvenanceGraph) (p c : StateId) : Prop := p ∈ g.parentSets.getD c ∅

structure WellFormed (g : ProvenanceGraph) : Prop where
  valid : ∀ x ∈ g.nodeSet, x.valid = true
  parentKeys : ∀ x, x ∈ g.parentSets ↔ x ∈ g.nodeSet
  childKeys : ∀ x, x ∈ g.childSets ↔ x ∈ g.nodeSet
  mirror : ∀ p c, c ∈ g.childSets.getD p ∅ ↔ g.Arc p c
  acyclic : ∀ x, ¬ Relation.TransGen g.Arc x x
  arcCount : g.arcCount = (g.nodeSet.toList.map fun x => (g.parentSets.getD x ∅).size).sum

lemma wellFormed_empty : WellFormed {} where
  valid := by simp
  parentKeys := by simp
  childKeys := by simp
  mirror := by simp [Arc]
  acyclic := by
    intro x h
    obtain ⟨y, hy, -⟩ := Relation.TransGen.head'_iff.mp h
    simp [Arc] at hy
  arcCount := by simp

@[simp] lemma mem_parents (g : ProvenanceGraph) (p c : StateId) : p ∈ g.parents c ↔ g.Arc p c :=
  ExtTreeSet.mem_toList

lemma mem_children (g : ProvenanceGraph) (p c : StateId) : c ∈ g.children p ↔ c ∈ g.childSets.getD p ∅ :=
  ExtTreeSet.mem_toList

lemma edge_parents (g : ProvenanceGraph) : Traversal.Edge g.parents = Function.swap g.Arc := by
  funext a b
  exact propext (mem_parents g b a)

lemma mem_walk {g : ProvenanceGraph} {next : StateId → List StateId}
    (hnext : ∀ x, x ∉ g.nodeSet → next x = []) (a x : StateId) :
    x ∈ g.walk next a ↔ Relation.TransGen (Traversal.Edge next) a x := by
  rw [walk]
  split
  · next ha =>
    simp only [hasNode, Bool.not_eq_true', decide_eq_false_iff_not] at ha
    simp only [List.not_mem_nil, false_iff]
    intro hr
    obtain ⟨b, hb, -⟩ := Relation.TransGen.head'_iff.mp hr
    rw [Traversal.Edge, hnext a ha] at hb
    contradiction
  · rw [ExtTreeSet.mem_toList]
    have hkeys : ∀ b, b ∉ g.nodeSet.toList → next b = [] :=
      fun b hb => hnext b (mt ExtTreeSet.mem_toList.mpr hb)
    exact Traversal.mem_closure_next_iff hkeys (fun b => List.mem_reverse) (by simp) x

lemma ordered_walk (g : ProvenanceGraph) (next : StateId → List StateId) (id : StateId) :
    (g.walk next id).Pairwise fun a b => compare a b = .lt := by
  rw [walk]
  split
  · exact List.Pairwise.nil
  · exact ExtTreeSet.ordered_toList

namespace WellFormed

variable {g : ProvenanceGraph} (h : g.WellFormed)

include h

lemma mem_children_iff (p c : StateId) : c ∈ g.children p ↔ g.Arc p c := by
  rw [mem_children, h.mirror]

lemma parent_mem {p c : StateId} (ha : g.Arc p c) : p ∈ g.nodeSet := by
  by_contra hp
  have hc := (h.mirror p c).mpr ha
  rw [ExtTreeMap.getD_eq_fallback (mt (h.childKeys p).mp hp)] at hc
  simp at hc

lemma child_mem {p c : StateId} (ha : g.Arc p c) : c ∈ g.nodeSet := by
  by_contra hc
  rw [Arc, ExtTreeMap.getD_eq_fallback (mt (h.parentKeys c).mp hc)] at ha
  simp at ha

lemma parents_eq_nil {x : StateId} (hx : x ∉ g.nodeSet) : g.parents x = [] := by
  refine List.eq_nil_iff_forall_not_mem.mpr fun p hp => hx (h.child_mem ((mem_parents g p x).mp hp))

lemma children_eq_nil {x : StateId} (hx : x ∉ g.nodeSet) : g.children x = [] := by
  refine List.eq_nil_iff_forall_not_mem.mpr fun c hc => hx (h.parent_mem ((h.mem_children_iff x c).mp hc))

lemma edge_children : Traversal.Edge g.children = g.Arc := by
  funext a b
  exact propext (h.mem_children_iff a b)

lemma wouldCreateCycle_iff (p c : StateId) :
    g.wouldCreateCycle p c = true ↔ Relation.TransGen g.Arc c p := by
  have huniv : ∀ a, ∀ b ∈ g.children a, b ∈ g.nodeSet.toList := by
    intro a b hb
    exact ExtTreeSet.mem_toList.mpr (h.child_mem ((h.mem_children_iff a b).mp hb))
  rw [wouldCreateCycle, Traversal.reaches_iff huniv (Nat.le_refl _), h.edge_children]

lemma mem_descendants (a x : StateId) : x ∈ g.descendants a ↔ Relation.TransGen g.Arc a x := by
  rw [descendants, mem_walk fun _ => h.children_eq_nil, h.edge_children]

lemma mem_ancestors (a x : StateId) : a ∈ g.ancestors x ↔ Relation.TransGen g.Arc a x := by
  rw [ancestors, mem_walk fun _ => h.parents_eq_nil, edge_parents, Relation.transGen_swap]

end WellFormed

lemma arc_insertNode (g : ProvenanceGraph) (id p c : StateId) : (g.insertNode id).Arc p c ↔ g.Arc p c := by
  rw [Arc, insertNode, getD_insertIfNew_empty, Arc]

lemma arc_insertArc (g : ProvenanceGraph) (parent child p c : StateId) :
    (g.insertArc parent child).Arc p c ↔ g.Arc p c ∨ p = parent ∧ c = child := by
  rw [Arc, insertArc, mem_addTo, Arc, eq_comm (a := child), eq_comm (a := parent)]
  tauto

lemma WellFormed.insertNode {g : ProvenanceGraph} (h : g.WellFormed) {id : StateId}
    (hv : id.valid = true) (hid : id ∉ g.nodeSet) : (g.insertNode id).WellFormed where
  valid := by
    intro x hx
    rcases ExtTreeSet.mem_insert.mp hx with he | hx
    · obtain rfl := LawfulEqCmp.eq_of_compare he
      exact hv
    · exact h.valid x hx
  parentKeys := by
    intro x
    simp [ProvenanceGraph.insertNode, h.parentKeys]
  childKeys := by
    intro x
    simp [ProvenanceGraph.insertNode, h.childKeys]
  mirror := by
    intro p c
    rw [arc_insertNode, ← h.mirror, ProvenanceGraph.insertNode, getD_insertIfNew_empty]
  acyclic := by
    intro x hx
    exact h.acyclic x (Relation.TransGen.mono (fun p c ha => (arc_insertNode g id p c).mp ha) x x hx)
  arcCount := by
    have hnew : g.parentSets.getD id ∅ = ∅ := ExtTreeMap.getD_eq_fallback (mt (h.parentKeys id).mp hid)
    have hperm := toList_insert_perm hid
    simp only [ProvenanceGraph.insertNode, getD_insertIfNew_empty]
    rw [(hperm.map _).sum_eq, List.map_cons, List.sum_cons, hnew, ExtTreeSet.size_empty, Nat.zero_add]
    exact h.arcCount

structure Legal (g : ProvenanceGraph) (p c : StateId) : Prop where
  ne : p ≠ c
  parent : p ∈ g.nodeSet
  child : c ∈ g.nodeSet
  new : ¬ g.Arc p c
  noPath : ¬ Relation.TransGen g.Arc c p

lemma WellFormed.insertArc {g : ProvenanceGraph} (h : g.WellFormed) {p c : StateId} (hl : g.Legal p c) :
    (g.insertArc p c).WellFormed where
  valid := h.valid
  parentKeys := by
    intro x
    rw [ProvenanceGraph.insertArc, mem_keys_addTo, h.parentKeys]
    constructor
    · rintro (rfl | hx)
      · exact hl.child
      · exact hx
    · exact Or.inr
  childKeys := by
    intro x
    rw [ProvenanceGraph.insertArc, mem_keys_addTo, h.childKeys]
    constructor
    · rintro (rfl | hx)
      · exact hl.parent
      · exact hx
    · exact Or.inr
  mirror := by
    intro a b
    rw [arc_insertArc, ← h.mirror, ProvenanceGraph.insertArc, mem_addTo, eq_comm (a := p),
      eq_comm (a := c)]
    tauto
  acyclic := by
    intro x hx
    refine Traversal.acyclic_add_arc h.acyclic hl.ne hl.noPath x (Relation.TransGen.mono ?_ x x hx)
    exact fun a b ha => (arc_insertArc g p c a b).mp ha
  arcCount := by
    have hsize : (addTo g.parentSets c p).getD c ∅ = (g.parentSets.getD c ∅).insert p := by
      simp [addTo]
    have hother : ∀ x, x ≠ c → (addTo g.parentSets c p).getD x ∅ = g.parentSets.getD x ∅ := by
      intro x hx
      simp [addTo, ExtTreeMap.getD_insert, Ne.symm hx]
    rw [ProvenanceGraph.insertArc, h.arcCount]
    symm
    refine sum_map_eq_of_mem (nodup_toList _) (ExtTreeSet.mem_toList.mpr hl.child) ?_ ?_
    · rw [hsize, ExtTreeSet.size_insert, if_neg (mt ExtTreeSet.mem_iff_contains.mpr hl.new)]
    · intro x _ hx
      rw [hother x hx]

lemma addNode_fresh {g : ProvenanceGraph} {id : StateId} (hv : id.valid = true) (hid : id ∉ g.nodeSet) :
    g.addNode id = (.ok true, g.insertNode id) := by
  simp [addNode, hv, hid]

lemma WellFormed.addArc_legal {g : ProvenanceGraph} (h : g.WellFormed) {p c : StateId} (hl : g.Legal p c) :
    g.addArc p c = (.ok true, g.insertArc p c) := by
  have hcycle : g.wouldCreateCycle p c = false := by
    rw [Bool.eq_false_iff, ne_eq, h.wouldCreateCycle_iff]
    exact hl.noPath
  have hnew : c ∉ g.childSets.getD p ∅ := fun hc => hl.new ((h.mirror p c).mp hc)
  simp [addArc, h.valid p hl.parent, h.valid c hl.child, hl.ne, hasNode, hl.parent, hl.child,
    insertIfNew_of_mem g.childSets ((h.childKeys p).mpr hl.parent), hnew, hcycle]

inductive Built : ProvenanceGraph → Prop
  | empty : Built {}
  | addNode {g : ProvenanceGraph} (h : Built g) (id : StateId) : Built (g.addNode id).2
  | addArc {g : ProvenanceGraph} (h : Built g) (parent child : StateId) : Built (g.addArc parent child).2

lemma WellFormed.addNode {g : ProvenanceGraph} (h : g.WellFormed) (id : StateId) :
    (g.addNode id).2.WellFormed := by
  unfold ProvenanceGraph.addNode
  split
  · exact h
  next hv =>
  split
  · exact h
  · next hid => exact h.insertNode (by simpa using hv) hid

lemma WellFormed.addArc_cases {g : ProvenanceGraph} (h : g.WellFormed) (p c : StateId) :
    (∃ e, g.addArc p c = (.error e, g)) ∨ g.Legal p c ∧ g.addArc p c = (.ok true, g.insertArc p c) := by
  unfold ProvenanceGraph.addArc
  split
  · exact Or.inl ⟨_, rfl⟩
  split
  · exact Or.inl ⟨_, rfl⟩
  next hne =>
  split
  · exact Or.inl ⟨_, rfl⟩
  next hnodes =>
  simp only [hasNode, Bool.or_eq_true, Bool.not_eq_true', decide_eq_false_iff_not, not_or, not_not] at hnodes
  simp only [insertIfNew_of_mem g.childSets ((h.childKeys p).mpr hnodes.1)]
  split
  · exact Or.inl ⟨_, rfl⟩
  next hnew =>
  split
  · exact Or.inl ⟨_, rfl⟩
  · next hcycle =>
    rw [h.wouldCreateCycle_iff] at hcycle
    exact Or.inr ⟨⟨hne, hnodes.1, hnodes.2, mt (h.mirror p c).mpr hnew, hcycle⟩, rfl⟩

lemma WellFormed.addArc {g : ProvenanceGraph} (h : g.WellFormed) (p c : StateId) :
    (g.addArc p c).2.WellFormed := by
  rcases h.addArc_cases p c with ⟨e, he⟩ | ⟨hl, he⟩
  · rw [he]
    exact h
  · rw [he]
    exact h.insertArc hl

lemma Built.wellFormed {g : ProvenanceGraph} (hg : g.Built) : g.WellFormed := by
  induction hg with
  | empty => exact wellFormed_empty
  | addNode _ id ih => exact ih.addNode id
  | addArc _ parent child ih => exact ih.addArc parent child

end ProvenanceGraph

end StateProvenance
