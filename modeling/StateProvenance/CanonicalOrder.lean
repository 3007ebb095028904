import StateProvenance.Graph

/-! The topological order of a graph built by the two mutations is its least parents-first list of nodes,
so it does not depend on the order of insertion. -/

namespace StateProvenance

open Std Library.OrderedMap Library

namespace ProvenanceGraph

lemma nodup_children (g : ProvenanceGraph) (p : StateId) : (g.children p).Nodup := nodup_toList _

lemma mem_inDegrees (g : ProvenanceGraph) (x : StateId) : x ∈ g.inDegrees ↔ x ∈ g.nodeSet := by
  rw [inDegrees, mem_fill]
  simp

lemma getD_inDegrees (g : ProvenanceGraph) {x : StateId} (hx : x ∈ g.nodeSet) :
    g.inDegrees.getD x 0 = (g.parentSets.getD x ∅).size :=
  getD_fill id _ (by simpa using nodup_toList g.nodeSet) (ExtTreeSet.mem_toList.mpr hx) 0

namespace WellFormed

variable {g : ProvenanceGraph} (h : g.WellFormed)

include h

def kahnGraph : Kahn.Graph StateId where
  nodes := g.nodeSet
  parents x := g.parentSets.getD x ∅
  children := g.children
  nodup_children := fun p _ => g.nodup_children p
  mem_children := by
    intro p _ c
    rw [h.mem_children_iff]
    exact ⟨fun ha => ⟨h.child_mem ha, ha⟩, fun ha => ha.2⟩

lemma kahn_init : Kahn.Inv h.kahnGraph g.inDegrees (Kahn.initialReady g.inDegrees) [] :=
  Kahn.Inv.init g.mem_inDegrees fun _ hv => g.getD_inDegrees hv

lemma topologicalOrder_least :
    ∃ l, g.topologicalOrder = .ok l ∧ Kahn.LeastTopological g.nodeSet g.Arc l := by
  obtain ⟨inDeg, hinv⟩ := Kahn.kahn_run (n := g.nodeSet.size) h.kahn_init (by simp [kahnGraph])
  have hleast := Kahn.kahn_leastReady (n := g.nodeSet.size) h.kahn_init Kahn.leastReady_nil
  have hlen := (Kahn.complete_iff hinv).mpr ⟨fun _ _ _ hp => h.parent_mem hp, fun v _ => h.acyclic v⟩
  refine ⟨_, ?_, hinv.leastTopological hleast hlen⟩
  rw [topologicalOrder]
  exact if_neg (not_not.mpr hlen)

lemma isAcyclic_eq_true : g.isAcyclic = true := by
  obtain ⟨l, hl, -⟩ := h.topologicalOrder_least
  rw [isAcyclic, hl]

end WellFormed

def build (nodes : List StateId) (arcs : List ArcEntry) : ProvenanceGraph :=
  arcs.foldl (fun g a => (g.addArc a.parent a.child).2) (nodes.foldl (fun g id => (g.addNode id).2) {})

lemma built_build (nodes : List StateId) (arcs : List ArcEntry) : (build nodes arcs).Built := by
  have hnodes : ∀ (l : List StateId) {g : ProvenanceGraph}, g.Built →
      (l.foldl (fun g id => (g.addNode id).2) g).Built := by
    intro l
    induction l with
    | nil => exact fun hg => hg
    | cons id l ih => exact fun hg => ih (hg.addNode id)
  have harcs : ∀ (l : List ArcEntry) {g : ProvenanceGraph}, g.Built →
      (l.foldl (fun g a => (g.addArc a.parent a.child).2) g).Built := by
    intro l
    induction l with
    | nil => exact fun hg => hg
    | cons a l ih => exact fun hg => ih (hg.addArc a.parent a.child)
  exact harcs arcs (hnodes nodes .empty)

lemma arc_eq {g g' : ProvenanceGraph} (h : ∀ p c, g'.Arc p c ↔ g.Arc p c) : g'.Arc = g.Arc :=
  funext fun p => funext fun c => propext (h p c)

theorem topologicalOrder_canonical {g : ProvenanceGraph} (hg : g.Built) :
    (∃ l, g.topologicalOrder = .ok l ∧ Kahn.LeastTopological g.nodeSet g.Arc l) ∧
      ∀ g' : ProvenanceGraph, g'.Built → g'.nodeSet = g.nodeSet → (∀ p c, g'.Arc p c ↔ g.Arc p c) →
        g'.topologicalOrder = g.topologicalOrder := by
  obtain ⟨l, hl, hleast⟩ := hg.wellFormed.topologicalOrder_least
  refine ⟨⟨l, hl, hleast⟩, fun g' hg' hnodes harcs => ?_⟩
  obtain ⟨l', hl', hleast'⟩ := hg'.wellFormed.topologicalOrder_least
  rw [hnodes, arc_eq harcs] at hleast'
  rw [hl, hl', hleast'.unique hleast]

theorem topologicalOrder_canonical_example :
    (build [⟨3⟩, ⟨2⟩, ⟨1⟩] [⟨⟨2⟩, ⟨3⟩⟩, ⟨⟨1⟩, ⟨3⟩⟩]).topologicalOrder =
      (build [⟨1⟩, ⟨2⟩, ⟨3⟩] [⟨⟨1⟩, ⟨3⟩⟩, ⟨⟨2⟩, ⟨3⟩⟩]).topologicalOrder := by
  have hparents : (build [⟨3⟩, ⟨2⟩, ⟨1⟩] [⟨⟨2⟩, ⟨3⟩⟩, ⟨⟨1⟩, ⟨3⟩⟩]).parentSets =
      (build [⟨1⟩, ⟨2⟩, ⟨3⟩] [⟨⟨1⟩, ⟨3⟩⟩, ⟨⟨2⟩, ⟨3⟩⟩]).parentSets := by
    decide
  refine (topologicalOrder_canonical (built_build _ _)).2 _ (built_build _ _) (by decide) ?_
  intro p c
  rw [Arc, Arc, hparents]

end ProvenanceGraph

end StateProvenance
