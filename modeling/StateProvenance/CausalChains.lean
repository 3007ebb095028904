import StateProvenance.Invalidate

/-! The invalidation closure and its causal chains are exact: what is affected is what lies at or below a
root, and each chain is a shortest path from a root. -/

namespace StateProvenance

open Std Library.OrderedMap Library

lemma addRoot_keeps (t : RootTable) (q : InvalidatingSubject) {x : StateId} (hx : x ∈ t.1) :
    x ∈ (addRoot t q).1 ∧ (addRoot t q).1[x]? = t.1[x]? ∧ (addRoot t q).2[x]? = t.2[x]? := by
  unfold addRoot
  split
  · exact ⟨hx, rfl, rfl⟩
  · next hq =>
    have hne : ¬ compare q.subject x = .eq := by
      intro he
      exact hq (LawfulEqCmp.eq_of_compare he ▸ hx)
    simp only [ExtTreeMap.getElem?_insert, if_neg hne, ExtTreeMap.mem_insert, hx, or_true, and_self]

lemma foldl_addRoot_keeps (l : List InvalidatingSubject) (t : RootTable) {x : StateId} (hx : x ∈ t.1) :
    (l.foldl addRoot t).1[x]? = t.1[x]? ∧ (l.foldl addRoot t).2[x]? = t.2[x]? := by
  induction l generalizing t with
  | nil => exact ⟨rfl, rfl⟩
  | cons q l ih =>
    obtain ⟨hmem, hreason, hdetail⟩ := addRoot_keeps t q hx
    rw [List.foldl_cons, (ih _ hmem).1, (ih _ hmem).2, hreason, hdetail]
    exact ⟨rfl, rfl⟩

def IsFirst (roots : List InvalidatingSubject) (r : InvalidatingSubject) : Prop :=
  ∃ before after, roots = before ++ r :: after ∧ ∀ q ∈ before, q.subject ≠ r.subject

lemma exists_isFirst {roots : List InvalidatingSubject} {r : InvalidatingSubject} (hr : r ∈ roots) :
    ∃ q, IsFirst roots q ∧ q.subject = r.subject := by
  induction roots with
  | nil => simp at hr
  | cons q roots ih =>
    by_cases hq : q.subject = r.subject
    · exact ⟨q, ⟨[], roots, rfl, by simp⟩, hq⟩
    · rcases List.mem_cons.mp hr with rfl | hr
      · exact absurd rfl hq
      · obtain ⟨p, ⟨before, after, he, hfirst⟩, hp⟩ := ih hr
        refine ⟨p, ⟨q :: before, after, by rw [he]; rfl, ?_⟩, hp⟩
        exact List.forall_mem_cons.mpr ⟨by rwa [hp], hfirst⟩

lemma IsFirst.recorded {roots : List InvalidatingSubject} {r : InvalidatingSubject} (hr : IsFirst roots r) :
    (roots.foldl addRoot (∅, ∅)).1[r.subject]? = some r.reason ∧
      (roots.foldl addRoot (∅, ∅)).2[r.subject]? = some r.detail := by
  obtain ⟨before, after, rfl, hfirst⟩ := hr
  have hnew : r.subject ∉ (before.foldl addRoot (∅, ∅)).1 := by
    rw [mem_foldl_addRoot]
    rintro (hx | ⟨q, hq, he⟩)
    · simp at hx
    · exact hfirst q hq he
  have hadded : addRoot (before.foldl addRoot (∅, ∅)) r =
      ((before.foldl addRoot (∅, ∅)).1.insert r.subject r.reason,
        (before.foldl addRoot (∅, ∅)).2.insert r.subject r.detail) := if_neg hnew
  obtain ⟨hreason, hdetail⟩ := foldl_addRoot_keeps after (addRoot (before.foldl addRoot (∅, ∅)) r)
    (x := r.subject) (by rw [hadded]; exact ExtTreeMap.mem_insert_self)
  rw [List.foldl_append, List.foldl_cons, hreason, hdetail, hadded]
  exact ⟨ExtTreeMap.getElem?_insert_self, ExtTreeMap.getElem?_insert_self⟩

structure CausalPath (g : ProvenanceGraph) (roots : List InvalidatingSubject) (r : InvalidationResult)
    (target : StateId) (path : List StateId) : Prop where
  head : path.head? = r.rootOf[target]?
  last : path.getLast? = some target
  arcs : path.IsChain g.Arc
  nodup : path.Nodup
  shortest : ∀ other : List StateId, (∃ q ∈ roots, other.head? = some q.subject) →
    other.getLast? = some target → other.IsChain g.Arc → path.length ≤ other.length

structure ExactClosure (g : ProvenanceGraph) (roots : List InvalidatingSubject) (r : InvalidationResult) :
    Prop where
  ascending : r.affected.Pairwise fun a b => compare a b = .lt
  affected : ∀ x, x ∈ r.affected ↔
    ∃ q ∈ roots, x = q.subject ∨ Relation.TransGen g.Arc q.subject x
  rootOf : ∀ x ∈ r.affected, ∃ q ∈ roots, r.rootOf[x]? = some q.subject
  rootSelf : ∀ q ∈ roots, r.rootOf[q.subject]? = some q.subject
  path : ∀ x ∈ r.affected, CausalPath g roots r x (r.pathTo x)
  uncut : ∀ x ∈ r.affected, ∀ n, r.affected.length + 2 ≤ n →
    (Traversal.trace r.predecessor n x).reverse = r.pathTo x
  firstReason : ∀ q, IsFirst roots q →
    r.rootReason[q.subject]? = some q.reason ∧ r.rootDetail[q.subject]? = some q.detail
  chain : ∀ x ∈ r.affected, ∃ q, IsFirst roots q ∧ r.rootOf[x]? = some q.subject ∧
    r.chainFor x = ⟨q.subject, some q.reason, q.detail, r.pathTo x⟩

namespace Propagated

variable {g : ProvenanceGraph} {roots : List InvalidatingSubject} {done : List StateId} {m : ℕ}
  {depth : StateId → ℕ} {s : Traversal.Search StateId} (hp : Propagated g roots done m depth s)

include hp

lemma exists_root {x : StateId} (hx : x ∈ (propagateInvalidation g roots).affected) :
    ∃ q, IsFirst roots q ∧ (propagateInvalidation g roots).rootOf[x]? = some q.subject := by
  obtain ⟨r, hr, horigin⟩ := hp.layered.exists_rootOf (hp.found hx)
  obtain ⟨p, hpr, rfl⟩ := (mem_rootIds roots r).mp hr
  obtain ⟨q, hq, he⟩ := exists_isFirst hpr
  rw [hp.rootOf]
  exact ⟨q, hq, by rw [he, horigin]⟩

lemma depth_lt_guard {x : StateId} (hx : x ∈ (propagateInvalidation g roots).affected) :
    depth x < (propagateInvalidation g roots).affected.length + 2 := by
  have hlt := hp.layered.depth_lt (hp.found hx)
  rw [hp.affected, (stdSort_perm done).length_eq]
  omega

lemma causalPath (h : g.WellFormed) {x : StateId} (hx : x ∈ (propagateInvalidation g roots).affected) :
    CausalPath g roots (propagateInvalidation g roots) x ((propagateInvalidation g roots).pathTo x) := by
  have hpath := hp.layered.shortestTo_trace (hp.found hx) (hp.depth_lt_guard hx)
  rw [← hp.predecessor] at hpath
  refine ⟨?_, hpath.last, ?_, hpath.nodup, ?_⟩
  · rw [hp.rootOf]
    exact hpath.head
  · rw [← h.edge_children]
    exact hpath.chain
  · rintro other ⟨q, hq, hhead⟩ hlast hchain
    obtain ⟨rest, rfl⟩ : ∃ rest, other = q.subject :: rest := by
      cases other with
      | nil => simp at hhead
      | cons a rest => exact ⟨rest, by rw [Option.some.inj hhead]⟩
    have hroot := (mem_rootIds roots q.subject).mpr ⟨q, hq, rfl⟩
    have hdone := (hp.layered.mem_done_iff hp.closed q.subject).mpr ⟨q.subject, hroot, .refl⟩
    rw [← h.edge_children] at hchain
    have hle := hp.layered.depth_le_of_chain hp.closed hdone hchain hlast
    have hlen := hpath.length
    rw [(hp.layered.root q.subject hroot).2.2] at hle
    rw [List.length_cons, InvalidationResult.pathTo, hlen]
    omega

end Propagated

theorem propagateInvalidation_exact {g : ProvenanceGraph} (hg : g.Built) (roots : List InvalidatingSubject) :
    ExactClosure g roots (propagateInvalidation g roots) := by
  have h := hg.wellFormed
  obtain ⟨done, m, depth, s, hp⟩ := exists_propagated h roots
  have hfirst : ∀ q, IsFirst roots q → (propagateInvalidation g roots).rootReason[q.subject]? = some q.reason ∧
      (propagateInvalidation g roots).rootDetail[q.subject]? = some q.detail := fun q hq => hq.recorded
  refine ⟨hp.ascending, hp.mem_affected_iff h, fun x hx => ?_, fun q hq => ?_, fun x hx => hp.causalPath h hx,
    fun x hx n hn => ?_, hfirst, fun x hx => ?_⟩
  · obtain ⟨q, ⟨before, after, he, -⟩, horigin⟩ := hp.exists_root hx
    exact ⟨q, by simp [he], horigin⟩
  · rw [hp.rootOf]
    exact (hp.layered.root q.subject ((mem_rootIds roots _).mpr ⟨q, hq, rfl⟩)).2.1
  · rw [InvalidationResult.pathTo, hp.predecessor]
    have hlt := hp.depth_lt_guard hx
    exact congrArg List.reverse (hp.layered.trace_eq (hp.found hx) (hlt.trans_le hn) hlt)
  · obtain ⟨q, hq, horigin⟩ := hp.exists_root hx
    refine ⟨q, hq, horigin, ?_⟩
    rw [InvalidationResult.chainFor, horigin]
    simp only [ExtTreeMap.getD_eq_getD_getElem?, (hfirst q hq).1, (hfirst q hq).2, Option.getD_some]

def diamond : ProvenanceGraph :=
  let nodes := [1, 2, 3, 4].foldl (fun g id => (g.addNode ⟨id⟩).2) ({} : ProvenanceGraph)
  [(1, 2), (1, 3), (2, 4), (3, 4)].foldl (fun g arc => (g.addArc ⟨arc.1⟩ ⟨arc.2⟩).2) nodes

lemma built_diamond : diamond.Built := by
  have hnodes := (((ProvenanceGraph.Built.empty.addNode ⟨1⟩).addNode ⟨2⟩).addNode ⟨3⟩).addNode ⟨4⟩
  exact (((hnodes.addArc ⟨1⟩ ⟨2⟩).addArc ⟨1⟩ ⟨3⟩).addArc ⟨2⟩ ⟨4⟩).addArc ⟨3⟩ ⟨4⟩

theorem diamond_exact :
    ExactClosure diamond [{ subject := ⟨3⟩ }, { subject := ⟨1⟩ }]
        (propagateInvalidation diamond [{ subject := ⟨3⟩ }, { subject := ⟨1⟩ }]) ∧
      (propagateInvalidation diamond [{ subject := ⟨3⟩ }, { subject := ⟨1⟩ }]).pathTo ⟨4⟩ = [⟨3⟩, ⟨4⟩] :=
  ⟨propagateInvalidation_exact built_diamond _, by decide⟩

end StateProvenance
