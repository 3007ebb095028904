import StateProvenance.Library.OrderedMap
import Mathlib.Logic.Relation
import Mathlib.Order.WellFounded
import Mathlib.Data.Fintype.EquivFin

/-! Topological sorting by repeatedly taking the least node without unvisited parents. The order it gives is
the lexicographically least one. -/

namespace StateProvenance.Library.Kahn

open Std OrderedMap

section Definitions

variable {α : Type} [Ord α] [TransOrd α]

-- `--n` on a `std::size_t`.
def decrement (n : ℕ) : ℕ := if n = 0 then 2 ^ 64 - 1 else n - 1

def release (s : OrdMap α ℕ × OrdSet α) (ch : α) : OrdMap α ℕ × OrdSet α :=
  let d := decrement (s.1.getD ch 0)
  (s.1.insert ch d, if d = 0 then s.2.insert ch else s.2)

def kahn (children : α → List α) : ℕ → OrdMap α ℕ → OrdSet α → List α → List α
  | 0, _, _, order => order
  | n + 1, inDeg, ready, order =>
    match ready.min? with
    | none => order
    | some cur =>
      let s := (children cur).foldl release (inDeg, ready.erase cur)
      kahn children n s.1 s.2 (order ++ [cur])

def initialReady (inDeg : OrdMap α ℕ) : OrdSet α :=
  inDeg.toList.foldl (fun ready e => if e.2 = 0 then ready.insert e.1 else ready) ∅

end Definitions

section Counting

variable {α : Type} [DecidableEq α]

lemma filter_visited_length (order : List α) {cur : α} (hcur : cur ∉ order) {l : List α} (hl : l.Nodup) :
    (l.filter fun p => p ∉ order).length =
      (l.filter fun p => ¬ (p ∈ order ∨ p = cur)).length + if cur ∈ l then 1 else 0 := by
  induction l with
  | nil => simp
  | cons a l ih =>
    obtain ⟨ha, hl⟩ := List.nodup_cons.mp hl
    have hr := ih hl
    by_cases hac : a = cur
    · subst hac
      simpa [List.filter_cons, hcur, ha] using hr
    · by_cases hao : a ∈ order
      · simpa [List.filter_cons, hao, hac, Ne.symm hac] using hr
      · have hfst : ((a :: l).filter fun p => p ∉ order).length =
            (l.filter fun p => p ∉ order).length + 1 := by
          simp [hao]
        have hsnd : ((a :: l).filter fun p => ¬ (p ∈ order ∨ p = cur)).length =
            (l.filter fun p => ¬ (p ∈ order ∨ p = cur)).length + 1 := by
          simp [hao, hac]
        rw [hfst, hsnd, hr]
        simp only [List.mem_cons, Ne.symm hac, false_or]
        omega

end Counting

variable {α : Type} [Ord α] [TransOrd α]

def ParentsFirst (parents : α → OrdSet α) (l : List α) : Prop :=
  ∀ before x after, l = before ++ x :: after → ∀ p ∈ parents x, p ∈ before

lemma parentsFirst_nil (parents : α → OrdSet α) : ParentsFirst parents [] := by
  intro before x after h
  simp at h

lemma ParentsFirst.snoc {parents : α → OrdSet α} {l : List α} (h : ParentsFirst parents l) {x : α}
    (hx : ∀ p ∈ parents x, p ∈ l) : ParentsFirst parents (l ++ [x]) := by
  intro before y after he
  rcases List.eq_nil_or_concat after with rfl | ⟨after, z, rfl⟩
  · obtain ⟨rfl, hxy⟩ := List.append_inj' he rfl
    obtain rfl : x = y := by simpa using hxy
    exact hx
  · rw [List.concat_eq_append, ← List.cons_append, ← List.append_assoc] at he
    exact h before y after (List.append_inj_left' he rfl)

def ParentOf (parents : α → OrdSet α) (p c : α) : Prop := p ∈ parents c

lemma ParentsFirst.parent_mem {parents : α → OrdSet α} {l : List α} (h : ParentsFirst parents l)
    {x p : α} (hx : x ∈ l) (hp : p ∈ parents x) : p ∈ l := by
  obtain ⟨before, after, rfl⟩ := List.append_of_mem hx
  exact List.mem_append_left _ (h before x after rfl p hp)

lemma ParentsFirst.ancestor_before {parents : α → OrdSet α} {l : List α}
    (h : ParentsFirst parents l) {a x : α} (hr : Relation.TransGen (ParentOf parents) a x) :
    ∀ before after, l = before ++ x :: after → a ∈ before := by
  induction hr with
  | single hp =>
    intro before after he
    exact h before _ after he _ hp
  | @tail b x _ hp ih =>
    rintro before after rfl
    obtain ⟨before', after', hb⟩ := List.append_of_mem (h before x after rfl b hp)
    have ha := ih before' (after' ++ x :: after) (by rw [hb]; simp)
    rw [hb]
    exact List.mem_append_left _ ha

lemma ParentsFirst.no_cycle {parents : α → OrdSet α} {l : List α} (h : ParentsFirst parents l)
    (hn : l.Nodup) {x : α} (hx : x ∈ l) : ¬ Relation.TransGen (ParentOf parents) x x := by
  intro hr
  obtain ⟨before, after, rfl⟩ := List.append_of_mem hx
  have hb := h.ancestor_before hr before after rfl
  exact (List.nodup_append.mp hn).2.2 x hb x List.mem_cons_self rfl

lemma exists_source {parents : α → OrdSet α} (l : List α) (hne : l ≠ [])
    (hacyc : ∀ x ∈ l, ¬ Relation.TransGen (ParentOf parents) x x) :
    ∃ x ∈ l, ∀ p ∈ parents x, p ∉ l := by
  let r : {x // x ∈ l} → {x // x ∈ l} → Prop :=
    fun a b => Relation.TransGen (ParentOf parents) a.1 b.1
  have : Finite {x // x ∈ l} := List.finite_toSet l
  have : IsTrans {x // x ∈ l} r := ⟨fun _ _ _ => Relation.TransGen.trans⟩
  have : Std.Irrefl r := ⟨fun a => hacyc a.1 a.2⟩
  have hwf := Finite.wellFounded_of_trans_of_irrefl r
  obtain ⟨a, ha⟩ := List.exists_mem_of_ne_nil l hne
  obtain ⟨⟨x, hx⟩, -, hmin⟩ := hwf.has_min Set.univ ⟨⟨a, ha⟩, trivial⟩
  exact ⟨x, hx, fun p hp hpl => hmin ⟨p, hpl⟩ trivial (.single hp)⟩

section Release

variable [LawfulEqOrd α]

lemma mem_initialReady (inDeg : OrdMap α ℕ) (v : α) : v ∈ initialReady inDeg ↔ inDeg[v]? = some 0 := by
  have key : ∀ (l : List (α × ℕ)) (s : OrdSet α),
      v ∈ l.foldl (fun ready e => if e.2 = 0 then ready.insert e.1 else ready) s ↔ (v, 0) ∈ l ∨ v ∈ s := by
    intro l
    induction l with
    | nil => simp
    | cons e l ih =>
      intro s
      rcases e with ⟨k, d⟩
      rw [List.foldl_cons, ih, List.mem_cons, Prod.mk.injEq]
      by_cases hd : d = 0
      · rw [if_pos hd, ExtTreeSet.mem_insert, LawfulEqCmp.compare_eq_iff_eq, eq_comm (a := k)]
        tauto
      · rw [if_neg hd]
        tauto
  rw [initialReady, key, ExtTreeMap.mem_toList_iff_getElem?_eq_some]
  simp

variable [DecidableEq α]

lemma decrement_succ (n : ℕ) : decrement (n + 1) = n := by simp [decrement]

lemma release_foldl (l : List α) (hl : l.Nodup) (inDeg : OrdMap α ℕ) (ready : OrdSet α)
    (hpos : ∀ c ∈ l, 0 < inDeg.getD c 0) :
    (∀ v, (l.foldl release (inDeg, ready)).1.getD v 0 =
      if v ∈ l then inDeg.getD v 0 - 1 else inDeg.getD v 0) ∧
    (∀ v, v ∈ (l.foldl release (inDeg, ready)).2 ↔
      v ∈ ready ∨ v ∈ l ∧ inDeg.getD v 0 = 1) := by
  induction l generalizing inDeg ready with
  | nil => simp
  | cons c l ih =>
    obtain ⟨hc, hl⟩ := List.nodup_cons.mp hl
    obtain ⟨n, hn⟩ := Nat.exists_eq_succ_of_ne_zero (hpos c List.mem_cons_self).ne'
    have hget : ∀ v, (inDeg.insert c n).getD v 0 = if c = v then n else inDeg.getD v 0 := by
      intro v
      simp [ExtTreeMap.getD_insert]
    have hstep : release (inDeg, ready) c =
        (inDeg.insert c n, if n = 0 then ready.insert c else ready) := by
      simp [release, hn, decrement_succ]
    have hpos' : ∀ v ∈ l, 0 < (inDeg.insert c n).getD v 0 := by
      intro v hv
      rw [hget, if_neg (by rintro rfl; exact hc hv)]
      exact hpos v (List.mem_cons_of_mem _ hv)
    obtain ⟨hdeg, hready⟩ := ih hl (inDeg.insert c n) (if n = 0 then ready.insert c else ready) hpos'
    rw [List.foldl_cons, hstep]
    refine ⟨fun v => ?_, fun v => ?_⟩
    · rw [hdeg, hget]
      by_cases hv : c = v
      · subst hv
        simp [hc, hn]
      · simp [hv, Ne.symm hv]
    · rw [hready, hget]
      by_cases hv : c = v
      · subst hv
        by_cases hz : n = 0 <;> simp [hc, hn, hz]
      · by_cases hz : n = 0 <;> simp [hv, hz, Ne.symm hv]

end Release

section Run

structure Graph (α : Type) [Ord α] [TransOrd α] where
  nodes : OrdSet α
  parents : α → OrdSet α
  children : α → List α
  nodup_children : ∀ p ∈ nodes, (children p).Nodup
  mem_children : ∀ p ∈ nodes, ∀ c, c ∈ children p ↔ c ∈ nodes ∧ p ∈ parents c

variable [LawfulEqOrd α] [DecidableEq α] (G : Graph α)

def Graph.missing (order : List α) (v : α) : ℕ :=
  ((G.parents v).toList.filter fun p => p ∉ order).length

/-- Before each iteration: the order is a parents-first list of nodes, the in-degree of a node counts
its parents outside the order, and the ready nodes are the unvisited ones without such parents. -/
structure Inv (inDeg : OrdMap α ℕ) (ready : OrdSet α) (order : List α) : Prop where
  nodup : order.Nodup
  nodes : ∀ x ∈ order, x ∈ G.nodes
  parentsFirst : ParentsFirst G.parents order
  inDeg : ∀ v ∈ G.nodes, inDeg.getD v 0 = G.missing order v
  ready : ∀ v, v ∈ ready ↔ v ∈ G.nodes ∧ v ∉ order ∧ G.missing order v = 0

variable {G}

lemma missing_eq_zero_iff (order : List α) (v : α) :
    G.missing order v = 0 ↔ ∀ p ∈ G.parents v, p ∈ order := by
  rw [Graph.missing, List.length_eq_zero_iff, List.filter_eq_nil_iff]
  simp

lemma missing_snoc (order : List α) (cur v : α) (hcur : cur ∉ order) :
    G.missing order v = G.missing (order ++ [cur]) v + if cur ∈ G.parents v then 1 else 0 := by
  have h := filter_visited_length order hcur (nodup_toList (G.parents v))
  simpa only [Graph.missing, List.mem_append, List.mem_singleton, ExtTreeSet.mem_toList] using h

lemma Inv.init {inDeg : OrdMap α ℕ} (hnode : ∀ v, v ∈ inDeg ↔ v ∈ G.nodes)
    (hdeg : ∀ v ∈ G.nodes, inDeg.getD v 0 = (G.parents v).size) :
    Inv G inDeg (initialReady inDeg) [] := by
  have hmissing : ∀ v, G.missing [] v = (G.parents v).size := by
    intro v
    rw [← ExtTreeSet.length_toList]
    simp [Graph.missing]
  refine ⟨List.nodup_nil, by simp, parentsFirst_nil _, fun v hv => ?_, fun v => ?_⟩
  · rw [hdeg v hv, hmissing]
  · rw [mem_initialReady, hmissing]
    constructor
    · intro h0
      have hv := (hnode v).mp (ExtTreeMap.mem_iff_isSome_getElem?.mpr (by simp [h0]))
      refine ⟨hv, List.not_mem_nil, ?_⟩
      rw [← hdeg v hv, ExtTreeMap.getD_eq_getD_getElem?, h0, Option.getD_some]
    · rintro ⟨hv, -, h0⟩
      have hget : inDeg[v]? = some (inDeg.getD v 0) := ExtTreeMap.getElem?_eq_some_getD ((hnode v).mpr hv)
      rw [hget, hdeg v hv, h0]

lemma Inv.step {inDeg : OrdMap α ℕ} {ready : OrdSet α} {order : List α} (h : Inv G inDeg ready order)
    {cur : α} (hcur : cur ∈ ready) :
    let s := (G.children cur).foldl release (inDeg, ready.erase cur)
    Inv G s.1 s.2 (order ++ [cur]) := by
  obtain ⟨hn, ho, hm⟩ := (h.ready cur).mp hcur
  have hparents := (missing_eq_zero_iff order cur).mp hm
  have hdegs : ∀ c ∈ G.children cur, inDeg.getD c 0 = G.missing (order ++ [cur]) c + 1 := by
    intro c hc
    obtain ⟨hcn, hp⟩ := (G.mem_children cur hn c).mp hc
    rw [h.inDeg c hcn, missing_snoc order cur c ho, if_pos hp]
  obtain ⟨hdeg, hready⟩ := release_foldl (G.children cur) (G.nodup_children cur hn) inDeg
    (ready.erase cur) (by
      intro c hc
      rw [hdegs c hc]
      exact Nat.succ_pos _)
  refine ⟨?_, ?_, h.parentsFirst.snoc hparents, fun v hv => ?_, fun v => ?_⟩
  · rw [List.nodup_append]
    refine ⟨h.nodup, List.nodup_singleton cur, ?_⟩
    rintro a ha b hb rfl
    exact ho (List.mem_singleton.mp hb ▸ ha)
  · intro x hx
    rcases List.mem_append.mp hx with hx | hx
    · exact h.nodes x hx
    · rwa [List.mem_singleton.mp hx]
  · rw [hdeg]
    split
    · next hc => rw [hdegs v hc]; rfl
    · next hc =>
      have hp : cur ∉ G.parents v := fun hp => hc ((G.mem_children cur hn v).mpr ⟨hv, hp⟩)
      rw [h.inDeg v hv, missing_snoc order cur v ho, if_neg hp, Nat.add_zero]
  · rw [hready, ExtTreeSet.mem_erase, h.ready]
    constructor
    · rintro (⟨hne, hvn, hvo, hvm⟩ | ⟨hc, h1⟩)
      · have hvc : cur ≠ v := by rintro rfl; exact hne ReflCmp.compare_self
        have hsnoc := missing_snoc (G := G) order cur v ho
        exact ⟨hvn, by simp [hvo, Ne.symm hvc], by omega⟩
      · have hvn := ((G.mem_children cur hn v).mp hc).1
        have hvm : G.missing (order ++ [cur]) v = 0 := by
          have := hdegs v hc
          omega
        refine ⟨hvn, fun hvo => ?_, hvm⟩
        -- A visited node has no parents left, but `cur` is one that was not visited.
        rcases List.mem_append.mp hvo with hvo | hvo
        · exact ho (h.parentsFirst.parent_mem hvo ((G.mem_children cur hn v).mp hc).2)
        · rw [List.mem_singleton.mp hvo] at hc
          exact ho (hparents cur ((G.mem_children cur hn cur).mp hc).2)
    · rintro ⟨hvn, hvo, hvm⟩
      simp only [List.mem_append, List.mem_singleton, not_or] at hvo
      by_cases hc : v ∈ G.children cur
      · refine Or.inr ⟨hc, ?_⟩
        rw [hdegs v hc, hvm]
      · have hp : cur ∉ G.parents v := fun hp => hc ((G.mem_children cur hn v).mpr ⟨hvn, hp⟩)
        refine Or.inl ⟨?_, hvn, hvo.1, ?_⟩
        · intro he
          exact hvo.2 (LawfulEqCmp.eq_of_compare he).symm
        · rw [missing_snoc order cur v ho, if_neg hp, hvm]

lemma Inv.order_subperm {inDeg : OrdMap α ℕ} {ready : OrdSet α} {order : List α}
    (h : Inv G inDeg ready order) : order.Subperm G.nodes.toList :=
  List.subperm_of_subset h.nodup fun x hx => ExtTreeSet.mem_toList.mpr (h.nodes x hx)

lemma Inv.order_perm {inDeg : OrdMap α ℕ} {ready : OrdSet α} {order : List α}
    (h : Inv G inDeg ready order) (hlen : G.nodes.size ≤ order.length) :
    order.Perm G.nodes.toList := by
  apply h.order_subperm.perm_of_length_le
  rwa [ExtTreeSet.length_toList]

lemma kahn_run {n : ℕ} {inDeg : OrdMap α ℕ} {ready : OrdSet α} {order : List α}
    (h : Inv G inDeg ready order) (hfuel : G.nodes.size ≤ n + order.length) :
    ∃ inDeg', Inv G inDeg' ∅ (kahn G.children n inDeg ready order) := by
  induction n generalizing inDeg ready order with
  | zero =>
    have hperm := h.order_perm (by simpa using hfuel)
    refine ⟨inDeg, h.nodup, h.nodes, h.parentsFirst, h.inDeg, fun v => ?_⟩
    simp only [ExtTreeSet.not_mem_empty, false_iff, not_and]
    intro hv hvo
    exact absurd (hperm.mem_iff.mpr (ExtTreeSet.mem_toList.mpr hv)) hvo
  | succ n ih =>
    rw [kahn]
    split
    · next hmin =>
      obtain rfl := ExtTreeSet.min?_eq_none_iff.mp hmin
      exact ⟨inDeg, h⟩
    · next cur hmin =>
      apply ih (h.step (ExtTreeSet.min?_mem hmin))
      simp only [List.length_append, List.length_singleton]
      omega

lemma complete_iff {inDeg : OrdMap α ℕ} {order : List α} (h : Inv G inDeg ∅ order) :
    order.length = G.nodes.size ↔
      (∀ v ∈ G.nodes, ∀ p ∈ G.parents v, p ∈ G.nodes) ∧
        ∀ v ∈ G.nodes, ¬ Relation.TransGen (ParentOf G.parents) v v := by
  constructor
  · intro hlen
    have hperm := h.order_perm hlen.ge
    have hmem : ∀ v ∈ G.nodes, v ∈ order := fun v hv => hperm.mem_iff.mpr (ExtTreeSet.mem_toList.mpr hv)
    refine ⟨fun v hv p hp => h.nodes p (h.parentsFirst.parent_mem (hmem v hv) hp), fun v hv => ?_⟩
    exact h.parentsFirst.no_cycle h.nodup (hmem v hv)
  · rintro ⟨hclosed, hacyc⟩
    have hrest : (G.nodes.toList.filter fun v => v ∉ order) = [] := by
      by_contra hne
      have hrestAcyc : ∀ v ∈ G.nodes.toList.filter fun v => v ∉ order,
          ¬ Relation.TransGen (ParentOf G.parents) v v := by
        intro v hv
        exact hacyc v (ExtTreeSet.mem_toList.mp (List.mem_of_mem_filter hv))
      obtain ⟨x, hx, hsource⟩ := exists_source _ hne hrestAcyc
      obtain ⟨hxn, hxo⟩ : x ∈ G.nodes ∧ x ∉ order := by simpa using hx
      have hm : G.missing order x = 0 := by
        rw [missing_eq_zero_iff]
        intro p hp
        by_contra hpo
        have hpn := hclosed x hxn p hp
        exact hsource p hp (by simp [hpn, hpo])
      have hready := (h.ready x).mpr ⟨hxn, hxo, hm⟩
      simp at hready
    have hsub : G.nodes.toList ⊆ order := by
      intro v hv
      by_contra hvo
      have : v ∈ G.nodes.toList.filter fun v => v ∉ order := by simpa [hvo] using hv
      rw [hrest] at this
      contradiction
    have hle := ((nodup_toList G.nodes).subperm hsub).length_le
    have hge := h.order_subperm.length_le
    rw [ExtTreeSet.length_toList] at hle hge
    omega

end Run

section Least

structure Topological (nodes : OrdSet α) (arc : α → α → Prop) (l : List α) : Prop where
  perm : l.Perm nodes.toList
  parentsFirst : ∀ before x after, l = before ++ x :: after → ∀ p, arc p x → p ∈ before

def Precedes (a b : List α) : Prop := List.Lex (fun x y => compare x y = .lt) a b

structure LeastTopological (nodes : OrdSet α) (arc : α → α → Prop) (l : List α) : Prop
    extends Topological nodes arc l where
  least : ∀ l', Topological nodes arc l' → l = l' ∨ Precedes l l'

lemma Precedes.asymm {a b : List α} (h : Precedes a b) : ¬ Precedes b a := by
  apply List.lex_asymm _ h
  intro x y hxy hyx
  rw [OrientedOrd.eq_swap, hxy] at hyx
  contradiction

lemma LeastTopological.unique {nodes : OrdSet α} {arc : α → α → Prop} {l l' : List α}
    (h : LeastTopological nodes arc l) (h' : LeastTopological nodes arc l') : l = l' := by
  rcases h.least l' h'.toTopological with he | hlt
  · exact he
  · rcases h'.least l h.toTopological with he | hgt
    · exact he.symm
    · exact absurd hgt hlt.asymm

variable (G : Graph α)

def LeastReady (l : List α) : Prop :=
  ∀ before x after, l = before ++ x :: after → ∀ y ∈ G.nodes, y ∉ before →
    (∀ p ∈ G.parents y, p ∈ before) → LeOf x y

variable {G}

lemma leastReady_nil : LeastReady G [] := by
  intro before x after h
  simp at h

lemma LeastReady.snoc {l : List α} (h : LeastReady G l) {x : α}
    (hx : ∀ y ∈ G.nodes, y ∉ l → (∀ p ∈ G.parents y, p ∈ l) → LeOf x y) : LeastReady G (l ++ [x]) := by
  intro before y after he
  rcases List.eq_nil_or_concat after with rfl | ⟨after, z, rfl⟩
  · obtain ⟨rfl, hxy⟩ := List.append_inj' he rfl
    obtain rfl : x = y := by simpa using hxy
    exact hx
  · rw [List.concat_eq_append, ← List.cons_append, ← List.append_assoc] at he
    exact h before y after (List.append_inj_left' he rfl)

variable [LawfulEqOrd α] [DecidableEq α]

lemma kahn_leastReady {n : ℕ} {inDeg : OrdMap α ℕ} {ready : OrdSet α} {order : List α}
    (h : Inv G inDeg ready order) (hl : LeastReady G order) :
    LeastReady G (kahn G.children n inDeg ready order) := by
  induction n generalizing inDeg ready order with
  | zero => exact hl
  | succ n ih =>
    rw [kahn]
    split
    · exact hl
    · next cur hmin =>
      refine ih (h.step (ExtTreeSet.min?_mem hmin)) (hl.snoc fun y hy hyo hyp => ?_)
      have hready := (h.ready y).mpr ⟨hy, hyo, (missing_eq_zero_iff order y).mpr hyp⟩
      exact (ExtTreeSet.min?_eq_some_iff_mem_and_forall.mp hmin).2 y hready

lemma LeastReady.eq_or_precedes {order l : List α} (h : LeastReady G order) (hl : ParentsFirst G.parents l)
    (hn : l.Nodup) (hnodes : ∀ x ∈ l, x ∈ G.nodes) (hlen : order.length = l.length) :
    order = l ∨ Precedes order l := by
  have key : ∀ (s t before : List α), order = before ++ s → l = before ++ t → s.length = t.length →
      s = t ∨ Precedes s t := by
    intro s
    induction s with
    | nil =>
      intro t before _ _ ht
      exact Or.inl (List.length_eq_zero_iff.mp ht.symm).symm
    | cons x s ih =>
      intro t before hs ht hst
      cases t with
      | nil => contradiction
      | cons y t =>
        by_cases hxy : x = y
        · subst hxy
          rcases ih t (before ++ [x]) (by simp [hs]) (by simp [ht]) (Nat.succ.inj hst) with he | hlt
          · exact Or.inl (by rw [he])
          · exact Or.inr (List.Lex.cons hlt)
        · have hy : y ∉ before := by
            rw [ht] at hn
            exact fun hy => (List.nodup_append.mp hn).2.2 y hy y List.mem_cons_self rfl
          have hle := h before x s hs y (hnodes y (by simp [ht])) hy (hl before y t ht)
          refine Or.inr (List.Lex.rel ?_)
          rcases Ordering.isLE_iff_eq_lt_or_eq_eq.mp hle with hlt | heq
          · exact hlt
          · exact absurd (LawfulEqCmp.eq_of_compare heq) hxy
  exact key order l [] rfl rfl hlen

lemma Inv.leastTopological {inDeg : OrdMap α ℕ} {order : List α} (h : Inv G inDeg ∅ order)
    (hl : LeastReady G order) (hlen : order.length = G.nodes.size) :
    LeastTopological G.nodes (ParentOf G.parents) order where
  perm := h.order_perm hlen.ge
  parentsFirst := h.parentsFirst
  least := by
    intro l ht
    refine hl.eq_or_precedes ht.parentsFirst (ht.perm.nodup_iff.mpr (nodup_toList _)) (fun x hx => ?_) ?_
    · exact ExtTreeSet.mem_toList.mp (ht.perm.mem_iff.mp hx)
    · rw [ht.perm.length_eq, ExtTreeSet.length_toList, hlen]

end Least

end StateProvenance.Library.Kahn
