import StateProvenance.Library.OrderedMap
import Mathlib.Logic.Relation

/-! Worklist traversals of a finite adjacency: the set reachable from a stack, the search for one
target, and the breadth-first search that records a predecessor and a root for every entry, its
queue split at the head into expanded and pending entries. The fuel bounds the number of entries
taken from the worklist. -/

namespace StateProvenance.Library.Traversal

open Std OrderedMap

section Definitions

variable {α : Type} [Ord α] [TransOrd α]

def closure (next : α → List α) : ℕ → List α → OrdSet α → OrdSet α
  | 0, _, out => out
  | _ + 1, [], out => out
  | n + 1, cur :: stack, out =>
    if cur ∈ out then closure next n stack out
    else closure next n ((next cur).reverse ++ stack) (out.insert cur)

def leftover (next : α → List α) : ℕ → List α → OrdSet α → List α
  | 0, stack, _ => stack
  | _ + 1, [], _ => []
  | n + 1, cur :: stack, out =>
    if cur ∈ out then leftover next n stack out
    else leftover next n ((next cur).reverse ++ stack) (out.insert cur)

def work (next : α → List α) (keys : List α) : ℕ := (keys.map fun k => (next k).length).sum

def scan [DecidableEq α] (target : α) : List α → List α → OrdSet α → Option (List α × OrdSet α)
  | [], stack, visited => some (stack, visited)
  | nxt :: rest, stack, visited =>
    if nxt = target then none
    else if nxt ∈ visited then scan target rest stack visited
    else scan target rest (nxt :: stack) (visited.insert nxt)

def reaches [DecidableEq α] (next : α → List α) (target : α) : ℕ → List α → OrdSet α → Bool
  | 0, _, _ => false
  | _ + 1, [], _ => false
  | n + 1, cur :: stack, visited =>
    match scan target (next cur) stack visited with
    | none => true
    | some (stack, visited) => reaches next target n stack visited

structure Search (α : Type) [Ord α] where
  pending : List α
  predecessor : OrdMap α α
  rootOf : OrdMap α α

def Search.visit (cur root : α) (s : Search α) (child : α) : Search α :=
  if child ∈ s.predecessor then s
  else ⟨s.pending ++ [child], s.predecessor.insert child cur, s.rootOf.insert child root⟩

def bfs (next : α → List α) : ℕ → List α → Search α → List α × Search α
  | 0, done, s => (done, s)
  | n + 1, done, s =>
    match s.pending with
    | [] => (done, s)
    | cur :: pending =>
      let root := s.rootOf.getD cur cur
      bfs next n (done ++ [cur]) ((next cur).foldl (Search.visit cur root) { s with pending })

end Definitions

section Arcs

variable {α : Type}

def Edge (next : α → List α) (a b : α) : Prop := b ∈ next a

lemma transGen_add_arc {r : α → α → Prop} {p c a b : α}
    (h : Relation.TransGen (fun x y => r x y ∨ x = p ∧ y = c) a b) :
    Relation.TransGen r a b ∨ Relation.ReflTransGen r a p ∧ Relation.ReflTransGen r c b := by
  induction h with
  | single he =>
    rcases he with he | ⟨rfl, rfl⟩
    · exact Or.inl (.single he)
    · exact Or.inr ⟨.refl, .refl⟩
  | tail _ he ih =>
    rcases he with he | ⟨rfl, rfl⟩
    · rcases ih with ih | ⟨hp, hc⟩
      · exact Or.inl (ih.tail he)
      · exact Or.inr ⟨hp, hc.tail he⟩
    · rcases ih with ih | ⟨hp, -⟩
      · exact Or.inr ⟨ih.to_reflTransGen, .refl⟩
      · exact Or.inr ⟨hp, .refl⟩

lemma acyclic_add_arc {r : α → α → Prop} {p c : α} (hr : ∀ x, ¬ Relation.TransGen r x x) (hne : p ≠ c)
    (hpath : ¬ Relation.TransGen r c p) (x : α) :
    ¬ Relation.TransGen (fun x y => r x y ∨ x = p ∧ y = c) x x := by
  intro h
  rcases transGen_add_arc h with h | ⟨hp, hc⟩
  · exact hr x h
  · rcases Relation.reflTransGen_iff_eq_or_transGen.mp (hc.trans hp) with he | ht
    · exact hne he
    · exact hpath ht

end Arcs

variable {α : Type} [Ord α] [TransOrd α]

section Closure

variable {next : α → List α}

def Frontier (next : α → List α) (out : OrdSet α) (stack : List α) : Prop :=
  ∀ a ∈ out, ∀ b ∈ next a, b ∈ out ∨ b ∈ stack

lemma Frontier.skip {cur : α} {stack : List α} {out : OrdSet α} (h : Frontier next out (cur :: stack))
    (hc : cur ∈ out) : Frontier next out stack := by
  intro a ha b hb
  rcases h a ha b hb with ho | hs
  · exact Or.inl ho
  · rcases List.mem_cons.mp hs with rfl | hs
    · exact Or.inl hc
    · exact Or.inr hs

lemma Frontier.closed {out : OrdSet α} (h : Frontier next out []) : ∀ a ∈ out, ∀ b ∈ next a, b ∈ out :=
  fun a ha b hb => (h a ha b hb).resolve_right List.not_mem_nil

variable (next)

def unvisitedWork (keys : List α) (out : OrdSet α) : ℕ :=
  ((keys.filter fun k => k ∉ out).map fun k => (next k).length).sum

lemma unvisitedWork_empty (keys : List α) : unvisitedWork next keys ∅ = work next keys := by
  simp [unvisitedWork, work]

variable [LawfulEqOrd α]

lemma unvisitedWork_insert_le (keys : List α) (out : OrdSet α) (a : α) :
    unvisitedWork next keys (out.insert a) ≤ unvisitedWork next keys out := by
  induction keys with
  | nil => simp [unvisitedWork]
  | cons k keys ih =>
    simp only [unvisitedWork, List.filter_cons, ExtTreeSet.mem_insert] at ih ⊢
    by_cases hk : k ∈ out
    · simpa [hk] using ih
    · by_cases ha : compare a k = .eq
      · simp only [hk, ha, or_false, not_true_eq_false, decide_false, not_false_eq_true, decide_true,
          if_true, List.map_cons, List.sum_cons]
        exact ih.trans (Nat.le_add_left _ _)
      · simpa [hk, ha] using ih

lemma unvisitedWork_insert (keys : List α) (out : OrdSet α) (a : α) (hk : a ∈ keys) (ha : a ∉ out) :
    unvisitedWork next keys (out.insert a) + (next a).length ≤ unvisitedWork next keys out := by
  induction keys with
  | nil => simp at hk
  | cons k keys ih =>
    have hle := unvisitedWork_insert_le next keys out a
    simp only [unvisitedWork, List.filter_cons, ExtTreeSet.mem_insert] at ih hle ⊢
    by_cases he : compare a k = .eq
    · obtain rfl := LawfulEqCmp.eq_of_compare he
      simp only [ha, he, or_false, not_true_eq_false, decide_false, not_false_eq_true, decide_true,
        if_true, List.map_cons, List.sum_cons, Bool.false_eq_true, if_false]
      omega
    · have hne : a ≠ k := by rintro rfl; exact he ReflCmp.compare_self
      have hr := ih (by simpa [hne] using hk)
      by_cases hko : k ∈ out
      · simpa [hko] using hr
      · simp only [he, hko, or_self, not_false_eq_true, decide_true, if_true, List.map_cons,
          List.sum_cons]
        omega

variable {next}

lemma expansion_le {keys : List α} (hkeys : ∀ a, a ∉ keys → next a = []) {cur : α} (stack : List α)
    {out : OrdSet α} (hc : cur ∉ out) :
    ((next cur).reverse ++ stack).length + unvisitedWork next keys (out.insert cur) + 1 ≤
      (cur :: stack).length + unvisitedWork next keys out := by
  simp only [List.length_cons, List.length_append, List.length_reverse]
  by_cases hk : cur ∈ keys
  · have := unvisitedWork_insert next keys out cur hk hc
    omega
  · have := unvisitedWork_insert_le next keys out cur
    rw [hkeys cur hk, List.length_nil]
    omega

lemma leftover_eq_nil {keys : List α} (hkeys : ∀ a, a ∉ keys → next a = []) {n : ℕ} {stack : List α}
    {out : OrdSet α} (hfuel : stack.length + unvisitedWork next keys out ≤ n) :
    leftover next n stack out = [] := by
  induction n generalizing stack out with
  | zero =>
    rw [leftover]
    exact List.length_eq_zero_iff.mp (by omega)
  | succ n ih =>
    cases stack with
    | nil => rfl
    | cons cur stack =>
      rw [leftover]
      split
      · exact ih (by simp only [List.length_cons] at hfuel; omega)
      · next hc =>
        have hle := expansion_le hkeys stack hc
        exact ih (by omega)

lemma closure_sound {n : ℕ} {stack : List α} {out : OrdSet α} {x : α}
    (h : x ∈ closure next n stack out) :
    x ∈ out ∨ ∃ s ∈ stack, Relation.ReflTransGen (Edge next) s x := by
  induction n generalizing stack out with
  | zero => exact Or.inl h
  | succ n ih =>
    cases stack with
    | nil => exact Or.inl h
    | cons cur stack =>
      rw [closure] at h
      split at h
      · rcases ih h with ho | ⟨s, hs, hr⟩
        · exact Or.inl ho
        · exact Or.inr ⟨s, List.mem_cons_of_mem _ hs, hr⟩
      · rcases ih h with ho | ⟨s, hs, hr⟩
        · rcases ExtTreeSet.mem_insert.mp ho with he | ho
          · obtain rfl := LawfulEqCmp.eq_of_compare he
            exact Or.inr ⟨cur, List.mem_cons_self, .refl⟩
          · exact Or.inl ho
        · rcases List.mem_append.mp hs with hs | hs
          · exact Or.inr ⟨cur, List.mem_cons_self, .head (List.mem_reverse.mp hs) hr⟩
          · exact Or.inr ⟨s, List.mem_cons_of_mem _ hs, hr⟩

lemma Frontier.expand {cur : α} {stack : List α} {out : OrdSet α} (h : Frontier next out (cur :: stack)) :
    Frontier next (out.insert cur) ((next cur).reverse ++ stack) := by
  intro a ha b hb
  rcases ExtTreeSet.mem_insert.mp ha with he | ha
  · obtain rfl := LawfulEqCmp.eq_of_compare he
    exact Or.inr (List.mem_append_left _ (List.mem_reverse.mpr hb))
  · rcases h a ha b hb with ho | hs
    · exact Or.inl (ExtTreeSet.mem_insert.mpr (Or.inr ho))
    · rcases List.mem_cons.mp hs with rfl | hs
      · exact Or.inl ExtTreeSet.mem_insert_self
      · exact Or.inr (List.mem_append_right _ hs)

lemma closure_closed {keys : List α} (hkeys : ∀ a, a ∉ keys → next a = []) {n : ℕ} {stack : List α}
    {out : OrdSet α} (hfuel : stack.length + unvisitedWork next keys out ≤ n)
    (hinv : Frontier next out stack) :
    (∀ a ∈ out, a ∈ closure next n stack out) ∧ (∀ a ∈ stack, a ∈ closure next n stack out) ∧
      ∀ a ∈ closure next n stack out, ∀ b ∈ next a, b ∈ closure next n stack out := by
  induction n generalizing stack out with
  | zero =>
    obtain rfl : stack = [] := List.length_eq_zero_iff.mp (by omega)
    exact ⟨fun a ha => ha, by simp, hinv.closed⟩
  | succ n ih =>
    cases stack with
    | nil => exact ⟨fun a ha => ha, by simp, hinv.closed⟩
    | cons cur stack =>
      rw [closure]
      split
      · next hc =>
        obtain ⟨ho, hs, hcl⟩ := ih (by simp only [List.length_cons] at hfuel; omega) (hinv.skip hc)
        refine ⟨ho, fun a ha => ?_, hcl⟩
        rcases List.mem_cons.mp ha with rfl | ha
        · exact ho a hc
        · exact hs a ha
      · next hc =>
        have hle := expansion_le hkeys stack hc
        obtain ⟨ho, hs, hcl⟩ := ih (by omega) hinv.expand
        refine ⟨fun a ha => ho a (ExtTreeSet.mem_insert.mpr (Or.inr ha)), fun a ha => ?_, hcl⟩
        rcases List.mem_cons.mp ha with rfl | ha
        · exact ho _ ExtTreeSet.mem_insert_self
        · exact hs a (List.mem_append_right _ ha)

lemma mem_closure_iff {keys : List α} (hkeys : ∀ a, a ∉ keys → next a = []) {n : ℕ} {stack : List α}
    (hfuel : stack.length + work next keys ≤ n) (x : α) :
    x ∈ closure next n stack ∅ ↔ ∃ s ∈ stack, Relation.ReflTransGen (Edge next) s x := by
  rw [← unvisitedWork_empty] at hfuel
  constructor
  · intro h
    simpa using closure_sound h
  · rintro ⟨s, hs, hr⟩
    obtain ⟨-, hstack, hcl⟩ := closure_closed hkeys hfuel fun a ha => absurd ha ExtTreeSet.not_mem_empty
    induction hr with
    | refl => exact hstack s hs
    | tail _ he ih => exact hcl _ ih _ he

lemma mem_closure_next_iff {keys : List α} (hkeys : ∀ a, a ∉ keys → next a = []) {n : ℕ} {a : α}
    {stack : List α} (hstack : ∀ b, b ∈ stack ↔ b ∈ next a)
    (hfuel : stack.length + work next keys ≤ n) (x : α) :
    x ∈ closure next n stack ∅ ↔ Relation.TransGen (Edge next) a x := by
  rw [mem_closure_iff hkeys hfuel, Relation.TransGen.head'_iff]
  simp only [hstack]
  rfl

end Closure

section Reaches

variable {next : α → List α} {target : α}

/-- The neighbours of the expanded entries are visited and none is the target; what is visited and not yet
expanded waits on the stack. -/
structure Searched (next : α → List α) (target : α) (done : Set α) (visited : OrdSet α) (stack : List α) :
    Prop where
  expanded : ∀ a ∈ done, ∀ b ∈ next a, b ≠ target ∧ b ∈ visited
  waiting : ∀ a ∈ visited, a ∈ done ∨ a ∈ stack

lemma Searched.closed {done : Set α} {visited : OrdSet α} (h : Searched next target done visited []) :
    ∀ a ∈ done, ∀ b ∈ next a, b ≠ target ∧ b ∈ done := by
  intro a ha b hb
  obtain ⟨hne, hv⟩ := h.expanded a ha b hb
  exact ⟨hne, (h.waiting b hv).resolve_right List.not_mem_nil⟩

variable [DecidableEq α]

lemma scan_eq_none {l stack : List α} {visited : OrdSet α} (h : scan target l stack visited = none) :
    target ∈ l := by
  induction l generalizing stack visited with
  | nil => simp [scan] at h
  | cons a l ih =>
    rw [scan] at h
    split at h
    · next ha => exact ha ▸ List.mem_cons_self
    · split at h <;> exact List.mem_cons_of_mem _ (ih h)

variable [LawfulEqOrd α]

def unvisited (univ : List α) (visited : OrdSet α) : ℕ := (univ.filter fun a => a ∉ visited).length

lemma unvisited_insert {univ : List α} {visited : OrdSet α} {a : α} (hu : a ∈ univ) (ha : a ∉ visited) :
    unvisited univ (visited.insert a) + 1 ≤ unvisited univ visited := by
  have hfilter : (univ.filter fun b => b ∉ visited.insert a) =
      (univ.filter fun b => b ∉ visited).filter fun b => b ≠ a := by
    rw [List.filter_filter]
    apply List.filter_congr
    intro b _
    simp only [ExtTreeSet.mem_insert, LawfulEqCmp.compare_eq_iff_eq, not_or, eq_comm (a := a), ne_eq,
      Bool.decide_and]
  rw [unvisited, unvisited, hfilter]
  apply List.length_filter_lt_length_iff_exists.mpr
  exact ⟨a, List.mem_filter.mpr ⟨hu, by simpa using ha⟩, by simp⟩

lemma scan_eq_some {l stack stack' : List α} {visited visited' : OrdSet α}
    (h : scan target l stack visited = some (stack', visited')) :
    target ∉ l ∧ (∀ x, x ∈ visited' ↔ x ∈ l ∨ x ∈ visited) ∧ (∀ x ∈ stack, x ∈ stack') ∧
      (∀ x ∈ stack', x ∈ l ∨ x ∈ stack) ∧ (∀ x ∈ visited', x ∈ visited ∨ x ∈ stack') ∧
        ∀ univ, (∀ x ∈ l, x ∈ univ) →
          stack'.length + unvisited univ visited' ≤ stack.length + unvisited univ visited := by
  induction l generalizing stack visited with
  | nil =>
    simp only [scan, Option.some.injEq, Prod.mk.injEq] at h
    obtain ⟨rfl, rfl⟩ := h
    simp +contextual
  | cons a l ih =>
    rw [scan] at h
    split at h
    · contradiction
    next hne =>
    split at h
    · next ha =>
      obtain ⟨ht, hv, hin, hout, hnew, hwork⟩ := ih h
      refine ⟨by simp [Ne.symm hne, ht], fun x => ?_, hin, fun x hx => ?_, hnew, fun univ hu => ?_⟩
      · rw [hv, List.mem_cons]
        constructor
        · tauto
        · rintro ((rfl | hl) | hx)
          · exact Or.inr ha
          · exact Or.inl hl
          · exact Or.inr hx
      · exact (hout x hx).imp_left (List.mem_cons_of_mem _)
      · exact hwork univ fun x hx => hu x (List.mem_cons_of_mem _ hx)
    · next ha =>
      obtain ⟨ht, hv, hin, hout, hnew, hwork⟩ := ih h
      refine ⟨by simp [Ne.symm hne, ht], fun x => ?_, fun x hx => hin x (List.mem_cons_of_mem _ hx),
        fun x hx => ?_, fun x hx => ?_, fun univ hu => ?_⟩
      · rw [hv, List.mem_cons, ExtTreeSet.mem_insert, LawfulEqCmp.compare_eq_iff_eq, eq_comm (a := a)]
        tauto
      · rcases hout x hx with hl | hs
        · exact Or.inl (List.mem_cons_of_mem _ hl)
        · rcases List.mem_cons.mp hs with rfl | hs
          · exact Or.inl List.mem_cons_self
          · exact Or.inr hs
      · rcases hnew x hx with hx | hx
        · rcases ExtTreeSet.mem_insert.mp hx with he | hx
          · obtain rfl := LawfulEqCmp.eq_of_compare he
            exact Or.inr (hin a List.mem_cons_self)
          · exact Or.inl hx
        · exact Or.inr hx
      · have hl := hwork univ fun x hx => hu x (List.mem_cons_of_mem _ hx)
        have hi := unvisited_insert (hu a List.mem_cons_self) ha
        simp only [List.length_cons] at hl
        omega

lemma reaches_sound {n : ℕ} {stack : List α} {visited : OrdSet α}
    (h : reaches next target n stack visited = true) :
    ∃ s ∈ stack, Relation.TransGen (Edge next) s target := by
  induction n generalizing stack visited with
  | zero => simp [reaches] at h
  | succ n ih =>
    cases stack with
    | nil => simp [reaches] at h
    | cons cur stack =>
      rw [reaches] at h
      split at h
      · next hs => exact ⟨cur, List.mem_cons_self, .single (scan_eq_none hs)⟩
      · next st v hs =>
        obtain ⟨s, hm, hr⟩ := ih h
        obtain ⟨-, -, -, hout, -, -⟩ := scan_eq_some hs
        rcases hout s hm with hm | hm
        · exact ⟨cur, List.mem_cons_self, .head hm hr⟩
        · exact ⟨s, List.mem_cons_of_mem _ hm, hr⟩

lemma Searched.expand {done : Set α} {visited visited' : OrdSet α} {cur : α} {stack stack' : List α}
    (h : Searched next target done visited (cur :: stack))
    (hs : scan target (next cur) stack visited = some (stack', visited')) :
    Searched next target (insert cur done) visited' stack' := by
  obtain ⟨ht, hv, hin, -, hnew, -⟩ := scan_eq_some hs
  constructor
  · rintro a (rfl | ha) b hb
    · exact ⟨by rintro rfl; exact ht hb, (hv b).mpr (Or.inl hb)⟩
    · obtain ⟨hne, hb⟩ := h.expanded a ha b hb
      exact ⟨hne, (hv b).mpr (Or.inr hb)⟩
  · intro a ha
    rcases hnew a ha with ha | ha
    · rcases h.waiting a ha with hd | hd
      · exact Or.inl (Set.mem_insert_of_mem _ hd)
      · rcases List.mem_cons.mp hd with rfl | hd
        · exact Or.inl (Set.mem_insert _ _)
        · exact Or.inr (hin a hd)
    · exact Or.inr ha

lemma reaches_closed {univ : List α} (huniv : ∀ a, ∀ b ∈ next a, b ∈ univ) {n : ℕ} {stack : List α}
    {visited : OrdSet α} (hfuel : stack.length + unvisited univ visited ≤ n) {done : Set α}
    (hinv : Searched next target done visited stack) (h : reaches next target n stack visited = false) :
    ∃ S : Set α, (∀ a ∈ done, a ∈ S) ∧ (∀ a ∈ stack, a ∈ S) ∧ ∀ a ∈ S, ∀ b ∈ next a, b ≠ target ∧ b ∈ S := by
  induction n generalizing stack visited done with
  | zero =>
    obtain rfl : stack = [] := List.length_eq_zero_iff.mp (by omega)
    exact ⟨done, fun _ ha => ha, by simp, hinv.closed⟩
  | succ n ih =>
    cases stack with
    | nil => exact ⟨done, fun _ ha => ha, by simp, hinv.closed⟩
    | cons cur stack =>
      rw [reaches] at h
      split at h
      · contradiction
      · next st v hs =>
        obtain ⟨-, -, hin, -, -, hwork⟩ := scan_eq_some hs
        have hle := hwork univ (huniv cur)
        obtain ⟨S, hS, hst, hcl⟩ :=
          ih (by simp only [List.length_cons] at hfuel; omega) (hinv.expand hs) h
        refine ⟨S, fun a ha => hS a (Set.mem_insert_of_mem _ ha), fun a ha => ?_, hcl⟩
        rcases List.mem_cons.mp ha with rfl | ha
        · exact hS _ (Set.mem_insert _ _)
        · exact hst a (hin a ha)

lemma reaches_iff {univ : List α} (huniv : ∀ a, ∀ b ∈ next a, b ∈ univ) {n : ℕ} {a : α}
    (hfuel : univ.length + 1 ≤ n) :
    reaches next target n [a] ∅ = true ↔ Relation.TransGen (Edge next) a target := by
  constructor
  · intro h
    simpa using reaches_sound h
  · intro hr
    by_contra h
    rw [Bool.not_eq_true] at h
    have hwork : unvisited univ ∅ ≤ univ.length := List.length_filter_le ..
    have hstart : Searched next target ∅ ∅ [a] := ⟨by simp, by simp⟩
    have hfuel' : [a].length + unvisited univ ∅ ≤ n := by
      rw [List.length_singleton]
      omega
    obtain ⟨S, -, hst, hcl⟩ := reaches_closed huniv hfuel' hstart h
    have hclosed : ∀ b, Relation.TransGen (Edge next) a b → b ≠ target ∧ b ∈ S := by
      intro b hb
      induction hb with
      | single he => exact hcl a (hst a List.mem_cons_self) _ he
      | tail _ he ih => exact hcl _ ih.2 _ he
    exact (hclosed target hr).1 rfl

end Reaches

end StateProvenance.Library.Traversal
