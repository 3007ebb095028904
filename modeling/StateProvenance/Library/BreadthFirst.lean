import StateProvenance.Library.Traversal

/-! Exactness of the breadth-first search. Its queue holds at most two levels: what is left of the current
one, then the next. Hence the depth that a node gets when it is found is its distance from the roots, and
the recorded predecessors lead back along a shortest path. -/

namespace StateProvenance.Library.Traversal

open Std OrderedMap

variable {α : Type} [Ord α] [TransOrd α]

structure Layered (next : α → List α) (roots done now later : List α) (m : ℕ) (depth : α → ℕ)
    (s : Search α) : Prop where
  pending : s.pending = now ++ later
  nodup : (done ++ s.pending).Nodup
  keys : ∀ x, x ∈ s.predecessor ↔ x ∈ done ++ s.pending
  past : ∀ x ∈ done, depth x ≤ m
  current : ∀ x ∈ now, depth x = m
  coming : ∀ x ∈ later, depth x = m + 1
  root : ∀ r ∈ roots, s.predecessor[r]? = some r ∧ s.rootOf[r]? = some r ∧ depth r = 0
  link : ∀ x ∈ s.predecessor, x ∉ roots → ∃ p ∈ done, s.predecessor[x]? = some p ∧ x ∈ next p ∧
    depth x = depth p + 1 ∧ s.rootOf[x]? = s.rootOf[p]?

def Closed (next : α → List α) (done : List α) (depth : α → ℕ) (s : Search α) : Prop :=
  ∀ a ∈ done, ∀ b ∈ next a, b ∈ s.predecessor ∧ depth b ≤ depth a + 1

structure Extends (depth depth' : α → ℕ) (s s' : Search α) : Prop where
  predecessor : ∀ x ∈ s.predecessor, s'.predecessor[x]? = s.predecessor[x]?
  rootOf : ∀ x ∈ s.predecessor, s'.rootOf[x]? = s.rootOf[x]?
  depth : ∀ x ∈ s.predecessor, depth' x = depth x

variable {next : α → List α} {roots done now later : List α} {m : ℕ} {depth depth' depth'' : α → ℕ}
  {s s' s'' : Search α}

namespace Extends

lemma refl : Extends depth depth s s := ⟨fun _ _ => rfl, fun _ _ => rfl, fun _ _ => rfl⟩

lemma mem (h : Extends depth depth' s s') {x : α} (hx : x ∈ s.predecessor) : x ∈ s'.predecessor := by
  rw [ExtTreeMap.mem_iff_isSome_getElem?] at hx ⊢
  rwa [h.predecessor x (ExtTreeMap.mem_iff_isSome_getElem?.mpr hx)]

lemma trans (h : Extends depth depth' s s') (h' : Extends depth' depth'' s' s'') :
    Extends depth depth'' s s'' where
  predecessor := fun x hx => (h'.predecessor x (h.mem hx)).trans (h.predecessor x hx)
  rootOf := fun x hx => (h'.rootOf x (h.mem hx)).trans (h.rootOf x hx)
  depth := fun x hx => (h'.depth x (h.mem hx)).trans (h.depth x hx)

end Extends

namespace Layered

lemma shift (h : Layered next roots done [] later m depth s) :
    Layered next roots done later [] (m + 1) depth s where
  pending := by simpa using h.pending
  nodup := h.nodup
  keys := h.keys
  past := fun x hx => (h.past x hx).trans (Nat.le_succ m)
  current := h.coming
  coming := by simp
  root := h.root
  link := h.link

lemma depth_le (h : Layered next roots done now later m depth s) {x : α} (hx : x ∈ s.predecessor) :
    depth x ≤ m + 1 := by
  rw [h.keys, h.pending, List.mem_append, List.mem_append] at hx
  rcases hx with hx | hx | hx
  · exact (h.past x hx).trans (Nat.le_succ m)
  · exact (h.current x hx).le.trans (Nat.le_succ m)
  · exact (h.coming x hx).le

lemma pop {cur : α} (h : Layered next roots done (cur :: now) later m depth s) :
    Layered next roots (done ++ [cur]) now later m depth { s with pending := now ++ later } := by
  have hsplit : done ++ s.pending = (done ++ [cur]) ++ (now ++ later) := by rw [h.pending]; simp
  refine ⟨rfl, ?_, fun x => ?_, fun x hx => ?_, fun x hx => ?_, h.coming, h.root, fun x hx hno => ?_⟩
  · rw [← hsplit]
    exact h.nodup
  · rw [← hsplit]
    exact h.keys x
  · rcases List.mem_append.mp hx with hx | hx
    · exact h.past x hx
    · rw [List.mem_singleton.mp hx, h.current cur List.mem_cons_self]
  · exact h.current x (List.mem_cons_of_mem _ hx)
  · obtain ⟨p, hp, hrest⟩ := h.link x hx hno
    exact ⟨p, List.mem_append_left _ hp, hrest⟩

lemma exists_rootOf (h : Layered next roots done now later m depth s) {x : α} (hx : x ∈ s.predecessor) :
    ∃ r ∈ roots, s.rootOf[x]? = some r := by
  generalize hn : depth x = n
  induction n using Nat.strong_induction_on generalizing x with
  | _ n ih =>
    by_cases hr : x ∈ roots
    · exact ⟨x, hr, (h.root x hr).2.1⟩
    · obtain ⟨p, hp, -, -, hd, ho⟩ := h.link x hx hr
      obtain ⟨r, hr, hor⟩ := ih (depth p) (by omega) ((h.keys p).mpr (List.mem_append_left _ hp)) rfl
      exact ⟨r, hr, ho.trans hor⟩

lemma mem_univ (h : Layered next roots done now later m depth s) {univ : List α}
    (hroots : ∀ r ∈ roots, r ∈ univ) (hnext : ∀ a, ∀ b ∈ next a, b ∈ univ) {x : α} (hx : x ∈ s.predecessor) :
    x ∈ univ := by
  by_cases hr : x ∈ roots
  · exact hroots x hr
  · obtain ⟨p, -, -, hn, -⟩ := h.link x hx hr
    exact hnext p x hn

lemma length_le (h : Layered next roots done now later m depth s) {univ : List α}
    (hroots : ∀ r ∈ roots, r ∈ univ) (hnext : ∀ a, ∀ b ∈ next a, b ∈ univ) :
    done.length + s.pending.length ≤ univ.length := by
  rw [← List.length_append]
  exact (List.subperm_of_subset h.nodup fun x hx => h.mem_univ hroots hnext ((h.keys x).mpr hx)).length_le

end Layered

structure ShortestTo (next : α → List α) (depth : α → ℕ) (s : Search α) (x : α) (path : List α) : Prop where
  head : path.head? = s.rootOf[x]?
  last : path.getLast? = some x
  chain : path.IsChain (Edge next)
  depths : path.map depth = List.range (depth x + 1)
  found : ∀ y ∈ path, y ∈ s.predecessor

lemma ShortestTo.nodup {x : α} {path : List α} (hp : ShortestTo next depth s x path) : path.Nodup := by
  have hn : (path.map depth).Nodup := by
    rw [hp.depths]
    exact List.nodup_range
  exact hn.of_map

lemma ShortestTo.length {x : α} {path : List α} (hp : ShortestTo next depth s x path) :
    path.length = depth x + 1 := by
  have hlen := congrArg List.length hp.depths
  rwa [List.length_map, List.length_range] at hlen

def trace [DecidableEq α] (predecessor : OrdMap α α) : ℕ → α → List α
  | 0, _ => []
  | n + 1, cur => cur ::
    match predecessor[cur]? with
    | none => []
    | some p => if p = cur then [] else trace predecessor n p

section Exhausted

variable (h : Layered next roots done [] [] m depth s)

include h

lemma Layered.mem_done (x : α) : x ∈ done ↔ x ∈ s.predecessor := by
  rw [h.keys, h.pending]
  simp

lemma Layered.mem_done_iff (hc : Closed next done depth s) (x : α) :
    x ∈ done ↔ ∃ r ∈ roots, Relation.ReflTransGen (Edge next) r x := by
  constructor
  · intro hx
    generalize hn : depth x = n
    induction n using Nat.strong_induction_on generalizing x with
    | _ n ih =>
      by_cases hr : x ∈ roots
      · exact ⟨x, hr, .refl⟩
      · obtain ⟨p, hp, -, hnext, hd, -⟩ := h.link x ((h.mem_done x).mp hx) hr
        obtain ⟨r, hr, hpath⟩ := ih (depth p) (by omega) p hp rfl
        exact ⟨r, hr, hpath.tail hnext⟩
  · rintro ⟨r, hr, hpath⟩
    induction hpath with
    | refl =>
      rw [h.mem_done, ExtTreeMap.mem_iff_isSome_getElem?, (h.root r hr).1]
      rfl
    | tail _ he ih => exact (h.mem_done _).mpr (hc _ ih _ he).1

lemma Layered.depth_le_of_chain (hc : Closed next done depth s) {l : List α} {a t : α} (ha : a ∈ done)
    (hl : (a :: l).IsChain (Edge next)) (ht : (a :: l).getLast? = some t) : depth t ≤ depth a + l.length := by
  induction l generalizing a with
  | nil =>
    obtain rfl : a = t := by simpa using ht
    exact Nat.le_refl _
  | cons b l ih =>
    rw [List.isChain_cons_cons] at hl
    rw [List.getLast?_cons_cons] at ht
    obtain ⟨hb, hd⟩ := hc a ha b hl.1
    have hle := ih ((h.mem_done b).mpr hb) hl.2 ht
    rw [List.length_cons]
    omega

variable [DecidableEq α]

lemma Layered.shortestTo_trace {x : α} (hx : x ∈ s.predecessor) {n : ℕ} (hn : depth x < n) :
    ShortestTo next depth s x (trace s.predecessor n x).reverse := by
  induction n generalizing x with
  | zero => omega
  | succ n ih =>
    by_cases hr : x ∈ roots
    · obtain ⟨hpred, horigin, hd⟩ := h.root x hr
      have htrace : trace s.predecessor (n + 1) x = [x] := by
        rw [trace, hpred]
        simp
      rw [htrace]
      exact ⟨horigin.symm, rfl, by simp, by simp [hd], by simpa using hx⟩
    · obtain ⟨p, hp, hpred, hnext, hd, horigin⟩ := h.link x hx hr
      have hne : p ≠ x := by
        rintro rfl
        omega
      have htrace : trace s.predecessor (n + 1) x = x :: trace s.predecessor n p := by
        rw [trace, hpred]
        simp [hne]
      have hprev := ih ((h.mem_done p).mp hp) (by omega)
      rw [htrace, List.reverse_cons]
      refine ⟨?_, by simp, ?_, ?_, ?_⟩
      · have hsome : (trace s.predecessor n p).reverse ≠ [] := by
          intro he
          have hl := hprev.length
          rw [he] at hl
          simp at hl
        rw [List.head?_append_of_ne_nil _ hsome, hprev.head, horigin]
      · refine List.isChain_append.mpr ⟨hprev.chain, by simp, fun a ha b hb => ?_⟩
        rw [hprev.last] at ha
        obtain rfl := Option.some.inj ha
        obtain rfl : x = b := by simpa using hb
        exact hnext
      · rw [List.map_append, hprev.depths, hd, List.range_succ (n := depth p + 1)]
        simp [hd]
      · intro y hy
        rcases List.mem_append.mp hy with hy | hy
        · exact hprev.found y hy
        · rwa [List.mem_singleton.mp hy]

lemma Layered.trace_eq {x : α} (hx : x ∈ s.predecessor) {n n' : ℕ} (hn : depth x < n) (hn' : depth x < n') :
    trace s.predecessor n x = trace s.predecessor n' x := by
  induction n generalizing n' x with
  | zero => omega
  | succ n ih =>
    obtain ⟨n', rfl⟩ : ∃ k, n' = k + 1 := ⟨n' - 1, by omega⟩
    by_cases hr : x ∈ roots
    · obtain ⟨hpred, -, -⟩ := h.root x hr
      rw [trace, trace, hpred]
      simp
    · obtain ⟨p, hp, hpred, -, hd, -⟩ := h.link x hx hr
      rw [trace, trace, hpred]
      simp only [ih ((h.mem_done p).mp hp) (show depth p < n by omega) (show depth p < n' by omega)]

lemma Layered.depth_lt {x : α} (hx : x ∈ s.predecessor) : depth x < done.length := by
  have hp := h.shortestTo_trace hx (Nat.lt_succ_self _)
  have hle := (List.subperm_of_subset (hp.nodup) fun y hy => (h.mem_done y).mpr (hp.found y hy)).length_le
  rw [hp.length] at hle
  omega

end Exhausted

section Lawful

variable [LawfulEqOrd α]

lemma Layered.start (hroots : roots.Nodup) : Layered next roots [] roots [] 0 (fun _ => 0)
    ⟨roots, fill id id roots, fill id id roots⟩ := by
  have hget : ∀ r ∈ roots, (fill id id roots : OrdMap α α)[r]? = some r := by
    intro r hr
    have h := getElem?_fill (id : α → α) id (by simpa using hroots) hr
    exact h
  refine ⟨by simp, by simpa using hroots, fun x => ?_, by simp, by simp, by simp,
    fun r hr => ⟨hget r hr, hget r hr, rfl⟩, fun x hx hno => ?_⟩
  · simp [mem_fill]
  · simp [mem_fill] at hx
    exact absurd hx hno

variable [DecidableEq α]

lemma Extends.insert {child cur root : α} (hnew : child ∉ s.predecessor) (d : ℕ) :
    Extends depth (Function.update depth child d) s
      ⟨s.pending ++ [child], s.predecessor.insert child cur, s.rootOf.insert child root⟩ := by
  have hne : ∀ x ∈ s.predecessor, child ≠ x := fun x hx he => hnew (he ▸ hx)
  have hget : ∀ (t : OrdMap α α) (v : α), ∀ x ∈ s.predecessor, (t.insert child v)[x]? = t[x]? := by
    intro t v x hx
    rw [ExtTreeMap.getElem?_insert, if_neg (mt LawfulEqCmp.eq_of_compare (hne x hx))]
  exact ⟨hget _ _, hget _ _, fun x hx => Function.update_of_ne (hne x hx).symm _ _⟩

namespace Layered

lemma insert {cur root child : α} (h : Layered next roots done now later m depth s) (hcur : cur ∈ done)
    (hm : depth cur = m) (hroot : s.rootOf[cur]? = some root) (hchild : child ∈ next cur)
    (hnew : child ∉ s.predecessor) :
    Layered next roots done now (later ++ [child]) m (Function.update depth child (m + 1))
      ⟨s.pending ++ [child], s.predecessor.insert child cur, s.rootOf.insert child root⟩ := by
  have hext := @Extends.insert _ _ _ depth s _ _ child cur root hnew (m + 1)
  have hmem : ∀ x ∈ done ++ s.pending, x ∈ s.predecessor := fun x hx => (h.keys x).mpr hx
  have hdone : ∀ x ∈ done, x ∈ s.predecessor := fun x hx => hmem x (List.mem_append_left _ hx)
  have hpend : ∀ x ∈ now ++ later, x ∈ s.predecessor :=
    fun x hx => hmem x (List.mem_append_right _ (h.pending ▸ hx))
  refine ⟨?_, ?_, ?_, ?_, ?_, ?_, ?_, ?_⟩
  · simp [h.pending]
  · rw [← List.append_assoc, List.nodup_append]
    refine ⟨h.nodup, by simp, fun x hx y hy => ?_⟩
    rw [List.mem_singleton.mp hy]
    rintro rfl
    exact hnew (hmem x hx)
  · intro x
    rw [ExtTreeMap.mem_insert, LawfulEqCmp.compare_eq_iff_eq, h.keys]
    simp only [List.mem_append, List.mem_singleton]
    tauto
  · intro x hx
    rw [hext.depth x (hdone x hx)]
    exact h.past x hx
  · intro x hx
    rw [hext.depth x (hpend x (List.mem_append_left _ hx))]
    exact h.current x hx
  · intro x hx
    rcases List.mem_append.mp hx with hx | hx
    · rw [hext.depth x (hpend x (List.mem_append_right _ hx))]
      exact h.coming x hx
    · rw [List.mem_singleton.mp hx, Function.update_self]
  · intro r hr
    obtain ⟨hp, ho, hd⟩ := h.root r hr
    have hrm : r ∈ s.predecessor := ExtTreeMap.mem_iff_isSome_getElem?.mpr (by rw [hp]; rfl)
    exact ⟨(hext.predecessor r hrm).trans hp, (hext.rootOf r hrm).trans ho, (hext.depth r hrm).trans hd⟩
  · intro x hx hno
    by_cases hxc : child = x
    · subst hxc
      refine ⟨cur, hcur, ExtTreeMap.getElem?_insert_self, hchild, ?_, ?_⟩
      · rw [Function.update_self, hext.depth cur (hdone cur hcur), hm]
      · rw [hext.rootOf cur (hdone cur hcur), hroot]
        exact ExtTreeMap.getElem?_insert_self
    · have hold : x ∈ s.predecessor := by
        rw [ExtTreeMap.mem_insert, LawfulEqCmp.compare_eq_iff_eq] at hx
        exact hx.resolve_left hxc
      obtain ⟨p, hp, hpred, hn, hd, ho⟩ := h.link x hold hno
      refine ⟨p, hp, (hext.predecessor x hold).trans hpred, hn, ?_, ?_⟩
      · rw [hext.depth x hold, hext.depth p (hdone p hp), hd]
      · rw [hext.rootOf x hold, hext.rootOf p (hdone p hp), ho]

lemma visit {cur root child : α} (h : Layered next roots done now later m depth s) (hcur : cur ∈ done)
    (hm : depth cur = m) (hroot : s.rootOf[cur]? = some root) (hchild : child ∈ next cur) :
    ∃ new depth', Layered next roots done now (later ++ new) m depth' (s.visit cur root child) ∧
      Extends depth depth' s (s.visit cur root child) ∧ child ∈ (s.visit cur root child).predecessor := by
  rw [Search.visit]
  split
  · next hold => exact ⟨[], depth, by rwa [List.append_nil], .refl, hold⟩
  · next hnew =>
    exact ⟨[child], _, h.insert hcur hm hroot hchild hnew, .insert hnew _, ExtTreeMap.mem_insert_self⟩

lemma visit_foldl {cur root : α} {l : List α} (h : Layered next roots done now later m depth s)
    (hcur : cur ∈ done) (hm : depth cur = m) (hroot : s.rootOf[cur]? = some root)
    (hl : ∀ c ∈ l, c ∈ next cur) :
    ∃ new depth', Layered next roots done now (later ++ new) m depth' (l.foldl (Search.visit cur root) s) ∧
      Extends depth depth' s (l.foldl (Search.visit cur root) s) ∧
      ∀ c ∈ l, c ∈ (l.foldl (Search.visit cur root) s).predecessor := by
  induction l generalizing later depth s with
  | nil => exact ⟨[], depth, by rwa [List.append_nil], .refl, by simp⟩
  | cons c l ih =>
    obtain ⟨hc, hl⟩ := List.forall_mem_cons.mp hl
    obtain ⟨new, depth₁, h₁, hext₁, hfound₁⟩ := h.visit hcur hm hroot hc
    have hold : cur ∈ s.predecessor := (h.keys cur).mpr (List.mem_append_left _ hcur)
    obtain ⟨new', depth₂, h₂, hext₂, hfound₂⟩ :=
      ih h₁ ((hext₁.depth cur hold).trans hm) ((hext₁.rootOf cur hold).trans hroot) hl
    refine ⟨new ++ new', depth₂, by rwa [← List.append_assoc], hext₁.trans hext₂, ?_⟩
    exact List.forall_mem_cons.mpr ⟨hext₂.mem hfound₁, hfound₂⟩

lemma expand {cur : α} (h : Layered next roots done (cur :: now) later m depth s)
    (hc : Closed next done depth s) :
    ∃ new depth', Layered next roots (done ++ [cur]) now (later ++ new) m depth'
        ((next cur).foldl (Search.visit cur (s.rootOf.getD cur cur)) { s with pending := now ++ later }) ∧
      Closed next (done ++ [cur]) depth'
        ((next cur).foldl (Search.visit cur (s.rootOf.getD cur cur)) { s with pending := now ++ later }) := by
  have hcur : cur ∈ s.predecessor := (h.keys cur).mpr (by simp [h.pending])
  have hm : depth cur = m := h.current cur List.mem_cons_self
  have hroot : s.rootOf[cur]? = some (s.rootOf.getD cur cur) := by
    obtain ⟨r, -, hr⟩ := h.exists_rootOf hcur
    rw [ExtTreeMap.getD_eq_getD_getElem?, hr, Option.getD_some]
  obtain ⟨new, depth', h', hext, hfound⟩ := h.pop.visit_foldl (l := next cur) (by simp) hm hroot fun _ hx => hx
  refine ⟨new, depth', h', fun a ha b hb => ?_⟩
  rcases List.mem_append.mp ha with ha | ha
  · obtain ⟨hbm, hd⟩ := hc a ha b hb
    have ham : a ∈ s.predecessor := (h.keys a).mpr (List.mem_append_left _ ha)
    exact ⟨hext.mem hbm, by rwa [hext.depth b hbm, hext.depth a ham]⟩
  · obtain rfl := List.mem_singleton.mp ha
    refine ⟨hfound b hb, (h'.depth_le (hfound b hb)).trans ?_⟩
    rw [hext.depth a hcur, hm]

end Layered

lemma bfs_layered {n : ℕ} (h : Layered next roots done now later m depth s) (hc : Closed next done depth s) :
    ∃ now' later' m' depth', Layered next roots (bfs next n done s).1 now' later' m' depth' (bfs next n done s).2 ∧
      Closed next (bfs next n done s).1 depth' (bfs next n done s).2 ∧
      ((bfs next n done s).2.pending = [] ∨ (bfs next n done s).1.length = done.length + n) := by
  induction n generalizing done now later m depth s with
  | zero => exact ⟨now, later, m, depth, h, hc, Or.inr rfl⟩
  | succ n ih =>
    have step : ∀ {now later m} {cur : α}, Layered next roots done (cur :: now) later m depth s →
        ∃ now' later' m' depth', Layered next roots (bfs next (n + 1) done s).1 now' later' m' depth'
            (bfs next (n + 1) done s).2 ∧
          Closed next (bfs next (n + 1) done s).1 depth' (bfs next (n + 1) done s).2 ∧
          ((bfs next (n + 1) done s).2.pending = [] ∨
            (bfs next (n + 1) done s).1.length = done.length + (n + 1)) := by
      intro now later m cur h
      obtain ⟨new, depth₁, h₁, hc₁⟩ := h.expand hc
      have hpending : s.pending = cur :: (now ++ later) := h.pending
      rw [bfs, hpending]
      obtain ⟨now', later', m', depth', h', hc', hend⟩ := ih h₁ hc₁
      refine ⟨now', later', m', depth', h', hc', hend.imp_right fun hlen => ?_⟩
      rw [hlen, List.length_append, List.length_singleton]
      omega
    cases now with
    | cons cur now => exact step h
    | nil =>
      cases later with
      | cons cur later => exact step h.shift
      | nil =>
        have hpending : s.pending = [] := h.pending
        rw [bfs, hpending]
        exact ⟨[], [], m, depth, h, hc, Or.inl hpending⟩

lemma bfs_exhausts {next : α → List α} {roots univ : List α} (hnodup : roots.Nodup)
    (hroots : ∀ r ∈ roots, r ∈ univ) (hnext : ∀ a, ∀ b ∈ next a, b ∈ univ) {n : ℕ} (hn : univ.length ≤ n)
    {s : Search α} (hs : s = ⟨roots, fill id id roots, fill id id roots⟩) :
    ∃ m depth, Layered next roots (bfs next n [] s).1 [] [] m depth (bfs next n [] s).2 ∧
      Closed next (bfs next n [] s).1 depth (bfs next n [] s).2 := by
  subst hs
  obtain ⟨now, later, m, depth, h, hc, hend⟩ := @bfs_layered _ _ _ next roots _ _ _ _ _ _ _ _ n
    (Layered.start hnodup) (by simp [Closed])
  have hpending : (bfs next n [] ⟨roots, fill id id roots, fill id id roots⟩).2.pending = [] := by
    rcases hend with hp | hlen
    · exact hp
    · have hle := h.length_le hroots hnext
      rw [hlen, List.length_nil] at hle
      exact List.length_eq_zero_iff.mp (by omega)
  obtain ⟨rfl, rfl⟩ := List.append_eq_nil_iff.mp (h.pending.symm.trans hpending)
  exact ⟨m, depth, h, hc⟩

end Lawful

end StateProvenance.Library.Traversal
