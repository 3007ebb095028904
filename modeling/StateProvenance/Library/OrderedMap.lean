import Mathlib.Tactic
import Mathlib.Data.List.Sort

/-! Ordered maps and sets, keyed by a lawful comparison, and the multimaps built from them. Reading a
missing key of a multimap gives the empty set; writing to it creates the key. -/

namespace StateProvenance.Library.OrderedMap

open Std

abbrev OrdMap (K V : Type) [Ord K] := ExtTreeMap K V compare
abbrev OrdSet (K : Type) [Ord K] := ExtTreeSet K compare

section Sorting

variable {K : Type} [Ord K]

def LeOf (a b : K) : Prop := (compare a b).isLE = true

instance : DecidableRel (LeOf (K := K)) := fun a b => inferInstanceAs (Decidable ((compare a b).isLE = true))

-- `std::sort` on a range whose elements tie only when they are equal.
def stdSort (l : List K) : List K := l.insertionSort LeOf

def hasAdjacentDuplicate [DecidableEq K] : List K → Bool
  | a :: b :: l => a = b || hasAdjacentDuplicate (b :: l)
  | _ => false

def setIntersection : List K → List K → List K
  | [], _ => []
  | _ :: _, [] => []
  | a :: as, b :: bs =>
    match compare a b with
    | .lt => setIntersection as (b :: bs)
    | .gt => setIntersection (a :: as) bs
    | .eq => a :: setIntersection as bs
termination_by as bs => as.length + bs.length

lemma stdSort_perm (l : List K) : (stdSort l).Perm l := List.perm_insertionSort _ l

lemma setIntersection_sublist (l m : List K) : (setIntersection l m).Sublist l := by
  fun_induction setIntersection l m with
  | case1 m => exact List.Sublist.refl _
  | case2 a l => exact List.nil_sublist _
  | case3 a l b m _ ih => exact ih.cons a
  | case4 a l b m _ ih => exact ih
  | case5 a l b m _ ih => exact ih.cons_cons a

end Sorting

section Pullback

variable {A B : Type} [Ord A] [Ord B]

lemma transOrd_of_map [TransOrd B] (f : A → B)
    (hc : ∀ a b : A, compare a b = compare (f a) (f b)) : TransOrd A where
  eq_swap := by
    intro a b
    rw [hc, hc]
    exact OrientedCmp.eq_swap
  isLE_trans := by
    intro a b c hab hbc
    rw [hc] at *
    exact TransCmp.isLE_trans hab hbc

lemma lawfulEqOrd_of_injective [LawfulEqOrd B] (f : A → B) (hf : Function.Injective f)
    (hc : ∀ a b : A, compare a b = compare (f a) (f b)) : LawfulEqOrd A where
  compare_self := by
    intro a
    rw [hc]
    exact ReflCmp.compare_self
  eq_of_compare := by
    intro a b h
    rw [hc] at h
    exact hf (LawfulEqCmp.eq_of_compare h)

end Pullback

variable {K V : Type} [Ord K]

def Ascending (l : List (K × V)) : Prop := l.Pairwise fun a b => compare a.1 b.1 = .lt

section Transitive

variable [TransOrd K] {A : Type}

instance : Std.Total (LeOf (K := K)) := ⟨fun a b => by
  rw [LeOf, LeOf, @OrientedCmp.eq_swap _ compare _ b]
  cases compare a b <;> simp [Ordering.swap]⟩

instance : IsTrans K LeOf := ⟨fun _ _ _ => TransCmp.isLE_trans⟩

lemma stdSort_pairwise (l : List K) : (stdSort l).Pairwise LeOf := List.pairwise_insertionSort _ l

def fill (key : A → K) (val : A → V) (l : List A) : OrdMap K V :=
  l.foldl (fun m a => m.insert (key a) (val a)) ∅

lemma fill_concat (key : A → K) (val : A → V) (l : List A) (a : A) :
    fill key val (l ++ [a]) = (fill key val l).insert (key a) (val a) := by
  rw [fill, List.foldl_append]
  rfl

lemma getElem?_fill_comp {W : Type} (key : A → K) (val : A → V) (f : V → W) (l : List A) (k : K) :
    (fill key (fun a => f (val a)) l)[k]? = (fill key val l)[k]?.map f := by
  induction l using List.reverseRecOn with
  | nil => simp [fill]
  | append_singleton l a ih =>
    rw [fill_concat, fill_concat, ExtTreeMap.getElem?_insert, ExtTreeMap.getElem?_insert, ih]
    split <;> rfl

lemma size_fill_le (key : A → K) (val : A → V) (l : List A) : (fill key val l).size ≤ l.length := by
  induction l using List.reverseRecOn with
  | nil => simp [fill]
  | append_singleton l a ih =>
    rw [fill_concat, List.length_append, List.length_singleton]
    exact ExtTreeMap.size_insert_le.trans (Nat.succ_le_succ ih)

lemma ascending_toList (m : OrdMap K V) : Ascending m.toList := ExtTreeMap.ordered_keys_toList

section

variable [Ord A] [TransOrd A]

def addTo (m : OrdMap K (OrdSet A)) (k : K) (a : A) : OrdMap K (OrdSet A) :=
  m.insert k ((m.getD k ∅).insert a)

def removeFrom (m : OrdMap K (OrdSet A)) (k : K) (a : A) : OrdMap K (OrdSet A) :=
  m.insert k ((m.getD k ∅).erase a)

def addAll (m : OrdMap K (OrdSet A)) (keys : List K) (a : A) : OrdMap K (OrdSet A) :=
  keys.foldl (fun m k => addTo m k a) m

def NoEmptyKey (m : OrdMap K (OrdSet A)) : Prop := ∀ k ∈ m, ∃ a, a ∈ m.getD k ∅

lemma noEmptyKey_empty : NoEmptyKey (∅ : OrdMap K (OrdSet A)) := by
  intro k hk
  simp at hk

end

end Transitive

section Reflexive

variable [LawfulEqOrd K]

lemma nodup_of_ordered {l : List K} (hl : l.Pairwise fun a b => compare a b = .lt) : l.Nodup := by
  apply hl.imp
  rintro a b hlt rfl
  rw [@ReflCmp.compare_self _ compare] at hlt
  contradiction

lemma Ascending.nodup_keys {l : List (K × V)} (h : Ascending l) : (l.map Prod.fst).Nodup :=
  nodup_of_ordered (List.pairwise_map.mpr h)

end Reflexive

variable [TransOrd K] [LawfulEqOrd K]

lemma leOf_antisymm {a b : K} (hab : LeOf a b) (hba : LeOf b a) : a = b := by
  rw [LeOf, @OrientedCmp.eq_swap _ compare] at hba
  rw [LeOf] at hab
  cases h : compare a b <;> simp_all

lemma stdSort_eq_of_perm {l m : List K} (h : l.Perm m) : stdSort l = stdSort m := by
  have hperm := ((stdSort_perm l).trans h).trans (stdSort_perm m).symm
  exact hperm.eq_of_pairwise (fun _ _ _ _ => leOf_antisymm) (stdSort_pairwise l) (stdSort_pairwise m)

lemma ordered_stdSort {l : List K} (hl : l.Nodup) : (stdSort l).Pairwise fun a b => compare a b = .lt := by
  have hn : (stdSort l).Nodup := (stdSort_perm l).nodup_iff.mpr hl
  refine List.Pairwise.imp₂ (fun a b hle hne => ?_) (stdSort_pairwise l) hn
  rcases Ordering.isLE_iff_eq_lt_or_eq_eq.mp hle with hlt | heq
  · exact hlt
  · exact absurd (LawfulEqCmp.eq_of_compare heq) hne

lemma hasAdjacentDuplicate_eq_false [DecidableEq K] {l : List K} (hs : l.Pairwise LeOf) :
    hasAdjacentDuplicate l = false ↔ l.Nodup := by
  induction l with
  | nil => simp [hasAdjacentDuplicate]
  | cons a l ih =>
    cases l with
    | nil => simp [hasAdjacentDuplicate]
    | cons b l =>
      have hrest := ih hs.of_cons
      rw [hasAdjacentDuplicate, Bool.or_eq_false_iff, hrest, List.nodup_cons (a := a), decide_eq_false_iff_not]
      constructor
      · rintro ⟨hab, hn⟩
        refine ⟨fun hmem => ?_, hn⟩
        rcases List.mem_cons.mp hmem with rfl | hmem
        · exact hab rfl
        -- Between two equal elements of a sorted list everything is equal.
        · have hba := (List.pairwise_cons.mp hs.of_cons).1 a hmem
          exact hab (leOf_antisymm ((List.pairwise_cons.mp hs).1 b List.mem_cons_self) hba)
      · rintro ⟨hmem, hn⟩
        refine ⟨?_, hn⟩
        rintro rfl
        exact hmem List.mem_cons_self

lemma hasAdjacentDuplicate_stdSort [DecidableEq K] (l : List K) :
    hasAdjacentDuplicate (stdSort l) = false ↔ l.Nodup := by
  rw [hasAdjacentDuplicate_eq_false (stdSort_pairwise l), (stdSort_perm l).nodup_iff]

lemma mem_setIntersection {l m : List K} (hl : l.Pairwise fun a b => compare a b = .lt)
    (hm : m.Pairwise fun a b => compare a b = .lt) (x : K) : x ∈ setIntersection l m ↔ x ∈ l ∧ x ∈ m := by
  fun_induction setIntersection l m with
  | case1 m => simp
  | case2 a l => simp
  | case3 a l b m hab ih =>
    rw [ih hl.of_cons hm, List.mem_cons (a := x) (b := a)]
    refine ⟨fun h => ⟨Or.inr h.1, h.2⟩, fun h => ⟨h.1.resolve_left ?_, h.2⟩⟩
    rintro rfl
    rcases List.mem_cons.mp h.2 with rfl | hx
    · rw [@ReflCmp.compare_self _ compare] at hab
      contradiction
    · have hlt := TransCmp.lt_trans hab ((List.pairwise_cons.mp hm).1 x hx)
      rw [@ReflCmp.compare_self _ compare] at hlt
      contradiction
  | case4 a l b m hab ih =>
    rw [ih hl hm.of_cons, List.mem_cons (a := x) (b := b)]
    refine ⟨fun h => ⟨h.1, Or.inr h.2⟩, fun h => ⟨h.1, h.2.resolve_left ?_⟩⟩
    rintro rfl
    rcases List.mem_cons.mp h.1 with rfl | hx
    · rw [@ReflCmp.compare_self _ compare] at hab
      contradiction
    · have hlt := TransCmp.lt_trans (OrientedCmp.lt_of_gt hab) ((List.pairwise_cons.mp hl).1 x hx)
      rw [@ReflCmp.compare_self _ compare] at hlt
      contradiction
  | case5 a l b m hab ih =>
    obtain rfl := LawfulEqCmp.eq_of_compare hab
    rw [List.mem_cons, ih hl.of_cons hm.of_cons, List.mem_cons, List.mem_cons]
    tauto

lemma nodup_toList (s : OrdSet K) : s.toList.Nodup := nodup_of_ordered s.ordered_toList

lemma set_ext {s t : OrdSet K} (h : ∀ k, k ∈ s ↔ k ∈ t) : s = t := ExtTreeSet.ext_mem h

lemma eq_of_ordered {l l' : List K} (hl : l.Pairwise fun a b => compare a b = .lt)
    (hl' : l'.Pairwise fun a b => compare a b = .lt) (h : ∀ k, k ∈ l ↔ k ∈ l') : l = l' := by
  have hperm := (List.perm_ext_iff_of_nodup (nodup_of_ordered hl) (nodup_of_ordered hl')).mpr h
  apply hperm.eq_of_pairwise _ hl hl'
  intro a b _ _ hab hba
  rw [OrientedOrd.eq_swap, hab] at hba
  contradiction

lemma toList_perm_of_mem_iff {s : OrdSet K} {l : List K} (hl : l.Nodup)
    (h : ∀ k, k ∈ s ↔ k ∈ l) : s.toList.Perm l := by
  apply (List.perm_ext_iff_of_nodup (nodup_toList s) hl).mpr
  intro k
  rw [ExtTreeSet.mem_toList, h]

lemma toList_insert_perm {s : OrdSet K} {k : K} (h : k ∉ s) :
    (s.insert k).toList.Perm (k :: s.toList) := by
  apply toList_perm_of_mem_iff (List.nodup_cons.mpr ⟨by simpa using h, nodup_toList s⟩)
  intro a
  rw [ExtTreeSet.mem_insert, LawfulEqCmp.compare_eq_iff_eq, List.mem_cons, ExtTreeSet.mem_toList, eq_comm]

lemma sum_map_eq_of_mem {K : Type} {l : List K} (hl : l.Nodup) {f f' : K → ℕ} {a : K} (ha : a ∈ l) {n : ℕ}
    (hat : f' a = f a + n) (hother : ∀ x ∈ l, x ≠ a → f' x = f x) :
    (l.map f').sum = (l.map f).sum + n := by
  induction l with
  | nil => simp at ha
  | cons b l ih =>
    obtain ⟨hb, hl⟩ := List.nodup_cons.mp hl
    rw [List.map_cons, List.sum_cons, List.map_cons, List.sum_cons]
    by_cases hab : b = a
    · subst hab
      have hrest : l.map f' = l.map f := by
        refine List.map_congr_left fun x hx => hother x (List.mem_cons_of_mem _ hx) ?_
        rintro rfl
        exact hb hx
      rw [hat, hrest]
      omega
    · have hal : a ∈ l := (List.mem_cons.mp ha).resolve_left (Ne.symm hab)
      have hr := ih hl hal fun x hx => hother x (List.mem_cons_of_mem _ hx)
      rw [hother b List.mem_cons_self hab, hr]
      omega

lemma insertIfNew_of_mem (m : OrdMap K V) {k : K} (hk : k ∈ m) (v : V) : m.insertIfNew k v = m := by
  apply ExtTreeMap.ext_getElem?
  intro j
  rw [ExtTreeMap.getElem?_insertIfNew, if_neg (fun h => h.2 hk)]

lemma insert_of_getElem? (m : OrdMap K V) {k : K} {v : V} (hk : m[k]? = some v) : m.insert k v = m := by
  apply ExtTreeMap.ext_getElem?
  intro j
  rw [ExtTreeMap.getElem?_insert]
  split
  · next he => rw [← LawfulEqCmp.eq_of_compare he, hk]
  · rfl

section Multimap

variable {A : Type} [Ord A]

lemma getD_insertIfNew_empty (m : OrdMap K (OrdSet A)) (k j : K) :
    (m.insertIfNew k ∅).getD j ∅ = m.getD j ∅ := by
  rw [ExtTreeMap.getD_insertIfNew]
  split
  · next h =>
    obtain rfl := LawfulEqCmp.eq_of_compare h.1
    rw [ExtTreeMap.getD_eq_fallback h.2]
  · rfl

variable [TransOrd A]

@[simp] lemma mem_keys_addTo (m : OrdMap K (OrdSet A)) (k j : K) (a : A) :
    j ∈ addTo m k a ↔ k = j ∨ j ∈ m := by
  simp [addTo]

variable [LawfulEqOrd A]

@[simp] lemma mem_addTo (m : OrdMap K (OrdSet A)) (k j : K) (a b : A) :
    b ∈ (addTo m k a).getD j ∅ ↔ (k = j ∧ a = b) ∨ b ∈ m.getD j ∅ := by
  by_cases hk : k = j
  · subst hk
    simp [addTo]
  · simp [addTo, ExtTreeMap.getD_insert, hk]

@[simp] lemma mem_removeFrom (m : OrdMap K (OrdSet A)) (k j : K) (a b : A) :
    b ∈ (removeFrom m k a).getD j ∅ ↔ b ∈ m.getD j ∅ ∧ ¬ (k = j ∧ a = b) := by
  by_cases hk : k = j
  · subst hk
    simp [removeFrom, and_comm]
  · simp [removeFrom, ExtTreeMap.getD_insert, hk]

lemma mem_addAll (keys : List K) (m : OrdMap K (OrdSet A)) (j : K) (a b : A) :
    b ∈ (addAll m keys a).getD j ∅ ↔ (j ∈ keys ∧ a = b) ∨ b ∈ m.getD j ∅ := by
  induction keys generalizing m with
  | nil => simp [addAll]
  | cons k keys ih =>
    have hstep : addAll m (k :: keys) a = addAll (addTo m k a) keys a := rfl
    rw [hstep, ih, mem_addTo]
    simp only [List.mem_cons, eq_comm (a := k)]
    tauto

lemma mem_foldl_addTo {E : Type} (key : E → K) (val : E → A) (l : List E) (m : OrdMap K (OrdSet A)) (j : K)
    (b : A) : b ∈ (l.foldl (fun m e => addTo m (key e) (val e)) m).getD j ∅ ↔
      (∃ e ∈ l, key e = j ∧ val e = b) ∨ b ∈ m.getD j ∅ := by
  induction l generalizing m with
  | nil => simp
  | cons e l ih =>
    rw [List.foldl_cons, ih, mem_addTo]
    simp only [List.mem_cons, exists_eq_or_imp]
    rw [or_left_comm, or_assoc]

lemma NoEmptyKey.addTo {m : OrdMap K (OrdSet A)} (h : NoEmptyKey m) (k : K) (a : A) :
    NoEmptyKey (addTo m k a) := by
  intro j hj
  rcases (mem_keys_addTo m k j a).mp hj with rfl | hj
  · exact ⟨a, (mem_addTo ..).mpr (Or.inl ⟨rfl, rfl⟩)⟩
  · obtain ⟨b, hb⟩ := h j hj
    exact ⟨b, (mem_addTo ..).mpr (Or.inr hb)⟩

lemma NoEmptyKey.addAll {m : OrdMap K (OrdSet A)} (h : NoEmptyKey m) (keys : List K) (a : A) :
    NoEmptyKey (addAll m keys a) := by
  induction keys generalizing m with
  | nil => exact h
  | cons k keys ih => exact ih (h.addTo k a)

lemma map_ext_getD {m n : OrdMap K (OrdSet A)} (hk : ∀ k, k ∈ m ↔ k ∈ n)
    (h : ∀ k a, a ∈ m.getD k ∅ ↔ a ∈ n.getD k ∅) : m = n := by
  apply ExtTreeMap.ext_getElem?
  intro k
  by_cases hm : k ∈ m
  · have hn := (hk k).mp hm
    have he : m.getD k ∅ = n.getD k ∅ := set_ext (h k)
    rw [ExtTreeMap.getElem?_eq_some_getD hm, ExtTreeMap.getElem?_eq_some_getD hn, he]
  · rw [ExtTreeMap.getElem?_eq_none hm, ExtTreeMap.getElem?_eq_none (mt (hk k).mpr hm)]

lemma NoEmptyKey.eq_of_mem_iff {m n : OrdMap K (OrdSet A)} (hm : NoEmptyKey m) (hn : NoEmptyKey n)
    (h : ∀ k a, a ∈ m.getD k ∅ ↔ a ∈ n.getD k ∅) : m = n := by
  have keys_of_mem : ∀ {m : OrdMap K (OrdSet A)} {k a}, a ∈ m.getD k ∅ → k ∈ m := by
    intro m k a ha
    by_contra hk
    simp [ExtTreeMap.getD_eq_fallback hk] at ha
  refine map_ext_getD (fun k => ⟨fun hk => ?_, fun hk => ?_⟩) h
  · obtain ⟨a, ha⟩ := hm k hk
    exact keys_of_mem ((h k a).mp ha)
  · obtain ⟨a, ha⟩ := hn k hk
    exact keys_of_mem ((h k a).mpr ha)

end Multimap

lemma mem_foldl_insert {A : Type} (f : A → K) (l : List A) (s : OrdSet K) (k : K) :
    k ∈ l.foldl (fun s a => s.insert (f a)) s ↔ (∃ a ∈ l, f a = k) ∨ k ∈ s := by
  induction l generalizing s with
  | nil => simp
  | cons a l ih =>
    rw [List.foldl_cons, ih, ExtTreeSet.mem_insert, LawfulEqCmp.compare_eq_iff_eq]
    simp only [List.mem_cons, exists_eq_or_imp]
    rw [or_left_comm, or_assoc]

section Fill

variable {A : Type} (key : A → K) (val : A → V)

lemma mem_fill (l : List A) (k : K) : k ∈ fill key val l ↔ ∃ a ∈ l, key a = k := by
  induction l using List.reverseRecOn with
  | nil => simp [fill]
  | append_singleton l a ih =>
    rw [fill_concat, ExtTreeMap.mem_insert, ih, LawfulEqCmp.compare_eq_iff_eq]
    simp only [List.mem_append, List.mem_singleton, or_and_right, exists_or, exists_eq_left]
    exact or_comm

lemma exists_of_fill {l : List A} {k : K} {v : V} (h : (fill key val l)[k]? = some v) :
    ∃ a ∈ l, key a = k ∧ val a = v := by
  induction l using List.reverseRecOn with
  | nil => simp [fill] at h
  | append_singleton l a ih =>
    rw [fill_concat, ExtTreeMap.getElem?_insert] at h
    split at h
    · next he => exact ⟨a, by simp, LawfulEqCmp.eq_of_compare he, Option.some.inj h⟩
    · obtain ⟨b, hb, hk⟩ := ih h
      exact ⟨b, List.mem_append_left _ hb, hk⟩

lemma getElem?_fill {l : List A} (hl : (l.map key).Nodup) {a : A} (ha : a ∈ l) :
    (fill key val l)[key a]? = some (val a) := by
  have hm := (mem_fill key val l (key a)).mpr ⟨a, ha, rfl⟩
  obtain ⟨v, hv⟩ := Option.isSome_iff_exists.mp (ExtTreeMap.mem_iff_isSome_getElem?.mp hm)
  obtain ⟨b, hb, hk, rfl⟩ := exists_of_fill key val hv
  rw [hv, List.inj_on_of_nodup_map hl hb ha hk]

lemma getD_fill {l : List A} (hl : (l.map key).Nodup) {a : A} (ha : a ∈ l) (d : V) :
    (fill key val l).getD (key a) d = val a := by
  rw [ExtTreeMap.getD_eq_getD_getElem?, getElem?_fill key val hl ha, Option.getD_some]

lemma fill_toList (m : OrdMap K V) : fill Prod.fst Prod.snd m.toList = m := by
  have hkeys : (m.toList.map Prod.fst).Nodup := by
    rw [ExtTreeMap.map_fst_toList_eq_keys]
    exact ExtTreeMap.nodup_keys
  apply ExtTreeMap.ext_getElem?
  intro k
  by_cases hk : k ∈ m
  · obtain ⟨v, hv⟩ := Option.isSome_iff_exists.mp (ExtTreeMap.mem_iff_isSome_getElem?.mp hk)
    have hmem := ExtTreeMap.mem_toList_iff_getElem?_eq_some.mpr hv
    exact (getElem?_fill Prod.fst Prod.snd hkeys hmem).trans hv.symm
  · rw [ExtTreeMap.getElem?_eq_none hk, ExtTreeMap.getElem?_eq_none]
    rintro hf
    obtain ⟨e, he, rfl⟩ := (mem_fill Prod.fst Prod.snd m.toList k).mp hf
    exact hk (ExtTreeMap.mem_iff_isSome_getElem?.mpr
      (by rw [ExtTreeMap.mem_toList_iff_getElem?_eq_some.mp he]; rfl))

end Fill

section Ascending

lemma Ascending.toList_fill {l : List (K × V)} (h : Ascending l) :
    (fill Prod.fst Prod.snd l).toList = l := by
  have hmem : ∀ e, e ∈ (fill Prod.fst Prod.snd l).toList ↔ e ∈ l := by
    rintro ⟨k, v⟩
    rw [ExtTreeMap.mem_toList_iff_getElem?_eq_some]
    constructor
    · intro hv
      obtain ⟨e, he, rfl, rfl⟩ := exists_of_fill _ _ hv
      exact he
    · intro he
      exact getElem?_fill Prod.fst Prod.snd h.nodup_keys he
  have hperm := (List.perm_ext_iff_of_nodup (ascending_toList _).nodup_keys.of_map h.nodup_keys.of_map).mpr hmem
  apply hperm.eq_of_pairwise _ (ascending_toList _) h
  intro a b _ _ hab hba
  rw [OrientedOrd.eq_swap, hab] at hba
  contradiction

end Ascending

end StateProvenance.Library.OrderedMap
