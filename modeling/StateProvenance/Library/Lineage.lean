import Mathlib.Logic.Relation
import Mathlib.Logic.Function.Basic
import Mathlib.Data.Set.Lattice

/-! Ledgers of derived entries: what is recorded, what each entry was derived from, and which entries are marked.
An entry is tainted if it is marked or derived from a marked one, whichever of the two came first. -/

namespace StateProvenance.Library.Lineage

open Relation

variable {K V : Type}

def below (R : K → K → Prop) (S : Set K) : Set K := {x | ∃ r ∈ S, ReflTransGen R r x}

section Below

variable {R : K → K → Prop} {S T : Set K}

lemma subset_below : S ⊆ below R S := fun x hx => ⟨x, hx, .refl⟩

lemma below_mono (h : S ⊆ T) : below R S ⊆ below R T := by
  rintro x ⟨r, hr, hx⟩
  exact ⟨r, h hr, hx⟩

lemma below_trans {x y : K} (hx : x ∈ below R S) (h : ReflTransGen R x y) : y ∈ below R S := by
  obtain ⟨r, hr, hrx⟩ := hx
  exact ⟨r, hr, hrx.trans h⟩

lemma below_eq_of_subset (h : S ⊆ T) (h' : T ⊆ below R S) : below R T = below R S := by
  refine Set.Subset.antisymm ?_ (below_mono h)
  rintro x ⟨t, ht, hx⟩
  exact below_trans (h' ht) hx

lemma below_union : below R (S ∪ T) = below R S ∪ below R T := by
  ext x
  constructor
  · rintro ⟨r, hr | hr, hx⟩
    · exact Or.inl ⟨r, hr, hx⟩
    · exact Or.inr ⟨r, hr, hx⟩
  · rintro (hx | hx)
    · exact below_mono Set.subset_union_left hx
    · exact below_mono Set.subset_union_right hx

lemma mem_below_iff (x : K) : x ∈ below R S ↔ x ∈ S ∨ ∃ r ∈ S, TransGen R r x := by
  constructor
  · rintro ⟨r, hr, hx⟩
    rcases reflTransGen_iff_eq_or_transGen.mp hx with rfl | hx
    · exact Or.inl hr
    · exact Or.inr ⟨r, hr, hx⟩
  · rintro (hx | ⟨r, hr, hx⟩)
    · exact subset_below hx
    · exact ⟨r, hr, hx.to_reflTransGen⟩

end Below

def extend (R : K → K → Prop) (k : K) (P : Set K) (p c : K) : Prop := R p c ∨ p ∈ P ∧ c = k

lemma le_extend (R : K → K → Prop) (k : K) (P : Set K) : R ≤ extend R k P := fun _ _ => Or.inl

section Extend

variable {R : K → K → Prop} {k : K} {P S : Set K}

lemma extend_leaf (hout : ∀ c, ¬ R k c) (hk : k ∉ P) (c : K) : ¬ extend R k P k c := by
  rintro (h | ⟨h, -⟩)
  · exact hout c h
  · exact hk h

lemma transGen_extend (hout : ∀ c, ¬ R k c) (hk : k ∉ P) {a x : K} (hx : x ≠ k) :
    TransGen (extend R k P) a x ↔ TransGen R a x := by
  constructor
  · intro h
    induction h with
    | single h =>
      rcases h with h | ⟨-, rfl⟩
      · exact .single h
      · contradiction
    | @tail b c hab hbc ih =>
      -- The last step does not end in the new element, so no earlier one does.
      have hb : b ≠ k := by
        rintro rfl
        exact extend_leaf hout hk c hbc
      rcases hbc with hbc | ⟨-, rfl⟩
      · exact (ih hb).tail hbc
      · contradiction
  · exact TransGen.mono (le_extend R k P) a x

lemma transGen_extend_self (hout : ∀ c, ¬ R k c) (hin : ∀ p, ¬ R p k) (hk : k ∉ P) (a : K) :
    TransGen (extend R k P) a k ↔ ∃ p ∈ P, ReflTransGen R a p := by
  constructor
  · intro h
    obtain ⟨p, hap, hpk⟩ := TransGen.tail'_iff.mp h
    obtain ⟨hp, -⟩ := hpk.resolve_left (hin p)
    refine ⟨p, hp, ?_⟩
    rcases reflTransGen_iff_eq_or_transGen.mp hap with rfl | hap
    · exact .refl
    · exact ((transGen_extend hout hk fun he => hk (he ▸ hp)).mp hap).to_reflTransGen
  · rintro ⟨p, hp, hap⟩
    exact .tail' (ReflTransGen.mono (le_extend R k P) a p hap) (Or.inr ⟨hp, rfl⟩)

lemma mem_below_extend (hout : ∀ c, ¬ R k c) (hk : k ∉ P) {x : K} (hx : x ≠ k) :
    x ∈ below (extend R k P) S ↔ x ∈ below R S := by
  rw [mem_below_iff, mem_below_iff]
  simp only [transGen_extend hout hk hx]

lemma mem_below_extend_self (hout : ∀ c, ¬ R k c) (hin : ∀ p, ¬ R p k) (hk : k ∉ P) :
    k ∈ below (extend R k P) S ↔ k ∈ S ∨ ∃ p ∈ P, p ∈ below R S := by
  rw [mem_below_iff]
  simp only [transGen_extend_self hout hin hk]
  refine or_congr_right ⟨?_, ?_⟩
  · rintro ⟨r, hr, p, hp, hrp⟩
    exact ⟨p, hp, r, hr, hrp⟩
  · rintro ⟨p, hp, r, hr, hrp⟩
    exact ⟨r, hr, p, hp, hrp⟩

lemma acyclic_extend (hout : ∀ c, ¬ R k c) (hin : ∀ p, ¬ R p k) (hk : k ∉ P)
    (h : ∀ x, ¬ TransGen R x x) (x : K) : ¬ TransGen (extend R k P) x x := by
  by_cases hx : x = k
  · subst hx
    rw [transGen_extend_self hout hin hk]
    rintro ⟨p, hp, hpath⟩
    rcases ReflTransGen.cases_head hpath with rfl | ⟨c, hc, -⟩
    · exact hk hp
    · exact hout c hc
  · rw [transGen_extend hout hk hx]
    exact h x

end Extend

@[ext] structure Ledger (K V : Type) where
  entry : K → Option V
  Derived : K → K → Prop
  marked : Set K

namespace Ledger

def empty : Ledger K V := ⟨fun _ => none, fun _ _ => False, ∅⟩

def Tainted (l : Ledger K V) (x : K) : Prop := x ∈ below l.Derived l.marked

def add [DecidableEq K] (l : Ledger K V) (k : K) (v : V) (P : Set K) (m : Prop) : Ledger K V where
  entry := Function.update l.entry k (some v)
  Derived := extend l.Derived k P
  marked := {x | x ∈ l.marked ∨ x = k ∧ m}

def mark (l : Ledger K V) (r : K) : Ledger K V := { l with marked := insert r l.marked }

structure Coherent (l : Ledger K V) : Prop where
  recorded : ∀ p c, l.Derived p c → (l.entry p).isSome ∧ (l.entry c).isSome
  marked : ∀ x ∈ l.marked, (l.entry x).isSome
  acyclic : ∀ x, ¬ TransGen l.Derived x x

lemma coherent_empty : (empty : Ledger K V).Coherent where
  recorded := fun _ _ h => h.elim
  marked := fun _ h => h.elim
  acyclic := by
    intro x h
    obtain ⟨c, hc, -⟩ := TransGen.head'_iff.mp h
    exact hc

lemma mark_add [DecidableEq K] (l : Ledger K V) {k r : K} (v : V) (P : Set K) (m : Prop) :
    (l.add k v P m).mark r = (l.mark r).add k v P m := by
  refine Ledger.ext rfl rfl (Set.ext fun x => ?_)
  simp only [mark, add, Set.mem_insert_iff, Set.mem_ofPred_eq]
  tauto

variable {l : Ledger K V} (h : l.Coherent)

include h

lemma Coherent.mark {r : K} (hr : (l.entry r).isSome) : (l.mark r).Coherent where
  recorded := h.recorded
  marked := by
    rintro x (rfl | hx)
    · exact hr
    · exact h.marked x hx
  acyclic := h.acyclic

lemma Coherent.isSome_of_reaches {r x : K} (hr : (l.entry r).isSome) (hx : ReflTransGen l.Derived r x) :
    (l.entry x).isSome := by
  rcases ReflTransGen.cases_tail hx with rfl | ⟨c, -, hc⟩
  · exact hr
  · exact (h.recorded c x hc).2

section Add

variable {k : K} (hk : l.entry k = none) {P : Set K} (hP : ∀ p ∈ P, (l.entry p).isSome)

include hk

lemma Coherent.no_child (c : K) : ¬ l.Derived k c := by
  intro hc
  have hs := (h.recorded k c hc).1
  rw [hk] at hs
  contradiction

lemma Coherent.no_parent (p : K) : ¬ l.Derived p k := by
  intro hp
  have hs := (h.recorded p k hp).2
  rw [hk] at hs
  contradiction

omit h in
lemma not_mem_of_new (hP : ∀ p ∈ P, (l.entry p).isSome) : k ∉ P := by
  intro hm
  have hs := hP k hm
  rw [hk] at hs
  contradiction

lemma Coherent.not_mem_below_marked : k ∉ below l.Derived l.marked := by
  rintro ⟨r, hr, hpath⟩
  rcases ReflTransGen.cases_tail hpath with rfl | ⟨c, -, hc⟩
  · exact not_mem_of_new hk h.marked hr
  · exact h.no_parent hk c hc

variable [DecidableEq K]

include hP

lemma Coherent.add (v : V) (m : Prop) : (l.add k v P m).Coherent where
  recorded := by
    have hold : ∀ x, (l.entry x).isSome → ((l.add k v P m).entry x).isSome := by
      intro x hx
      by_cases he : x = k
      · subst he
        simp [Ledger.add]
      · simpa [Ledger.add, he] using hx
    rintro p c (hc | ⟨hp, rfl⟩)
    · exact (h.recorded p c hc).imp (hold p) (hold c)
    · exact ⟨hold p (hP p hp), by simp [Ledger.add]⟩
  marked := by
    rintro x (hx | ⟨rfl, -⟩)
    · by_cases he : x = k
      · subst he
        simp [Ledger.add]
      · simpa [Ledger.add, he] using h.marked x hx
    · simp [Ledger.add]
  acyclic := acyclic_extend (h.no_child hk) (h.no_parent hk) (not_mem_of_new hk hP) h.acyclic

lemma Coherent.below_add (v : V) (m : Prop) {S : Set K} {x : K} (hx : x ≠ k) :
    x ∈ below (l.add k v P m).Derived S ↔ x ∈ below l.Derived S :=
  mem_below_extend (h.no_child hk) (not_mem_of_new hk hP) hx

lemma Coherent.below_add_self (v : V) (m : Prop) {S : Set K} :
    k ∈ below (l.add k v P m).Derived S ↔ k ∈ S ∨ ∃ p ∈ P, p ∈ below l.Derived S :=
  mem_below_extend_self (h.no_child hk) (h.no_parent hk) (not_mem_of_new hk hP)

lemma Coherent.below_add_congr {S : Set K} (hS : below l.Derived S = below l.Derived l.marked) (v : V)
    (m : Prop) : below (l.add k v P m).Derived {x | x ∈ S ∨ x = k ∧ m} =
      below (l.add k v P m).Derived (l.add k v P m).marked := by
  have hunion : ∀ T : Set K, {x | x ∈ T ∨ x = k ∧ m} = T ∪ {x | x = k ∧ m} := fun _ => rfl
  have hk' : k ∉ S := fun hm => h.not_mem_below_marked hk (hS ▸ subset_below hm)
  have hmarked : k ∉ l.marked := not_mem_of_new hk h.marked
  have hbelow : below (l.add k v P m).Derived S = below (l.add k v P m).Derived l.marked := by
    ext x
    by_cases hx : x = k
    · subst hx
      simp only [h.below_add_self hk hP, hk', hmarked, hS]
    · simp only [h.below_add hk hP v m hx, hS]
  rw [hunion, below_union, hbelow, ← below_union]
  rfl

end Add

end Ledger

end StateProvenance.Library.Lineage
