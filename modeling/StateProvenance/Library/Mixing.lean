import Mathlib.Tactic
import Mathlib.Data.UInt

/-! Reversible steps of a hash: a shift added back to its word, an odd multiplier, and the absorption of a
list of words, one after the other, into a state. -/

namespace StateProvenance.Library.Mixing

lemma xorShift_injective {w n : ℕ} (hn : 0 < n) : Function.Injective fun x : BitVec w => x ^^^ x >>> n := by
  intro x y h
  have hbit : ∀ i, (x.getLsbD i ^^ x.getLsbD (n + i)) = (y.getLsbD i ^^ y.getLsbD (n + i)) := by
    intro i
    have hi := congrArg (fun z : BitVec w => z.getLsbD i) h
    simpa only [BitVec.getLsbD_xor, BitVec.getLsbD_ushiftRight] using hi
  have key : ∀ k i, w ≤ i + k → x.getLsbD i = y.getLsbD i := by
    intro k
    induction k with
    | zero =>
      intro i hi
      rw [BitVec.getLsbD_of_ge x i hi, BitVec.getLsbD_of_ge y i hi]
    | succ k ih =>
      intro i hi
      have hxy := hbit i
      rwa [ih (n + i) (by omega), Bool.xor_left_inj] at hxy
  exact BitVec.eq_of_getLsbD_eq fun i _ => key w i (Nat.le_add_left w i)

lemma xorShift_injective_uint64 {n : UInt64} (hn : 0 < n.toBitVec.toNat % 64) :
    Function.Injective fun x : UInt64 => x ^^^ (x >>> n) := by
  intro x y h
  have hb := congrArg UInt64.toBitVec h
  simp only [UInt64.toBitVec_xor, UInt64.toBitVec_shiftRight] at hb
  exact UInt64.toBitVec_inj.mp (xorShift_injective (by simpa using hn) hb)

lemma mul_injective {M : Type} [CommMonoid M] {b : M} (inv : M) (h : b * inv = 1) :
    Function.Injective fun x : M => x * b :=
  (IsUnit.of_mul_eq_one inv h).mul_left_injective

section Absorbing

variable {S A : Type} {step : S → A → S}

structure Absorbing (step : S → A → S) : Prop where
  state : ∀ a, Function.Injective fun s => step s a
  value : ∀ s, Function.Injective (step s)

def DifferOnce (l l' : List A) : Prop := l.length = l'.length ∧ ∃! i : ℕ, l[i]? ≠ l'[i]?

lemma DifferOnce.split {l l' : List A} (hd : DifferOnce l l') : ∃ before a b after,
    a ≠ b ∧ l = before ++ a :: after ∧ l' = before ++ b :: after := by
  obtain ⟨hlen, i, hi, hunique⟩ := hd
  have hother : ∀ j, j ≠ i → l[j]? = l'[j]? := fun j hj => not_not.mp (mt (hunique j) hj)
  have hbound : i < l.length := by
    by_contra hge
    exact hi (by rw [List.getElem?_eq_none (by omega), List.getElem?_eq_none (by omega)])
  have hbound' : i < l'.length := hlen ▸ hbound
  have hbefore : l.take i = l'.take i := by
    refine List.ext_getElem? fun j => ?_
    rw [List.getElem?_take, List.getElem?_take]
    split
    · next hj => exact hother j (by omega)
    · rfl
  have hafter : l.drop (i + 1) = l'.drop (i + 1) := by
    refine List.ext_getElem? fun j => ?_
    rw [List.getElem?_drop, List.getElem?_drop]
    exact hother _ (by omega)
  have hl : l = l.take i ++ l[i] :: l.drop (i + 1) := by
    rw [← List.drop_eq_getElem_cons hbound, List.take_append_drop]
  have hl' : l' = l.take i ++ l'[i] :: l.drop (i + 1) := by
    rw [hbefore, hafter, ← List.drop_eq_getElem_cons hbound', List.take_append_drop]
  refine ⟨l.take i, l[i], l'[i], l.drop (i + 1), ?_, hl, hl'⟩
  rwa [List.getElem?_eq_getElem hbound, List.getElem?_eq_getElem hbound', ne_eq, Option.some.injEq] at hi

variable (h : Absorbing step)

include h

lemma Absorbing.foldl_injective (l : List A) : Function.Injective fun s => l.foldl step s := by
  induction l with
  | nil => exact Function.injective_id
  | cons a l ih => exact ih.comp (h.state a)

lemma Absorbing.foldl_ne {a b : A} (hab : a ≠ b) (s : S) (before after : List A) :
    (before ++ a :: after).foldl step s ≠ (before ++ b :: after).foldl step s := by
  rw [List.foldl_append, List.foldl_append, List.foldl_cons, List.foldl_cons]
  intro he
  exact hab (h.value _ (h.foldl_injective after he))

lemma Absorbing.foldl_ne_of_differOnce {l l' : List A} (hd : DifferOnce l l') (s : S) :
    l.foldl step s ≠ l'.foldl step s := by
  obtain ⟨before, a, b, after, hab, rfl, rfl⟩ := hd.split
  exact h.foldl_ne hab s before after

end Absorbing

end StateProvenance.Library.Mixing
