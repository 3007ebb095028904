import Mathlib.Data.Nat.Digits.Defs
import Mathlib.Tactic

/-! Positional numerals: a number from a fixed count of its digits, a numeral read from its first digit on,
and a numeral read in a larger base than it was written in. -/

namespace StateProvenance.Library.Numerals

open Nat

lemma ofDigits_range (b n v : ℕ) :
    ofDigits b ((List.range n).map fun i => v / b ^ i % b) = v % b ^ n := by
  induction n generalizing v with
  | zero => simp [Nat.mod_one]
  | succ n ih =>
    have hshift : (List.range n).map (fun i => v / b ^ (i + 1) % b) =
        (List.range n).map fun i => v / b / b ^ i % b := by
      apply List.map_congr_left
      intro i _
      rw [pow_succ', Nat.div_div_eq_div_mul]
    rw [List.range_succ_eq_map, List.map_cons, List.map_map, ofDigits_cons]
    change v / b ^ 0 % b + b * ofDigits b ((List.range n).map fun i => v / b ^ (i + 1) % b) = v % b ^ (n + 1)
    rw [hshift, ih, pow_zero, Nat.div_one, pow_succ', Nat.mod_mul]

lemma foldl_eq_ofDigits (b : ℕ) (ds : List ℕ) :
    ds.foldl (fun v d => b * v + d) 0 = ofDigits b ds.reverse := by
  rw [ofDigits_eq_foldr, List.foldr_reverse]
  congr 1
  funext v d
  exact Nat.add_comm (b * v) d

lemma le_foldl_digits {b : ℕ} (hb : 0 < b) (ds : List ℕ) (v : ℕ) :
    v ≤ ds.foldl (fun v d => b * v + d) v := by
  induction ds generalizing v with
  | nil => exact le_rfl
  | cons d ds ih =>
    calc v ≤ b * v := Nat.le_mul_of_pos_left v hb
      _ ≤ b * v + d := Nat.le_add_right _ _
      _ ≤ ds.foldl (fun v d => b * v + d) (b * v + d) := ih _

section LargerBase

variable {b c n : ℕ}

lemma ofDigits_digits_of_lt (c : ℕ) (h : n < b) : ofDigits c (digits b n) = n := by
  cases n with
  | zero => simp
  | succ n => rw [digits_of_lt b (n + 1) (Nat.succ_ne_zero n) h, ofDigits_singleton]

lemma lt_ofDigits_digits (hb : 1 < b) (hc : b < c) (h : b ≤ n) : n < ofDigits c (digits b n) := by
  have hq : 0 < n / b := Nat.div_pos h (by omega)
  have hrest : n / b ≤ ofDigits c (digits b (n / b)) := by
    calc n / b = ofDigits b (digits b (n / b)) := (ofDigits_digits b _).symm
      _ ≤ ofDigits c (digits b (n / b)) := ofDigits_monotone _ hc.le
  rw [digits_def' hb (by omega), ofDigits_cons]
  calc n = n % b + b * (n / b) := (Nat.mod_add_div n b).symm
    _ < n % b + c * (n / b) := Nat.add_lt_add_left (Nat.mul_lt_mul_of_pos_right hc hq) _
    _ ≤ n % b + c * ofDigits c (digits b (n / b)) := Nat.add_le_add_left (Nat.mul_le_mul_left c hrest) _

end LargerBase

end StateProvenance.Library.Numerals
