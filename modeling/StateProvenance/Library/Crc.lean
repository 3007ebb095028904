import Mathlib.Tactic

/-! Reflected cyclic redundancy checks on `w` bits. A shift is linear in exclusive or and, when the top
bit of the polynomial is set, injective; so bytes that together fit the register act on it as one word,
and a change within such a window always changes the result. -/

namespace StateProvenance.Library.Crc

variable {w : ℕ}

section Definitions

variable (poly : BitVec w)

def shift (c : BitVec w) : BitVec w := if c.getLsbD 0 then (c >>> 1) ^^^ poly else c >>> 1

def shifts (n : ℕ) (c : BitVec w) : BitVec w := (shift poly)^[n] c

def byteStep (c : BitVec w) (p : UInt8) : BitVec w := shifts poly 8 (c ^^^ p.toBitVec.setWidth w)

def run (c : BitVec w) (ps : List UInt8) : BitVec w := ps.foldl (byteStep poly) c

def lowBit (b : Bool) : BitVec w := if b then 1 else 0

def bitStep (c : BitVec w) (b : Bool) : BitVec w := shift poly (c ^^^ lowBit b)

def lowFirst (p : UInt8) : List Bool := (List.range 8).map fun i => p.toBitVec.getLsbD i

/-- The bytes as one number, the first of them lowest. -/
def word : List UInt8 → BitVec w
  | [] => 0
  | p :: ps => p.toBitVec.setWidth w ^^^ (word ps <<< 8)

def bitWord : List Bool → BitVec w
  | [] => 0
  | b :: bs => lowBit b ^^^ (bitWord bs <<< 1)

end Definitions

section Shifts

variable (poly : BitVec w)

lemma shift_xor (a b : BitVec w) : shift poly (a ^^^ b) = shift poly a ^^^ shift poly b := by
  apply BitVec.eq_of_getLsbD_eq
  intro i _
  simp only [shift, BitVec.getLsbD_xor]
  cases a.getLsbD 0 <;> cases b.getLsbD 0 <;>
    simp [BitVec.getLsbD_xor, BitVec.getLsbD_ushiftRight, Bool.xor_comm, Bool.xor_left_comm]

lemma shifts_xor (n : ℕ) (a b : BitVec w) : shifts poly n (a ^^^ b) = shifts poly n a ^^^ shifts poly n b := by
  induction n generalizing a b with
  | zero => rfl
  | succ n ih =>
    simp only [shifts, Function.iterate_succ_apply] at ih ⊢
    rw [shift_xor, ih]

lemma shifts_eq_shiftRight {n : ℕ} {c : BitVec w} (h : ∀ i < n, c.getLsbD i = false) :
    shifts poly n c = c >>> n := by
  induction n with
  | zero => simp [shifts]
  | succ n ih =>
    have hn := ih fun i hi => h i (by omega)
    have hlow : (c >>> n).getLsbD 0 = false := by
      rw [BitVec.getLsbD_ushiftRight, Nat.add_zero]
      exact h n (by omega)
    rw [shifts] at hn ⊢
    rw [Function.iterate_succ_apply', hn, shift, hlow, if_neg Bool.false_ne_true, BitVec.shiftRight_add]

lemma shifts_xor_shiftLeft (n : ℕ) (c : BitVec w) {y : BitVec w}
    (hy : ∀ i, w ≤ i + n → y.getLsbD i = false) :
    shifts poly n (c ^^^ (y <<< n)) = shifts poly n c ^^^ y := by
  have hlow : shifts poly n (y <<< n) = (y <<< n) >>> n :=
    shifts_eq_shiftRight poly fun i hi => by simp [hi]
  have hback : (y <<< n) >>> n = y := by
    apply BitVec.eq_of_getLsbD_eq
    intro i _
    rw [BitVec.getLsbD_ushiftRight, BitVec.getLsbD_shiftLeft]
    by_cases hw : n + i < w
    · simp [hw]
    · simp [hw, hy i (by omega)]
  rw [shifts_xor, hlow, hback]

variable {poly}

lemma getLsbD_last_shift (hp : poly.getLsbD (w - 1) = true) (c : BitVec w) :
    (shift poly c).getLsbD (w - 1) = c.getLsbD 0 := by
  have hw : 0 < w := by
    by_contra h
    rw [BitVec.getLsbD_of_ge poly (w - 1) (by omega)] at hp
    contradiction
  have hgone : (c >>> 1).getLsbD (w - 1) = false := by
    rw [BitVec.getLsbD_ushiftRight]
    exact BitVec.getLsbD_of_ge c (1 + (w - 1)) (by omega)
  rw [shift]
  cases hc : c.getLsbD 0 with
  | true => rw [if_pos rfl, BitVec.getLsbD_xor, hgone, hp, Bool.false_xor]
  | false => rw [if_neg Bool.false_ne_true, hgone]

lemma shift_injective (hp : poly.getLsbD (w - 1) = true) : Function.Injective (shift poly) := by
  intro a b h
  have hlow : a.getLsbD 0 = b.getLsbD 0 := by
    rw [← getLsbD_last_shift hp a, h, getLsbD_last_shift hp b]
  have hhigh : a >>> 1 = b >>> 1 := by
    simp only [shift, hlow] at h
    split at h
    · exact (BitVec.xor_left_inj poly).mp h
    · exact h
  apply BitVec.eq_of_getLsbD_eq
  intro i _
  cases i with
  | zero => exact hlow
  | succ i =>
    have hi := congrArg (BitVec.getLsbD · i) hhigh
    simpa only [BitVec.getLsbD_ushiftRight, Nat.add_comm 1 i] using hi

lemma shifts_injective (hp : poly.getLsbD (w - 1) = true) (n : ℕ) : Function.Injective (shifts poly n) :=
  (shift_injective hp).iterate n

end Shifts

section Bytes

variable (poly : BitVec w)

lemma byteStep_eq_table (c : BitVec w) (p : UInt8) :
    byteStep poly c p = shifts poly 8 ((c ^^^ p.toBitVec.setWidth w) &&& 255) ^^^ (c >>> 8) := by
  have hbit : ∀ i, (255 : BitVec w).getLsbD i = (decide (i < w) && decide (i < 8)) := by
    intro i
    have h255 : Nat.testBit 255 i = decide (i < 8) := Nat.testBit_two_pow_sub_one 8 i
    rw [BitVec.ofNat_eq_ofNat, BitVec.getLsbD_ofNat, h255]
  have hsplit : ∀ x : BitVec w, x = (x &&& 255) ^^^ (x &&& ~~~255) := by
    intro x
    apply BitVec.eq_of_getLsbD_eq
    intro i hi
    simp only [BitVec.getLsbD_xor, BitVec.getLsbD_and, BitVec.getLsbD_not, hbit]
    cases x.getLsbD i <;> simp [hi]
  have hhigh : ∀ x : BitVec w, shifts poly 8 (x &&& ~~~255) = x >>> 8 := by
    intro x
    have hlow : ∀ i < 8, (x &&& ~~~255).getLsbD i = false := by
      intro i hi
      rw [BitVec.getLsbD_and, BitVec.getLsbD_not, hbit]
      by_cases hw : i < w
      · simp [hi, hw]
      · simp [hw]
    rw [shifts_eq_shiftRight poly hlow]
    apply BitVec.eq_of_getLsbD_eq
    intro i hi
    simp only [BitVec.getLsbD_ushiftRight, BitVec.getLsbD_and, BitVec.getLsbD_not, hbit]
    by_cases hw : 8 + i < w
    · simp [hw]
    · simp [BitVec.getLsbD_of_ge x (8 + i) (by omega)]
  have hbyte : (c ^^^ p.toBitVec.setWidth w) >>> 8 = c >>> 8 := by
    apply BitVec.eq_of_getLsbD_eq
    intro i _
    simp [BitVec.getLsbD_ushiftRight, BitVec.getLsbD_setWidth]
  rw [byteStep]
  conv_lhs => rw [hsplit (c ^^^ p.toBitVec.setWidth w), shifts_xor, hhigh, hbyte]

lemma getLsbD_word_of_le {ps : List UInt8} {i : ℕ} (h : 8 * ps.length ≤ i) :
    (word ps : BitVec w).getLsbD i = false := by
  induction ps generalizing i with
  | nil => simp [word]
  | cons p ps ih =>
    rw [List.length_cons] at h
    have hps := ih (i := i - 8) (by omega)
    simp [word, BitVec.getLsbD_of_ge p.toBitVec i (by omega), hps]

lemma word_injective {ps qs : List UInt8} (hlen : ps.length = qs.length) (hw : 8 * ps.length ≤ w)
    (h : (word ps : BitVec w) = word qs) : ps = qs := by
  induction ps generalizing qs with
  | nil => exact (List.length_eq_zero_iff.mp hlen.symm).symm
  | cons p ps ih =>
    cases qs with
    | nil => simp at hlen
    | cons q qs =>
      simp only [List.length_cons, Nat.add_right_cancel_iff] at hlen hw
      have hbits := fun i => congrArg (BitVec.getLsbD · i) h
      simp only [word, BitVec.getLsbD_xor, BitVec.getLsbD_setWidth, BitVec.getLsbD_shiftLeft] at hbits
      have hp : p = q := by
        apply UInt8.toBitVec_inj.mp
        apply BitVec.eq_of_getLsbD_eq
        intro i hi
        have hiw : i < w := by omega
        simpa [hi, hiw] using hbits i
      have hps : (word ps : BitVec w) = word qs := by
        apply BitVec.eq_of_getLsbD_eq
        intro i _
        by_cases hi : i + 8 < w
        · simpa [hi, BitVec.getLsbD_of_ge p.toBitVec (i + 8), BitVec.getLsbD_of_ge q.toBitVec (i + 8)]
            using hbits (i + 8)
        · rw [getLsbD_word_of_le (by omega), getLsbD_word_of_le (by omega)]
      rw [hp, ih hlen (by omega) hps]

lemma run_append (c : BitVec w) (ps qs : List UInt8) : run poly c (ps ++ qs) = run poly (run poly c ps) qs :=
  List.foldl_append

lemma run_eq_shifts_word (c : BitVec w) {ps : List UInt8} (hw : 8 * ps.length ≤ w) :
    run poly c ps = (shifts poly 8)^[ps.length] (c ^^^ word ps) := by
  induction ps generalizing c with
  | nil => simp [run, word]
  | cons p ps ih =>
    rw [List.length_cons] at hw
    have hstep : run poly c (p :: ps) = run poly (byteStep poly c p) ps := rfl
    have hfit : ∀ i, w ≤ i + 8 → (word ps : BitVec w).getLsbD i = false := fun i hi =>
      getLsbD_word_of_le (by omega)
    rw [hstep, ih _ (by omega), byteStep, ← shifts_xor_shiftLeft poly 8 _ hfit, List.length_cons,
      Function.iterate_succ_apply, word, BitVec.xor_assoc]

variable {poly}

lemma run_injective (hp : poly.getLsbD (w - 1) = true) (ps : List UInt8) :
    Function.Injective fun c => run poly c ps := by
  induction ps with
  | nil => exact fun _ _ h => h
  | cons p ps ih =>
    intro a b h
    exact (BitVec.xor_left_inj _).mp (shifts_injective hp 8 (ih h))

lemma run_burst (hp : poly.getLsbD (w - 1) = true) {c : BitVec w} {front mid mid' back : List UInt8}
    (hlen : mid.length = mid'.length) (hw : 8 * mid.length ≤ w)
    (h : run poly c (front ++ mid ++ back) = run poly c (front ++ mid' ++ back)) : mid = mid' := by
  simp only [run_append] at h
  have hmid := run_injective hp back h
  have hw' : 8 * mid'.length ≤ w := by omega
  rw [run_eq_shifts_word poly (run poly c front) hw, run_eq_shifts_word poly (run poly c front) hw',
    hlen] at hmid
  have hword := ((shifts_injective hp 8).iterate mid'.length) hmid
  exact word_injective hlen hw ((BitVec.xor_right_inj _).mp hword)

end Bytes

section Bits

variable (poly : BitVec w)

lemma getLsbD_bitWord (bs : List Bool) (i : ℕ) :
    (bitWord bs : BitVec w).getLsbD i = (decide (i < w) && bs.getD i false) := by
  induction bs generalizing i with
  | nil => simp [bitWord]
  | cons b bs ih =>
    cases i with
    | zero => cases b <;> simp [bitWord, lowBit]
    | succ i =>
      have hone : (lowBit b : BitVec w).getLsbD (i + 1) = false := by
        cases b <;> simp [lowBit]
      rw [bitWord, BitVec.getLsbD_xor, hone, BitVec.getLsbD_shiftLeft, ih]
      by_cases hi : i + 1 < w
      · have hiw : i < w := by omega
        simp [hi, hiw]
      · simp [hi]

lemma bitWord_lowFirst (p : UInt8) : (bitWord (lowFirst p) : BitVec w) = p.toBitVec.setWidth w := by
  apply BitVec.eq_of_getLsbD_eq
  intro i hi
  rw [getLsbD_bitWord, BitVec.getLsbD_setWidth, lowFirst, List.getD_eq_getElem?_getD, List.getElem?_map]
  by_cases h8 : i < 8
  · rw [List.getElem?_range h8]
    rfl
  · rw [List.getElem?_eq_none (by simpa using h8), BitVec.getLsbD_of_ge p.toBitVec i (by omega)]
    rfl

lemma foldl_bitStep (c : BitVec w) {bs : List Bool} (hw : bs.length ≤ w) :
    bs.foldl (bitStep poly) c = shifts poly bs.length (c ^^^ bitWord bs) := by
  induction bs generalizing c with
  | nil => simp [shifts, bitWord]
  | cons b bs ih =>
    rw [List.length_cons] at hw
    have hfit : ∀ i, w ≤ i + 1 → (bitWord bs : BitVec w).getLsbD i = false := by
      intro i hi
      rw [getLsbD_bitWord, List.getD_eq_getElem?_getD, List.getElem?_eq_none (by omega)]
      simp
    have hstep : bitStep poly c b ^^^ bitWord bs = shift poly (c ^^^ bitWord (b :: bs)) := by
      rw [bitWord, ← BitVec.xor_assoc]
      exact (shifts_xor_shiftLeft poly 1 _ hfit).symm
    rw [List.foldl_cons, ih _ (by omega), hstep, List.length_cons, shifts, shifts, Function.iterate_succ_apply]

lemma byteStep_eq_foldl (hw : 8 ≤ w) (c : BitVec w) (p : UInt8) :
    byteStep poly c p = (lowFirst p).foldl (bitStep poly) c := by
  have hlen : (lowFirst p).length = 8 := by simp [lowFirst]
  rw [foldl_bitStep poly c (hlen.trans_le hw), hlen, bitWord_lowFirst, byteStep]

lemma run_eq_foldl_bits (hw : 8 ≤ w) (c : BitVec w) (ps : List UInt8) :
    run poly c ps = (ps.flatMap lowFirst).foldl (bitStep poly) c := by
  induction ps generalizing c with
  | nil => rfl
  | cons p ps ih =>
    have hstep : run poly c (p :: ps) = run poly (byteStep poly c p) ps := rfl
    rw [hstep, ih, byteStep_eq_foldl poly hw, List.flatMap_cons, List.foldl_append]

end Bits

end StateProvenance.Library.Crc
