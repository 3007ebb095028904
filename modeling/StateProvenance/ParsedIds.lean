import StateProvenance.PrintedNumbers

/-! The parser of identifiers against the numerals it stands for. The guard before each multiply-add stops
exactly the numerals of 2^64 and more. -/

namespace StateProvenance

open Library.Numerals Nat

def upperDigitByte (d : ℕ) : UInt8 := if d < 10 then 0x30 + d.toUInt8 else 0x37 + d.toUInt8

def DigitOf (base : ℕ) (c : UInt8) (d : ℕ) : Prop := d < base ∧ (c = digitByte d ∨ c = upperDigitByte d)

def NumeralOf (base : ℕ) (s : ByteString) (n : ℕ) : Prop :=
  ∃ ds, List.Forall₂ (DigitOf base) s ds ∧ n = ofDigits base ds.reverse

inductive Denotes : ByteString → ℕ → Prop
  | decimal {s : ByteString} {n : ℕ} (hs : s ≠ []) (h : NumeralOf 10 s n) : Denotes s n
  | hexadecimal {x : UInt8} {s : ByteString} {n : ℕ} (hx : x = 0x78 ∨ x = 0x58) (hs : s ≠ [])
      (h : NumeralOf 16 s n) : Denotes (0x30 :: x :: s) n

namespace ScalarIdentifier

lemma digitOf_sound {hex : Bool} {c : UInt8} {d : UInt64} (h : digitOf hex c = some d) :
    DigitOf (parseBase hex).toNat c d.toNat := by
  have hall : ∀ (hex : Bool) (c : Fin 256), (digitOf hex (UInt8.ofFin c)).all fun d =>
      d.toNat < (parseBase hex).toNat ∧
        (UInt8.ofFin c = digitByte d.toNat ∨ UInt8.ofFin c = upperDigitByte d.toNat) := by decide +kernel
  have hc := hall hex c.toFin
  change (digitOf hex c).all _ at hc
  rw [h] at hc
  simpa [DigitOf] using hc

lemma digitOf_complete {hex : Bool} {c : UInt8} {d : ℕ} (h : DigitOf (parseBase hex).toNat c d) :
    digitOf hex c = some d.toUInt64 := by
  have hall : ∀ (hex : Bool) (d : Fin (parseBase hex).toNat), digitOf hex (digitByte d) = some d.val.toUInt64 ∧
      digitOf hex (upperDigitByte d) = some d.val.toUInt64 := by decide +kernel
  obtain ⟨hd, rfl | rfl⟩ := h
  · exact (hall hex ⟨d, hd⟩).1
  · exact (hall hex ⟨d, hd⟩).2

lemma parseBase_pos (hex : Bool) : 0 < (parseBase hex).toNat := by
  cases hex with
  | false => decide
  | true => decide

lemma guard_iff (hex : Bool) (v d : UInt64) : ¬ v > (0xFFFFFFFFFFFFFFFF - d) / parseBase hex ↔
    v.toNat * (parseBase hex).toNat + d.toNat < 2 ^ 64 := by
  have hd : d.toNat < 2 ^ 64 := d.toNat_lt
  have hmax : (0xFFFFFFFFFFFFFFFF : UInt64).toNat = 2 ^ 64 - 1 := by decide
  have hle : d ≤ 0xFFFFFFFFFFFFFFFF := by
    rw [UInt64.le_iff_toNat_le, hmax]
    omega
  rw [gt_iff_lt, UInt64.not_lt, UInt64.le_iff_toNat_le, UInt64.toNat_div, UInt64.toNat_sub_of_le _ _ hle, hmax,
    Nat.le_div_iff_mul_le (parseBase_pos hex)]
  omega

lemma toNat_mul_add {v b d : UInt64} (h : v.toNat * b.toNat + d.toNat < 2 ^ 64) :
    (v * b + d).toNat = v.toNat * b.toNat + d.toNat := by
  rw [UInt64.toNat_add, UInt64.toNat_mul, Nat.mod_eq_of_lt (by omega : v.toNat * b.toNat < 2 ^ 64),
    Nat.mod_eq_of_lt h]

lemma parseStep_exact {hex : Bool} {v w : UInt64} {c : UInt8} (h : parseStep hex v c = some w) :
    ∃ d, digitOf hex c = some d ∧ v.toNat * (parseBase hex).toNat + d.toNat < 2 ^ 64 ∧
      w.toNat = v.toNat * (parseBase hex).toNat + d.toNat := by
  obtain ⟨d, hd, hstep⟩ := Option.bind_eq_some_iff.mp h
  split at hstep
  · cases hstep
  · next hguard =>
    have hfits := (guard_iff hex v d).mp hguard
    obtain rfl := Option.some.inj hstep
    exact ⟨d, hd, hfits, toNat_mul_add hfits⟩

lemma parseStep_eq_some_iff {hex : Bool} {v w : UInt64} {c : UInt8} : parseStep hex v c = some w ↔
    ∃ d, DigitOf (parseBase hex).toNat c d ∧ w.toNat = (parseBase hex).toNat * v.toNat + d := by
  rw [Nat.mul_comm]
  constructor
  · intro h
    obtain ⟨d, hd, -, hw⟩ := parseStep_exact h
    exact ⟨d.toNat, digitOf_sound hd, hw⟩
  · rintro ⟨d, hd, hw⟩
    have hlt : w.toNat < 2 ^ 64 := w.toNat_lt
    have htoNat : d.toUInt64.toNat = d := toNat_toUInt64 (by omega)
    have hfits : v.toNat * (parseBase hex).toNat + d.toUInt64.toNat < 2 ^ 64 := by omega
    have hsum : v * parseBase hex + d.toUInt64 = w := by
      rw [← UInt64.toNat_inj, toNat_mul_add hfits]
      omega
    rw [parseStep, digitOf_complete hd, Option.bind_eq_bind, Option.bind_some,
      if_neg ((guard_iff hex v _).mpr hfits), hsum]
    rfl

lemma foldlM_parseStep_iff {hex : Bool} (s : ByteString) (v w : UInt64) :
    s.foldlM (parseStep hex) v = some w ↔ ∃ ds, List.Forall₂ (DigitOf (parseBase hex).toNat) s ds ∧
      w.toNat = ds.foldl (fun v d => (parseBase hex).toNat * v + d) v.toNat := by
  induction s generalizing v with
  | nil => simp [UInt64.toNat_inj, eq_comm]
  | cons c s ih =>
    rw [List.foldlM_cons, Option.bind_eq_bind, Option.bind_eq_some_iff]
    constructor
    · rintro ⟨u, hu, hw⟩
      obtain ⟨d, hd, hvalue⟩ := parseStep_eq_some_iff.mp hu
      obtain ⟨ds, hds, hrest⟩ := (ih u).mp hw
      refine ⟨d :: ds, hds.cons hd, ?_⟩
      rw [List.foldl_cons, ← hvalue, hrest]
    · rintro ⟨ds, hds, hrest⟩
      obtain ⟨d, ds, hd, htail, rfl⟩ := List.forall₂_cons_left_iff.mp hds
      rw [List.foldl_cons] at hrest
      -- The numeral read so far is at most the whole one, so it fits as well.
      have hle := le_foldl_digits (parseBase_pos hex) ds ((parseBase hex).toNat * v.toNat + d)
      have hlt : w.toNat < 2 ^ 64 := w.toNat_lt
      have htoNat : ((parseBase hex).toNat * v.toNat + d).toUInt64.toNat = (parseBase hex).toNat * v.toNat + d :=
        toNat_toUInt64 (by omega)
      refine ⟨((parseBase hex).toNat * v.toNat + d).toUInt64, parseStep_eq_some_iff.mpr ⟨d, hd, htoNat⟩, ?_⟩
      exact (ih _).mpr ⟨ds, htail, by rw [htoNat, hrest]⟩

lemma foldlM_parseStep_zero_iff {hex : Bool} (s : ByteString) (w : UInt64) :
    s.foldlM (parseStep hex) 0 = some w ↔ NumeralOf (parseBase hex).toNat s w.toNat := by
  rw [foldlM_parseStep_iff, NumeralOf]
  have hzero : (0 : UInt64).toNat = 0 := rfl
  simp only [hzero, foldl_eq_ofDigits]

lemma isHex_iff (s : ByteString) :
    isHex s = true ↔ ∃ x t, s = 0x30 :: x :: t ∧ (x = 0x78 ∨ x = 0x58) ∧ t ≠ [] := by
  constructor
  · intro h
    match s with
    | [] => simp [isHex] at h
    | [_] => simp [isHex] at h
    | a :: x :: t =>
      simp only [isHex, List.length_cons, List.getElem?_cons_zero, List.getElem?_cons_succ, Bool.and_eq_true,
        Bool.or_eq_true, decide_eq_true_eq, beq_iff_eq, Option.some.injEq] at h
      obtain ⟨hlen, rfl, hx⟩ := h
      exact ⟨x, t, rfl, hx, List.ne_nil_of_length_pos (by omega)⟩
  · rintro ⟨x, t, rfl, hx, ht⟩
    have hlen := List.length_pos_of_ne_nil ht
    simp only [isHex, List.length_cons, List.getElem?_cons_zero, List.getElem?_cons_succ, Bool.and_eq_true,
      Bool.or_eq_true, decide_eq_true_eq, beq_iff_eq, Option.some.injEq]
    exact ⟨by omega, trivial, hx⟩

lemma isHex_of_decimal {s : ByteString} {n : ℕ} (h : NumeralOf 10 s n) : isHex s = false := by
  rw [Bool.eq_false_iff]
  intro hhex
  obtain ⟨x, t, rfl, hx, -⟩ := (isHex_iff s).mp hhex
  obtain ⟨ds, hds, -⟩ := h
  obtain ⟨_, _, -, htail, -⟩ := List.forall₂_cons_left_iff.mp hds
  obtain ⟨d, _, hd, -, -⟩ := List.forall₂_cons_left_iff.mp htail
  have hdigit : digitOf false x = some d.toUInt64 := digitOf_complete hd
  rcases hx with rfl | rfl
  · cases hdigit
  · cases hdigit

def digitBytes (s : ByteString) : ByteString := if isHex s then s.drop 2 else s

lemma denotes_iff (s : ByteString) (n : ℕ) :
    Denotes s n ↔ digitBytes s ≠ [] ∧ NumeralOf (parseBase (isHex s)).toNat (digitBytes s) n := by
  constructor
  · intro h
    cases h with
    | decimal hs h =>
      rw [digitBytes, isHex_of_decimal h]
      exact ⟨hs, h⟩
    | hexadecimal hx hs h =>
      rw [digitBytes, (isHex_iff _).mpr ⟨_, _, rfl, hx, hs⟩]
      exact ⟨hs, h⟩
  · rintro ⟨hs, h⟩
    cases hhex : isHex s with
    | false =>
      rw [digitBytes, hhex] at hs h
      exact .decimal hs h
    | true =>
      rw [digitBytes, hhex] at hs h
      obtain ⟨x, t, rfl, hx, -⟩ := (isHex_iff s).mp hhex
      exact .hexadecimal hx hs h

variable {Tag : Type}

lemma tryParse_eq_some_iff (s : ByteString) (id : ScalarIdentifier Tag) :
    tryParse s = some id ↔ Denotes s id.value.toNat := by
  have htry : (tryParse s : Option (ScalarIdentifier Tag)) =
      if digitBytes s = [] then none else ((digitBytes s).foldlM (parseStep (isHex s)) 0).map mk := by
    cases s with
    | nil => rfl
    | cons c s => simp [tryParse, digitBytes]
  rw [htry, denotes_iff, ← foldlM_parseStep_zero_iff]
  by_cases hnil : digitBytes s = []
  · simp [hnil]
  · rw [if_neg hnil, Option.map_eq_some_iff]
    constructor
    · rintro ⟨v, hv, rfl⟩
      exact ⟨hnil, hv⟩
    · rintro ⟨-, hv⟩
      exact ⟨id.value, hv, rfl⟩

lemma denotes_toText (id : ScalarIdentifier Tag) : Denotes (ByteString.ofText id.toText) id.value.toNat := by
  have hdigits : List.Forall₂ (DigitOf 16) ((hexDigits id.value).map digitByte) (hexDigits id.value) := by
    rw [List.forall₂_map_left_iff, List.forall₂_same]
    intro d hd
    exact ⟨hexDigits_lt _ d hd, Or.inl rfl⟩
  rw [ofText_toText]
  exact .hexadecimal (Or.inl rfl) (by simp [hexDigits]) ⟨_, hdigits, (ofDigits_hexDigits _).symm⟩

def NeverWraps (s : ByteString) : Prop :=
  ∀ front c back v w, digitBytes s = front ++ c :: back → front.foldlM (parseStep (isHex s)) 0 = some v →
    parseStep (isHex s) v c = some w → ∃ d, digitOf (isHex s) c = some d ∧
      v.toNat * (parseBase (isHex s)).toNat + d.toNat < 2 ^ 64 ∧
      w.toNat = v.toNat * (parseBase (isHex s)).toNat + d.toNat

lemma neverWraps (s : ByteString) : NeverWraps s :=
  fun _ _ _ _ _ _ _ hstep => parseStep_exact hstep

theorem tryParse_exact :
    (∀ s (id : ScalarIdentifier Tag), tryParse s = some id ↔ Denotes s id.value.toNat) ∧
    (∀ s, (tryParse s : Option (ScalarIdentifier Tag)).isSome ↔ ∃ n < 2 ^ 64, Denotes s n) ∧
    (∀ s, NeverWraps s) ∧
    ∀ id : ScalarIdentifier Tag, tryParse (ByteString.ofText id.toText) = some id := by
  refine ⟨tryParse_eq_some_iff, ?_, neverWraps, ?_⟩
  · intro s
    rw [Option.isSome_iff_exists]
    constructor
    · rintro ⟨id, hid⟩
      exact ⟨id.value.toNat, id.value.toNat_lt, (tryParse_eq_some_iff s id).mp hid⟩
    · rintro ⟨n, hn, h⟩
      have htoNat : n.toUInt64.toNat = n := toNat_toUInt64 hn
      refine ⟨⟨n.toUInt64⟩, (tryParse_eq_some_iff s _).mpr ?_⟩
      rwa [htoNat]
  · intro id
    exact (tryParse_eq_some_iff _ id).mpr (denotes_toText id)

example : (tryParse (ByteString.ofText "18446744073709551615") : Option StateId) = some ⟨0xFFFFFFFFFFFFFFFF⟩ ∧
    (tryParse (ByteString.ofText "18446744073709551616") : Option StateId) = none := by decide +kernel

end ScalarIdentifier

end StateProvenance
