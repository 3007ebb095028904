import StateProvenance.Coordinator
import StateProvenance.Library.Numerals
import Mathlib.Data.List.TakeWhile

/-! Printed numbers read back with base 16: an identifier comes back as it was, a decimal number as another
one. -/

namespace StateProvenance

open Library.Numerals Nat

lemma toList_loop (bs : ByteArray) (i : ℕ) (r : List UInt8) :
    ByteArray.toList.loop bs i r = r.reverse ++ bs.data.toList.drop i := by
  fun_induction ByteArray.toList.loop bs i r with
  | case1 i r hlt ih =>
    have hi : i < bs.data.toList.length := hlt
    have hget : bs.get! i = bs.data.toList[i] := by
      change bs.data[i]! = bs.data.toList[i]
      rw [getElem!_pos bs.data i hlt, Array.getElem_toList]
    rw [ih, List.reverse_cons, List.append_assoc, List.drop_eq_getElem_cons hi, hget]
    rfl
  | case2 i r hge =>
    rw [List.drop_eq_nil_of_le (Nat.not_lt.mp hge), List.append_nil]

lemma ofText_eq (s : String) : ByteString.ofText s = s.toUTF8.data.toList := by
  rw [ByteString.ofText, ByteArray.toList, toList_loop]
  rfl

lemma length_ofText (s : String) : (ByteString.ofText s).length = s.utf8ByteSize := by
  rw [ofText_eq]
  rfl

lemma ofText_ofList (l : List Char) : ByteString.ofText (String.ofList l) = l.flatMap String.utf8EncodeChar := by
  rw [ofText_eq, String.toUTF8_eq_toByteArray, String.toByteArray_ofList, List.utf8Encode, List.toList_data_toByteArray]

lemma ofText_append (s t : String) : ByteString.ofText (s ++ t) = ByteString.ofText s ++ ByteString.ofText t := by
  have h := ofText_ofList (s.toList ++ t.toList)
  rw [List.flatMap_append, ← ofText_ofList, ← ofText_ofList, ← String.toList_append] at h
  simpa using h

def digitByte (d : ℕ) : UInt8 := if d < 10 then 0x30 + d.toUInt8 else 0x57 + d.toUInt8

section Digit

variable {d : ℕ} (hd : d < 16)

include hd

lemma utf8EncodeChar_digitChar : String.utf8EncodeChar (Nat.digitChar d) = [digitByte d] := by
  have h : ∀ d : Fin 16, String.utf8EncodeChar (Nat.digitChar d) = [digitByte d] := by decide
  exact h ⟨d, hd⟩

lemma hexDigit_digitByte : hexDigit (digitByte d) = some d := by
  have h : ∀ d : Fin 16, hexDigit (digitByte d) = some d.val := by decide
  exact h ⟨d, hd⟩

lemma digitByte_notMem : digitByte d ∉ ([0x20, 0x2B, 0x2D, 0x3B, 0x3D, 0x58, 0x78] : List UInt8) := by
  have h : ∀ d : Fin 16, digitByte d ∉ ([0x20, 0x2B, 0x2D, 0x3B, 0x3D, 0x58, 0x78] : List UInt8) := by decide
  exact h ⟨d, hd⟩

lemma isSpace_digitByte : isSpace (digitByte d) = false := by
  have h : ∀ d : Fin 16, isSpace (digitByte d) = false := by decide
  exact h ⟨d, hd⟩

end Digit

lemma hexValue_digits {ds : List ℕ} (h : ∀ d ∈ ds, d < 16) :
    hexValue (ds.map digitByte) = ofDigits 16 ds.reverse := by
  have hall : ((ds.map digitByte).takeWhile fun b => (hexDigit b).isSome) = ds.map digitByte := by
    rw [List.takeWhile_eq_self_iff]
    intro b hb
    obtain ⟨d, hd, rfl⟩ := List.mem_map.mp hb
    rw [hexDigit_digitByte (h d hd), Option.isSome_some]
  rw [hexValue, hall, List.foldl_map, ← foldl_eq_ofDigits]
  apply List.foldl_ext
  intro v d hd
  rw [hexDigit_digitByte (h d hd), Option.getD_some]

def saturate (v : ℕ) : UInt64 := if v ≥ 2 ^ 64 then 0xFFFFFFFFFFFFFFFF else v.toUInt64

lemma strtoull16_prefixed {ds : List ℕ} (h : ∀ d ∈ ds, d < 16) :
    strtoull16 (0x30 :: 0x78 :: ds.map digitByte) = saturate (ofDigits 16 ds.reverse) := by
  have hspace : (0x30 :: 0x78 :: ds.map digitByte).dropWhile isSpace = 0x30 :: 0x78 :: ds.map digitByte := rfl
  rw [strtoull16, hspace, saturate, ← hexValue_digits h]
  rfl

lemma strtoull16_digits {ds : List ℕ} (h : ∀ d ∈ ds, d < 16) :
    strtoull16 (ds.map digitByte) = saturate (ofDigits 16 ds.reverse) := by
  rw [saturate, ← hexValue_digits h]
  cases ds with
  | nil => rfl
  | cons a ds =>
    obtain ⟨ha, hds⟩ := List.forall_mem_cons.mp h
    have hspace : ((a :: ds).map digitByte).dropWhile isSpace = (a :: ds).map digitByte := by
      rw [List.map_cons, List.dropWhile_cons_of_neg]
      simp [isSpace_digitByte ha]
    have hsign := digitByte_notMem ha
    simp only [List.mem_cons, List.not_mem_nil, or_false, not_or] at hsign
    have hprefix : ∀ t, ds.map digitByte ≠ 0x78 :: t ∧ ds.map digitByte ≠ 0x58 :: t := by
      intro t
      cases ds with
      | nil => simp
      | cons b ds =>
        have hb := digitByte_notMem (hds b List.mem_cons_self)
        simp only [List.mem_cons, List.not_mem_nil, or_false, not_or] at hb
        simp [hb]
    rw [strtoull16, hspace]
    simp [hsign, hprefix]

def hexDigits (v : UInt64) : List ℕ := (List.range 16).map fun i => v.toNat / 16 ^ (15 - i) % 16

lemma hexDigits_lt (v : UInt64) : ∀ d ∈ hexDigits v, d < 16 := by
  intro d hd
  obtain ⟨i, -, rfl⟩ := List.mem_map.mp hd
  exact Nat.mod_lt _ (by decide)

lemma flatMap_utf8EncodeChar {ds : List ℕ} (h : ∀ d ∈ ds, d < 16) :
    (ds.map Nat.digitChar).flatMap String.utf8EncodeChar = ds.map digitByte := by
  induction ds with
  | nil => rfl
  | cons d ds ih =>
    obtain ⟨hd, hds⟩ := List.forall_mem_cons.mp h
    rw [List.map_cons, List.flatMap_cons, utf8EncodeChar_digitChar hd, ih hds, List.map_cons]
    rfl

lemma ofText_hex16 (v : UInt64) : ByteString.ofText (ScalarIdentifier.hex16 v) = (hexDigits v).map digitByte := by
  have hchars : ScalarIdentifier.hex16 v = String.ofList ((hexDigits v).map Nat.digitChar) := by
    rw [ScalarIdentifier.hex16, hexDigits, List.map_map]
    rfl
  rw [hchars, ofText_ofList, flatMap_utf8EncodeChar (hexDigits_lt v)]

lemma ofText_toText {Tag : Type} (id : ScalarIdentifier Tag) :
    ByteString.ofText id.toText = 0x30 :: 0x78 :: (hexDigits id.value).map digitByte := by
  have hprefix : ByteString.ofText "0x" = [0x30, 0x78] := ofText_eq "0x"
  rw [ScalarIdentifier.toText, ofText_append, hprefix, ofText_hex16]
  rfl

lemma ofDigits_hexDigits (v : UInt64) : ofDigits 16 (hexDigits v).reverse = v.toNat := by
  have hreverse : (hexDigits v).reverse = (List.range 16).map fun i => v.toNat / 16 ^ i % 16 := rfl
  rw [hreverse, ofDigits_range]
  exact Nat.mod_eq_of_lt v.toNat_lt

lemma saturate_toNat (v : UInt64) : saturate v.toNat = v := by
  rw [saturate, if_neg (Nat.not_le.mpr v.toNat_lt)]
  simp

lemma hex16_injective : Function.Injective ScalarIdentifier.hex16 := by
  refine Function.LeftInverse.injective (g := fun text => strtoull16 (ByteString.ofText text)) fun v => ?_
  change strtoull16 (ByteString.ofText (ScalarIdentifier.hex16 v)) = v
  rw [ofText_hex16, strtoull16_digits (hexDigits_lt v), ofDigits_hexDigits, saturate_toNat]

theorem hx_toText {Tag : Type} (id : ScalarIdentifier Tag) : hx (ByteString.ofText id.toText) = id.value := by
  rw [hx, ofText_toText, strtoull16_prefixed (hexDigits_lt _), ofDigits_hexDigits, saturate_toNat]

lemma toDigits_digits (n : ℕ) : ∃ ds : List ℕ, Nat.toDigits 10 n = ds.map Nat.digitChar ∧
    (∀ d ∈ ds, d < 10) ∧ ofDigits 16 ds.reverse = ofDigits 16 (digits 10 n) := by
  induction n using Nat.strong_induction_on with
  | _ n ih =>
    by_cases hn : n < 10
    · refine ⟨[n], Nat.toDigits_of_lt_base hn, by simp [hn], ?_⟩
      rw [ofDigits_digits_of_lt 16 hn]
      simp
    · obtain ⟨ds, htext, hds, hvalue⟩ := ih (n / 10) (by omega)
      refine ⟨ds ++ [n % 10], ?_, ?_, ?_⟩
      · rw [Nat.toDigits_of_base_le (by decide) (Nat.not_lt.mp hn), htext, List.map_append]
        rfl
      · rw [List.forall_mem_append]
        exact ⟨hds, by simp; omega⟩
      · have hdigits : digits 10 n = n % 10 :: digits 10 (n / 10) := digits_def' (by decide) (by omega)
        rw [List.reverse_append, List.reverse_singleton, List.singleton_append, hdigits, ofDigits_cons,
          ofDigits_cons, hvalue]

lemma ofText_toString (n : ℕ) : ∃ ds : List ℕ, ds ≠ [] ∧ ByteString.ofText (toString n) = ds.map digitByte ∧
    (∀ d ∈ ds, d < 10) ∧ ofDigits 16 ds.reverse = ofDigits 16 (digits 10 n) := by
  obtain ⟨ds, htext, hds, hvalue⟩ := toDigits_digits n
  have hne : ds ≠ [] := by
    rintro rfl
    exact Nat.toDigits_ne_nil htext
  refine ⟨ds, hne, ?_, hds, hvalue⟩
  have hchars : toString n = String.ofList (Nat.toDigits 10 n) := rfl
  rw [hchars, ofText_ofList, htext, flatMap_utf8EncodeChar fun d hd => (hds d hd).trans (by decide)]

lemma hx_decimal (n : ℕ) : hx (ByteString.ofText (toString n)) = saturate (ofDigits 16 (digits 10 n)) := by
  obtain ⟨ds, -, htext, hds, hvalue⟩ := ofText_toString n
  rw [hx, htext, strtoull16_digits (fun d hd => (hds d hd).trans (by decide)), hvalue]

lemma hx_decimal_iff (v : UInt64) :
    hx (ByteString.ofText (toString v.toNat)) = v ↔ v.toNat < 10 ∨ v.toNat = 2 ^ 64 - 1 := by
  have hlt : v.toNat < 2 ^ 64 := v.toNat_lt
  rw [hx_decimal]
  by_cases hv : v.toNat < 10
  · rw [ofDigits_digits_of_lt 16 hv, saturate_toNat]
    simp [hv]
  · have hgt := lt_ofDigits_digits (c := 16) (by decide) (by decide) (Nat.not_lt.mp hv)
    rw [saturate]
    split
    · have hmax : (0xFFFFFFFFFFFFFFFF : UInt64).toNat = 2 ^ 64 - 1 := by decide
      rw [← UInt64.toNat_inj, hmax]
      omega
    · next hsmall =>
      -- A read value that fits is larger than the printed one.
      rw [← UInt64.toNat_inj, toNat_toUInt64 (Nat.not_le.mp hsmall)]
      omega

end StateProvenance
