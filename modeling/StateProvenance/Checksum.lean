import StateProvenance.Digest
import StateProvenance.Library.Crc

/-! The table-driven CRC-32 is a reflected cyclic redundancy check: no change within four consecutive bytes
keeps it, and it is the check that takes in single bits. -/

namespace StateProvenance.Digest

open Library

def crcPolynomial : BitVec 32 := 0xEDB88320

lemma and_one_ne_zero_iff (c : UInt32) : c &&& 1 ≠ 0 ↔ c.toBitVec.getLsbD 0 = true := by
  rw [ne_eq, ← UInt32.toBitVec_inj, UInt32.toBitVec_and]
  have hone : c.toBitVec &&& (1 : UInt32).toBitVec = (BitVec.ofBool (c.toBitVec.getLsbD 0)).setWidth 32 :=
    BitVec.and_one_eq_setWidth_ofBool_getLsbD
  rw [hone]
  cases c.toBitVec.getLsbD 0 <;> decide

lemma toBitVec_shiftStep (c : UInt32) :
    (if c &&& 1 ≠ 0 then (c >>> 1) ^^^ 0xEDB88320 else c >>> 1).toBitVec =
      Crc.shift crcPolynomial c.toBitVec := by
  rw [Crc.shift]
  by_cases hc : c &&& 1 ≠ 0
  · rw [if_pos hc, if_pos ((and_one_ne_zero_iff c).mp hc)]
    rfl
  · rw [if_neg hc, if_neg (mt (and_one_ne_zero_iff c).mpr hc)]
    rfl

lemma toBitVec_crcTableMake (i : UInt32) :
    (crcTableMake i).toBitVec = Crc.shifts crcPolynomial 8 i.toBitVec := by
  have hfold : ∀ (l : List ℕ) (c : UInt32),
      (l.foldl (fun (c : UInt32) _ => if c &&& 1 ≠ 0 then (c >>> 1) ^^^ 0xEDB88320 else c >>> 1) c).toBitVec =
        Crc.shifts crcPolynomial l.length c.toBitVec := by
    intro l
    induction l with
    | nil => exact fun c => rfl
    | cons a l ih =>
      intro c
      rw [List.foldl_cons, ih, toBitVec_shiftStep]
      rfl
  exact hfold (List.range 8) i

lemma crcTable_getD {i : UInt32} (h : i.toNat < 256) : crcTable.getD i.toNat 0 = crcTableMake i := by
  rw [crcTable, List.getD_eq_getElem?_getD, List.getElem?_map, List.getElem?_range h]
  simp

lemma toBitVec_crcStep (crc : UInt32) (p : UInt8) :
    (crcStep crc p).toBitVec = Crc.byteStep crcPolynomial crc.toBitVec p := by
  have hlow : ((crc ^^^ p.toUInt32) &&& 0xFF).toNat < 256 := by
    rw [UInt32.toNat_and]
    exact Nat.and_lt_two_pow _ (by decide : (255 : ℕ) < 2 ^ 8)
  rw [crcStep, crcTable_getD hlow, Crc.byteStep_eq_table, UInt32.toBitVec_xor, toBitVec_crcTableMake]
  rfl

lemma toBitVec_foldl_crcStep (data : ByteString) (crc : UInt32) :
    (data.foldl crcStep crc).toBitVec = Crc.run crcPolynomial crc.toBitVec data := by
  induction data generalizing crc with
  | nil => rfl
  | cons p data ih =>
    rw [List.foldl_cons, ih, toBitVec_crcStep]
    rfl

lemma crc32_burst {front mid mid' back : ByteString} (hlen : mid.length = mid'.length)
    (hmid : mid.length ≤ 4) (h : crc32 (front ++ mid ++ back) = crc32 (front ++ mid' ++ back)) :
    mid = mid' := by
  have hstate := congrArg UInt32.toBitVec ((UInt32.xor_left_inj _).mp h)
  rw [toBitVec_foldl_crcStep, toBitVec_foldl_crcStep] at hstate
  exact Crc.run_burst (by decide) hlen (by omega) hstate

/-! The reference takes in the message bit by bit, each byte from its lowest bit on. -/

def crcBit (crc : UInt32) (bit : Bool) : UInt32 :=
  let crc := crc ^^^ bit.toUInt32
  if crc &&& 1 ≠ 0 then (crc >>> 1) ^^^ 0xEDB88320 else crc >>> 1

def crc32Bitwise (data : ByteString) : UInt32 :=
  (data.flatMap Crc.lowFirst).foldl crcBit 0xFFFFFFFF ^^^ 0xFFFFFFFF

lemma toBitVec_crcBit (crc : UInt32) (bit : Bool) :
    (crcBit crc bit).toBitVec = Crc.bitStep crcPolynomial crc.toBitVec bit := by
  have hbit : (crc ^^^ bit.toUInt32).toBitVec = crc.toBitVec ^^^ Crc.lowBit bit := by
    cases bit <;> rfl
  rw [crcBit, toBitVec_shiftStep, hbit, Crc.bitStep]

lemma toBitVec_foldl_crcBit (bits : List Bool) (crc : UInt32) :
    (bits.foldl crcBit crc).toBitVec = bits.foldl (Crc.bitStep crcPolynomial) crc.toBitVec := by
  induction bits generalizing crc with
  | nil => rfl
  | cons bit bits ih => rw [List.foldl_cons, ih, toBitVec_crcBit, List.foldl_cons]

theorem crc32_eq_crc32Bitwise (data : ByteString) : crc32 data = crc32Bitwise data := by
  have hstate : data.foldl crcStep 0xFFFFFFFF = (data.flatMap Crc.lowFirst).foldl crcBit 0xFFFFFFFF := by
    apply UInt32.toBitVec_inj.mp
    rw [toBitVec_foldl_crcStep, toBitVec_foldl_crcBit, Crc.run_eq_foldl_bits crcPolynomial (by decide)]
  rw [crc32, crc32Bitwise, hstate]

example : crc32Bitwise (ByteString.ofText "123456789") = 0xCBF43926 := by decide +kernel

end StateProvenance.Digest
