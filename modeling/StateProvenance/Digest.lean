import StateProvenance.Enums
import StateProvenance.Library.Mixing

/-! Deterministic hashing and integrity checking. The overloads of `with` that take a 64-bit value, a
signed value or an enumerator cast to `int` all mix one 64-bit word. -/

namespace StateProvenance.Digest

def crcTableMake (i : UInt32) : UInt32 :=
  (List.range 8).foldl (fun c _ => if c &&& 1 ≠ 0 then (c >>> 1) ^^^ 0xEDB88320 else c >>> 1) i

def crcTable : List UInt32 := (List.range 256).map fun i => crcTableMake i.toUInt32

def crcStep (crc : UInt32) (p : UInt8) : UInt32 :=
  crcTable.getD ((crc ^^^ p.toUInt32) &&& 0xFF).toNat 0 ^^^ (crc >>> 8)

def crc32 (data : ByteString) : UInt32 := data.foldl crcStep 0xFFFFFFFF ^^^ 0xFFFFFFFF

def fnv1a64 (data : ByteString) : UInt64 :=
  data.foldl (fun hash p => (hash ^^^ p.toUInt64) * 0x100000001b3) 0xcbf29ce484222325

def mix64 (x : UInt64) : UInt64 :=
  let x := x + 0x9e3779b97f4a7c15
  let x := (x ^^^ (x >>> 30)) * 0xbf58476d1ce4e5b9
  let x := (x ^^^ (x >>> 27)) * 0x94d049bb133111eb
  x ^^^ (x >>> 31)

def mix (h v : UInt64) : UInt64 := (h ^^^ mix64 v) * 0x9e3779b97f4a7c15

def mixString (h : UInt64) (sv : ByteString) : UInt64 := (h ^^^ mix64 (fnv1a64 sv)) * 0x9e3779b97f4a7c15

def digestString (h : UInt64) : String := ScalarIdentifier.hex16 h

structure StableDigest where
  h : UInt64 := 0

namespace StableDigest

def withWord (sd : StableDigest) (v : UInt64) : StableDigest := ⟨mix sd.h v⟩

def withEnum {E : Type} [EnumClass E] (sd : StableDigest) (v : EnumValue E) : StableDigest :=
  sd.withWord v.toByte.toUInt64

def withId {Tag : Type} (sd : StableDigest) (id : ScalarIdentifier Tag) : StableDigest :=
  sd.withWord id.get

def withString (sd : StableDigest) (sv : ByteString) : StableDigest := ⟨mixString sd.h sv⟩

def value (sd : StableDigest) : UInt64 := sd.h

def str (sd : StableDigest) : String := digestString sd.h

end StableDigest

open Library.Mixing

lemma mix64_injective : Function.Injective mix64 := by
  have hadd : Function.Injective fun x : UInt64 => x + 0x9e3779b97f4a7c15 :=
    fun x y h => (UInt64.add_left_inj _).mp h
  have hfirst : Function.Injective fun x : UInt64 => (x ^^^ (x >>> 30)) * 0xbf58476d1ce4e5b9 :=
    (mul_injective 0x96de1b173f119089 (by decide)).comp (xorShift_injective_uint64 (by decide))
  have hsecond : Function.Injective fun x : UInt64 => (x ^^^ (x >>> 27)) * 0x94d049bb133111eb :=
    (mul_injective 0x319642b2d24d8ec3 (by decide)).comp (xorShift_injective_uint64 (by decide))
  have hlast : Function.Injective fun x : UInt64 => x ^^^ (x >>> 31) := xorShift_injective_uint64 (by decide)
  exact hlast.comp (hsecond.comp (hfirst.comp hadd))

lemma absorbing_mix : Absorbing mix := by
  have hmul : Function.Injective fun x : UInt64 => x * 0x9e3779b97f4a7c15 :=
    mul_injective 0xf1de83e19937733d (by decide)
  refine ⟨fun v h h' he => ?_, fun h v v' he => ?_⟩
  · exact (UInt64.xor_left_inj _).mp (hmul he)
  · exact mix64_injective ((UInt64.xor_right_inj _).mp (hmul he))

namespace StableDigest

lemma value_foldl_withWord (l : List UInt64) (sd : StableDigest) :
    (l.foldl withWord sd).value = l.foldl mix sd.h := by
  induction l generalizing sd with
  | nil => rfl
  | cons v l ih => exact ih (sd.withWord v)

theorem one_change_kept :
    (∀ (seed : UInt64) (l l' : List UInt64), DifferOnce l l' →
      (l.foldl withWord ⟨seed⟩).value ≠ (l'.foldl withWord ⟨seed⟩).value) ∧
    (∀ sd : StableDigest, Function.Injective fun v => (sd.withWord v).value) ∧
    ∀ v, Function.Injective fun sd : StableDigest => (sd.withWord v).value := by
  refine ⟨fun seed l l' hd => ?_, fun sd v v' he => absorbing_mix.value sd.h he, fun v => ?_⟩
  · rw [value_foldl_withWord, value_foldl_withWord]
    exact absorbing_mix.foldl_ne_of_differOnce hd seed
  · rintro ⟨h⟩ ⟨h'⟩ he
    exact congrArg mk (absorbing_mix.state v he)

theorem one_change_kept_pair :
    (([1, 2] : List UInt64).foldl withWord ⟨7⟩).value ≠ (([1, 3] : List UInt64).foldl withWord ⟨7⟩).value := by
  refine one_change_kept.1 7 [1, 2] [1, 3] ⟨rfl, 1, by decide, fun i hi => ?_⟩
  match i with
  | 0 => exact absurd rfl hi
  | 1 => rfl
  | i + 2 => exact absurd rfl hi

end StableDigest

lemma mixString_eq (h : UInt64) (sv : ByteString) : mixString h sv = mix h (fnv1a64 sv) := rfl

end StateProvenance.Digest
