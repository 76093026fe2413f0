import LibOsdp.Base.Result
import Mathlib.Data.Nat.Bitwise

/-!
# Bits in an array of bytes

A predicate on indices as an array of bytes, the lowest bit of a byte first, and the test of one
of its bits that indexes the array and masks the byte.
-/

set_option autoImplicit false

namespace LibOsdp.Base

/-- The byte of `bits` from `8 * k` on. -/
def packByte (bits : Nat → Bool) (k : Nat) : UInt8 :=
  UInt8.ofNat (Nat.ofBits fun j : Fin 8 => bits (8 * k + j))

def pack (bits : Nat → Bool) (bytes : Nat) : List UInt8 := (List.range bytes).map (packByte bits)

/-- `bytes[i / 8] & (1 << (i % 8)) != 0`, or nothing where the index is out of bounds. -/
def testBit? (bytes : List UInt8) (i : Nat) : Option Bool :=
  bytes[i / 8]?.map fun byte => byte &&& (1 <<< UInt8.ofNat (i % 8)) != 0

theorem and_shiftLeft_bne_zero (byte : UInt8) {k : Nat} (lt : k < 8) :
    (byte &&& (1 <<< UInt8.ofNat k) != 0) = byte.toNat.testBit k := by
  have mask : ((1 : UInt8) <<< UInt8.ofNat k).toNat = 2 ^ k := by
    have small : (2 : Nat) ^ k < 256 := Nat.pow_lt_pow_right (by decide) lt
    rw [UInt8.toNat_shiftLeft, UInt8.toNat_ofNat_of_lt' (show k < 256 by omega),
      Nat.mod_eq_of_lt lt, UInt8.toNat_one, Nat.one_shiftLeft, Nat.mod_eq_of_lt small]
  have masked : (byte &&& (1 <<< UInt8.ofNat k)).toNat = (byte.toNat.testBit k).toNat * 2 ^ k := by
    rw [UInt8.toNat_and, mask, Nat.and_two_pow]
  have pos : 0 < 2 ^ k := Nat.two_pow_pos k
  cases set : byte.toNat.testBit k
  · rw [set, Bool.toNat_false, Nat.zero_mul] at masked
    simpa using UInt8.toNat_inj.mp (masked.trans UInt8.toNat_zero.symm)
  · rw [set, Bool.toNat_true, Nat.one_mul] at masked
    rw [bne_iff_ne]
    rintro zero
    rw [zero, UInt8.toNat_zero] at masked
    omega

/-- What is tested is the bit of the byte. -/
theorem testBit?_of_byte {bytes : List UInt8} {i : Nat} {byte : UInt8}
    (found : bytes[i / 8]? = some byte) :
    testBit? bytes i = some (byte.toNat.testBit (i % 8)) := by
  have low : i % 8 < 8 := Nat.mod_lt _ (by decide)
  rw [testBit?, found, Option.map_some, and_shiftLeft_bne_zero _ low]

theorem getElem?_pack {bits : Nat → Bool} {bytes i : Nat} (lt : i < 8 * bytes) (rest : List UInt8) :
    (pack bits bytes ++ rest)[i / 8]? = some (packByte bits (i / 8)) := by
  have inside : i / 8 < (pack bits bytes).length := by
    rw [pack, List.length_map, List.length_range]
    omega
  rw [List.getElem?_append_left inside, List.getElem?_eq_getElem inside]
  simp [pack]

theorem testBit_packByte {bits : Nat → Bool} {i : Nat} :
    (packByte bits (i / 8)).toNat.testBit (i % 8) = bits i := by
  have low : i % 8 < 8 := Nat.mod_lt _ (by decide)
  have whole : 8 * (i / 8) + i % 8 = i := Nat.div_add_mod i 8
  rw [packByte, UInt8.toNat_ofNat_of_lt' (Nat.ofBits_lt_two_pow _), Nat.testBit_ofBits_lt _ _ low]
  exact congrArg bits whole

end LibOsdp.Base
