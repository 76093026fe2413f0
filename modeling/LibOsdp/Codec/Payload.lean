import LibOsdp.Base.Buffer
import LibOsdp.Base.ByteEnum
import LibOsdp.Error

/-!
# Payloads

How the crate copies a `Vec<u8>` into the fixed array of a C struct and how it reads one back
by the struct's length field. The length fields are bytes, words and C ints: the casts of the
source truncate, and what makes them exact is that the copy was accepted first.
-/

set_option autoImplicit false

namespace LibOsdp

open Base

/-- `Err(Error::Malformed(what))`. -/
abbrev malformed {α : Type} (what : String) : Res α := .error (.err (.malformed what))

/-- `Err(Error::InvalidArgument(what))`. -/
abbrev invalidArgument {α : Type} (what : String) : Res α := .error (.err (.invalidArgument what))

theorem malformed_decides {α : Type} (what : String) :
    Decides Fault.Malformed False (malformed what : Res α) :=
  Decides.error (Fault.malformed_malformed what)

/-- `copy_into::<N>`: `data` in a zeroed array of `n`, refused when it does not fit. -/
def copyInto (n : Nat) (data : List UInt8) : Res (Vector UInt8 n) :=
  if data.length ≤ n then .ok (padded 0 n data) else .error (.err (.tooLong n))

/-- `buf.get(..k).ok_or(Error::Malformed(what))`. -/
def slice {n : Nat} (buf : Vector UInt8 n) (k : Nat) (what : String) : Res (List UInt8) :=
  okOr (getTo buf k) (.err (.malformed what))

theorem copyInto_eq_ok {n : Nat} {data : List UInt8} {buf : Vector UInt8 n} :
    copyInto n data = .ok buf ↔ data.length ≤ n ∧ buf = padded 0 n data := by
  unfold copyInto
  split
  · simp [*, eq_comm]
  · simp [*]

theorem slice_eq_ok {n k : Nat} {buf : Vector UInt8 n} {what : String} {data : List UInt8} :
    slice buf k what = .ok data ↔ k ≤ n ∧ data = buf.toList.take k := by
  rw [slice, okOr_eq_ok, getTo_eq_some]

/-- A reader that only takes a payload out of its buffer. -/
theorem slice_bind_pure_eq_ok {α : Type} {n k : Nat} {buf : Vector UInt8 n} {what : String}
    {f : List UInt8 → α} {a : α} : (slice buf k what >>= fun data => pure (f data)) = .ok a ↔
      k ≤ n ∧ f (buf.toList.take k) = a := by
  rw [bind_pure_eq_ok]
  constructor
  · rintro ⟨data, taken, rfl⟩
    obtain ⟨fits, rfl⟩ := slice_eq_ok.1 taken
    exact ⟨fits, rfl⟩
  · rintro ⟨fits, rfl⟩
    exact ⟨_, slice_eq_ok.2 ⟨fits, rfl⟩, rfl⟩

/-- The first `k` bytes of a buffer, and zeroes in the rest of it. -/
def refilled {n : Nat} (buf : Vector UInt8 n) (k : Nat) : Vector UInt8 n :=
  padded 0 n (buf.toList.take k)

theorem copyInto_take {n k : Nat} {buf : Vector UInt8 n} (hk : k ≤ n) :
    copyInto n (buf.toList.take k) = .ok (refilled buf k) := by
  refine copyInto_eq_ok.2 ⟨?_, rfl⟩
  simp [hk]

theorem take_refilled {n k : Nat} {buf : Vector UInt8 n} (hk : k ≤ n) :
    (refilled buf k).toList.take k = buf.toList.take k := by
  rw [refilled, take_padded hk (by simp [hk]), List.take_take, Nat.min_self]

theorem copyInto_decides (n : Nat) (data : List UInt8) :
    Decides Fault.Refused (data.length ≤ n) (copyInto n data) := by
  unfold copyInto
  split
  · assumption
  · exact ⟨by assumption, trivial⟩

theorem slice_decides {n : Nat} (buf : Vector UInt8 n) (k : Nat) (what : String) :
    Decides Fault.Malformed (k ≤ n) (slice buf k what) :=
  (Decides.okOr (Fault.malformed_malformed what)).congr isSome_getTo

/-- A copied payload is read back by its length. -/
theorem slice_copyInto {n k : Nat} {data : List UInt8} {buf : Vector UInt8 n} {what : String}
    (h : copyInto n data = .ok buf) (hk : k = data.length) : slice buf k what = .ok data := by
  obtain ⟨hlen, rfl⟩ := copyInto_eq_ok.1 h
  rw [hk, slice, getTo_padded hlen, okOr_some]

section Casts

variable {n : Nat} {data : List UInt8} {buf : Vector UInt8 n}

/-- `data.len() as u8` is exact for what fits a buffer of less than 256. -/
theorem toNat_len8 (h : copyInto n data = .ok buf) (hn : n < 256) :
    (UInt8.ofNat data.length).toNat = data.length :=
  UInt8.toNat_ofNat_of_lt' (Nat.lt_of_le_of_lt (copyInto_eq_ok.1 h).1 hn)

/-- `data.len() as u16` is exact for what fits a buffer of less than 65536. -/
theorem toNat_len16 (h : copyInto n data = .ok buf) (hn : n < 65536) :
    (UInt16.ofNat data.length).toNat = data.length :=
  UInt16.toNat_ofNat_of_lt' (Nat.lt_of_le_of_lt (copyInto_eq_ok.1 h).1 hn)

end Casts

/-- `usize::try_from` of a C int. -/
def usizeOfInt (k : Int32) : Option Nat :=
  if 0 ≤ k.toInt then some k.toInt.toNat else none

theorem usizeOfInt_eq_some {k : Int32} {n : Nat} : usizeOfInt k = some n ↔ k.toInt = n := by
  unfold usizeOfInt
  split <;> simp only [Option.some.injEq, reduceCtorEq, false_iff] <;> omega

/-- The slice a signed length selects, as the key press and status decoders take it. -/
def sliceInt {n : Nat} (buf : Vector UInt8 n) (k : Int32) (what : String) : Res (List UInt8) :=
  okOr ((usizeOfInt k).bind fun k => getTo buf k) (.err (.malformed what))

theorem sliceInt_eq_ok {n : Nat} {k : Int32} {buf : Vector UInt8 n} {what : String}
    {data : List UInt8} :
    sliceInt buf k what = .ok data ↔
      0 ≤ k.toInt ∧ k.toInt ≤ n ∧ data = buf.toList.take k.toInt.toNat := by
  simp only [sliceInt, okOr_eq_ok, Option.bind_eq_some_iff, usizeOfInt_eq_some, getTo_eq_some]
  constructor
  · rintro ⟨m, hm, hmn, rfl⟩
    rw [hm]
    exact ⟨by omega, by omega, rfl⟩
  · rintro ⟨h0, hn, rfl⟩
    exact ⟨k.toInt.toNat, by omega, by omega, rfl⟩

theorem sliceInt_decides {n : Nat} (buf : Vector UInt8 n) (k : Int32) (what : String) :
    Decides Fault.Malformed (0 ≤ k.toInt ∧ k.toInt ≤ n) (sliceInt buf k what) := by
  refine (Decides.okOr (Fault.malformed_malformed what)).congr ?_
  rw [Option.isSome_iff_exists]
  simp only [← okOr_eq_ok (e := Fault.err (.malformed what))]
  constructor
  · rintro ⟨data, h⟩
    obtain ⟨h0, hn, -⟩ := sliceInt_eq_ok.1 h
    exact ⟨h0, hn⟩
  · rintro ⟨h0, hn⟩
    exact ⟨_, sliceInt_eq_ok.2 ⟨h0, hn, rfl⟩⟩

/-- `data.len() as i32` is exact for what fits a buffer of less than 2^31. -/
theorem toInt_len32 {n : Nat} {data : List UInt8} {buf : Vector UInt8 n}
    (h : copyInto n data = .ok buf) (hn : n < 2147483648) :
    (Int32.ofNat data.length).toInt = data.length := by
  have := (copyInto_eq_ok.1 h).1
  exact Int32.toInt_ofNat_of_lt (by omega)

/-- A payload copied under a signed length is read back by it. -/
theorem sliceInt_copyInto {n : Nat} {data : List UInt8} {buf : Vector UInt8 n} {what : String}
    (h : copyInto n data = .ok buf) (hn : n < 2147483648) :
    sliceInt buf (Int32.ofNat data.length) what = .ok data := by
  have hk := toInt_len32 h hn
  obtain ⟨hlen, rfl⟩ := copyInto_eq_ok.1 h
  refine sliceInt_eq_ok.2 ⟨by omega, by omega, ?_⟩
  rw [hk, Int.toNat_natCast, take_padded hlen (Nat.le_refl _), List.take_length]

/-- A length-prefixed payload of a raw struct: the length field beside the bytes of its buffer. -/
structure PayloadField where
  length : Int
  buffer : List UInt8

/-- The length is one its buffer has. -/
def PayloadField.Fits (f : PayloadField) : Prop := 0 ≤ f.length ∧ f.length ≤ f.buffer.length

/-- The first `length` bytes of the buffer. -/
def PayloadField.bytes (f : PayloadField) : List UInt8 := f.buffer.take f.length.toNat

/-- The field of a buffer whose length is unsigned. -/
def PayloadField.of {n : Nat} (length : Nat) (buffer : Vector UInt8 n) : PayloadField :=
  ⟨length, buffer.toList⟩

@[simp] theorem PayloadField.of_fits {n k : Nat} {buf : Vector UInt8 n} :
    (PayloadField.of k buf).Fits ↔ k ≤ n := by
  simp [Fits, of]

@[simp] theorem PayloadField.mk_fits {n : Nat} {k : Int} {buf : Vector UInt8 n} :
    (PayloadField.mk k buf.toList).Fits ↔ 0 ≤ k ∧ k ≤ n := by
  simp [Fits]

@[simp] theorem PayloadField.of_bytes {n k : Nat} {buf : Vector UInt8 n} :
    (PayloadField.of k buf).bytes = buf.toList.take k := by
  simp [bytes, of]

/-- The field carries `data` and nothing else: zeroes follow its bytes, and its length, `count`
    in the unit of the field, is exact. -/
structure PayloadField.Holds (f : PayloadField) (count : Nat) (data : List UInt8) : Prop where
  length_eq : f.length = count
  buffer_eq : f.buffer = data ++ List.replicate (f.buffer.length - data.length) 0

/-- A copied payload beside its length is a field that holds it. -/
theorem PayloadField.holds_copyInto {n count : Nat} {k : Int} {data : List UInt8}
    {buf : Vector UInt8 n} (h : copyInto n data = .ok buf) (hk : k = count) :
    (PayloadField.mk k buf.toList).Holds count data := by
  obtain ⟨hlen, rfl⟩ := copyInto_eq_ok.1 h
  refine ⟨hk, ?_⟩
  rw [Vector.length_toList]
  exact toList_padded hlen

theorem PayloadField.of_holds_copyInto {n k count : Nat} {data : List UInt8} {buf : Vector UInt8 n}
    (h : copyInto n data = .ok buf) (hk : k = count) : (PayloadField.of k buf).Holds count data :=
  holds_copyInto h (by rw [hk])

/-- `as_le` of a vendor code. -/
def asLe (code : UInt8 × UInt8 × UInt8) : UInt32 :=
  code.1.toUInt32 ||| (code.2.1.toUInt32 <<< 8) ||| (code.2.2.toUInt32 <<< 16)

/-- The first three of `to_le_bytes`. -/
def leBytes3 (word : UInt32) : UInt8 × UInt8 × UInt8 :=
  (word.toUInt8, (word >>> 8).toUInt8, (word >>> 16).toUInt8)

theorem lowBytes_getElem (i : Nat) (hi : i < 32) : (16777215#32)[i] = decide (i < 24) := by
  revert i
  decide

/-- Three bytes of a word are read from it, and its top byte is not. -/
theorem asLe_leBytes3 (word : UInt32) : asLe (leBytes3 word) = word &&& 0xFFFFFF := by
  simp only [leBytes3, asLe, ← UInt32.toBitVec_inj]
  ext i hi
  simp only [UInt32.toBitVec_or, UInt32.toBitVec_shiftLeft, UInt8.toBitVec_toUInt32,
    UInt32.toBitVec_toUInt8, UInt32.toBitVec_shiftRight, UInt32.toBitVec_and]
  by_cases h8 : i < 8
  · have h : i < 16 ∧ i < 24 := by omega
    simp [lowBytes_getElem, h8, h, BitVec.getLsbD_eq_getElem hi]
  · by_cases h16 : i < 16
    · have h : i < 24 ∧ i - 8 < 8 ∧ 8 + (i - 8) = i := by omega
      simp [lowBytes_getElem, h8, h16, h, BitVec.getLsbD_eq_getElem hi]
    · by_cases h24 : i < 24
      · have h : ¬ i - 8 < 8 ∧ i - 16 < 8 ∧ 16 + (i - 16) = i := by omega
        simp [lowBytes_getElem, h8, h16, h24, h, BitVec.getLsbD_eq_getElem hi]
      · have h : ¬ i - 8 < 8 ∧ ¬ i - 16 < 8 := by omega
        simp [lowBytes_getElem, h8, h16, h24, h]

/-- A vendor code survives its word. -/
theorem leBytes3_asLe (code : UInt8 × UInt8 × UInt8) : leBytes3 (asLe code) = code := by
  obtain ⟨a, b, c⟩ := code
  simp only [leBytes3, asLe, Prod.mk.injEq, ← UInt8.toBitVec_inj]
  refine ⟨?_, ?_, ?_⟩ <;> ext i hi
  · simp
  · have h : 8 + i < 32 ∧ 8 + i < 16 ∧ i < 32 := by omega
    simp [hi, h]
  · have h : 16 + i < 32 ∧ i < 32 ∧ 8 ≤ 16 + i ∧ 8 ≤ 16 + i - 8 := by omega
    simp [hi, h, BitVec.getLsbD_of_ge]

end LibOsdp
