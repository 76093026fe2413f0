import LibOsdp.Codec.Reading
import LibOsdp.Codec.Setup
import LibOsdp.Sys.Notification
import Mathlib.Data.Nat.Digits.Defs

/-!
# PD identity

The identity a PD advertises. LibOSDP keeps the OUI, the serial number and the firmware version
as words, least significant byte first, and the version and the model as C ints. A reader takes
its bytes with `to_le_bytes`, a writer packs them with shifts; both are compared here with the
number the bytes are the base 256 digits of.
-/

set_option autoImplicit false

namespace LibOsdp

open Base Sys

/-- `pdid.rs`: PD ID information advertised by the PD. -/
structure PdId where
  version : UInt8
  model : UInt8
  vendorCode : UInt8 × UInt8 × UInt8
  serialNumber : UInt8 × UInt8 × UInt8 × UInt8
  firmwareVersion : UInt8 × UInt8 × UInt8
deriving DecidableEq, Repr

/-- `u8::try_from(value).unwrap_or(0)` of a C int. -/
def u8OrZero (value : Int32) : UInt8 :=
  if 0 ≤ value.toInt ∧ value.toInt < 256 then UInt8.ofNat value.toInt.toNat else 0

/-- `From<osdp_pd_id> for PdId`. -/
def PdId.fromRaw (value : OsdpPdId) : PdId where
  version := u8OrZero value.version
  model := u8OrZero value.model
  vendorCode := leBytes3 value.vendorCode
  serialNumber :=
    (value.serialNumber.toUInt8, (value.serialNumber >>> 8).toUInt8,
      (value.serialNumber >>> 16).toUInt8, (value.serialNumber >>> 24).toUInt8)
  firmwareVersion := leBytes3 value.firmwareVersion

/-- `as_le` of a serial number. -/
def asLe4 (code : UInt8 × UInt8 × UInt8 × UInt8) : UInt32 :=
  code.1.toUInt32 ||| (code.2.1.toUInt32 <<< 8) ||| (code.2.2.1.toUInt32 <<< 16)
    ||| (code.2.2.2.toUInt32 <<< 24)

/-- `From<PdId> for osdp_pd_id`. -/
def PdId.intoRaw (value : PdId) : OsdpPdId where
  version := Int32.ofNat value.version.toNat
  model := Int32.ofNat value.model.toNat
  vendorCode := asLe value.vendorCode
  serialNumber := asLe4 value.serialNumber
  firmwareVersion := asLe value.firmwareVersion

/-- The number three bytes are, the first of them the least significant. -/
def leValue3 (code : UInt8 × UInt8 × UInt8) : Nat :=
  Nat.ofDigits 256 [code.1.toNat, code.2.1.toNat, code.2.2.toNat]

/-- The number four bytes are. -/
def leValue4 (code : UInt8 × UInt8 × UInt8 × UInt8) : Nat :=
  Nat.ofDigits 256 [code.1.toNat, code.2.1.toNat, code.2.2.1.toNat, code.2.2.2.toNat]

theorem leValue3_eq (code : UInt8 × UInt8 × UInt8) :
    leValue3 code = code.1.toNat + 256 * code.2.1.toNat + 65536 * code.2.2.toNat := by
  simp only [leValue3, Nat.ofDigits_cons, Nat.ofDigits_nil]
  omega

theorem leValue4_eq (code : UInt8 × UInt8 × UInt8 × UInt8) :
    leValue4 code = code.1.toNat + 256 * code.2.1.toNat + 65536 * code.2.2.1.toNat
      + 16777216 * code.2.2.2.toNat := by
  simp only [leValue4, Nat.ofDigits_cons, Nat.ofDigits_nil]
  omega

/-- A byte shifted above the bits of a word is added to it. -/
theorem toNat_or_shiftLeft {low : UInt32} {byte : UInt8} {k : Nat} (hk : k ≤ 24)
    (hlow : low.toNat < 2 ^ k) :
    (low ||| (byte.toUInt32 <<< UInt32.ofNat k)).toNat = low.toNat + 2 ^ k * byte.toNat := by
  have hbyte := byte.toNat_lt
  have hshift : (UInt32.ofNat k).toNat = k := UInt32.toNat_ofNat_of_lt' (by rw [UInt32.size]; omega)
  have hfit : byte.toNat * 2 ^ k < 2 ^ 32 := by
    calc byte.toNat * 2 ^ k < 2 ^ 8 * 2 ^ k := by
          exact Nat.mul_lt_mul_of_pos_right hbyte (Nat.two_pow_pos k)
      _ = 2 ^ (8 + k) := (Nat.pow_add 2 8 k).symm
      _ ≤ 2 ^ 32 := Nat.pow_le_pow_right (by decide) (by omega)
  rw [UInt32.toNat_or, UInt32.toNat_shiftLeft, hshift, Nat.mod_eq_of_lt (by omega : k < 32),
    UInt8.toNat_toUInt32, Nat.shiftLeft_eq, Nat.mod_eq_of_lt hfit, Nat.or_comm,
    Nat.mul_comm byte.toNat, ← Nat.two_pow_add_eq_or_of_lt hlow]
  omega

theorem toNat_asLe (code : UInt8 × UInt8 × UInt8) : (asLe code).toNat = leValue3 code := by
  obtain ⟨a, b, c⟩ := code
  have ha := a.toNat_lt
  have hb := b.toNat_lt
  have h1 : a.toUInt32.toNat = a.toNat := UInt8.toNat_toUInt32 a
  have h2 : (a.toUInt32 ||| (b.toUInt32 <<< 8)).toNat = a.toUInt32.toNat + 256 * b.toNat :=
    @toNat_or_shiftLeft a.toUInt32 b 8 (by decide) (by rw [h1]; exact ha)
  have h3 : (asLe (a, b, c)).toNat =
      (a.toUInt32 ||| (b.toUInt32 <<< 8)).toNat + 65536 * c.toNat :=
    @toNat_or_shiftLeft (a.toUInt32 ||| (b.toUInt32 <<< 8)) c 16 (by decide)
      (by show _ < 65536; omega)
  rw [leValue3_eq, h3, h2, h1]

theorem toNat_asLe4 (code : UInt8 × UInt8 × UInt8 × UInt8) :
    (asLe4 code).toNat = leValue4 code := by
  obtain ⟨a, b, c, d⟩ := code
  have ha := a.toNat_lt
  have hb := b.toNat_lt
  have hc := c.toNat_lt
  have hlow : (asLe (a, b, c)).toNat = a.toNat + 256 * b.toNat + 65536 * c.toNat :=
    (toNat_asLe _).trans (leValue3_eq _)
  have h : (asLe4 (a, b, c, d)).toNat = (asLe (a, b, c)).toNat + 16777216 * d.toNat :=
    @toNat_or_shiftLeft (asLe (a, b, c)) d 24 (by decide)
      (by show _ < 16777216; rw [hlow]; omega)
  rw [leValue4_eq, h, hlow]

example : asLe4 (0, 0, 0, 7) = 0x07000000 := by decide

/-- Three bytes taken from a word are its lower three. -/
theorem leValue3_leBytes3 (word : UInt32) : leValue3 (leBytes3 word) = word.toNat % 16777216 := by
  rw [leValue3_eq]
  simp only [leBytes3, UInt32.toNat_toUInt8, UInt32.toNat_shiftRight, UInt32.reduceToNat,
    Nat.reduceMod, Nat.shiftRight_eq_div_pow, Nat.reducePow]
  omega

theorem leValue4_inj {a b : UInt8 × UInt8 × UInt8 × UInt8} (h : leValue4 a = leValue4 b) :
    a = b := by
  obtain ⟨a1, a2, a3, a4⟩ := a
  obtain ⟨b1, b2, b3, b4⟩ := b
  have := a1.toNat_lt
  have := a2.toNat_lt
  have := a3.toNat_lt
  have := b1.toNat_lt
  have := b2.toNat_lt
  have := b3.toNat_lt
  simp only [leValue4_eq] at h
  simp only [Prod.mk.injEq, ← UInt8.toNat_inj]
  omega

namespace PdId

/-- A version or model the C int is one byte of. -/
def InByte (value : Int32) : Prop := 0 ≤ value.toInt ∧ value.toInt ≤ 255

instance (value : Int32) : Decidable (InByte value) := inferInstanceAs (Decidable (_ ∧ _))

/-- What the reader is to make of a C identity, field by field. -/
structure ReadsAs (raw : OsdpPdId) (id : PdId) : Prop where
  version : (id.version.toNat : Int) = if InByte raw.version then raw.version.toInt else 0
  model : (id.model.toNat : Int) = if InByte raw.model then raw.model.toInt else 0
  vendorCode : leValue3 id.vendorCode = raw.vendorCode.toNat % 2 ^ 24
  serialNumber : leValue4 id.serialNumber = raw.serialNumber.toNat
  firmwareVersion : leValue3 id.firmwareVersion = raw.firmwareVersion.toNat % 2 ^ 24

theorem u8OrZero_of_inByte {value : Int32} (h : InByte value) :
    ((u8OrZero value).toNat : Int) = value.toInt := by
  obtain ⟨hnonneg, hle⟩ := h
  rw [u8OrZero, if_pos ⟨hnonneg, by omega⟩, UInt8.toNat_ofNat_of_lt' (by rw [UInt8.size]; omega)]
  omega

theorem u8OrZero_of_not_inByte {value : Int32} (h : ¬ InByte value) : u8OrZero value = 0 := by
  refine if_neg fun h' => h ⟨h'.1, ?_⟩
  omega

theorem toNat_u8OrZero (value : Int32) :
    ((u8OrZero value).toNat : Int) = if InByte value then value.toInt else 0 := by
  split <;> rename_i h
  · exact u8OrZero_of_inByte h
  · rw [u8OrZero_of_not_inByte h]
    rfl

/-- **Every C identity is read**, and each field of it as it should be. -/
theorem readsAs_fromRaw (raw : OsdpPdId) : ReadsAs raw (fromRaw raw) where
  version := toNat_u8OrZero raw.version
  model := toNat_u8OrZero raw.model
  vendorCode := leValue3_leBytes3 raw.vendorCode
  serialNumber := by
    have := raw.serialNumber.toNat_lt
    rw [leValue4_eq]
    simp only [fromRaw, UInt32.toNat_toUInt8, UInt32.toNat_shiftRight, UInt32.reduceToNat,
      Nat.reduceMod, Nat.shiftRight_eq_div_pow, Nat.reducePow]
    omega
  firmwareVersion := leValue3_leBytes3 raw.firmwareVersion

/-- `as i32` of a byte. -/
theorem toInt_ofByte (byte : UInt8) : (Int32.ofNat byte.toNat).toInt = byte.toNat := by
  have := byte.toNat_lt
  exact Int32.toInt_ofNat_of_lt (by omega)

@[simp] theorem u8OrZero_ofByte (byte : UInt8) : u8OrZero (Int32.ofNat byte.toNat) = byte := by
  have hlt := byte.toNat_lt
  have hin : InByte (Int32.ofNat byte.toNat) := by
    rw [InByte, toInt_ofByte]
    omega
  have hval := u8OrZero_of_inByte hin
  rw [toInt_ofByte] at hval
  exact UInt8.toNat_inj.1 (by omega)

/-- **An identity survives its C struct.** -/
theorem fromRaw_intoRaw (id : PdId) : fromRaw id.intoRaw = id := by
  have hread := readsAs_fromRaw id.intoRaw
  have hserial : (fromRaw id.intoRaw).serialNumber = id.serialNumber :=
    leValue4_inj (hread.serialNumber.trans (toNat_asLe4 id.serialNumber))
  obtain ⟨version, model, vendorCode, serialNumber, firmwareVersion⟩ := id
  simp only [fromRaw, intoRaw, u8OrZero_ofByte, leBytes3_asLe, mk.injEq, true_and, and_true]
  exact hserial

/-- What is left of a C identity that has been read. -/
def normalised (raw : OsdpPdId) : OsdpPdId where
  version := if InByte raw.version then raw.version else 0
  model := if InByte raw.model then raw.model else 0
  vendorCode := raw.vendorCode &&& 0xFFFFFF
  serialNumber := raw.serialNumber
  firmwareVersion := raw.firmwareVersion &&& 0xFFFFFF

theorem ofNat_u8OrZero (value : Int32) :
    Int32.ofNat (u8OrZero value).toNat = if InByte value then value else 0 := by
  rw [← Int32.toInt_inj, toInt_ofByte, toNat_u8OrZero]
  split <;> rfl

theorem intoRaw_fromRaw (raw : OsdpPdId) : (fromRaw raw).intoRaw = normalised raw := by
  have hserial : (fromRaw raw).intoRaw.serialNumber = raw.serialNumber := by
    rw [← UInt32.toNat_inj]
    exact (toNat_asLe4 _).trans (readsAs_fromRaw raw).serialNumber
  simp only [intoRaw] at hserial
  simp only [intoRaw, normalised, OsdpPdId.mk.injEq, hserial]
  exact ⟨ofNat_u8OrZero _, ofNat_u8OrZero _, asLe_leBytes3 _, trivial, asLe_leBytes3 _⟩

/-- A C identity with nothing outside its bytes. -/
structure InRange (raw : OsdpPdId) : Prop where
  version : InByte raw.version
  model : InByte raw.model
  vendorCode : raw.vendorCode.toNat < 2 ^ 24
  firmwareVersion : raw.firmwareVersion.toNat < 2 ^ 24

theorem and_lowBytes {word : UInt32} (h : word.toNat < 2 ^ 24) : word &&& 0xFFFFFF = word := by
  rw [← asLe_leBytes3, ← UInt32.toNat_inj, toNat_asLe, leValue3_leBytes3]
  exact Nat.mod_eq_of_lt h

theorem normalised_of_inRange {raw : OsdpPdId} (h : InRange raw) : normalised raw = raw := by
  simp only [normalised, if_pos h.version, if_pos h.model, and_lowBytes h.vendorCode,
    and_lowBytes h.firmwareVersion]

end PdId

/-- An encoder and a decoder that carry vendor codes in words: the word out is the code packed,
    and a word back is the one read, less its top byte. -/
structure CarriesCode {V R : Type} (code : V → UInt8 × UInt8 × UInt8) (word : R → UInt32)
    (tryInto : V → Res R) (tryFrom : R → Res V) : Prop where
  out : ∀ value raw, tryInto value = .ok raw → word raw = asLe (code value) ∧ tryFrom raw = .ok value
  back : ∀ raw value, tryFrom raw = .ok value →
    leValue3 (code value) = (word raw).toNat % 2 ^ 24 ∧
      ∃ again, tryInto value = .ok again ∧ word again = word raw &&& 0xFFFFFF

theorem MfgCommand.carriesCode : CarriesCode MfgCommand.vendorCode OsdpCmdMfg.vendorCode
    MfgCommand.tryInto MfgCommand.tryFrom where
  out value raw h := by
    refine ⟨?_, round_trip h⟩
    obtain ⟨data, -, rfl⟩ := bind_pure_eq_ok.1 h
    rfl
  back raw value h := by
    obtain ⟨hfit, rfl⟩ := slice_bind_pure_eq_ok.1 h
    refine ⟨leValue3_leBytes3 raw.vendorCode, ?_⟩
    simp only [tryInto, copyInto_take hfit, ok_bind, pure_eq_ok, Except.ok.injEq, exists_eq_left']
    exact asLe_leBytes3 raw.vendorCode

theorem MfgReply.carriesCode : CarriesCode MfgReply.vendorCode OsdpEventMfgrep.vendorCode
    MfgReply.tryInto MfgReply.tryFrom where
  out value raw h := by
    refine ⟨?_, round_trip h⟩
    obtain ⟨data, -, rfl⟩ := bind_pure_eq_ok.1 h
    rfl
  back raw value h := by
    obtain ⟨hfit, rfl⟩ := slice_bind_pure_eq_ok.1 h
    refine ⟨leValue3_leBytes3 raw.vendorCode, ?_⟩
    simp only [tryInto, copyInto_take hfit, ok_bind, pure_eq_ok, Except.ok.injEq, exists_eq_left']
    exact asLe_leBytes3 raw.vendorCode

/-- **The PD identity codec.** An identity survives its C struct, a C identity in range survives
    being read, and any other is read with an odd version or model as zero, the top bytes of the
    two codes dropped and nothing else changed. The manufacturer codes are packed alike. -/
theorem pd_id_codec_exact :
    (∀ id : PdId, PdId.fromRaw id.intoRaw = id) ∧
    (∀ raw, PdId.InRange raw → (PdId.fromRaw raw).intoRaw = raw) ∧
    (∀ raw, PdId.ReadsAs raw (PdId.fromRaw raw)) ∧
    CarriesCode MfgCommand.vendorCode OsdpCmdMfg.vendorCode MfgCommand.tryInto MfgCommand.tryFrom ∧
    CarriesCode MfgReply.vendorCode OsdpEventMfgrep.vendorCode MfgReply.tryInto
      MfgReply.tryFrom := by
  refine ⟨PdId.fromRaw_intoRaw, fun raw h => ?_, PdId.readsAs_fromRaw, MfgCommand.carriesCode,
    MfgReply.carriesCode⟩
  rw [PdId.intoRaw_fromRaw, PdId.normalised_of_inRange h]

theorem pd_id_codec_exact_in_range :
    let raw : OsdpPdId := {
      version := 255, model := 35, vendorCode := 0xFEB2A0, serialNumber := 0x87654321 }
    PdId.InRange raw ∧ (PdId.fromRaw raw).intoRaw = raw := by
  intro raw
  have hin : PdId.InRange raw := ⟨by decide, by decide, by decide, by decide⟩
  exact ⟨hin, pd_id_codec_exact.2.1 raw hin⟩

end LibOsdp
