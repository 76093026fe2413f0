import LibOsdp.Codec.Payload
import LibOsdp.Sys.Event

/-!
# Card reads, key presses and manufacturer replies

A card read counts bits and carries the bytes that hold them; a key press counts bytes in a C
int; the manufacturer replies count theirs in a byte.
-/

set_option autoImplicit false

namespace LibOsdp

open Base Sys

/-- `events.rs`: card formats. -/
inductive CardFormat where
  | unspecified | wiegand
deriving DecidableEq, Repr

namespace CardFormat

/-- `TryFrom<osdp_event_cardread_format_e> for CardFormat`. -/
def tryFrom (value : UInt8) : Res CardFormat :=
  if value = OSDP_CARD_FMT_RAW_UNSPECIFIED then .ok unspecified
  else if value = OSDP_CARD_FMT_RAW_WIEGAND then .ok wiegand
  else malformed "card format"

/-- `From<CardFormat> for osdp_event_cardread_format_e`. -/
def toU8 : CardFormat → UInt8
  | unspecified => OSDP_CARD_FMT_RAW_UNSPECIFIED
  | wiegand => OSDP_CARD_FMT_RAW_WIEGAND

/-- The card formats; a CP ignores OSDP's ASCII format, which has no value here. -/
def codes : List UInt8 := [OSDP_CARD_FMT_RAW_UNSPECIFIED, OSDP_CARD_FMT_RAW_WIEGAND]

@[simp] theorem tryFrom_toU8 (value : CardFormat) : tryFrom value.toU8 = .ok value := by
  cases value <;> rfl

theorem toU8_of_tryFrom {byte : UInt8} {value : CardFormat} (h : tryFrom byte = .ok value) :
    value.toU8 = byte := by
  unfold tryFrom at h
  split at h
  · rename_i hbyte
    cases h
    exact hbyte.symm
  split at h
  · rename_i hbyte
    cases h
    exact hbyte.symm
  · cases h

theorem tryFrom_decides (value : UInt8) :
    Decides Fault.Malformed (value ∈ codes) (tryFrom value) := by
  refine ((Decides.ok _).orElse <| (Decides.ok _).orElse <| malformed_decides _).congr ?_
  simp [codes]

end CardFormat

/-- `events.rs`: card read activity on the PD. -/
structure CardRead where
  readerNo : Int32
  format : CardFormat
  direction : Bool
  nrBits : Nat
  data : List UInt8
deriving DecidableEq, Repr

/-- `nr_bits.div_ceil(8)`. -/
def divCeil8 (bits : Nat) : Nat := (bits + 7) / 8

namespace CardRead

/-- `TryFrom<osdp_event_cardread> for CardRead`. -/
def tryFrom (value : OsdpEventCardread) : Res CardRead := do
  let format ← CardFormat.tryFrom value.format
  let nrBits := value.length.toNat
  let data ← slice value.data (divCeil8 nrBits) "card data length"
  return {
    readerNo := value.readerNo, format, direction := value.direction == 1, nrBits, data }

/-- `TryFrom<CardRead> for osdp_event_cardread`. -/
def tryInto (value : CardRead) : Res OsdpEventCardread := do
  let data ← copyInto OSDP_EVENT_CARDREAD_MAX_DATALEN value.data
  if value.nrBits > value.data.length * 8 then invalidArgument "more card bits than data"
  else return {
    readerNo := value.readerNo
    format := value.format.toU8
    direction := if value.direction then 1 else 0
    length := UInt16.ofNat value.nrBits
    data }

/-- What the round trip makes of a card read: the bytes that hold its bits. -/
def norm (value : CardRead) : CardRead :=
  { value with data := value.data.take (divCeil8 value.nrBits) }

/-- The bits of a card read that was accepted are few enough for their length field. -/
theorem toNat_nrBits {value : CardRead} {buf : Vector UInt8 64}
    (h : copyInto OSDP_EVENT_CARDREAD_MAX_DATALEN value.data = .ok buf)
    (hbits : ¬ value.nrBits > value.data.length * 8) :
    (UInt16.ofNat value.nrBits).toNat = value.nrBits := by
  have hfit : value.data.length ≤ 64 := (copyInto_eq_ok.1 h).1
  exact UInt16.toNat_ofNat_of_lt' (by rw [UInt16.size]; omega)

theorem round_trip {value : CardRead} {raw : OsdpEventCardread} (h : value.tryInto = .ok raw) :
    tryFrom raw = .ok value.norm := by
  simp only [tryInto, bind_eq_ok] at h
  obtain ⟨data, hdata, h⟩ := h
  split at h
  · cases h
  · rename_i hbits
    simp only [pure_eq_ok, Except.ok.injEq] at h
    subst h
    have hlen := toNat_nrBits hdata hbits
    obtain ⟨hfit, rfl⟩ := copyInto_eq_ok.1 hdata
    simp only [OSDP_EVENT_CARDREAD_MAX_DATALEN] at hfit
    have hbytes : divCeil8 value.nrBits ≤ value.data.length := by
      rw [divCeil8]
      omega
    have hslice : slice (padded 0 64 value.data) (divCeil8 value.nrBits) "card data length" =
        .ok (value.data.take (divCeil8 value.nrBits)) :=
      slice_eq_ok.2 ⟨by omega, (take_padded (by omega) hbytes).symm⟩
    have hdirection : ((if value.direction then 1 else 0 : Int32) == 1) = value.direction := by
      cases value.direction <;> rfl
    simp only [tryFrom, hlen, hslice, hdirection, CardFormat.tryFrom_toU8, ok_bind, pure_eq_ok, norm]

theorem tryFrom_decides (raw : OsdpEventCardread) :
    Decides Fault.Malformed
      (raw.format ∈ CardFormat.codes ∧
        divCeil8 raw.length.toNat ≤ OSDP_EVENT_CARDREAD_MAX_DATALEN) (tryFrom raw) :=
  (CardFormat.tryFrom_decides raw.format).bind fun _ _ => (slice_decides raw.data _ _).bind_ok

theorem data_of_tryFrom {raw : OsdpEventCardread} {value : CardRead} (h : tryFrom raw = .ok value) :
    value.data = raw.data.toList.take (divCeil8 raw.length.toNat) := by
  simp only [tryFrom, bind_eq_ok, pure_eq_ok, Except.ok.injEq, slice_eq_ok] at h
  obtain ⟨_, -, _, ⟨-, rfl⟩, rfl⟩ := h
  rfl

theorem tryInto_decides (value : CardRead) :
    Decides Fault.Refused
      (value.data.length ≤ OSDP_EVENT_CARDREAD_MAX_DATALEN ∧
        value.nrBits ≤ 8 * value.data.length) value.tryInto := by
  refine (copyInto_decides _ value.data).bind fun _ _ => ?_
  split
  · exact ⟨by omega, trivial⟩
  · show value.nrBits ≤ 8 * value.data.length
    omega

theorem holds_of_tryInto {value : CardRead} {raw : OsdpEventCardread} (h : value.tryInto = .ok raw) :
    (PayloadField.of raw.length.toNat raw.data).Holds value.nrBits value.data := by
  obtain ⟨data, hdata, h⟩ := bind_eq_ok.1 h
  split at h
  · cases h
  · rename_i hbits
    cases h
    exact PayloadField.of_holds_copyInto hdata (toNat_nrBits hdata hbits)

end CardRead

/-- `events.rs`: key press activity on the PD. -/
structure KeyPress where
  readerNo : Int32
  data : List UInt8
deriving DecidableEq, Repr

namespace KeyPress

/-- `TryFrom<osdp_event_keypress> for KeyPress`. -/
def tryFrom (value : OsdpEventKeypress) : Res KeyPress := do
  let data ← sliceInt value.data value.length "key press length"
  return { readerNo := value.readerNo, data }

/-- `TryFrom<KeyPress> for osdp_event_keypress`. -/
def tryInto (value : KeyPress) : Res OsdpEventKeypress := do
  let data ← copyInto OSDP_EVENT_KEYPRESS_MAX_DATALEN value.data
  return { readerNo := value.readerNo, length := Int32.ofNat value.data.length, data }

theorem round_trip {value : KeyPress} {raw : OsdpEventKeypress} (h : value.tryInto = .ok raw) :
    tryFrom raw = .ok value := by
  obtain ⟨data, hdata, rfl⟩ := bind_pure_eq_ok.1 h
  simp only [tryFrom, sliceInt_copyInto hdata (by decide), ok_bind, pure_eq_ok]

theorem tryFrom_decides (raw : OsdpEventKeypress) :
    Decides Fault.Malformed
      (0 ≤ raw.length.toInt ∧ raw.length.toInt ≤ OSDP_EVENT_KEYPRESS_MAX_DATALEN)
      (tryFrom raw) :=
  (sliceInt_decides raw.data raw.length _).bind_ok

theorem data_of_tryFrom {raw : OsdpEventKeypress} {value : KeyPress} (h : tryFrom raw = .ok value) :
    value.data = raw.data.toList.take raw.length.toInt.toNat := by
  simp only [tryFrom, bind_eq_ok, pure_eq_ok, Except.ok.injEq, sliceInt_eq_ok] at h
  obtain ⟨_, ⟨-, -, rfl⟩, rfl⟩ := h
  rfl

theorem tryInto_decides (value : KeyPress) :
    Decides Fault.Refused (value.data.length ≤ OSDP_EVENT_KEYPRESS_MAX_DATALEN) value.tryInto :=
  (copyInto_decides _ value.data).bind_ok

end KeyPress

/-- `events.rs`: a manufacturer specific command's response. -/
structure MfgReply where
  vendorCode : UInt8 × UInt8 × UInt8
  data : List UInt8
deriving DecidableEq, Repr

namespace MfgReply

/-- `TryFrom<osdp_event_mfgrep> for MfgReply`. -/
def tryFrom (value : OsdpEventMfgrep) : Res MfgReply := do
  let data ← slice value.data value.length.toNat "manufacturer reply length"
  return { vendorCode := leBytes3 value.vendorCode, data }

/-- `TryFrom<MfgReply> for osdp_event_mfgrep`. -/
def tryInto (value : MfgReply) : Res OsdpEventMfgrep := do
  let data ← copyInto OSDP_EVENT_MFGREP_MAX_DATALEN value.data
  return { vendorCode := asLe value.vendorCode, length := UInt8.ofNat value.data.length, data }

theorem round_trip {value : MfgReply} {raw : OsdpEventMfgrep} (h : value.tryInto = .ok raw) :
    tryFrom raw = .ok value := by
  obtain ⟨data, hdata, rfl⟩ := bind_pure_eq_ok.1 h
  simp only [tryFrom, slice_copyInto hdata (toNat_len8 hdata (by decide)), leBytes3_asLe, ok_bind,
    pure_eq_ok]

theorem tryFrom_decides (raw : OsdpEventMfgrep) :
    Decides Fault.Malformed (raw.length.toNat ≤ OSDP_EVENT_MFGREP_MAX_DATALEN) (tryFrom raw) :=
  (slice_decides raw.data raw.length.toNat _).bind_ok

theorem data_of_tryFrom {raw : OsdpEventMfgrep} {value : MfgReply} (h : tryFrom raw = .ok value) :
    value.data = raw.data.toList.take raw.length.toNat := by
  obtain ⟨-, rfl⟩ := slice_bind_pure_eq_ok.1 h
  rfl

theorem tryInto_decides (value : MfgReply) :
    Decides Fault.Refused (value.data.length ≤ OSDP_EVENT_MFGREP_MAX_DATALEN) value.tryInto :=
  (copyInto_decides _ value.data).bind_ok

end MfgReply

/-- `events.rs`: a manufacturer specific status or error reply. -/
structure MfgStatus where
  data : List UInt8
deriving DecidableEq, Repr

namespace MfgStatus

/-- `TryFrom<osdp_event_mfgstat> for MfgStatus`. -/
def tryFrom (value : OsdpEventMfgstat) : Res MfgStatus := do
  let data ← slice value.data value.length.toNat "manufacturer status length"
  return { data }

/-- `TryFrom<MfgStatus> for osdp_event_mfgstat`. -/
def tryInto (value : MfgStatus) : Res OsdpEventMfgstat := do
  let data ← copyInto OSDP_EVENT_MFGSTAT_MAX_DATALEN value.data
  return { length := UInt8.ofNat value.data.length, data }

theorem round_trip {value : MfgStatus} {raw : OsdpEventMfgstat} (h : value.tryInto = .ok raw) :
    tryFrom raw = .ok value := by
  obtain ⟨data, hdata, rfl⟩ := bind_pure_eq_ok.1 h
  simp only [tryFrom, slice_copyInto hdata (toNat_len8 hdata (by decide)), ok_bind, pure_eq_ok]

theorem tryFrom_decides (raw : OsdpEventMfgstat) :
    Decides Fault.Malformed (raw.length.toNat ≤ OSDP_EVENT_MFGSTAT_MAX_DATALEN) (tryFrom raw) :=
  (slice_decides raw.data raw.length.toNat _).bind_ok

theorem data_of_tryFrom {raw : OsdpEventMfgstat} {value : MfgStatus} (h : tryFrom raw = .ok value) :
    value.data = raw.data.toList.take raw.length.toNat := by
  obtain ⟨-, rfl⟩ := slice_bind_pure_eq_ok.1 h
  rfl

theorem tryInto_decides (value : MfgStatus) :
    Decides Fault.Refused (value.data.length ≤ OSDP_EVENT_MFGSTAT_MAX_DATALEN) value.tryInto :=
  (copyInto_decides _ value.data).bind_ok

end MfgStatus

end LibOsdp
