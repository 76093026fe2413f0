import LibOsdp.Codec.Payload
import LibOsdp.Sys.Event

/-!
# Biometrics

A CP asks a PD to scan a body part, or to match a scan against a template. The three
enumerations are `byte_enum!`s: OSDP names some of their bytes, and any other is carried as
it is.
-/

set_option autoImplicit false

namespace LibOsdp

open Base Sys

/-- `bio.rs`: the body part a biometric reader scans. -/
inductive BioType where
  | notSpecified | rightThumb | rightIndexFinger | rightMiddleFinger | rightRingFinger
  | rightLittleFinger | leftThumb | leftIndexFinger | leftMiddleFinger | leftRingFinger
  | leftLittleFinger | rightIris | rightRetina | leftIris | leftRetina | fullFace
  | rightHandGeometry | leftHandGeometry
  | other (value : UInt8)
deriving DecidableEq, Repr

namespace BioType

/-- `From<BioType> for u8`. -/
def toU8 : BioType → UInt8
  | notSpecified => OSDP_BIO_TYPE_NOT_SPECIFIED
  | rightThumb => OSDP_BIO_TYPE_RIGHT_THUMB_PRINT
  | rightIndexFinger => OSDP_BIO_TYPE_RIGHT_INDEX_FINGER_PRINT
  | rightMiddleFinger => OSDP_BIO_TYPE_RIGHT_MIDDLE_FINGER_PRINT
  | rightRingFinger => OSDP_BIO_TYPE_RIGHT_RING_FINGER_PRINT
  | rightLittleFinger => OSDP_BIO_TYPE_RIGHT_LITTLE_FINGER_PRINT
  | leftThumb => OSDP_BIO_TYPE_LEFT_THUMB_PRINT
  | leftIndexFinger => OSDP_BIO_TYPE_LEFT_INDEX_FINGER_PRINT
  | leftMiddleFinger => OSDP_BIO_TYPE_LEFT_MIDDLE_FINGER_PRINT
  | leftRingFinger => OSDP_BIO_TYPE_LEFT_RING_FINGER_PRINT
  | leftLittleFinger => OSDP_BIO_TYPE_LEFT_LITTLE_FINGER_PRINT
  | rightIris => OSDP_BIO_TYPE_RIGHT_IRIS_SCAN
  | rightRetina => OSDP_BIO_TYPE_RIGHT_RETINA_SCAN
  | leftIris => OSDP_BIO_TYPE_LEFT_IRIS_SCAN
  | leftRetina => OSDP_BIO_TYPE_LEFT_RETINA_SCAN
  | fullFace => OSDP_BIO_TYPE_FULL_FACE_IMAGE
  | rightHandGeometry => OSDP_BIO_TYPE_RIGHT_HAND_GEOMETRY
  | leftHandGeometry => OSDP_BIO_TYPE_LEFT_HAND_GEOMETRY
  | other value => value

/-- The names of the invocation, with their bytes. -/
def byteEnum : ByteEnum BioType where
  named := [notSpecified, rightThumb, rightIndexFinger, rightMiddleFinger, rightRingFinger,
    rightLittleFinger, leftThumb, leftIndexFinger, leftMiddleFinger, leftRingFinger,
    leftLittleFinger, rightIris, rightRetina, leftIris, leftRetina, fullFace,
    rightHandGeometry, leftHandGeometry]
  code := toU8
  other := other

/-- `From<u8> for BioType`: the first name of the byte, and `Other` without one. -/
def ofU8 (value : UInt8) : BioType := byteEnum.value value

/-- A value with its byte's name, where the byte has one. -/
def norm : BioType → BioType
  | other b => byteEnum.value b
  | value => value

@[simp] theorem ofU8_toU8 (value : BioType) : ofU8 value.toU8 = value.norm := by
  cases value <;> rfl

@[simp] theorem toU8_ofU8 (b : UInt8) : (ofU8 b).toU8 = b := by
  show byteEnum.code (byteEnum.value b) = b
  exact ByteEnum.code_value (fun _ => rfl) b

/-- A type read from a byte is under its name already. -/
@[simp] theorem norm_ofU8 (b : UInt8) : (ofU8 b).norm = ofU8 b := by
  rw [← ofU8_toU8, toU8_ofU8]

end BioType

/-- `bio.rs`: how biometric data is encoded. -/
inductive BioFormat where
  | notSpecified | rawPgm | ansiIncits378
  | other (value : UInt8)
deriving DecidableEq, Repr

namespace BioFormat

/-- `From<BioFormat> for u8`. -/
def toU8 : BioFormat → UInt8
  | notSpecified => OSDP_BIO_FMT_NOT_SPECIFIED
  | rawPgm => OSDP_BIO_FMT_RAW_PGM
  | ansiIncits378 => OSDP_BIO_FMT_ANSI_INCITS_378
  | other value => value

/-- The names of the invocation, with their bytes. -/
def byteEnum : ByteEnum BioFormat where
  named := [notSpecified, rawPgm, ansiIncits378]
  code := toU8
  other := other

/-- `From<u8> for BioFormat`: the first name of the byte, and `Other` without one. -/
def ofU8 (value : UInt8) : BioFormat := byteEnum.value value

/-- A value with its byte's name, where the byte has one. -/
def norm : BioFormat → BioFormat
  | other b => byteEnum.value b
  | value => value

@[simp] theorem ofU8_toU8 (value : BioFormat) : ofU8 value.toU8 = value.norm := by
  cases value <;> rfl

@[simp] theorem toU8_ofU8 (b : UInt8) : (ofU8 b).toU8 = b := by
  show byteEnum.code (byteEnum.value b) = b
  exact ByteEnum.code_value (fun _ => rfl) b

/-- A format read from a byte is under its name already. -/
@[simp] theorem norm_ofU8 (b : UInt8) : (ofU8 b).norm = ofU8 b := by
  rw [← ofU8_toU8, toU8_ofU8]

end BioFormat

/-- `bio.rs`: how a biometric scan went. -/
inductive BioStatus where
  | success | timeout | error
  | other (value : UInt8)
deriving DecidableEq, Repr

namespace BioStatus

/-- `From<BioStatus> for u8`. -/
def toU8 : BioStatus → UInt8
  | success => OSDP_BIO_STATUS_SUCCESS
  | timeout => OSDP_BIO_STATUS_TIMEOUT
  | error => OSDP_BIO_STATUS_UNKNOWN_ERROR
  | other value => value

/-- The names of the invocation, with their bytes. -/
def byteEnum : ByteEnum BioStatus where
  named := [success, timeout, error]
  code := toU8
  other := other

/-- `From<u8> for BioStatus`: the first name of the byte, and `Other` without one. -/
def ofU8 (value : UInt8) : BioStatus := byteEnum.value value

/-- A value with its byte's name, where the byte has one. -/
def norm : BioStatus → BioStatus
  | other b => byteEnum.value b
  | value => value

@[simp] theorem ofU8_toU8 (value : BioStatus) : ofU8 value.toU8 = value.norm := by
  cases value <;> rfl

@[simp] theorem toU8_ofU8 (b : UInt8) : (ofU8 b).toU8 = b := by
  show byteEnum.code (byteEnum.value b) = b
  exact ByteEnum.code_value (fun _ => rfl) b

/-- A status read from a byte is under its name already. -/
@[simp] theorem norm_ofU8 (b : UInt8) : (ofU8 b).norm = ofU8 b := by
  rw [← ofU8_toU8, toU8_ofU8]

end BioStatus

/-- `bio.rs`: ask a PD to scan a body part. -/
structure BioReadCommand where
  reader : UInt8
  kind : BioType
  format : BioFormat
  quality : UInt8
deriving DecidableEq, Repr

namespace BioReadCommand

/-- `From<osdp_cmd_bioread> for BioReadCommand`. -/
def fromRaw (value : OsdpCmdBioread) : BioReadCommand where
  reader := value.reader
  kind := .ofU8 value.type
  format := .ofU8 value.format
  quality := value.quality

/-- `From<BioReadCommand> for osdp_cmd_bioread`. -/
def intoRaw (value : BioReadCommand) : OsdpCmdBioread where
  reader := value.reader
  type := value.kind.toU8
  format := value.format.toU8
  quality := value.quality

def norm (value : BioReadCommand) : BioReadCommand :=
  { value with kind := value.kind.norm, format := value.format.norm }

theorem round_trip (value : BioReadCommand) : fromRaw value.intoRaw = value.norm := by
  simp [fromRaw, intoRaw, norm]

end BioReadCommand

/-- `bio.rs`: ask a PD to scan a body part and match the scan against a template. -/
structure BioMatchCommand where
  reader : UInt8
  kind : BioType
  format : BioFormat
  threshold : UInt8
  template : List UInt8
deriving DecidableEq, Repr

namespace BioMatchCommand

/-- `TryFrom<osdp_cmd_biomatch> for BioMatchCommand`. -/
def tryFrom (value : OsdpCmdBiomatch) : Res BioMatchCommand := do
  let template ← slice value.data value.length.toNat "biometric template length"
  return {
    reader := value.reader
    kind := .ofU8 value.type
    format := .ofU8 value.format
    threshold := value.quality
    template }

/-- `TryFrom<BioMatchCommand> for osdp_cmd_biomatch`. -/
def tryInto (value : BioMatchCommand) : Res OsdpCmdBiomatch := do
  let data ← copyInto OSDP_CMD_BIOMATCH_MAX_TEMPLATE_LEN value.template
  return {
    reader := value.reader
    type := value.kind.toU8
    format := value.format.toU8
    quality := value.threshold
    length := UInt16.ofNat value.template.length
    data }

def norm (value : BioMatchCommand) : BioMatchCommand :=
  { value with kind := value.kind.norm, format := value.format.norm }

theorem round_trip {value : BioMatchCommand} {raw : OsdpCmdBiomatch}
    (h : value.tryInto = .ok raw) : tryFrom raw = .ok value.norm := by
  obtain ⟨data, hdata, rfl⟩ := bind_pure_eq_ok.1 h
  simp only [tryFrom, slice_copyInto hdata (toNat_len16 hdata (by decide)), BioType.ofU8_toU8,
    BioFormat.ofU8_toU8, ok_bind, pure_eq_ok, norm]

theorem tryFrom_decides (raw : OsdpCmdBiomatch) :
    Decides Fault.Malformed (raw.length.toNat ≤ OSDP_CMD_BIOMATCH_MAX_TEMPLATE_LEN)
      (tryFrom raw) :=
  (slice_decides raw.data raw.length.toNat _).bind_ok

theorem template_of_tryFrom {raw : OsdpCmdBiomatch} {value : BioMatchCommand}
    (h : tryFrom raw = .ok value) : value.template = raw.data.toList.take raw.length.toNat := by
  obtain ⟨-, rfl⟩ := slice_bind_pure_eq_ok.1 h
  rfl

theorem tryInto_decides (value : BioMatchCommand) :
    Decides Fault.Refused (value.template.length ≤ OSDP_CMD_BIOMATCH_MAX_TEMPLATE_LEN)
      value.tryInto :=
  (copyInto_decides _ value.template).bind_ok

end BioMatchCommand

/-- `bio.rs`: a PD's answer to a `BioReadCommand`. -/
structure BioReadReply where
  reader : UInt8
  status : BioStatus
  kind : BioType
  quality : UInt8
  template : List UInt8
deriving DecidableEq, Repr

namespace BioReadReply

/-- `TryFrom<osdp_event_bioreadr> for BioReadReply`. -/
def tryFrom (value : OsdpEventBioreadr) : Res BioReadReply := do
  let template ← slice value.data value.length.toNat "biometric template length"
  return {
    reader := value.reader
    status := .ofU8 value.status
    kind := .ofU8 value.type
    quality := value.quality
    template }

/-- `TryFrom<BioReadReply> for osdp_event_bioreadr`. -/
def tryInto (value : BioReadReply) : Res OsdpEventBioreadr := do
  let data ← copyInto OSDP_EVENT_BIOREADR_MAX_TEMPLATE_LEN value.template
  return {
    reader := value.reader
    status := value.status.toU8
    type := value.kind.toU8
    quality := value.quality
    length := UInt16.ofNat value.template.length
    data }

def norm (value : BioReadReply) : BioReadReply :=
  { value with status := value.status.norm, kind := value.kind.norm }

theorem round_trip {value : BioReadReply} {raw : OsdpEventBioreadr}
    (h : value.tryInto = .ok raw) : tryFrom raw = .ok value.norm := by
  obtain ⟨data, hdata, rfl⟩ := bind_pure_eq_ok.1 h
  simp only [tryFrom, slice_copyInto hdata (toNat_len16 hdata (by decide)), BioStatus.ofU8_toU8,
    BioType.ofU8_toU8, ok_bind, pure_eq_ok, norm]

theorem tryFrom_decides (raw : OsdpEventBioreadr) :
    Decides Fault.Malformed (raw.length.toNat ≤ OSDP_EVENT_BIOREADR_MAX_TEMPLATE_LEN)
      (tryFrom raw) :=
  (slice_decides raw.data raw.length.toNat _).bind_ok

theorem template_of_tryFrom {raw : OsdpEventBioreadr} {value : BioReadReply}
    (h : tryFrom raw = .ok value) : value.template = raw.data.toList.take raw.length.toNat := by
  obtain ⟨-, rfl⟩ := slice_bind_pure_eq_ok.1 h
  rfl

theorem tryInto_decides (value : BioReadReply) :
    Decides Fault.Refused (value.template.length ≤ OSDP_EVENT_BIOREADR_MAX_TEMPLATE_LEN)
      value.tryInto :=
  (copyInto_decides _ value.template).bind_ok

end BioReadReply

/-- `bio.rs`: a PD's answer to a `BioMatchCommand`. -/
structure BioMatchReply where
  reader : UInt8
  status : BioStatus
  score : UInt8
deriving DecidableEq, Repr

namespace BioMatchReply

/-- `From<osdp_event_biomatchr> for BioMatchReply`. -/
def fromRaw (value : OsdpEventBiomatchr) : BioMatchReply where
  reader := value.reader
  status := .ofU8 value.status
  score := value.score

/-- `From<BioMatchReply> for osdp_event_biomatchr`. -/
def intoRaw (value : BioMatchReply) : OsdpEventBiomatchr where
  reader := value.reader
  status := value.status.toU8
  score := value.score

def norm (value : BioMatchReply) : BioMatchReply := { value with status := value.status.norm }

theorem round_trip (value : BioMatchReply) : fromRaw value.intoRaw = value.norm := by
  simp [fromRaw, intoRaw, norm]

end BioMatchReply

end LibOsdp
