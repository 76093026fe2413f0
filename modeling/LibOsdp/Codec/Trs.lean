import LibOsdp.Codec.Duration
import LibOsdp.Codec.Payload
import LibOsdp.Sys.Event

/-!
# Transparent reader commands and replies

Card sessions: C-APDUs and secure PIN entry one way, cards, R-APDUs and PIN results the other.
An absent PIN length field travels as a field of no bits.
-/

set_option autoImplicit false

namespace LibOsdp

open Base Sys

/-- `to_apdu`. -/
def toApdu (data : List UInt8) : Res OsdpTrsApdu := do
  let buf ← copyInto OSDP_TRS_APDU_MAX_LEN data
  return { length := UInt16.ofNat data.length, data := buf }

/-- `from_apdu`. -/
def fromApdu (apdu : OsdpTrsApdu) : Res (List UInt8) :=
  slice apdu.data apdu.length.toNat "APDU length"

theorem fromApdu_toApdu {data : List UInt8} {apdu : OsdpTrsApdu} (h : toApdu data = .ok apdu) :
    fromApdu apdu = .ok data := by
  obtain ⟨buf, hbuf, rfl⟩ := bind_pure_eq_ok.1 h
  exact slice_copyInto hbuf (toNat_len16 hbuf (by decide))

theorem toApdu_decides (data : List UInt8) :
    Decides Fault.Refused (data.length ≤ OSDP_TRS_APDU_MAX_LEN) (toApdu data) :=
  (copyInto_decides _ data).bind_ok

/-- An APDU's field holds what it was made from. -/
theorem toApdu_holds {data : List UInt8} {apdu : OsdpTrsApdu} (h : toApdu data = .ok apdu) :
    (PayloadField.of apdu.length.toNat apdu.data).Holds data.length data := by
  obtain ⟨buf, hbuf, rfl⟩ := bind_pure_eq_ok.1 h
  exact PayloadField.of_holds_copyInto hbuf (toNat_len16 hbuf (by decide))

theorem fromApdu_decides (apdu : OsdpTrsApdu) :
    Decides Fault.Malformed (apdu.length.toNat ≤ OSDP_TRS_APDU_MAX_LEN) (fromApdu apdu) :=
  slice_decides apdu.data apdu.length.toNat _

theorem data_of_fromApdu {apdu : OsdpTrsApdu} {data : List UInt8} (h : fromApdu apdu = .ok data) :
    data = apdu.data.toList.take apdu.length.toNat :=
  (slice_eq_ok.1 h).2

/-- `trs.rs`: how the reader encodes the PIN digits. -/
inductive PinFormat where
  | binary | bcd | ascii
deriving DecidableEq, Repr

namespace PinFormat

/-- The match on the format in `TryFrom<osdp_trs_pin_entry> for PinEntry`. -/
def tryFrom (value : UInt8) : Res PinFormat :=
  if value = OSDP_TRS_PIN_FORMAT_BINARY then .ok binary
  else if value = OSDP_TRS_PIN_FORMAT_BCD then .ok bcd
  else if value = OSDP_TRS_PIN_FORMAT_ASCII then .ok ascii
  else malformed "PIN format"

/-- The match on the format in `TryFrom<PinEntry> for osdp_trs_pin_entry`. -/
def toU8 : PinFormat → UInt8
  | binary => OSDP_TRS_PIN_FORMAT_BINARY
  | bcd => OSDP_TRS_PIN_FORMAT_BCD
  | ascii => OSDP_TRS_PIN_FORMAT_ASCII

/-- The PIN formats. -/
def codes : List UInt8 :=
  [OSDP_TRS_PIN_FORMAT_BINARY, OSDP_TRS_PIN_FORMAT_BCD, OSDP_TRS_PIN_FORMAT_ASCII]

@[simp] theorem tryFrom_toU8 (value : PinFormat) : tryFrom value.toU8 = .ok value := by
  cases value <;> rfl

theorem tryFrom_decides (value : UInt8) :
    Decides Fault.Malformed (value ∈ codes) (tryFrom value) := by
  refine ((Decides.ok _).orElse <| (Decides.ok _).orElse <| (Decides.ok _).orElse <|
    malformed_decides _).congr ?_
  simp [codes]

end PinFormat

/-- `trs.rs`: where in the APDU the reader puts the PIN, and how. -/
structure PinBlock where
  format : PinFormat
  rightJustify : Bool
  offsetBits : UInt16
  sizeBytes : UInt8
deriving DecidableEq, Repr

/-- `trs.rs`: where in the APDU the reader records how many digits were entered. -/
structure PinLengthField where
  sizeBits : UInt8
  offsetBits : UInt16
deriving DecidableEq, Repr

/-- `trs.rs`: prompt the user for a PIN on the reader. `end_on` is a set of flags that retains
    the bits it has no name for. -/
structure PinEntry where
  firstDigitTimeout : Duration
  digitTimeout : Duration
  pinBlock : PinBlock
  lengthField : Option PinLengthField
  minDigits : UInt8
  maxDigits : UInt8
  endOn : UInt32
  messages : UInt8
  languageId : UInt16
  messageIndex : UInt8
  t1Prologue : Vector UInt8 3
  apdu : List UInt8
deriving DecidableEq, Repr

namespace PinEntry

/-- `(length.size_bits != 0).then_some(..)`. -/
def lengthFieldOf (length : OsdpTrsPinLengthField) : Option PinLengthField :=
  if length.sizeBits != 0 then
    some { sizeBits := length.sizeBits, offsetBits := length.offsetBits }
  else none

/-- `TryFrom<osdp_trs_pin_entry> for PinEntry`. -/
def tryFrom (value : OsdpTrsPinEntry) : Res PinEntry := do
  let format ← PinFormat.tryFrom value.pinBlock.format
  let firstDigitTimeout ← fromCount value.timeoutInitial SECOND
  let digitTimeout ← fromCount value.timeoutDigit SECOND
  let apdu ← fromApdu value.apdu
  return {
    firstDigitTimeout, digitTimeout
    pinBlock := {
      format
      rightJustify := value.pinBlock.rightJustify
      offsetBits := value.pinBlock.offsetBits
      sizeBytes := value.pinBlock.sizeBytes }
    lengthField := lengthFieldOf value.pinLengthField
    minDigits := value.minDigits
    maxDigits := value.maxDigits
    endOn := value.completeOn
    messages := value.numMessages
    languageId := value.languageId
    messageIndex := value.msgIndex
    t1Prologue := value.teoPrologue
    apdu }

/-- The match on the length field in `TryFrom<PinEntry> for osdp_trs_pin_entry`: a field of no
    bits is refused, since on the wire it would be no field. -/
def lengthOf : Option PinLengthField → Res PinLengthField
  | some length =>
    if length.sizeBits = 0 then invalidArgument "PIN length field size" else .ok length
  | none => .ok { sizeBits := 0, offsetBits := 0 }

/-- `TryFrom<PinEntry> for osdp_trs_pin_entry`. -/
def tryInto (value : PinEntry) : Res OsdpTrsPinEntry := do
  let length ← lengthOf value.lengthField
  let timeoutInitial ← toCount UInt8 value.firstDigitTimeout SECOND "PIN entry timeout"
  let timeoutDigit ← toCount UInt8 value.digitTimeout SECOND "PIN digit timeout"
  let apdu ← toApdu value.apdu
  return {
    timeoutInitial, timeoutDigit
    pinBlock := {
      format := value.pinBlock.format.toU8
      rightJustify := value.pinBlock.rightJustify
      offsetBits := value.pinBlock.offsetBits
      sizeBytes := value.pinBlock.sizeBytes }
    pinLengthField := { sizeBits := length.sizeBits, offsetBits := length.offsetBits }
    minDigits := value.minDigits
    maxDigits := value.maxDigits
    completeOn := value.endOn
    numMessages := value.messages
    languageId := value.languageId
    msgIndex := value.messageIndex
    teoPrologue := value.t1Prologue
    apdu }

theorem lengthFieldOf_lengthOf {field : Option PinLengthField} {length : PinLengthField}
    (h : lengthOf field = .ok length) :
    lengthFieldOf { sizeBits := length.sizeBits, offsetBits := length.offsetBits } = field := by
  cases field with
  | none =>
    cases h
    rfl
  | some field =>
    rw [lengthOf] at h
    split at h
    · cases h
    · rename_i hbits
      cases h
      simp [lengthFieldOf, hbits]

theorem round_trip {value : PinEntry} {raw : OsdpTrsPinEntry} (h : value.tryInto = .ok raw) :
    tryFrom raw = .ok value := by
  simp only [tryInto, bind_eq_ok, pure_eq_ok, Except.ok.injEq] at h
  obtain ⟨length, hlength, initial, hinitial, digit, hdigit, apdu, hapdu, rfl⟩ := h
  simp only [tryFrom, PinFormat.tryFrom_toU8, fromCount_toCount isUnit_second hinitial,
    fromCount_toCount isUnit_second hdigit, fromApdu_toApdu hapdu, lengthFieldOf_lengthOf hlength,
    ok_bind, pure_eq_ok]

theorem tryFrom_decides (raw : OsdpTrsPinEntry) :
    Decides Fault.Malformed
      (raw.pinBlock.format ∈ PinFormat.codes ∧ raw.apdu.length.toNat ≤ OSDP_TRS_APDU_MAX_LEN)
      (tryFrom raw) := by
  refine ((PinFormat.tryFrom_decides raw.pinBlock.format).bind fun _ _ =>
    (fromCount_decides isUnit_second raw.timeoutInitial).bind fun _ _ =>
      (fromCount_decides isUnit_second raw.timeoutDigit).bind fun _ _ =>
        (fromApdu_decides raw.apdu).bind_ok).congr ?_
  simp

theorem apdu_of_tryFrom {raw : OsdpTrsPinEntry} {value : PinEntry} (h : tryFrom raw = .ok value) :
    value.apdu = raw.apdu.data.toList.take raw.apdu.length.toNat := by
  simp only [tryFrom, bind_eq_ok, pure_eq_ok, Except.ok.injEq] at h
  obtain ⟨_, -, _, -, _, -, _, hapdu, rfl⟩ := h
  exact data_of_fromApdu hapdu

/-- The times of a PIN entry. -/
def timings (value : PinEntry) : List Timing :=
  [.seconds8 value.firstDigitTimeout, .seconds8 value.digitTimeout]

theorem lengthOf_decides (field : Option PinLengthField) :
    Decides Fault.Refused (∀ f, field = some f → f.sizeBits ≠ 0) (lengthOf field) := by
  cases field with
  | none => exact (Decides.ok _).congr (by simp)
  | some f =>
    rw [lengthOf]
    split
    · rename_i hbits
      exact ⟨fun h => h f rfl hbits, trivial⟩
    · rename_i hbits
      rintro _ ⟨rfl⟩
      exact hbits

theorem tryInto_decides (value : PinEntry) :
    Decides Fault.Refused
      ((∀ f, value.lengthField = some f → f.sizeBits ≠ 0) ∧ (∀ t ∈ value.timings, t.Fits) ∧
        value.apdu.length ≤ OSDP_TRS_APDU_MAX_LEN) value.tryInto := by
  refine ((lengthOf_decides value.lengthField).bind fun _ _ =>
    (Timing.seconds8_decides value.firstDigitTimeout _).bind fun _ _ =>
      (Timing.seconds8_decides value.digitTimeout _).bind fun _ _ =>
        (toApdu_decides value.apdu).bind_ok).congr ?_
  simp [timings, and_assoc]

end PinEntry

/-- `trs.rs`: a transparent reader command. -/
inductive TrsCommand where
  | start
  | stop
  | apdu (data : List UInt8)
  | enterPin (entry : PinEntry)
  | cardScan
deriving DecidableEq, Repr

namespace TrsCommand

/-- `TryFrom<osdp_trs_cmd> for TrsCommand`. -/
def tryFrom (value : OsdpTrsCmd) : Res TrsCommand :=
  if value.command = OSDP_TRS_CMD_START then .ok start
  else if value.command = OSDP_TRS_CMD_STOP then .ok stop
  else if value.command = OSDP_TRS_CMD_SEND_APDU then do
    let data ← fromApdu value.payload.apdu
    return apdu data
  else if value.command = OSDP_TRS_CMD_ENTER_PIN then do
    let entry ← PinEntry.tryFrom value.payload.pinEntry
    return enterPin entry
  else if value.command = OSDP_TRS_CMD_CARD_SCAN then .ok cardScan
  else malformed "TRS command"

/-- `TryFrom<TrsCommand> for osdp_trs_cmd`. -/
def tryInto (value : TrsCommand) : Res OsdpTrsCmd :=
  match value with
  | start => .ok { command := OSDP_TRS_CMD_START }
  | stop => .ok { command := OSDP_TRS_CMD_STOP }
  | apdu data => do
    let apdu ← toApdu data
    return { command := OSDP_TRS_CMD_SEND_APDU, payload := { apdu } }
  | enterPin entry => do
    let pinEntry ← entry.tryInto
    return { command := OSDP_TRS_CMD_ENTER_PIN, payload := { pinEntry } }
  | cardScan => .ok { command := OSDP_TRS_CMD_CARD_SCAN }

/-- The transparent reader commands. -/
def codes : List UInt8 :=
  [OSDP_TRS_CMD_START, OSDP_TRS_CMD_STOP, OSDP_TRS_CMD_SEND_APDU, OSDP_TRS_CMD_ENTER_PIN,
    OSDP_TRS_CMD_CARD_SCAN]

theorem round_trip {value : TrsCommand} {raw : OsdpTrsCmd} (h : value.tryInto = .ok raw) :
    tryFrom raw = .ok value := by
  cases value with
  | start => cases h; rfl
  | stop => cases h; rfl
  | cardScan => cases h; rfl
  | apdu data =>
    obtain ⟨apdu, hapdu, rfl⟩ := bind_pure_eq_ok.1 h
    simp [tryFrom, fromApdu_toApdu hapdu]
  | enterPin entry =>
    obtain ⟨pinEntry, hentry, rfl⟩ := bind_pure_eq_ok.1 h
    simp [tryFrom, PinEntry.round_trip hentry]

theorem tryFrom_decides (raw : OsdpTrsCmd) :
    Decides Fault.Malformed
      (raw.command ∈ codes ∧
        (raw.command = OSDP_TRS_CMD_SEND_APDU →
          raw.payload.apdu.length.toNat ≤ OSDP_TRS_APDU_MAX_LEN) ∧
        (raw.command = OSDP_TRS_CMD_ENTER_PIN →
          raw.payload.pinEntry.pinBlock.format ∈ PinFormat.codes ∧
            raw.payload.pinEntry.apdu.length.toNat ≤ OSDP_TRS_APDU_MAX_LEN)) (tryFrom raw) := by
  refine ((Decides.ok _).orElse <| (Decides.ok _).orElse <|
    (fromApdu_decides raw.payload.apdu).bind_ok.ite <|
      (PinEntry.tryFrom_decides raw.payload.pinEntry).bind_ok.ite <|
        (Decides.ok _).orElse <| malformed_decides _).congr ?_
  simp only [codes, List.mem_cons, List.not_mem_nil, or_false]
  constructor
  · rintro (h | h | ⟨h, hlen⟩ | ⟨h, ⟨h', hlen⟩ | ⟨h', h''⟩⟩) <;> simp_all
  · rintro ⟨h | h | h | h | h, hlen, hpin⟩ <;> simp_all

end TrsCommand

end LibOsdp
