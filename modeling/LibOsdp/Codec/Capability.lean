import LibOsdp.Codec.Payload

/-!
# Capabilities

What a PD can do, one entry a function. LibOSDP names the functions by code and ends an array
of entries with a code of its own, which is none of a function.
-/

set_option autoImplicit false

namespace LibOsdp

open Base

namespace Sys

@[simp] abbrev OSDP_PD_CAP_CONTACT_STATUS_MONITORING : UInt8 := 1
@[simp] abbrev OSDP_PD_CAP_OUTPUT_CONTROL : UInt8 := 2
@[simp] abbrev OSDP_PD_CAP_CARD_DATA_FORMAT : UInt8 := 3
@[simp] abbrev OSDP_PD_CAP_READER_LED_CONTROL : UInt8 := 4
@[simp] abbrev OSDP_PD_CAP_READER_AUDIBLE_OUTPUT : UInt8 := 5
@[simp] abbrev OSDP_PD_CAP_READER_TEXT_OUTPUT : UInt8 := 6
@[simp] abbrev OSDP_PD_CAP_TIME_KEEPING : UInt8 := 7
@[simp] abbrev OSDP_PD_CAP_CHECK_CHARACTER_SUPPORT : UInt8 := 8
@[simp] abbrev OSDP_PD_CAP_COMMUNICATION_SECURITY : UInt8 := 9
@[simp] abbrev OSDP_PD_CAP_RECEIVE_BUFFERSIZE : UInt8 := 10
@[simp] abbrev OSDP_PD_CAP_LARGEST_COMBINED_MESSAGE_SIZE : UInt8 := 11
@[simp] abbrev OSDP_PD_CAP_SMART_CARD_SUPPORT : UInt8 := 12
@[simp] abbrev OSDP_PD_CAP_READERS : UInt8 := 13
@[simp] abbrev OSDP_PD_CAP_BIOMETRICS : UInt8 := 14
@[simp] abbrev OSDP_PD_CAP_SECURE_PIN_ENTRY : UInt8 := 15
@[simp] abbrev OSDP_PD_CAP_OSDP_VERSION : UInt8 := 16
@[simp] abbrev OSDP_PD_CAP_SENTINEL : UInt8 := 17

structure OsdpPdCap where
  functionCode : UInt8 := 0
  complianceLevel : UInt8 := 0
  numItems : UInt8 := 0
deriving DecidableEq, Repr

end Sys

open Sys

/-- `pdcap.rs`: a PD function that OSDP defines a capability for. -/
inductive CapFunction where
  | contactStatusMonitoring
  | outputControl
  | cardDataFormat
  | ledControl
  | audibleOutput
  | textOutput
  | timeKeeping
  | checkCharacterSupport
  | communicationSecurity
  | receiveBufferSize
  | largestCombinedMessage
  | smartCardSupport
  | readers
  | biometrics
  | securePinEntry
  | osdpVersion
deriving DecidableEq, Repr

namespace CapFunction

/-- `From<CapFunction> for osdp_pd_cap_function_code_e`. -/
def intoCode : CapFunction → UInt8
  | contactStatusMonitoring => OSDP_PD_CAP_CONTACT_STATUS_MONITORING
  | outputControl => OSDP_PD_CAP_OUTPUT_CONTROL
  | cardDataFormat => OSDP_PD_CAP_CARD_DATA_FORMAT
  | ledControl => OSDP_PD_CAP_READER_LED_CONTROL
  | audibleOutput => OSDP_PD_CAP_READER_AUDIBLE_OUTPUT
  | textOutput => OSDP_PD_CAP_READER_TEXT_OUTPUT
  | timeKeeping => OSDP_PD_CAP_TIME_KEEPING
  | checkCharacterSupport => OSDP_PD_CAP_CHECK_CHARACTER_SUPPORT
  | communicationSecurity => OSDP_PD_CAP_COMMUNICATION_SECURITY
  | receiveBufferSize => OSDP_PD_CAP_RECEIVE_BUFFERSIZE
  | largestCombinedMessage => OSDP_PD_CAP_LARGEST_COMBINED_MESSAGE_SIZE
  | smartCardSupport => OSDP_PD_CAP_SMART_CARD_SUPPORT
  | readers => OSDP_PD_CAP_READERS
  | biometrics => OSDP_PD_CAP_BIOMETRICS
  | securePinEntry => OSDP_PD_CAP_SECURE_PIN_ENTRY
  | osdpVersion => OSDP_PD_CAP_OSDP_VERSION

/-- `TryFrom<osdp_pd_cap_function_code_e> for CapFunction`. -/
def tryFrom (value : UInt8) : Res CapFunction :=
  if value = OSDP_PD_CAP_CONTACT_STATUS_MONITORING then .ok contactStatusMonitoring
  else if value = OSDP_PD_CAP_OUTPUT_CONTROL then .ok outputControl
  else if value = OSDP_PD_CAP_CARD_DATA_FORMAT then .ok cardDataFormat
  else if value = OSDP_PD_CAP_READER_LED_CONTROL then .ok ledControl
  else if value = OSDP_PD_CAP_READER_AUDIBLE_OUTPUT then .ok audibleOutput
  else if value = OSDP_PD_CAP_READER_TEXT_OUTPUT then .ok textOutput
  else if value = OSDP_PD_CAP_TIME_KEEPING then .ok timeKeeping
  else if value = OSDP_PD_CAP_CHECK_CHARACTER_SUPPORT then .ok checkCharacterSupport
  else if value = OSDP_PD_CAP_COMMUNICATION_SECURITY then .ok communicationSecurity
  else if value = OSDP_PD_CAP_RECEIVE_BUFFERSIZE then .ok receiveBufferSize
  else if value = OSDP_PD_CAP_LARGEST_COMBINED_MESSAGE_SIZE then .ok largestCombinedMessage
  else if value = OSDP_PD_CAP_SMART_CARD_SUPPORT then .ok smartCardSupport
  else if value = OSDP_PD_CAP_READERS then .ok readers
  else if value = OSDP_PD_CAP_BIOMETRICS then .ok biometrics
  else if value = OSDP_PD_CAP_SECURE_PIN_ENTRY then .ok securePinEntry
  else if value = OSDP_PD_CAP_OSDP_VERSION then .ok osdpVersion
  else malformed "capability function"

@[simp] theorem tryFrom_intoCode (value : CapFunction) : tryFrom value.intoCode = .ok value := by
  cases value <;> rfl

/-- **No function has the sentinel's code.** -/
theorem intoCode_ne_sentinel (value : CapFunction) : value.intoCode ≠ OSDP_PD_CAP_SENTINEL := by
  cases value <;> decide

/-- The functions, in the order of their codes. -/
def functions : List CapFunction :=
  [contactStatusMonitoring, outputControl, cardDataFormat, ledControl, audibleOutput, textOutput,
    timeKeeping, checkCharacterSupport, communicationSecurity, receiveBufferSize,
    largestCombinedMessage, smartCardSupport, readers, biometrics, securePinEntry, osdpVersion]

theorem tryFrom_decides (code : UInt8) :
    Decides (· = .err (.malformed "capability function")) (code ∈ functions.map intoCode)
      (tryFrom code) := by
  have hbad : Decides (· = .err (.malformed "capability function")) False
      (malformed "capability function" : Res CapFunction) := Decides.error rfl
  refine ((Decides.ok _).orElse <| (Decides.ok _).orElse <| (Decides.ok _).orElse <|
    (Decides.ok _).orElse <| (Decides.ok _).orElse <| (Decides.ok _).orElse <|
    (Decides.ok _).orElse <| (Decides.ok _).orElse <| (Decides.ok _).orElse <|
    (Decides.ok _).orElse <| (Decides.ok _).orElse <| (Decides.ok _).orElse <|
    (Decides.ok _).orElse <| (Decides.ok _).orElse <| (Decides.ok _).orElse <|
    (Decides.ok _).orElse hbad).congr ?_
  simp [functions, intoCode]

/-- A code is read as the function it is of. -/
theorem tryFrom_eq_ok {code : UInt8} {value : CapFunction} :
    tryFrom code = .ok value ↔ value.intoCode = code := by
  constructor
  · intro h
    obtain ⟨of, -, rfl⟩ := List.mem_map.1 ((tryFrom_decides code).ok_iff.1 ⟨value, h⟩)
    rw [tryFrom_intoCode] at h
    cases h
    rfl
  · rintro rfl
    exact tryFrom_intoCode value

end CapFunction

/-- `pdcap.rs`: what a PD can do for one function. -/
structure Capability where
  function : CapFunction
  compliance : UInt8
  items : UInt8
deriving DecidableEq, Repr

namespace Capability

/-- `From<Capability> for osdp_pd_cap`. -/
def intoRaw (value : Capability) : OsdpPdCap where
  functionCode := value.function.intoCode
  complianceLevel := value.compliance
  numItems := value.items

/-- `TryFrom<osdp_pd_cap> for Capability`. -/
def tryFrom (value : OsdpPdCap) : Res Capability := do
  let function ← CapFunction.tryFrom value.functionCode
  return { function, compliance := value.complianceLevel, items := value.numItems }

@[simp] theorem tryFrom_intoRaw (value : Capability) : tryFrom value.intoRaw = .ok value := by
  rw [tryFrom, intoRaw, CapFunction.tryFrom_intoCode]
  rfl

/-- What is read from an entry encodes as that entry. -/
theorem intoRaw_of_tryFrom {raw : OsdpPdCap} {value : Capability} (h : tryFrom raw = .ok value) :
    value.intoRaw = raw := by
  obtain ⟨function, hfunction, rfl⟩ := bind_pure_eq_ok.1 h
  rw [intoRaw, CapFunction.tryFrom_eq_ok.1 hfunction]

end Capability

end LibOsdp
