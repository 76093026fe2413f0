import LibOsdp.Codec.Duration
import LibOsdp.Codec.Payload
import LibOsdp.Sys.Command

/-!
# Buzzer, text and output commands

Three commands that pair a control code with a time. An action without a time sends zeroes in
its count fields, and its decoder does not look at them.
-/

set_option autoImplicit false

namespace LibOsdp

open Base Sys

/-- `commands.rs`: what a buzzer should do. -/
inductive Buzzer where
  | off
  | tone (on off : Duration) (repeats : UInt8)
deriving DecidableEq, Repr

/-- `commands.rs`: command to control a buzzer. -/
structure BuzzerCommand where
  reader : UInt8
  action : Buzzer
deriving DecidableEq, Repr

namespace BuzzerCommand

/-- The match on the control code in `TryFrom<osdp_cmd_buzzer> for BuzzerCommand`. -/
def actionOf (value : OsdpCmdBuzzer) : Res Buzzer :=
  if value.controlCode = OSDP_CMD_BUZZER_CC_NO_TONE then .ok .off
  else if value.controlCode = OSDP_CMD_BUZZER_CC_OFF then .ok .off
  else if value.controlCode = OSDP_CMD_BUZZER_CC_DEFAULT_TONE then do
    let on ← fromCount value.onCount TENTH_OF_A_SECOND
    let off ← fromCount value.offCount TENTH_OF_A_SECOND
    return .tone on off value.repCount
  else malformed "buzzer control code"

/-- `TryFrom<osdp_cmd_buzzer> for BuzzerCommand`. -/
def tryFrom (value : OsdpCmdBuzzer) : Res BuzzerCommand := do
  let action ← actionOf value
  return { reader := value.reader, action }

/-- The match on the action in `TryFrom<BuzzerCommand> for osdp_cmd_buzzer`. -/
def codeOf : Buzzer → Res (UInt8 × UInt8 × UInt8 × UInt8)
  | .off => .ok (OSDP_CMD_BUZZER_CC_OFF, 0, 0, 0)
  | .tone on off repeats => do
    let onCount ← toCount UInt8 on TENTH_OF_A_SECOND "buzzer on time"
    let offCount ← toCount UInt8 off TENTH_OF_A_SECOND "buzzer off time"
    return (OSDP_CMD_BUZZER_CC_DEFAULT_TONE, onCount, offCount, repeats)

/-- `TryFrom<BuzzerCommand> for osdp_cmd_buzzer`. -/
def tryInto (value : BuzzerCommand) : Res OsdpCmdBuzzer := do
  let (controlCode, onCount, offCount, repCount) ← codeOf value.action
  return { reader := value.reader, controlCode, onCount, offCount, repCount }

/-- The control codes of a buzzer. -/
def codes : List UInt8 :=
  [OSDP_CMD_BUZZER_CC_NO_TONE, OSDP_CMD_BUZZER_CC_OFF, OSDP_CMD_BUZZER_CC_DEFAULT_TONE]

theorem round_trip {value : BuzzerCommand} {raw : OsdpCmdBuzzer} (h : value.tryInto = .ok raw) :
    tryFrom raw = .ok value := by
  obtain ⟨reader, action⟩ := value
  cases action with
  | off =>
    cases h
    rfl
  | tone on off repeats =>
    simp only [tryInto, codeOf, bind_eq_ok, pure_eq_ok, Except.ok.injEq] at h
    obtain ⟨_, ⟨onCount, hon, offCount, hoff, rfl⟩, rfl⟩ := h
    simp [tryFrom, actionOf, fromCount_toCount isUnit_tenth hon,
      fromCount_toCount isUnit_tenth hoff]

theorem tryFrom_decides (raw : OsdpCmdBuzzer) :
    Decides Fault.Malformed (raw.controlCode ∈ codes) (tryFrom raw) := by
  have tone : Decides Fault.Malformed True (do
      let on ← fromCount raw.onCount TENTH_OF_A_SECOND
      let off ← fromCount raw.offCount TENTH_OF_A_SECOND
      return Buzzer.tone on off raw.repCount) :=
    ((fromCount_decides isUnit_tenth raw.onCount).bind fun _ _ =>
      (fromCount_decides isUnit_tenth raw.offCount).bind_ok).congr (and_self_iff)
  have action : Decides Fault.Malformed (raw.controlCode ∈ codes) (actionOf raw) := by
    refine ((Decides.ok _).orElse <| (Decides.ok _).orElse <| tone.orElse <|
      malformed_decides _).congr ?_
    simp [codes]
  exact action.bind_ok

/-- The times of a tone. -/
def timings (value : BuzzerCommand) : List Timing :=
  match value.action with
  | .off => []
  | .tone on off _ => [.tenths8 on, .tenths8 off]

theorem tryInto_decides (value : BuzzerCommand) :
    Decides Fault.Refused (∀ t ∈ value.timings, t.Fits) value.tryInto := by
  obtain ⟨reader, action⟩ := value
  cases action with
  | off => exact (Decides.ok _).congr (by simp [timings])
  | tone on off repeats =>
    refine (((Timing.tenths8_decides on _).bind fun _ _ =>
      (Timing.tenths8_decides off _).bind_ok).bind_ok).congr ?_
    simp [timings]

end BuzzerCommand

/-- `commands.rs`: how a display shows a text. -/
inductive TextMode where
  | permanentNoWrap
  | permanentWrap
  | temporaryNoWrap (shownFor : Duration)
  | temporaryWrap (shownFor : Duration)
deriving DecidableEq, Repr

/-- `commands.rs`: command to manipulate the display unit. -/
structure TextCommand where
  reader : UInt8
  mode : TextMode
  offsetRow : UInt8
  offsetCol : UInt8
  data : List UInt8
deriving DecidableEq, Repr

namespace TextCommand

/-- The match on the control code in `TryFrom<osdp_cmd_text> for TextCommand`. -/
def modeOf (controlCode : UInt8) (shownFor : Duration) : Res TextMode :=
  if controlCode = OSDP_CMD_TEXT_CC_PERMANENT_NO_WRAP then .ok .permanentNoWrap
  else if controlCode = OSDP_CMD_TEXT_CC_PERMANENT_WRAP then .ok .permanentWrap
  else if controlCode = OSDP_CMD_TEXT_CC_TEMPORARY_NO_WRAP then .ok (.temporaryNoWrap shownFor)
  else if controlCode = OSDP_CMD_TEXT_CC_TEMPORARY_WRAP then .ok (.temporaryWrap shownFor)
  else malformed "text control code"

/-- `TryFrom<osdp_cmd_text> for TextCommand`. -/
def tryFrom (value : OsdpCmdText) : Res TextCommand := do
  let shownFor ← fromCount value.tempTime SECOND
  let mode ← modeOf value.controlCode shownFor
  let n := value.length.toNat
  let data ← slice value.data n "text length"
  return {
    reader := value.reader, mode, offsetRow := value.offsetRow, offsetCol := value.offsetCol, data }

/-- The match on the mode in `TryFrom<TextCommand> for osdp_cmd_text`. -/
def codeOf : TextMode → Res (UInt8 × UInt8)
  | .permanentNoWrap => .ok (OSDP_CMD_TEXT_CC_PERMANENT_NO_WRAP, 0)
  | .permanentWrap => .ok (OSDP_CMD_TEXT_CC_PERMANENT_WRAP, 0)
  | .temporaryNoWrap shownFor => do
    let tempTime ← toCount UInt8 shownFor SECOND "text display time"
    return (OSDP_CMD_TEXT_CC_TEMPORARY_NO_WRAP, tempTime)
  | .temporaryWrap shownFor => do
    let tempTime ← toCount UInt8 shownFor SECOND "text display time"
    return (OSDP_CMD_TEXT_CC_TEMPORARY_WRAP, tempTime)

/-- `TryFrom<TextCommand> for osdp_cmd_text`. -/
def tryInto (value : TextCommand) : Res OsdpCmdText := do
  let (controlCode, tempTime) ← codeOf value.mode
  let data ← copyInto OSDP_CMD_TEXT_MAX_LEN value.data
  return {
    reader := value.reader, controlCode, tempTime
    offsetRow := value.offsetRow, offsetCol := value.offsetCol
    length := UInt8.ofNat value.data.length, data }

/-- The control codes of a text; they start at 1. -/
def codes : List UInt8 :=
  [OSDP_CMD_TEXT_CC_PERMANENT_NO_WRAP, OSDP_CMD_TEXT_CC_PERMANENT_WRAP,
    OSDP_CMD_TEXT_CC_TEMPORARY_NO_WRAP, OSDP_CMD_TEXT_CC_TEMPORARY_WRAP]

theorem modeOf_codeOf {mode : TextMode} {code time : UInt8} (h : codeOf mode = .ok (code, time)) :
    ∃ shownFor, fromCount time SECOND = .ok shownFor ∧ modeOf code shownFor = .ok mode := by
  cases mode with
  | permanentNoWrap =>
    cases h
    obtain ⟨d, hd, -⟩ := fromCount_ok isUnit_second (0 : UInt8)
    exact ⟨d, hd, rfl⟩
  | permanentWrap =>
    cases h
    obtain ⟨d, hd, -⟩ := fromCount_ok isUnit_second (0 : UInt8)
    exact ⟨d, hd, rfl⟩
  | temporaryNoWrap shownFor =>
    simp only [codeOf, bind_eq_ok, pure_eq_ok, Except.ok.injEq, Prod.mk.injEq] at h
    obtain ⟨t, ht, rfl, rfl⟩ := h
    exact ⟨shownFor, fromCount_toCount isUnit_second ht, rfl⟩
  | temporaryWrap shownFor =>
    simp only [codeOf, bind_eq_ok, pure_eq_ok, Except.ok.injEq, Prod.mk.injEq] at h
    obtain ⟨t, ht, rfl, rfl⟩ := h
    exact ⟨shownFor, fromCount_toCount isUnit_second ht, rfl⟩

theorem round_trip {value : TextCommand} {raw : OsdpCmdText} (h : value.tryInto = .ok raw) :
    tryFrom raw = .ok value := by
  simp only [tryInto, bind_eq_ok, pure_eq_ok, Except.ok.injEq] at h
  obtain ⟨⟨code, time⟩, hcode, data, hdata, rfl⟩ := h
  obtain ⟨shownFor, htime, hmode⟩ := modeOf_codeOf hcode
  simp only [tryFrom, htime, hmode, slice_copyInto hdata (toNat_len8 hdata (by decide)), ok_bind,
    pure_eq_ok]

theorem modeOf_decides (code : UInt8) (shownFor : Duration) :
    Decides Fault.Malformed (code ∈ codes) (modeOf code shownFor) := by
  refine ((Decides.ok _).orElse <| (Decides.ok _).orElse <| (Decides.ok _).orElse <|
    (Decides.ok _).orElse <| malformed_decides _).congr ?_
  simp [codes]

theorem tryFrom_decides (raw : OsdpCmdText) :
    Decides Fault.Malformed
      (raw.controlCode ∈ codes ∧ raw.length.toNat ≤ OSDP_CMD_TEXT_MAX_LEN) (tryFrom raw) := by
  refine ((fromCount_decides isUnit_second raw.tempTime).bind fun shownFor _ =>
    (modeOf_decides raw.controlCode shownFor).bind fun _ _ =>
      (slice_decides raw.data raw.length.toNat _).bind_ok).congr ?_
  simp

theorem data_of_tryFrom {raw : OsdpCmdText} {value : TextCommand} (h : tryFrom raw = .ok value) :
    value.data = raw.data.toList.take raw.length.toNat := by
  simp only [tryFrom, bind_eq_ok, pure_eq_ok, Except.ok.injEq, slice_eq_ok] at h
  obtain ⟨_, -, _, -, _, ⟨-, rfl⟩, rfl⟩ := h
  rfl

/-- The time a temporary text is shown for. -/
def timings (value : TextCommand) : List Timing :=
  match value.mode with
  | .permanentNoWrap | .permanentWrap => []
  | .temporaryNoWrap shownFor | .temporaryWrap shownFor => [.seconds8 shownFor]

theorem codeOf_decides (value : TextCommand) :
    Decides Fault.Refused (∀ t ∈ value.timings, t.Fits) (codeOf value.mode) := by
  obtain ⟨reader, mode, offsetRow, offsetCol, data⟩ := value
  cases mode with
  | permanentNoWrap => exact (Decides.ok _).congr (by simp [timings])
  | permanentWrap => exact (Decides.ok _).congr (by simp [timings])
  | temporaryNoWrap shownFor =>
    exact (Timing.seconds8_decides shownFor _).bind_ok.congr (by simp [timings])
  | temporaryWrap shownFor =>
    exact (Timing.seconds8_decides shownFor _).bind_ok.congr (by simp [timings])

theorem tryInto_decides (value : TextCommand) :
    Decides Fault.Refused
      ((∀ t ∈ value.timings, t.Fits) ∧ value.data.length ≤ OSDP_CMD_TEXT_MAX_LEN) value.tryInto :=
  value.codeOf_decides.bind fun _ _ => (copyInto_decides _ value.data).bind_ok

end TextCommand

/-- `commands.rs`: what to do with a digital output. -/
inductive OutputAction where
  | keep
  | permanentOff
  | permanentOn
  | permanentOffAllowTimed
  | permanentOnAllowTimed
  | temporaryOn (timer : Duration)
  | temporaryOff (timer : Duration)
deriving DecidableEq, Repr

/-- `commands.rs`: command to control a digital output. -/
structure OutputCommand where
  outputNo : UInt8
  action : OutputAction
deriving DecidableEq, Repr

namespace OutputCommand

/-- The match on the control code in `TryFrom<osdp_cmd_output> for OutputCommand`. -/
def actionOf (controlCode : UInt8) (timer : Duration) : Res OutputAction :=
  if controlCode = OSDP_CMD_OUTPUT_CC_NOP then .ok .keep
  else if controlCode = OSDP_CMD_OUTPUT_CC_PERMANENT_OFF then .ok .permanentOff
  else if controlCode = OSDP_CMD_OUTPUT_CC_PERMANENT_ON then .ok .permanentOn
  else if controlCode = OSDP_CMD_OUTPUT_CC_PERMANENT_OFF_ALLOW_TIMED then .ok .permanentOffAllowTimed
  else if controlCode = OSDP_CMD_OUTPUT_CC_PERMANENT_ON_ALLOW_TIMED then .ok .permanentOnAllowTimed
  else if controlCode = OSDP_CMD_OUTPUT_CC_TEMPORARY_ON then .ok (.temporaryOn timer)
  else if controlCode = OSDP_CMD_OUTPUT_CC_TEMPORARY_OFF then .ok (.temporaryOff timer)
  else malformed "output control code"

/-- `TryFrom<osdp_cmd_output> for OutputCommand`. -/
def tryFrom (value : OsdpCmdOutput) : Res OutputCommand := do
  let timer ← fromCount value.timerCount TENTH_OF_A_SECOND
  let action ← actionOf value.controlCode timer
  return { outputNo := value.outputNo, action }

/-- The match on the action in `TryFrom<OutputCommand> for osdp_cmd_output`. -/
def codeOf : OutputAction → UInt8 × Duration
  | .keep => (OSDP_CMD_OUTPUT_CC_NOP, .ZERO)
  | .permanentOff => (OSDP_CMD_OUTPUT_CC_PERMANENT_OFF, .ZERO)
  | .permanentOn => (OSDP_CMD_OUTPUT_CC_PERMANENT_ON, .ZERO)
  | .permanentOffAllowTimed => (OSDP_CMD_OUTPUT_CC_PERMANENT_OFF_ALLOW_TIMED, .ZERO)
  | .permanentOnAllowTimed => (OSDP_CMD_OUTPUT_CC_PERMANENT_ON_ALLOW_TIMED, .ZERO)
  | .temporaryOn timer => (OSDP_CMD_OUTPUT_CC_TEMPORARY_ON, timer)
  | .temporaryOff timer => (OSDP_CMD_OUTPUT_CC_TEMPORARY_OFF, timer)

/-- `TryFrom<OutputCommand> for osdp_cmd_output`. -/
def tryInto (value : OutputCommand) : Res OsdpCmdOutput := do
  let (controlCode, timer) := codeOf value.action
  let timerCount ← toCount UInt16 timer TENTH_OF_A_SECOND "output timer"
  return { outputNo := value.outputNo, controlCode, timerCount }

/-- The control codes of an output. -/
def codes : List UInt8 :=
  [OSDP_CMD_OUTPUT_CC_NOP, OSDP_CMD_OUTPUT_CC_PERMANENT_OFF, OSDP_CMD_OUTPUT_CC_PERMANENT_ON,
    OSDP_CMD_OUTPUT_CC_PERMANENT_OFF_ALLOW_TIMED, OSDP_CMD_OUTPUT_CC_PERMANENT_ON_ALLOW_TIMED,
    OSDP_CMD_OUTPUT_CC_TEMPORARY_ON, OSDP_CMD_OUTPUT_CC_TEMPORARY_OFF]

theorem actionOf_codeOf (action : OutputAction) :
    actionOf (codeOf action).1 (codeOf action).2 = .ok action := by
  cases action <;> rfl

theorem round_trip {value : OutputCommand} {raw : OsdpCmdOutput} (h : value.tryInto = .ok raw) :
    tryFrom raw = .ok value := by
  simp only [tryInto, bind_eq_ok, pure_eq_ok, Except.ok.injEq] at h
  obtain ⟨timerCount, ht, rfl⟩ := h
  simp only [tryFrom, fromCount_toCount isUnit_tenth ht, actionOf_codeOf, ok_bind, pure_eq_ok]

theorem actionOf_decides (code : UInt8) (timer : Duration) :
    Decides Fault.Malformed (code ∈ codes) (actionOf code timer) := by
  refine ((Decides.ok _).orElse <| (Decides.ok _).orElse <| (Decides.ok _).orElse <|
    (Decides.ok _).orElse <| (Decides.ok _).orElse <| (Decides.ok _).orElse <|
    (Decides.ok _).orElse <| malformed_decides _).congr ?_
  simp [codes]

theorem tryFrom_decides (raw : OsdpCmdOutput) :
    Decides Fault.Malformed (raw.controlCode ∈ codes) (tryFrom raw) := by
  refine ((fromCount_decides isUnit_tenth raw.timerCount).bind fun timer _ =>
    (actionOf_decides raw.controlCode timer).bind_ok).congr ?_
  simp

/-- The time a temporary state lasts. -/
def timings (value : OutputCommand) : List Timing :=
  match value.action with
  | .temporaryOn timer | .temporaryOff timer => [.tenths16 timer]
  | _ => []

theorem tryInto_decides (value : OutputCommand) :
    Decides Fault.Refused (∀ t ∈ value.timings, t.Fits) value.tryInto := by
  refine ((Timing.tenths16_decides (codeOf value.action).2 _).bind_ok).congr ?_
  have zero : (Timing.tenths16 .ZERO).Fits := Timing.fits_zero
  obtain ⟨outputNo, action⟩ := value
  cases action <;> simp [timings, codeOf, zero]

end OutputCommand

end LibOsdp
