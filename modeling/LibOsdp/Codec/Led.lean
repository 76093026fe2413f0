import LibOsdp.Codec.Duration
import LibOsdp.Codec.Payload
import LibOsdp.Sys.Command

/-!
# LED commands

The two LED blocks share their layout but not their control codes: code 1 cancels a temporary
state and sets a permanent one. Each block has its own decoder, and the encoder of each fills
the block of a kept state with the default parameters.
-/

set_option autoImplicit false

namespace LibOsdp

open Base Sys

/-- `commands.rs`: LED colors. -/
inductive LedColor where
  | none | red | green | amber | blue | magenta | cyan | white
  | unknown (cc : UInt8)
deriving DecidableEq, Repr

namespace LedColor

/-- `From<u8> for LedColor`. -/
def ofU8 (value : UInt8) : LedColor :=
  if value = OSDP_LED_COLOR_NONE then none
  else if value = OSDP_LED_COLOR_RED then red
  else if value = OSDP_LED_COLOR_GREEN then green
  else if value = OSDP_LED_COLOR_AMBER then amber
  else if value = OSDP_LED_COLOR_BLUE then blue
  else if value = OSDP_LED_COLOR_MAGENTA then magenta
  else if value = OSDP_LED_COLOR_CYAN then cyan
  else if value = OSDP_LED_COLOR_WHITE then white
  else unknown value

/-- `From<LedColor> for u8`. -/
def toU8 : LedColor → UInt8
  | none => OSDP_LED_COLOR_NONE
  | red => OSDP_LED_COLOR_RED
  | green => OSDP_LED_COLOR_GREEN
  | amber => OSDP_LED_COLOR_AMBER
  | blue => OSDP_LED_COLOR_BLUE
  | magenta => OSDP_LED_COLOR_MAGENTA
  | cyan => OSDP_LED_COLOR_CYAN
  | white => OSDP_LED_COLOR_WHITE
  | unknown cc => cc

/-- The colors as a partly named byte. -/
def byteEnum : ByteEnum LedColor where
  named := [none, red, green, amber, blue, magenta, cyan, white]
  code := toU8
  other := unknown

/-- A color with its byte's name, where the byte has one. -/
def norm : LedColor → LedColor
  | unknown cc => byteEnum.value cc
  | color => color

theorem ofU8_eq_value (b : UInt8) : ofU8 b = byteEnum.value b := by
  refine ByteEnum.eq_value (by decide) (fun b hb => ?_) b
  simp only [byteEnum, List.forall_mem_cons, toU8, ne_comm (b := b)] at hb
  simp [ofU8, byteEnum, hb]

@[simp] theorem ofU8_toU8 (color : LedColor) : ofU8 color.toU8 = color.norm := by
  cases color with
  | unknown cc => exact ofU8_eq_value cc
  | _ => rfl

@[simp] theorem toU8_ofU8 (b : UInt8) : (ofU8 b).toU8 = b := by
  rw [ofU8_eq_value]
  show byteEnum.code (byteEnum.value b) = b
  exact ByteEnum.code_value (fun _ => rfl) b

/-- A color read from a byte is under its name already. -/
@[simp] theorem norm_ofU8 (b : UInt8) : (ofU8 b).norm = ofU8 b := by
  rw [← ofU8_toU8, toU8_ofU8]

end LedColor

/-- `commands.rs`: how an LED flashes. -/
structure LedParams where
  onTime : Duration := .ZERO
  offTime : Duration := .ZERO
  onColor : LedColor := .none
  offColor : LedColor := .none
deriving DecidableEq, Repr

/-- `LedParams::from_raw`. -/
def LedParams.fromRaw (raw : OsdpCmdLedParams) : Res LedParams := do
  let onTime ← fromCount raw.onCount TENTH_OF_A_SECOND
  let offTime ← fromCount raw.offCount TENTH_OF_A_SECOND
  return { onTime, offTime, onColor := .ofU8 raw.onColor, offColor := .ofU8 raw.offColor }

/-- `LedParams::to_raw`. -/
def LedParams.toRaw (p : LedParams) (controlCode : UInt8) (timer : Duration) :
    Res OsdpCmdLedParams := do
  let onCount ← toCount UInt8 p.onTime TENTH_OF_A_SECOND "LED on time"
  let offCount ← toCount UInt8 p.offTime TENTH_OF_A_SECOND "LED off time"
  let timerCount ← toCount UInt16 timer TENTH_OF_A_SECOND "LED timer"
  return {
    controlCode, onCount, offCount, timerCount
    onColor := p.onColor.toU8
    offColor := p.offColor.toU8 }

/-- What the round trip makes of parameters: named colors. -/
def LedParams.norm (p : LedParams) : LedParams :=
  { p with onColor := p.onColor.norm, offColor := p.offColor.norm }

/-- What a struct encoded from parameters holds. -/
theorem LedParams.toRaw_spec {p : LedParams} {code : UInt8} {timer : Duration}
    {raw : OsdpCmdLedParams} (h : p.toRaw code timer = .ok raw) :
    raw.controlCode = code ∧ LedParams.fromRaw raw = .ok p.norm ∧
      fromCount raw.timerCount TENTH_OF_A_SECOND = .ok timer := by
  simp only [toRaw, bind_eq_ok, pure_eq_ok, Except.ok.injEq] at h
  obtain ⟨on, hon, off, hoff, t, ht, rfl⟩ := h
  refine ⟨rfl, ?_, fromCount_toCount isUnit_tenth ht⟩
  simp only [fromRaw, fromCount_toCount isUnit_tenth hon, fromCount_toCount isUnit_tenth hoff,
    ok_bind, pure_eq_ok, LedColor.ofU8_toU8, norm]

theorem LedParams.fromRaw_decides (raw : OsdpCmdLedParams) :
    Decides Fault.Malformed True (LedParams.fromRaw raw) :=
  ((fromCount_decides isUnit_tenth raw.onCount).bind fun _ _ =>
    (fromCount_decides isUnit_tenth raw.offCount).bind_ok).congr (by simp)

theorem LedParams.toRaw_decides (p : LedParams) (code : UInt8) (timer : Duration) :
    Decides Fault.Refused
      ((Timing.tenths8 p.onTime).Fits ∧ (Timing.tenths8 p.offTime).Fits ∧
        (Timing.tenths16 timer).Fits) (p.toRaw code timer) :=
  (Timing.tenths8_decides p.onTime _).bind fun _ _ =>
    (Timing.tenths8_decides p.offTime _).bind fun _ _ =>
      (Timing.tenths16_decides timer _).bind_ok

/-- The default parameters, with which a block that sets nothing is filled. -/
theorem LedParams.default_decides (code : UInt8) :
    Decides Fault.Refused True (LedParams.toRaw {} code .ZERO) :=
  (toRaw_decides {} code .ZERO).congr
    ⟨fun _ => trivial, fun _ => ⟨Timing.fits_zero, Timing.fits_zero, Timing.fits_zero⟩⟩

/-- `commands.rs`: what to do with an LED's temporary state. -/
inductive LedTemporary where
  | keep
  | cancel
  | set (params : LedParams) (timer : Duration)
deriving DecidableEq, Repr

namespace LedTemporary

/-- `TryFrom<osdp_cmd_led_params> for LedTemporary`. -/
def tryFrom (raw : OsdpCmdLedParams) : Res LedTemporary :=
  if raw.controlCode = OSDP_CMD_LED_TEMPORARY_CC_NOP then .ok keep
  else if raw.controlCode = OSDP_CMD_LED_TEMPORARY_CC_CANCEL then .ok cancel
  else if raw.controlCode = OSDP_CMD_LED_TEMPORARY_CC_SET then do
    let params ← LedParams.fromRaw raw
    let timer ← fromCount raw.timerCount TENTH_OF_A_SECOND
    return set params timer
  else malformed "LED temporary control code"

/-- `TryFrom<LedTemporary> for osdp_cmd_led_params`. -/
def tryInto (value : LedTemporary) : Res OsdpCmdLedParams :=
  match value with
  | keep => LedParams.toRaw {} OSDP_CMD_LED_TEMPORARY_CC_NOP .ZERO
  | cancel => LedParams.toRaw {} OSDP_CMD_LED_TEMPORARY_CC_CANCEL .ZERO
  | set params timer => params.toRaw OSDP_CMD_LED_TEMPORARY_CC_SET timer

def norm : LedTemporary → LedTemporary
  | set params timer => set params.norm timer
  | value => value

/-- The control codes of a temporary block. -/
def codes : List UInt8 :=
  [OSDP_CMD_LED_TEMPORARY_CC_NOP, OSDP_CMD_LED_TEMPORARY_CC_CANCEL,
    OSDP_CMD_LED_TEMPORARY_CC_SET]

theorem round_trip {value : LedTemporary} {raw : OsdpCmdLedParams} (h : value.tryInto = .ok raw) :
    tryFrom raw = .ok value.norm := by
  cases value with
  | keep =>
    obtain ⟨hcode, -, -⟩ := LedParams.toRaw_spec h
    simp [tryFrom, hcode, norm]
  | cancel =>
    obtain ⟨hcode, -, -⟩ := LedParams.toRaw_spec h
    simp [tryFrom, hcode, norm]
  | set params timer =>
    obtain ⟨hcode, hparams, htimer⟩ := LedParams.toRaw_spec h
    simp [tryFrom, hcode, hparams, htimer, norm]

theorem tryFrom_decides (raw : OsdpCmdLedParams) :
    Decides Fault.Malformed (raw.controlCode ∈ codes) (tryFrom raw) := by
  have set : Decides Fault.Malformed True (do
      let params ← LedParams.fromRaw raw
      let timer ← fromCount raw.timerCount TENTH_OF_A_SECOND
      return set params timer) :=
    ((LedParams.fromRaw_decides raw).bind fun _ _ =>
      (fromCount_decides isUnit_tenth raw.timerCount).bind_ok).congr (and_self_iff)
  refine ((Decides.ok _).orElse <| (Decides.ok _).orElse <| set.orElse <|
    malformed_decides _).congr ?_
  simp [codes]

/-- The times of a temporary state. -/
def timings : LedTemporary → List Timing
  | set params timer => [.tenths8 params.onTime, .tenths8 params.offTime, .tenths16 timer]
  | _ => []

theorem tryInto_decides (value : LedTemporary) :
    Decides Fault.Refused (∀ t ∈ value.timings, t.Fits) value.tryInto := by
  cases value with
  | keep => exact (LedParams.default_decides _).congr (by simp [timings])
  | cancel => exact (LedParams.default_decides _).congr (by simp [timings])
  | set params timer => exact (params.toRaw_decides _ timer).congr (by simp [timings])

end LedTemporary

/-- `commands.rs`: what to do with an LED's permanent state. -/
inductive LedPermanent where
  | keep
  | set (params : LedParams)
deriving DecidableEq, Repr

namespace LedPermanent

/-- `TryFrom<osdp_cmd_led_params> for LedPermanent`. -/
def tryFrom (raw : OsdpCmdLedParams) : Res LedPermanent :=
  if raw.controlCode = OSDP_CMD_LED_PERMANENT_CC_NOP then .ok keep
  else if raw.controlCode = OSDP_CMD_LED_PERMANENT_CC_SET then do
    let params ← LedParams.fromRaw raw
    return set params
  else malformed "LED permanent control code"

/-- `TryFrom<LedPermanent> for osdp_cmd_led_params`. -/
def tryInto (value : LedPermanent) : Res OsdpCmdLedParams :=
  match value with
  | keep => LedParams.toRaw {} OSDP_CMD_LED_PERMANENT_CC_NOP .ZERO
  | set params => params.toRaw OSDP_CMD_LED_PERMANENT_CC_SET .ZERO

def norm : LedPermanent → LedPermanent
  | set params => set params.norm
  | value => value

/-- The control codes of a permanent block. -/
def codes : List UInt8 := [OSDP_CMD_LED_PERMANENT_CC_NOP, OSDP_CMD_LED_PERMANENT_CC_SET]

theorem round_trip {value : LedPermanent} {raw : OsdpCmdLedParams} (h : value.tryInto = .ok raw) :
    tryFrom raw = .ok value.norm := by
  cases value with
  | keep =>
    obtain ⟨hcode, -, -⟩ := LedParams.toRaw_spec h
    simp [tryFrom, hcode, norm]
  | set params =>
    obtain ⟨hcode, hparams, -⟩ := LedParams.toRaw_spec h
    simp [tryFrom, hcode, hparams, norm]

theorem tryFrom_decides (raw : OsdpCmdLedParams) :
    Decides Fault.Malformed (raw.controlCode ∈ codes) (tryFrom raw) := by
  refine ((Decides.ok _).orElse <| (LedParams.fromRaw_decides raw).bind_ok.orElse <|
    malformed_decides _).congr ?_
  simp [codes]

/-- The times of a permanent state. -/
def timings : LedPermanent → List Timing
  | set params => [.tenths8 params.onTime, .tenths8 params.offTime]
  | keep => []

theorem tryInto_decides (value : LedPermanent) :
    Decides Fault.Refused (∀ t ∈ value.timings, t.Fits) value.tryInto := by
  cases value with
  | keep => exact (LedParams.default_decides _).congr (by simp [timings])
  | set params =>
    refine (params.toRaw_decides _ .ZERO).congr ?_
    have zero : (Timing.tenths16 .ZERO).Fits := Timing.fits_zero
    simp [timings, zero]

end LedPermanent

/-- `commands.rs`: command to control the behavior of on-board LEDs. -/
structure LedCommand where
  reader : UInt8
  ledNumber : UInt8
  temporary : LedTemporary
  permanent : LedPermanent
deriving DecidableEq, Repr

namespace LedCommand

/-- `TryFrom<osdp_cmd_led> for LedCommand`. -/
def tryFrom (value : OsdpCmdLed) : Res LedCommand := do
  let temporary ← LedTemporary.tryFrom value.temporary
  let permanent ← LedPermanent.tryFrom value.permanent
  return { reader := value.reader, ledNumber := value.ledNumber, temporary, permanent }

/-- `TryFrom<LedCommand> for osdp_cmd_led`. -/
def tryInto (value : LedCommand) : Res OsdpCmdLed := do
  let temporary ← value.temporary.tryInto
  let permanent ← value.permanent.tryInto
  return { reader := value.reader, ledNumber := value.ledNumber, temporary, permanent }

def norm (value : LedCommand) : LedCommand :=
  { value with temporary := value.temporary.norm, permanent := value.permanent.norm }

theorem round_trip {value : LedCommand} {raw : OsdpCmdLed} (h : value.tryInto = .ok raw) :
    tryFrom raw = .ok value.norm := by
  simp only [tryInto, bind_eq_ok, pure_eq_ok, Except.ok.injEq] at h
  obtain ⟨temporary, ht, permanent, hp, rfl⟩ := h
  simp only [tryFrom, LedTemporary.round_trip ht, LedPermanent.round_trip hp, ok_bind, pure_eq_ok,
    norm]

theorem tryFrom_decides (raw : OsdpCmdLed) :
    Decides Fault.Malformed
      (raw.temporary.controlCode ∈ LedTemporary.codes ∧
        raw.permanent.controlCode ∈ LedPermanent.codes) (tryFrom raw) :=
  (LedTemporary.tryFrom_decides raw.temporary).bind fun _ _ =>
    (LedPermanent.tryFrom_decides raw.permanent).bind_ok

/-- The times of a command, those of its temporary state first. -/
def timings (value : LedCommand) : List Timing :=
  value.temporary.timings ++ value.permanent.timings

theorem tryInto_decides (value : LedCommand) :
    Decides Fault.Refused (∀ t ∈ value.timings, t.Fits) value.tryInto := by
  refine (value.temporary.tryInto_decides.bind fun _ _ =>
    value.permanent.tryInto_decides.bind_ok).congr ?_
  simp only [timings, List.forall_mem_append]

end LedCommand

end LibOsdp
