import LibOsdp.Codec.CommandDomain
import Mathlib.Data.List.Forall2

/-!
# Sending a received command on

A command that was decoded lies in the domain of the encoder, except for what only a sender
checks: a challenge that is empty, and a date that is none. What is encoded from it reads as the
same command, with the counts of its timers and with the bytes that have no name.
-/

set_option autoImplicit false

namespace LibOsdp

open Base Sys

namespace Sys

/-- The timer counts of a block that sets a temporary state; no other has any. -/
def OsdpCmdLedParams.temporaryCounts (raw : OsdpCmdLedParams) : List Nat :=
  if raw.controlCode = OSDP_CMD_LED_TEMPORARY_CC_SET then
    [countOf raw.onCount, countOf raw.offCount, countOf raw.timerCount]
  else []

/-- The timer counts of a block that sets a permanent state. -/
def OsdpCmdLedParams.permanentCounts (raw : OsdpCmdLedParams) : List Nat :=
  if raw.controlCode = OSDP_CMD_LED_PERMANENT_CC_SET then
    [countOf raw.onCount, countOf raw.offCount]
  else []

/-- The colors of a block whose control code is the one that sets a state. -/
def OsdpCmdLedParams.colors (raw : OsdpCmdLedParams) (setCode : UInt8) : List UInt8 :=
  if raw.controlCode = setCode then [raw.onColor, raw.offColor] else []

namespace OsdpCmd

/-- The timer counts that a struct of its id and control code carries. -/
def timerCounts (raw : OsdpCmd) : List Nat :=
  if raw.id = OSDP_CMD_LED then
    raw.payload.led.temporary.temporaryCounts ++ raw.payload.led.permanent.permanentCounts
  else if raw.id = OSDP_CMD_BUZZER then
    if raw.payload.buzzer.controlCode = OSDP_CMD_BUZZER_CC_DEFAULT_TONE then
      [countOf raw.payload.buzzer.onCount, countOf raw.payload.buzzer.offCount]
    else []
  else if raw.id = OSDP_CMD_TEXT then
    if raw.payload.text.controlCode = OSDP_CMD_TEXT_CC_TEMPORARY_NO_WRAP ∨
        raw.payload.text.controlCode = OSDP_CMD_TEXT_CC_TEMPORARY_WRAP then
      [countOf raw.payload.text.tempTime]
    else []
  else if raw.id = OSDP_CMD_OUTPUT then
    if raw.payload.output.controlCode = OSDP_CMD_OUTPUT_CC_TEMPORARY_ON ∨
        raw.payload.output.controlCode = OSDP_CMD_OUTPUT_CC_TEMPORARY_OFF then
      [countOf raw.payload.output.timerCount]
    else []
  else if raw.id = OSDP_CMD_XWR then
    if raw.payload.trs.command = OSDP_TRS_CMD_ENTER_PIN then
      [countOf raw.payload.trs.payload.pinEntry.timeoutInitial,
        countOf raw.payload.trs.payload.pinEntry.timeoutDigit]
    else []
  else []

/-- The bytes of a struct that only some values have names for: colors, body parts, formats. -/
def openBytes (raw : OsdpCmd) : List UInt8 :=
  if raw.id = OSDP_CMD_LED then
    raw.payload.led.temporary.colors OSDP_CMD_LED_TEMPORARY_CC_SET ++
      raw.payload.led.permanent.colors OSDP_CMD_LED_PERMANENT_CC_SET
  else if raw.id = OSDP_CMD_BIOREAD then [raw.payload.bioread.type, raw.payload.bioread.format]
  else if raw.id = OSDP_CMD_BIOMATCH then [raw.payload.biomatch.type, raw.payload.biomatch.format]
  else []

end OsdpCmd

end Sys

/-- The colors of parameters, as bytes. -/
def LedParams.colors (p : LedParams) : List UInt8 := [p.onColor.toU8, p.offColor.toU8]

/-- What a block reads as: its counts, and its colors under their names. -/
theorem LedParams.reads_of_fromRaw {raw : OsdpCmdLedParams} {p : LedParams}
    (h : fromRaw raw = .ok p) :
    p.norm = p ∧ (Timing.tenths8 p.onTime).Reads (countOf raw.onCount) ∧
      (Timing.tenths8 p.offTime).Reads (countOf raw.offCount) ∧
      p.colors = [raw.onColor, raw.offColor] := by
  simp only [fromRaw, bind_eq_ok, pure_eq_ok, Except.ok.injEq] at h
  obtain ⟨onTime, hon, offTime, hoff, rfl⟩ := h
  exact ⟨by simp [norm], Timing.tenths8_reads hon, Timing.tenths8_reads hoff, by simp [colors]⟩

/-- The colors of a temporary state. -/
def LedTemporary.colors : LedTemporary → List UInt8
  | set p _ => p.colors
  | _ => []

theorem LedTemporary.reads_of_tryFrom {raw : OsdpCmdLedParams} {value : LedTemporary}
    (h : tryFrom raw = .ok value) :
    value.norm = value ∧ List.Forall₂ Timing.Reads value.timings raw.temporaryCounts ∧
      value.colors = raw.colors OSDP_CMD_LED_TEMPORARY_CC_SET := by
  unfold tryFrom at h
  split at h
  · cases h
    simp_all [norm, timings, colors, OsdpCmdLedParams.temporaryCounts, OsdpCmdLedParams.colors]
  split at h
  · cases h
    simp_all [norm, timings, colors, OsdpCmdLedParams.temporaryCounts, OsdpCmdLedParams.colors]
  split at h
  · rename_i hset
    obtain ⟨p, hp, h⟩ := bind_eq_ok.1 h
    obtain ⟨timer, htimer, rfl⟩ := bind_pure_eq_ok.1 h
    obtain ⟨hnorm, hon, hoff, hcolors⟩ := LedParams.reads_of_fromRaw hp
    refine ⟨by rw [norm, hnorm], ?_, ?_⟩
    · rw [OsdpCmdLedParams.temporaryCounts, if_pos hset]
      exact .cons hon (.cons hoff (.cons (Timing.tenths16_reads htimer) .nil))
    · rw [OsdpCmdLedParams.colors, if_pos hset]
      exact hcolors
  · cases h

/-- The colors of a permanent state. -/
def LedPermanent.colors : LedPermanent → List UInt8
  | set p => p.colors
  | keep => []

theorem LedPermanent.reads_of_tryFrom {raw : OsdpCmdLedParams} {value : LedPermanent}
    (h : tryFrom raw = .ok value) :
    value.norm = value ∧ List.Forall₂ Timing.Reads value.timings raw.permanentCounts ∧
      value.colors = raw.colors OSDP_CMD_LED_PERMANENT_CC_SET := by
  unfold tryFrom at h
  split at h
  · cases h
    simp_all [norm, timings, colors, OsdpCmdLedParams.permanentCounts, OsdpCmdLedParams.colors]
  split at h
  · rename_i hset
    obtain ⟨p, hp, rfl⟩ := bind_pure_eq_ok.1 h
    obtain ⟨hnorm, hon, hoff, hcolors⟩ := LedParams.reads_of_fromRaw hp
    refine ⟨by rw [norm, hnorm], ?_, ?_⟩
    · rw [OsdpCmdLedParams.permanentCounts, if_pos hset]
      exact .cons hon (.cons hoff .nil)
    · rw [OsdpCmdLedParams.colors, if_pos hset]
      exact hcolors
  · cases h

/-- The colors of a command, as bytes. -/
def LedCommand.colors (value : LedCommand) : List UInt8 :=
  value.temporary.colors ++ value.permanent.colors

theorem LedCommand.reads_of_tryFrom {raw : OsdpCmdLed} {value : LedCommand}
    (h : tryFrom raw = .ok value) :
    value.norm = value ∧
      List.Forall₂ Timing.Reads value.timings
        (raw.temporary.temporaryCounts ++ raw.permanent.permanentCounts) ∧
      value.colors = raw.temporary.colors OSDP_CMD_LED_TEMPORARY_CC_SET ++
        raw.permanent.colors OSDP_CMD_LED_PERMANENT_CC_SET := by
  simp only [tryFrom, bind_eq_ok, pure_eq_ok, Except.ok.injEq] at h
  obtain ⟨temporary, ht, permanent, hp, rfl⟩ := h
  obtain ⟨htnorm, htimers, htcolors⟩ := LedTemporary.reads_of_tryFrom ht
  obtain ⟨hpnorm, hptimers, hpcolors⟩ := LedPermanent.reads_of_tryFrom hp
  refine ⟨by rw [norm, htnorm, hpnorm], ?_, ?_⟩
  · exact List.rel_append htimers hptimers
  · rw [colors, htcolors, hpcolors]

theorem BuzzerCommand.timers_of_tryFrom {raw : OsdpCmdBuzzer} {value : BuzzerCommand}
    (h : tryFrom raw = .ok value) :
    List.Forall₂ Timing.Reads value.timings
      (if raw.controlCode = OSDP_CMD_BUZZER_CC_DEFAULT_TONE then
        [countOf raw.onCount, countOf raw.offCount] else []) := by
  obtain ⟨action, haction, rfl⟩ := bind_pure_eq_ok.1 h
  unfold actionOf at haction
  split at haction
  · cases haction
    simp_all [timings]
  split at haction
  · cases haction
    simp_all [timings]
  split at haction
  · rename_i htone
    rw [if_pos htone]
    obtain ⟨on, hon, haction⟩ := bind_eq_ok.1 haction
    obtain ⟨off, hoff, rfl⟩ := bind_pure_eq_ok.1 haction
    exact .cons (Timing.tenths8_reads hon) (.cons (Timing.tenths8_reads hoff) .nil)
  · cases haction

theorem TextCommand.timers_of_tryFrom {raw : OsdpCmdText} {value : TextCommand}
    (h : tryFrom raw = .ok value) :
    List.Forall₂ Timing.Reads value.timings
      (if raw.controlCode = OSDP_CMD_TEXT_CC_TEMPORARY_NO_WRAP ∨
          raw.controlCode = OSDP_CMD_TEXT_CC_TEMPORARY_WRAP then [countOf raw.tempTime] else []) := by
  simp only [tryFrom, bind_eq_ok, pure_eq_ok, Except.ok.injEq] at h
  obtain ⟨shownFor, hshown, mode, hmode, data, -, rfl⟩ := h
  have hreads := Timing.seconds8_reads hshown
  unfold modeOf at hmode
  split at hmode
  · cases hmode
    simp_all [timings]
  split at hmode
  · cases hmode
    simp_all [timings]
  split at hmode
  · cases hmode
    simp_all [timings]
  split at hmode
  · cases hmode
    simp_all [timings]
  · cases hmode

theorem OutputCommand.timers_of_tryFrom {raw : OsdpCmdOutput} {value : OutputCommand}
    (h : tryFrom raw = .ok value) :
    List.Forall₂ Timing.Reads value.timings
      (if raw.controlCode = OSDP_CMD_OUTPUT_CC_TEMPORARY_ON ∨
          raw.controlCode = OSDP_CMD_OUTPUT_CC_TEMPORARY_OFF then [countOf raw.timerCount] else []) := by
  simp only [tryFrom, bind_eq_ok, pure_eq_ok, Except.ok.injEq] at h
  obtain ⟨timer, htimer, action, haction, rfl⟩ := h
  have hreads := Timing.tenths16_reads htimer
  unfold actionOf at haction
  split at haction
  · cases haction
    simp_all [timings]
  split at haction
  · cases haction
    simp_all [timings]
  split at haction
  · cases haction
    simp_all [timings]
  split at haction
  · cases haction
    simp_all [timings]
  split at haction
  · cases haction
    simp_all [timings]
  split at haction
  · cases haction
    simp_all [timings]
  split at haction
  · cases haction
    simp_all [timings]
  · cases haction

theorem PinEntry.reads_of_tryFrom {raw : OsdpTrsPinEntry} {value : PinEntry}
    (h : tryFrom raw = .ok value) :
    (∀ field, value.lengthField = some field → field.sizeBits ≠ 0) ∧
      List.Forall₂ Timing.Reads value.timings
        [countOf raw.timeoutInitial, countOf raw.timeoutDigit] := by
  simp only [tryFrom, bind_eq_ok, pure_eq_ok, Except.ok.injEq] at h
  obtain ⟨_, -, initial, hinitial, digit, hdigit, _, -, rfl⟩ := h
  refine ⟨?_, .cons (Timing.seconds8_reads hinitial) (.cons (Timing.seconds8_reads hdigit) .nil)⟩
  intro field hfield
  simp only [lengthFieldOf] at hfield
  split at hfield
  · rename_i hbits
    cases hfield
    simpa using hbits
  · cases hfield

namespace Command

/-- The bytes of a command that only some values have names for. -/
def openBytes : Command → List UInt8
  | led c => c.colors
  | bioRead c => [c.kind.toU8, c.format.toU8]
  | bioMatch c => [c.kind.toU8, c.format.toU8]
  | _ => []

/-- What a struct decodes to, command by command. -/
inductive Decodes (raw : OsdpCmd) : Command → Prop where
  | led {c : LedCommand} (id : raw.id = OSDP_CMD_LED)
      (decoded : LedCommand.tryFrom raw.payload.led = .ok c) : Decodes raw (.led c)
  | buzzer {c : BuzzerCommand} (id : raw.id = OSDP_CMD_BUZZER)
      (decoded : BuzzerCommand.tryFrom raw.payload.buzzer = .ok c) : Decodes raw (.buzzer c)
  | text {c : TextCommand} (id : raw.id = OSDP_CMD_TEXT)
      (decoded : TextCommand.tryFrom raw.payload.text = .ok c) : Decodes raw (.text c)
  | output {c : OutputCommand} (id : raw.id = OSDP_CMD_OUTPUT)
      (decoded : OutputCommand.tryFrom raw.payload.output = .ok c) : Decodes raw (.output c)
  | comSet (id : raw.id = OSDP_CMD_COMSET) :
      Decodes raw (.comSet (.fromRaw raw.payload.comset))
  | comSetDone (id : raw.id = OSDP_CMD_COMSET_DONE) :
      Decodes raw (.comSetDone (.fromRaw raw.payload.comset))
  | keySet {c : KeySetCommand} (id : raw.id = OSDP_CMD_KEYSET)
      (decoded : KeySetCommand.tryFrom raw.payload.keyset = .ok c) : Decodes raw (.keySet c)
  | mfg {c : MfgCommand} (id : raw.id = OSDP_CMD_MFG)
      (decoded : MfgCommand.tryFrom raw.payload.mfg = .ok c) : Decodes raw (.mfg c)
  | fileTx (id : raw.id = OSDP_CMD_FILE_TX) :
      Decodes raw (.fileTx (.fromRaw raw.payload.fileTx))
  | status {c : StatusKind} (id : raw.id = OSDP_CMD_STATUS)
      (decoded : StatusKind.tryFrom raw.payload.status.type = .ok c) : Decodes raw (.status c)
  | bioRead (id : raw.id = OSDP_CMD_BIOREAD) :
      Decodes raw (.bioRead (.fromRaw raw.payload.bioread))
  | bioMatch {c : BioMatchCommand} (id : raw.id = OSDP_CMD_BIOMATCH)
      (decoded : BioMatchCommand.tryFrom raw.payload.biomatch = .ok c) :
      Decodes raw (.bioMatch c)
  | timeDate (id : raw.id = OSDP_CMD_TDSET) :
      Decodes raw (.timeDate (.fromRaw raw.payload.tdset))
  | pivData (id : raw.id = OSDP_CMD_PIVDATA) :
      Decodes raw (.pivData (.fromRaw raw.payload.pivdata))
  | genAuth {c : Challenge} (id : raw.id = OSDP_CMD_GENAUTH)
      (decoded : Challenge.tryFrom raw.payload.auth = .ok c) : Decodes raw (.genAuth c)
  | crAuth {c : Challenge} (id : raw.id = OSDP_CMD_CRAUTH)
      (decoded : Challenge.tryFrom raw.payload.auth = .ok c) : Decodes raw (.crAuth c)
  | trs {c : TrsCommand} (id : raw.id = OSDP_CMD_XWR)
      (decoded : TrsCommand.tryFrom raw.payload.trs = .ok c) : Decodes raw (.trs c)

/-- A branch of the decoder, under its constructor. -/
theorem Decodes.branch {α : Type} {raw : OsdpCmd} {c : Command} {r : Res α} (wrap : α → Command)
    (h : tryFrom raw = .ok c) (heq : tryFrom raw = r >>= fun a => .ok (wrap a))
    (hv : ∀ {a}, r = .ok a → Decodes raw (wrap a)) : Decodes raw c := by
  rw [heq] at h
  obtain ⟨a, ha, rfl⟩ := bind_pure_eq_ok.1 h
  exact hv ha

/-- A branch of the decoder that reads every struct of its id. -/
theorem Decodes.branch_ok {raw : OsdpCmd} {c c' : Command} (h : tryFrom raw = .ok c)
    (heq : tryFrom raw = .ok c') (hv : Decodes raw c') : Decodes raw c := by
  rw [heq] at h
  cases h
  exact hv

theorem decodes_of_tryFrom {raw : OsdpCmd} {c : Command} (h : tryFrom raw = .ok c) :
    Decodes raw c := by
  have hid : raw.id ∈ OsdpCmd.appIds :=
    ((decodesExactly raw).decides.ok_iff.1 ⟨c, h⟩).id_mem
  simp only [OsdpCmd.appIds, List.mem_cons, List.not_mem_nil, or_false] at hid
  rcases hid with id | id | id | id | id | id | id | id | id | id | id | id | id | id | id | id | id
  · exact .branch led h (by simp [tryFrom, id]) (.led id)
  · exact .branch buzzer h (by simp [tryFrom, id]) (.buzzer id)
  · exact .branch text h (by simp [tryFrom, id]) (.text id)
  · exact .branch output h (by simp [tryFrom, id]) (.output id)
  · exact .branch_ok h (by simp [tryFrom, id]) (.comSet id)
  · exact .branch_ok h (by simp [tryFrom, id]) (.comSetDone id)
  · exact .branch keySet h (by simp [tryFrom, id]) (.keySet id)
  · exact .branch mfg h (by simp [tryFrom, id]) (.mfg id)
  · exact .branch_ok h (by simp [tryFrom, id]) (.fileTx id)
  · exact .branch status h (by simp [tryFrom, id]) (.status id)
  · exact .branch_ok h (by simp [tryFrom, id]) (.bioRead id)
  · exact .branch bioMatch h (by simp [tryFrom, id]) (.bioMatch id)
  · exact .branch_ok h (by simp [tryFrom, id]) (.timeDate id)
  · exact .branch_ok h (by simp [tryFrom, id]) (.pivData id)
  · exact .branch genAuth h (by simp [tryFrom, id]) (.genAuth id)
  · exact .branch crAuth h (by simp [tryFrom, id]) (.crAuth id)
  · exact .branch trs h (by simp [tryFrom, id]) (.trs id)

/-- What is true of a decoded command, for its encoder to carry it on unchanged. -/
structure Resends (raw : OsdpCmd) (c : Command) : Prop where
  named : c.norm = c
  fits : ∀ p ∈ c.payloads, p.length ≤ c.payloadSizes.2
  timers : List.Forall₂ Timing.Reads c.timings raw.timerCounts
  open_eq : c.openBytes = raw.openBytes
  sized : ∀ entry field, c = .trs (.enterPin entry) → entry.lengthField = some field →
    field.sizeBits ≠ 0

/-- A decoded command without times, partly named bytes or payload. -/
theorem Resends.plain {raw : OsdpCmd} {c : Command} (named : c.norm = c) (hpayloads : c.payloads = [])
    (htimings : c.timings = []) (htimers : raw.timerCounts = []) (hopen : c.openBytes = raw.openBytes)
    (htrs : ∀ entry, c ≠ .trs (.enterPin entry)) : Resends raw c where
  named := named
  fits := by simp [hpayloads]
  timers := by simp [htimings, htimers]
  open_eq := hopen
  sized entry _ hentry := absurd hentry (htrs entry)

theorem resends_of_trs {raw : OsdpCmd} {c : TrsCommand} (id : raw.id = OSDP_CMD_XWR)
    (decoded : TrsCommand.tryFrom raw.payload.trs = .ok c) : Resends raw (trs c) := by
  unfold TrsCommand.tryFrom at decoded
  split at decoded
  · cases decoded
    apply Resends.plain rfl rfl rfl <;> simp_all [OsdpCmd.timerCounts, openBytes, OsdpCmd.openBytes]
  split at decoded
  · cases decoded
    apply Resends.plain rfl rfl rfl <;> simp_all [OsdpCmd.timerCounts, openBytes, OsdpCmd.openBytes]
  split at decoded
  · rename_i hcommand
    obtain ⟨data, hdata, rfl⟩ := bind_pure_eq_ok.1 decoded
    exact {
      named := rfl
      fits := by simp [payloads, payloadSizes, data_of_fromApdu hdata]
      timers := by simp [timings, OsdpCmd.timerCounts, id, hcommand]
      open_eq := by simp [openBytes, OsdpCmd.openBytes, id]
      sized := by simp }
  split at decoded
  · rename_i hcommand
    obtain ⟨entry, hentry, rfl⟩ := bind_pure_eq_ok.1 decoded
    obtain ⟨hsized, htimers⟩ := PinEntry.reads_of_tryFrom hentry
    exact {
      named := rfl
      fits := by simp [payloads, payloadSizes, PinEntry.apdu_of_tryFrom hentry]
      timers := by simpa [timings, OsdpCmd.timerCounts, id, hcommand] using htimers
      open_eq := by simp [openBytes, OsdpCmd.openBytes, id]
      sized := by
        rintro entry' field ⟨rfl⟩ hfield
        exact hsized field hfield }
  split at decoded
  · cases decoded
    apply Resends.plain rfl rfl rfl <;> simp_all [OsdpCmd.timerCounts, openBytes, OsdpCmd.openBytes]
  · cases decoded

theorem resends_of_decodes {raw : OsdpCmd} {c : Command} (h : Decodes raw c) : Resends raw c := by
  cases h with
  | led id decoded =>
    obtain ⟨hnorm, htimers, hcolors⟩ := LedCommand.reads_of_tryFrom decoded
    exact {
      named := by rw [norm, hnorm]
      fits := by simp [payloads]
      timers := by simpa [timings, OsdpCmd.timerCounts, id] using htimers
      open_eq := by simpa [openBytes, OsdpCmd.openBytes, id] using hcolors
      sized := by simp }
  | buzzer id decoded =>
    exact {
      named := rfl
      fits := by simp [payloads]
      timers := by simpa [timings, OsdpCmd.timerCounts, id] using BuzzerCommand.timers_of_tryFrom decoded
      open_eq := by simp [openBytes, OsdpCmd.openBytes, id]
      sized := by simp }
  | text id decoded =>
    exact {
      named := rfl
      fits := by simp [payloads, payloadSizes, TextCommand.data_of_tryFrom decoded]
      timers := by simpa [timings, OsdpCmd.timerCounts, id] using TextCommand.timers_of_tryFrom decoded
      open_eq := by simp [openBytes, OsdpCmd.openBytes, id]
      sized := by simp }
  | output id decoded =>
    exact {
      named := rfl
      fits := by simp [payloads]
      timers := by simpa [timings, OsdpCmd.timerCounts, id] using OutputCommand.timers_of_tryFrom decoded
      open_eq := by simp [openBytes, OsdpCmd.openBytes, id]
      sized := by simp }
  | keySet id decoded =>
    exact {
      named := rfl
      fits := by simp [payloads, payloadSizes, KeySetCommand.data_of_tryFrom decoded]
      timers := by simp [timings, OsdpCmd.timerCounts, id]
      open_eq := by simp [openBytes, OsdpCmd.openBytes, id]
      sized := by simp }
  | mfg id decoded =>
    exact {
      named := rfl
      fits := by simp [payloads, payloadSizes, MfgCommand.data_of_tryFrom decoded]
      timers := by simp [timings, OsdpCmd.timerCounts, id]
      open_eq := by simp [openBytes, OsdpCmd.openBytes, id]
      sized := by simp }
  | bioRead id =>
    exact {
      named := by simp [norm, BioReadCommand.norm, BioReadCommand.fromRaw]
      fits := by simp [payloads]
      timers := by simp [timings, OsdpCmd.timerCounts, id]
      open_eq := by simp [openBytes, BioReadCommand.fromRaw, OsdpCmd.openBytes, id]
      sized := by simp }
  | bioMatch id decoded =>
    obtain ⟨-, rfl⟩ := slice_bind_pure_eq_ok.1 decoded
    exact {
      named := by simp [norm, BioMatchCommand.norm]
      fits := by simp [payloads, payloadSizes]
      timers := by simp [timings, OsdpCmd.timerCounts, id]
      open_eq := by simp [openBytes, OsdpCmd.openBytes, id]
      sized := by simp }
  | genAuth id decoded =>
    exact {
      named := rfl
      fits := by simp [payloads, payloadSizes, Challenge.data_of_tryFrom decoded]
      timers := by simp [timings, OsdpCmd.timerCounts, id]
      open_eq := by simp [openBytes, OsdpCmd.openBytes, id]
      sized := by simp }
  | crAuth id decoded =>
    exact {
      named := rfl
      fits := by simp [payloads, payloadSizes, Challenge.data_of_tryFrom decoded]
      timers := by simp [timings, OsdpCmd.timerCounts, id]
      open_eq := by simp [openBytes, OsdpCmd.openBytes, id]
      sized := by simp }
  | trs id decoded => exact resends_of_trs id decoded
  | comSet id =>
    apply Resends.plain rfl rfl rfl <;> simp [OsdpCmd.timerCounts, openBytes, OsdpCmd.openBytes, id]
  | comSetDone id =>
    apply Resends.plain rfl rfl rfl <;> simp [OsdpCmd.timerCounts, openBytes, OsdpCmd.openBytes, id]
  | fileTx id =>
    apply Resends.plain rfl rfl rfl <;> simp [OsdpCmd.timerCounts, openBytes, OsdpCmd.openBytes, id]
  | status id decoded =>
    apply Resends.plain rfl rfl rfl <;> simp [OsdpCmd.timerCounts, openBytes, OsdpCmd.openBytes, id]
  | timeDate id =>
    apply Resends.plain rfl rfl rfl <;> simp [OsdpCmd.timerCounts, openBytes, OsdpCmd.openBytes, id]
  | pivData id =>
    apply Resends.plain rfl rfl rfl <;> simp [OsdpCmd.timerCounts, openBytes, OsdpCmd.openBytes, id]

theorem Resends.of_tryFrom {raw : OsdpCmd} {c : Command} (h : tryFrom raw = .ok c) :
    Resends raw c :=
  resends_of_decodes (decodes_of_tryFrom h)

/-- A challenge without bytes: the decoder delivers one, and the encoder refuses it. -/
def EmptyChallenge (c : Command) : Prop :=
  ∃ challenge : Challenge, (c = genAuth challenge ∨ c = crAuth challenge) ∧ challenge.data = []

/-- A date or time that is none: the decoder delivers one, and the encoder refuses it. -/
def DateOutOfRange (c : Command) : Prop := ∃ d, c = timeDate d ∧ ¬ d.InRange

/-- Only a challenge has to have a payload. -/
theorem least_iff {c : Command} :
    (∀ p ∈ c.payloads, c.payloadSizes.1 ≤ p.length) ↔ ¬ c.EmptyChallenge := by
  cases c with
  | genAuth c => simp [payloads, payloadSizes, EmptyChallenge, Nat.one_le_iff_ne_zero]
  | crAuth c => simp [payloads, payloadSizes, EmptyChallenge, Nat.one_le_iff_ne_zero]
  | _ => simp [payloadSizes, EmptyChallenge]

/-- **The decoder's image lies in the encoder's domain**, but for what only a sender checks. -/
theorem Resends.encodable_iff {raw : OsdpCmd} {c : Command} (h : Resends raw c) :
    c.Encodable ↔ ¬ c.EmptyChallenge ∧ ¬ c.DateOutOfRange := by
  constructor
  · intro he
    refine ⟨least_iff.1 fun p hp => (he.payloads_fit p hp).1, ?_⟩
    rintro ⟨d, rfl, hd⟩
    exact hd (he.date_in_range d rfl)
  · rintro ⟨hchallenge, hdate⟩
    exact {
      payloads_fit := fun p hp => ⟨least_iff.2 hchallenge p hp, h.fits p hp⟩
      timings_fit := ((List.forall₂_and_left _ _).1 h.timers).1
      date_in_range := fun d hd => not_not.1 fun hrange => hdate ⟨d, hd, hrange⟩
      length_field_sized := h.sized }

/-- One command has one list of counts to be read from. -/
theorem timerCounts_unique {ts : List Timing} {ns ns' : List Nat}
    (h : List.Forall₂ Timing.Reads ts ns) (h' : List.Forall₂ Timing.Reads ts ns') : ns = ns' :=
  List.right_unique_forall₂' (fun _ _ _ hn hn' => hn.2.symm.trans hn'.2) h h'

/-- **A decoded command is sent on unchanged**: its encoding fails only for what a sender checks
    beyond a receiver, and otherwise reads as the command itself, in the same counts and with the
    same partly named bytes. No timer has a count that would be lost. -/
theorem decoded_command_resends {raw : OsdpCmd} {c : Command} (h : tryFrom raw = .ok c) :
    ((∃ raw', c.tryInto = .ok raw') ↔ ¬ c.EmptyChallenge ∧ ¬ c.DateOutOfRange) ∧
      (∀ raw', c.tryInto = .ok raw' → tryFrom raw' = .ok c ∧
        raw'.timerCounts = raw.timerCounts ∧ raw'.openBytes = raw.openBytes) ∧
      Recounts UInt8 TENTH_OF_A_SECOND ∧ Recounts UInt16 TENTH_OF_A_SECOND ∧
      Recounts UInt8 SECOND := by
  have hraw := Resends.of_tryFrom h
  refine ⟨c.tryInto_decides.ok_iff.trans hraw.encodable_iff, fun raw' hraw' => ?_,
    isUnit_tenth.recounts _, isUnit_tenth.recounts _, isUnit_second.recounts _⟩
  have hback : tryFrom raw' = .ok c := by
    rw [command_round_trip hraw', hraw.named]
  have hagain := Resends.of_tryFrom hback
  exact ⟨hback, timerCounts_unique hagain.timers hraw.timers, hagain.open_eq.symm.trans hraw.open_eq⟩

/-- A struct of the longest blink in a color without a name. -/
def unnamedBlink : OsdpCmd where
  id := OSDP_CMD_LED
  payload := { led := { temporary := {
    controlCode := OSDP_CMD_LED_TEMPORARY_CC_SET
    onCount := 255
    offCount := 1
    onColor := 77
    timerCount := 65535 } } }

theorem decoded_command_resends_unnamedBlink :
    ∃ c raw', tryFrom unnamedBlink = .ok c ∧ c.tryInto = .ok raw' ∧ tryFrom raw' = .ok c :=
  ⟨_, _, rfl, rfl, ((@decoded_command_resends unnamedBlink _ rfl).2.1 _ rfl).1⟩

end Command

end LibOsdp
