import LibOsdp.Codec.Bio
import LibOsdp.Codec.Led
import LibOsdp.Codec.Notification
import LibOsdp.Codec.Output
import LibOsdp.Codec.Piv
import LibOsdp.Codec.Setup
import LibOsdp.Codec.Status
import LibOsdp.Codec.Trs

/-!
# The command codec

`Command` and the two conversions between it and `osdp_cmd`, assembled from the codecs of the
seventeen commands, and the round trip through the struct.
-/

set_option autoImplicit false

namespace LibOsdp

open Base Sys

/-- `commands.rs`: the commands a CP controls PDs with. -/
inductive Command where
  | led (c : LedCommand)
  | buzzer (c : BuzzerCommand)
  | text (c : TextCommand)
  | output (c : OutputCommand)
  | comSet (c : ComSet)
  | comSetDone (c : ComSet)
  | keySet (c : KeySetCommand)
  | mfg (c : MfgCommand)
  | fileTx (c : FileTxCommand)
  | status (c : StatusKind)
  | bioRead (c : BioReadCommand)
  | bioMatch (c : BioMatchCommand)
  | timeDate (c : TimeDateCommand)
  | pivData (c : PivRequest)
  | genAuth (c : Challenge)
  | crAuth (c : Challenge)
  | trs (c : TrsCommand)
deriving DecidableEq, Repr

namespace Command

/-- `Command::multipart_kind`. -/
def multipartKind : Command → Option MpKind
  | fileTx _ => some .fileTransfer
  | pivData _ => some .piv
  | genAuth _ => some .genAuth
  | crAuth _ => some .crAuth
  | bioRead _ => some .bioRead
  | _ => none

/-- `TryFrom<Command> for osdp_cmd`. -/
def tryInto (value : Command) : Res OsdpCmd :=
  match value with
  | led c => do
    let led ← c.tryInto
    return { id := OSDP_CMD_LED, payload := { led } }
  | buzzer c => do
    let buzzer ← c.tryInto
    return { id := OSDP_CMD_BUZZER, payload := { buzzer } }
  | text c => do
    let text ← c.tryInto
    return { id := OSDP_CMD_TEXT, payload := { text } }
  | output c => do
    let output ← c.tryInto
    return { id := OSDP_CMD_OUTPUT, payload := { output } }
  | comSet c => .ok { id := OSDP_CMD_COMSET, payload := { comset := c.intoRaw } }
  | comSetDone c => .ok { id := OSDP_CMD_COMSET_DONE, payload := { comset := c.intoRaw } }
  | keySet c => do
    let keyset ← c.tryInto
    return { id := OSDP_CMD_KEYSET, payload := { keyset } }
  | mfg c => do
    let mfg ← c.tryInto
    return { id := OSDP_CMD_MFG, payload := { mfg } }
  | fileTx c => .ok { id := OSDP_CMD_FILE_TX, payload := { fileTx := c.intoRaw } }
  | status c => .ok { id := OSDP_CMD_STATUS, payload := { status := c.intoRaw } }
  | bioRead c => .ok { id := OSDP_CMD_BIOREAD, payload := { bioread := c.intoRaw } }
  | bioMatch c => do
    let biomatch ← c.tryInto
    return { id := OSDP_CMD_BIOMATCH, payload := { biomatch } }
  | timeDate c => do
    let tdset ← c.tryInto
    return { id := OSDP_CMD_TDSET, payload := { tdset } }
  | pivData c => .ok { id := OSDP_CMD_PIVDATA, payload := { pivdata := c.intoRaw } }
  | genAuth c => do
    let auth ← c.tryInto
    return { id := OSDP_CMD_GENAUTH, payload := { auth } }
  | crAuth c => do
    let auth ← c.tryInto
    return { id := OSDP_CMD_CRAUTH, payload := { auth } }
  | trs c => do
    let trs ← c.tryInto
    return { id := OSDP_CMD_XWR, payload := { trs } }

/-- `TryFrom<osdp_cmd> for Command`. -/
def tryFrom (value : OsdpCmd) : Res Command :=
  if value.id = OSDP_CMD_LED then do
    let c ← LedCommand.tryFrom value.payload.led
    return led c
  else if value.id = OSDP_CMD_BUZZER then do
    let c ← BuzzerCommand.tryFrom value.payload.buzzer
    return buzzer c
  else if value.id = OSDP_CMD_TEXT then do
    let c ← TextCommand.tryFrom value.payload.text
    return text c
  else if value.id = OSDP_CMD_OUTPUT then do
    let c ← OutputCommand.tryFrom value.payload.output
    return output c
  else if value.id = OSDP_CMD_COMSET then .ok (comSet (.fromRaw value.payload.comset))
  else if value.id = OSDP_CMD_COMSET_DONE then .ok (comSetDone (.fromRaw value.payload.comset))
  else if value.id = OSDP_CMD_KEYSET then do
    let c ← KeySetCommand.tryFrom value.payload.keyset
    return keySet c
  else if value.id = OSDP_CMD_MFG then do
    let c ← MfgCommand.tryFrom value.payload.mfg
    return mfg c
  else if value.id = OSDP_CMD_FILE_TX then .ok (fileTx (.fromRaw value.payload.fileTx))
  else if value.id = OSDP_CMD_STATUS then do
    let c ← StatusKind.tryFrom value.payload.status.type
    return status c
  else if value.id = OSDP_CMD_BIOREAD then .ok (bioRead (.fromRaw value.payload.bioread))
  else if value.id = OSDP_CMD_BIOMATCH then do
    let c ← BioMatchCommand.tryFrom value.payload.biomatch
    return bioMatch c
  else if value.id = OSDP_CMD_TDSET then .ok (timeDate (.fromRaw value.payload.tdset))
  else if value.id = OSDP_CMD_PIVDATA then .ok (pivData (.fromRaw value.payload.pivdata))
  else if value.id = OSDP_CMD_GENAUTH then do
    let c ← Challenge.tryFrom value.payload.auth
    return genAuth c
  else if value.id = OSDP_CMD_CRAUTH then do
    let c ← Challenge.tryFrom value.payload.auth
    return crAuth c
  else if value.id = OSDP_CMD_XWR then do
    let c ← TrsCommand.tryFrom value.payload.trs
    return trs c
  else malformed "command id"

/-- What the round trip makes of a command: LED colors, biometric types and biometric formats
    by name, where they have one. -/
def norm : Command → Command
  | led c => led c.norm
  | bioRead c => bioRead c.norm
  | bioMatch c => bioMatch c.norm
  | c => c

/-- **The command round trip**: whatever the sender accepts, the receiver reads back, with its
    partly named bytes under their names. -/
theorem command_round_trip {c : Command} {raw : OsdpCmd} (h : c.tryInto = .ok raw) :
    tryFrom raw = .ok c.norm := by
  cases c with
  | led c =>
    obtain ⟨led, hled, rfl⟩ := bind_pure_eq_ok.1 h
    simp [tryFrom, LedCommand.round_trip hled, norm]
  | buzzer c =>
    obtain ⟨buzzer, hbuzzer, rfl⟩ := bind_pure_eq_ok.1 h
    simp [tryFrom, BuzzerCommand.round_trip hbuzzer, norm]
  | text c =>
    obtain ⟨text, htext, rfl⟩ := bind_pure_eq_ok.1 h
    simp [tryFrom, TextCommand.round_trip htext, norm]
  | output c =>
    obtain ⟨output, houtput, rfl⟩ := bind_pure_eq_ok.1 h
    simp [tryFrom, OutputCommand.round_trip houtput, norm]
  | comSet c => cases h; rfl
  | comSetDone c => cases h; rfl
  | keySet c =>
    obtain ⟨keyset, hkeyset, rfl⟩ := bind_pure_eq_ok.1 h
    simp [tryFrom, KeySetCommand.round_trip hkeyset, norm]
  | mfg c =>
    obtain ⟨mfg, hmfg, rfl⟩ := bind_pure_eq_ok.1 h
    simp [tryFrom, MfgCommand.round_trip hmfg, norm]
  | fileTx c => cases h; rfl
  | status c =>
    cases h
    simp [tryFrom, StatusKind.intoRaw, norm]
  | bioRead c =>
    cases h
    simp [tryFrom, BioReadCommand.round_trip, norm]
  | bioMatch c =>
    obtain ⟨biomatch, hbiomatch, rfl⟩ := bind_pure_eq_ok.1 h
    simp [tryFrom, BioMatchCommand.round_trip hbiomatch, norm]
  | timeDate c =>
    obtain ⟨tdset, htdset, rfl⟩ := bind_pure_eq_ok.1 h
    simp [tryFrom, TimeDateCommand.round_trip htdset, norm]
  | pivData c => cases h; rfl
  | genAuth c =>
    obtain ⟨auth, hauth, rfl⟩ := bind_pure_eq_ok.1 h
    simp [tryFrom, Challenge.round_trip hauth, norm]
  | crAuth c =>
    obtain ⟨auth, hauth, rfl⟩ := bind_pure_eq_ok.1 h
    simp [tryFrom, Challenge.round_trip hauth, norm]
  | trs c =>
    obtain ⟨trs, htrs, rfl⟩ := bind_pure_eq_ok.1 h
    simp [tryFrom, TrsCommand.round_trip htrs, norm]

/-- A blink whose on color is given as a bare byte, green's. -/
def greenByByte : Command :=
  led {
    reader := 0, ledNumber := 1, permanent := .keep
    temporary := .set { onTime := .fromMillis 100, onColor := .unknown 2 } (.fromSecs 5) }

theorem command_round_trip_greenByByte :
    ∃ raw, greenByByte.tryInto = .ok raw ∧ tryFrom raw = .ok greenByByte.norm :=
  ⟨_, rfl, command_round_trip rfl⟩

end Command

end LibOsdp
