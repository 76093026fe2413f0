import LibOsdp.Codec.Bio
import LibOsdp.Codec.Notification
import LibOsdp.Codec.Piv
import LibOsdp.Codec.Reading
import LibOsdp.Codec.Status
import LibOsdp.Codec.TrsReply

/-!
# The event codec

`Event` and the two conversions between it and `osdp_event`, assembled from the codecs of the
payloads, and the round trip through the struct. Status and error replies of a manufacturer
share a payload, as do the three smart card replies: only the type tells them apart.
-/

set_option autoImplicit false

namespace LibOsdp

open Base Sys

/-- `events.rs`: what a PD tells its CP. -/
inductive Event where
  | cardRead (e : CardRead)
  | keyPress (e : KeyPress)
  | mfgReply (e : MfgReply)
  | mfgStatus (e : MfgStatus)
  | mfgError (e : MfgStatus)
  | bioRead (e : BioReadReply)
  | bioMatch (e : BioMatchReply)
  | pivData (e : PivReply)
  | genAuth (e : PivReply)
  | crAuth (e : PivReply)
  | trs (e : TrsReply)
  | status (e : Status)
deriving DecidableEq, Repr

namespace Event

/-- `TryFrom<Event> for osdp_event`. -/
def tryInto (value : Event) : Res OsdpEvent :=
  match value with
  | cardRead e => do
    let cardread ← e.tryInto
    return { type := OSDP_EVENT_CARDREAD, payload := { cardread } }
  | keyPress e => do
    let keypress ← e.tryInto
    return { type := OSDP_EVENT_KEYPRESS, payload := { keypress } }
  | mfgReply e => do
    let mfgrep ← e.tryInto
    return { type := OSDP_EVENT_MFGREP, payload := { mfgrep } }
  | mfgStatus e => do
    let mfgstatr ← e.tryInto
    return { type := OSDP_EVENT_MFGSTATR, payload := { mfgstatr } }
  | mfgError e => do
    let mfgerrr ← e.tryInto
    return { type := OSDP_EVENT_MFGERRR, payload := { mfgerrr } }
  | bioRead e => do
    let bioreadr ← e.tryInto
    return { type := OSDP_EVENT_BIOREADR, payload := { bioreadr } }
  | bioMatch e => .ok { type := OSDP_EVENT_BIOMATCHR, payload := { biomatchr := e.intoRaw } }
  | pivData e => do
    let pivReply ← e.tryInto
    return { type := OSDP_EVENT_PIVDATAR, payload := { pivReply } }
  | genAuth e => do
    let pivReply ← e.tryInto
    return { type := OSDP_EVENT_GENAUTHR, payload := { pivReply } }
  | crAuth e => do
    let pivReply ← e.tryInto
    return { type := OSDP_EVENT_CRAUTHR, payload := { pivReply } }
  | trs e => do
    let trs ← e.tryInto
    return { type := OSDP_EVENT_TRS, payload := { trs } }
  | status e => do
    let status ← e.tryInto
    return { type := OSDP_EVENT_STATUS, payload := { status } }

/-- `TryFrom<osdp_event> for Event`. -/
def tryFrom (value : OsdpEvent) : Res Event :=
  if value.type = OSDP_EVENT_CARDREAD then do
    let e ← CardRead.tryFrom value.payload.cardread
    return cardRead e
  else if value.type = OSDP_EVENT_KEYPRESS then do
    let e ← KeyPress.tryFrom value.payload.keypress
    return keyPress e
  else if value.type = OSDP_EVENT_MFGREP then do
    let e ← MfgReply.tryFrom value.payload.mfgrep
    return mfgReply e
  else if value.type = OSDP_EVENT_STATUS then do
    let e ← Status.tryFrom value.payload.status
    return status e
  else if value.type = OSDP_EVENT_MFGSTATR then do
    let e ← MfgStatus.tryFrom value.payload.mfgstatr
    return mfgStatus e
  else if value.type = OSDP_EVENT_MFGERRR then do
    let e ← MfgStatus.tryFrom value.payload.mfgerrr
    return mfgError e
  else if value.type = OSDP_EVENT_BIOREADR then do
    let e ← BioReadReply.tryFrom value.payload.bioreadr
    return bioRead e
  else if value.type = OSDP_EVENT_BIOMATCHR then
    .ok (bioMatch (.fromRaw value.payload.biomatchr))
  else if value.type = OSDP_EVENT_PIVDATAR then do
    let e ← PivReply.tryFrom value.payload.pivReply
    return pivData e
  else if value.type = OSDP_EVENT_GENAUTHR then do
    let e ← PivReply.tryFrom value.payload.pivReply
    return genAuth e
  else if value.type = OSDP_EVENT_CRAUTHR then do
    let e ← PivReply.tryFrom value.payload.pivReply
    return crAuth e
  else if value.type = OSDP_EVENT_TRS then do
    let e ← TrsReply.tryFrom value.payload.trs
    return trs e
  else malformed "event type"

/-- What the round trip makes of an event: reader states, biometric types and biometric
    statuses by name, where they have one, and the bytes of a card read that hold its bits. -/
def norm : Event → Event
  | cardRead e => cardRead e.norm
  | bioRead e => bioRead e.norm
  | bioMatch e => bioMatch e.norm
  | status e => status e.norm
  | e => e

/-- **The event round trip**: whatever the sender accepts, the receiver reads back, up to
    `norm`. -/
theorem event_round_trip {e : Event} {raw : OsdpEvent} (h : e.tryInto = .ok raw) :
    tryFrom raw = .ok e.norm := by
  cases e with
  | cardRead e =>
    obtain ⟨cardread, hcardread, rfl⟩ := bind_pure_eq_ok.1 h
    simp [tryFrom, CardRead.round_trip hcardread, norm]
  | keyPress e =>
    obtain ⟨keypress, hkeypress, rfl⟩ := bind_pure_eq_ok.1 h
    simp [tryFrom, KeyPress.round_trip hkeypress, norm]
  | mfgReply e =>
    obtain ⟨mfgrep, hmfgrep, rfl⟩ := bind_pure_eq_ok.1 h
    simp [tryFrom, MfgReply.round_trip hmfgrep, norm]
  | mfgStatus e =>
    obtain ⟨mfgstatr, hmfgstatr, rfl⟩ := bind_pure_eq_ok.1 h
    simp [tryFrom, MfgStatus.round_trip hmfgstatr, norm]
  | mfgError e =>
    obtain ⟨mfgerrr, hmfgerrr, rfl⟩ := bind_pure_eq_ok.1 h
    simp [tryFrom, MfgStatus.round_trip hmfgerrr, norm]
  | bioRead e =>
    obtain ⟨bioreadr, hbioreadr, rfl⟩ := bind_pure_eq_ok.1 h
    simp [tryFrom, BioReadReply.round_trip hbioreadr, norm]
  | bioMatch e =>
    cases h
    simp [tryFrom, BioMatchReply.round_trip, norm]
  | pivData e =>
    obtain ⟨pivReply, hpivReply, rfl⟩ := bind_pure_eq_ok.1 h
    simp [tryFrom, PivReply.round_trip hpivReply, norm]
  | genAuth e =>
    obtain ⟨pivReply, hpivReply, rfl⟩ := bind_pure_eq_ok.1 h
    simp [tryFrom, PivReply.round_trip hpivReply, norm]
  | crAuth e =>
    obtain ⟨pivReply, hpivReply, rfl⟩ := bind_pure_eq_ok.1 h
    simp [tryFrom, PivReply.round_trip hpivReply, norm]
  | trs e =>
    obtain ⟨trs, htrs, rfl⟩ := bind_pure_eq_ok.1 h
    simp [tryFrom, TrsReply.round_trip htrs, norm]
  | status e =>
    obtain ⟨status, hstatus, rfl⟩ := bind_pure_eq_ok.1 h
    simp [tryFrom, Status.round_trip hstatus, norm]

/-- Nine bits of a card, with a byte more than they need. -/
def nineBits : Event :=
  cardRead { readerNo := 0, format := .wiegand, direction := true, nrBits := 9, data := [1, 2, 3] }

theorem event_round_trip_nineBits :
    ∃ raw, nineBits.tryInto = .ok raw ∧ tryFrom raw = .ok nineBits.norm :=
  ⟨_, rfl, event_round_trip rfl⟩

end Event

end LibOsdp
