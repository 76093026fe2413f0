import LibOsdp.Codec.EventDomain

/-!
# Sending a received event on

What is encoded from a decoded event is the struct it came from, normalised: the bytes behind a
payload are zero, a direction and a local status are flags of 0 and 1, and the byte of a vendor
code that carries nothing is zero. Only a smart card's reply without bytes is not sent on.
-/

set_option autoImplicit false

namespace LibOsdp

open Base Sys

/-- A flag as the sender writes it. -/
def flagByte (b : UInt8) : UInt8 := if b = 0 then 0 else 1

theorem toUInt8_bne_zero (b : UInt8) : (b != 0).toUInt8 = flagByte b := by
  by_cases hb : b = 0
  · rw [hb]
    rfl
  · have htrue : (b != 0) = true := by simpa using hb
    rw [htrue, flagByte, if_neg hb]
    rfl

namespace Sys

/-- A direction other than 1 is 0. -/
def OsdpEventCardread.normalised (raw : OsdpEventCardread) : OsdpEventCardread :=
  { raw with
    direction := if raw.direction = 1 then 1 else 0
    data := refilled raw.data (divCeil8 raw.length.toNat) }

def OsdpEventKeypress.normalised (raw : OsdpEventKeypress) : OsdpEventKeypress :=
  { raw with data := refilled raw.data raw.length.toInt.toNat }

/-- A vendor code has three bytes. -/
def OsdpEventMfgrep.normalised (raw : OsdpEventMfgrep) : OsdpEventMfgrep :=
  { raw with
    vendorCode := raw.vendorCode &&& 0xFFFFFF
    data := refilled raw.data raw.length.toNat }

def OsdpEventMfgstat.normalised (raw : OsdpEventMfgstat) : OsdpEventMfgstat :=
  { raw with data := refilled raw.data raw.length.toNat }

def OsdpEventBioreadr.normalised (raw : OsdpEventBioreadr) : OsdpEventBioreadr :=
  { raw with data := refilled raw.data raw.length.toNat }

def OsdpEventPivReply.normalised (raw : OsdpEventPivReply) : OsdpEventPivReply :=
  { raw with data := refilled raw.data raw.length.toNat }

/-- The entries of a status as they are sent on: flags, where they are flags. -/
def OsdpStatusReport.sentEntries (raw : OsdpStatusReport) : List UInt8 :=
  let entries := raw.report.toList.take raw.nrEntries.toInt.toNat
  if raw.type = OSDP_STATUS_REPORT_LOCAL then entries.map flagByte else entries

def OsdpStatusReport.normalised (raw : OsdpStatusReport) : OsdpStatusReport :=
  { raw with report := padded 0 64 raw.sentEntries }

def OsdpTrsApdu.normalised (raw : OsdpTrsApdu) : OsdpTrsApdu :=
  { raw with data := refilled raw.data raw.length.toNat }

def OsdpTrsCardInfo.normalised (raw : OsdpTrsCardInfo) : OsdpTrsCardInfo :=
  { raw with
    csn := refilled raw.csn raw.csnLen.toNat
    protocolData := refilled raw.protocolData raw.protocolDataLen.toNat }

/-- The reply of its tag; the other readings of the union are nobody's. -/
def OsdpTrsReply.normalised (raw : OsdpTrsReply) : OsdpTrsReply where
  reply := raw.reply
  payload :=
    if raw.reply = OSDP_TRS_REPLY_CARD_INFO then { cardInfo := raw.payload.cardInfo.normalised }
    else if raw.reply = OSDP_TRS_REPLY_CARD_PRESENT then { cardPresent := raw.payload.cardPresent }
    else if raw.reply = OSDP_TRS_REPLY_CARD_DATA then
      { cardData := { raw.payload.cardData with apdu := raw.payload.cardData.apdu.normalised } }
    else if raw.reply = OSDP_TRS_REPLY_PIN_COMPLETE then { pinComplete := raw.payload.pinComplete }
    else { error := raw.payload.error }

namespace OsdpEvent

/-- The event of its type, as it is sent on. -/
def normalised (raw : OsdpEvent) : OsdpEvent where
  type := raw.type
  payload :=
    if raw.type = OSDP_EVENT_CARDREAD then { cardread := raw.payload.cardread.normalised }
    else if raw.type = OSDP_EVENT_KEYPRESS then { keypress := raw.payload.keypress.normalised }
    else if raw.type = OSDP_EVENT_MFGREP then { mfgrep := raw.payload.mfgrep.normalised }
    else if raw.type = OSDP_EVENT_STATUS then { status := raw.payload.status.normalised }
    else if raw.type = OSDP_EVENT_MFGSTATR then { mfgstatr := raw.payload.mfgstatr.normalised }
    else if raw.type = OSDP_EVENT_MFGERRR then { mfgerrr := raw.payload.mfgerrr.normalised }
    else if raw.type = OSDP_EVENT_BIOREADR then { bioreadr := raw.payload.bioreadr.normalised }
    else if raw.type = OSDP_EVENT_BIOMATCHR then { biomatchr := raw.payload.biomatchr }
    else if raw.type = OSDP_EVENT_TRS then { trs := raw.payload.trs.normalised }
    else { pivReply := raw.payload.pivReply.normalised }

/-- The payload bytes of a struct as they are sent on. -/
def sentBytes (raw : OsdpEvent) : List (List UInt8) :=
  if raw.type = OSDP_EVENT_STATUS then [raw.payload.status.sentEntries]
  else raw.payloadFields.map PayloadField.bytes

end OsdpEvent

end Sys

theorem CardRead.tryInto_of_tryFrom {raw : OsdpEventCardread} {value : CardRead}
    (h : tryFrom raw = .ok value) : value.tryInto = .ok raw.normalised ∧ value.norm = value := by
  simp only [tryFrom, bind_eq_ok, pure_eq_ok, Except.ok.injEq, slice_eq_ok] at h
  obtain ⟨format, hformat, _, ⟨hfit, rfl⟩, rfl⟩ := h
  have hlen : (raw.data.toList.take (divCeil8 raw.length.toNat)).length =
      divCeil8 raw.length.toNat := by
    simp [hfit]
  constructor
  · simp only [tryInto, copyInto_take hfit, ok_bind, hlen]
    rw [if_neg (by rw [divCeil8]; omega)]
    simp [OsdpEventCardread.normalised, CardFormat.toU8_of_tryFrom hformat]
  · simp [norm, List.take_take]

/-- A length that is none of a negative number is its own `usize` again. -/
theorem ofNat_toInt {k : Int32} (h : 0 ≤ k.toInt) : Int32.ofNat k.toInt.toNat = k := by
  have hlt := k.toInt_lt
  rw [← Int32.toInt_inj, Int32.toInt_ofNat_of_lt (by omega)]
  omega

theorem KeyPress.tryInto_of_tryFrom {raw : OsdpEventKeypress} {value : KeyPress}
    (h : tryFrom raw = .ok value) : value.tryInto = .ok raw.normalised := by
  simp only [tryFrom, bind_eq_ok, pure_eq_ok, Except.ok.injEq, sliceInt_eq_ok] at h
  obtain ⟨_, ⟨hpos, hmax, rfl⟩, rfl⟩ := h
  have hfit : raw.length.toInt.toNat ≤ 64 := by omega
  simp only [tryInto, copyInto_take hfit, ok_bind, pure_eq_ok, List.length_take,
    Vector.length_toList, Nat.min_eq_left hfit, ofNat_toInt hpos]
  rfl

theorem MfgReply.tryInto_of_tryFrom {raw : OsdpEventMfgrep} {value : MfgReply}
    (h : tryFrom raw = .ok value) : value.tryInto = .ok raw.normalised := by
  obtain ⟨hfit, rfl⟩ := slice_bind_pure_eq_ok.1 h
  simp [tryInto, copyInto_take hfit, OsdpEventMfgrep.normalised, asLe_leBytes3, hfit]

theorem MfgStatus.tryInto_of_tryFrom {raw : OsdpEventMfgstat} {value : MfgStatus}
    (h : tryFrom raw = .ok value) : value.tryInto = .ok raw.normalised := by
  obtain ⟨hfit, rfl⟩ := slice_bind_pure_eq_ok.1 h
  simp [tryInto, copyInto_take hfit, OsdpEventMfgstat.normalised, hfit]

theorem BioReadReply.tryInto_of_tryFrom {raw : OsdpEventBioreadr} {value : BioReadReply}
    (h : tryFrom raw = .ok value) : value.tryInto = .ok raw.normalised ∧ value.norm = value := by
  obtain ⟨hfit, rfl⟩ := slice_bind_pure_eq_ok.1 h
  constructor
  · simp [tryInto, copyInto_take hfit, OsdpEventBioreadr.normalised, hfit]
  · simp [norm]

theorem PivReply.tryInto_of_tryFrom {raw : OsdpEventPivReply} {value : PivReply}
    (h : tryFrom raw = .ok value) (hne : value.data ≠ []) : value.tryInto = .ok raw.normalised := by
  obtain ⟨hfit, rfl⟩ := slice_bind_pure_eq_ok.1 h
  simp [tryInto, toPayload, hne, copyInto_take hfit, OsdpEventPivReply.normalised, hfit]

/-- A status read from entries is of their kind, is sent as they are, and names its readers'
    states already. -/
theorem Status.of_ofEntries {kind : StatusKind} {entries : List UInt8} {value : Status}
    (h : ofEntries kind entries = .ok value) :
    value.kind = kind ∧
      value.entries = (if kind = .local then entries.map flagByte else entries) ∧
      value.norm = value := by
  cases kind with
  | input => cases h; exact ⟨rfl, rfl, rfl⟩
  | output => cases h; exact ⟨rfl, rfl, rfl⟩
  | reader =>
    cases h
    simp [Status.kind, Status.entries, Status.norm, Function.comp_def]
  | «local» =>
    obtain ⟨tamper, power, rfl, rfl⟩ := ofEntries_local h
    simp [Status.kind, Status.entries, Status.norm, toUInt8_bne_zero]

theorem length_sentEntries {raw : OsdpStatusReport} (hpos : 0 ≤ raw.nrEntries.toInt)
    (hmax : raw.nrEntries.toInt ≤ 64) : raw.sentEntries.length = raw.nrEntries.toInt.toNat := by
  rw [OsdpStatusReport.sentEntries]
  split <;> simp only [List.length_map, List.length_take, Vector.length_toList] <;> omega

theorem Status.tryInto_of_tryFrom {raw : OsdpStatusReport} {value : Status}
    (h : tryFrom raw = .ok value) : value.tryInto = .ok raw.normalised ∧ value.norm = value := by
  simp only [tryFrom, bind_eq_ok, sliceInt_eq_ok] at h
  obtain ⟨entries, ⟨hpos, hmax, rfl⟩, kind, hkind, h⟩ := h
  obtain ⟨rfl, hentries, hnorm⟩ := of_ofEntries h
  refine ⟨?_, hnorm⟩
  have hsent : value.entries = raw.sentEntries := by
    rw [hentries, OsdpStatusReport.sentEntries]
    simp only [← StatusKind.tryFrom_local, hkind, Except.ok.injEq]
  have hlength := length_sentEntries hpos hmax
  have hcopied : copyInto 64 raw.sentEntries = .ok (padded 0 64 raw.sentEntries) :=
    copyInto_eq_ok.2 ⟨by omega, rfl⟩
  simp only [tryInto, hsent, hcopied, ok_bind, pure_eq_ok, hlength, ofNat_toInt hpos,
    StatusKind.intoType_of_tryFrom hkind]
  rfl

theorem toApdu_of_fromApdu {apdu : OsdpTrsApdu} {data : List UInt8} (h : fromApdu apdu = .ok data) :
    toApdu data = .ok apdu.normalised := by
  obtain ⟨hfit, rfl⟩ := slice_eq_ok.1 h
  simp [toApdu, copyInto_take hfit, OsdpTrsApdu.normalised, hfit]

theorem TrsReply.tryInto_of_tryFrom {raw : OsdpTrsReply} {value : TrsReply}
    (h : tryFrom raw = .ok value) : value.tryInto = .ok raw.normalised := by
  unfold tryFrom at h
  split at h
  · rename_i hreply
    simp only [cardInfoOf, bind_eq_ok] at h
    obtain ⟨protocol, hprotocol, h⟩ := h
    split at h
    · rename_i hcsn hdata
      cases h
      obtain ⟨hcsn', rfl⟩ := getTo_eq_some.1 hcsn
      obtain ⟨hdata', rfl⟩ := getTo_eq_some.1 hdata
      simp [tryInto, bytesTo, copyInto_take hcsn', copyInto_take hdata', hcsn', hdata',
        OsdpTrsReply.normalised, OsdpTrsCardInfo.normalised, hreply,
        CardProtocol.toU8_of_tryFrom hprotocol]
    · cases h
  split at h
  · rename_i hreply
    obtain ⟨status, hstatus, rfl⟩ := bind_pure_eq_ok.1 h
    simp [tryInto, OsdpTrsReply.normalised, hreply, CardStatus.toU8_of_tryFrom hstatus]
  split at h
  · rename_i hreply
    obtain ⟨apdu, hapdu, rfl⟩ := bind_pure_eq_ok.1 h
    simp [tryInto, OsdpTrsReply.normalised, hreply, toApdu_of_fromApdu hapdu]
  split at h
  · rename_i hreply
    cases h
    simp [tryInto, OsdpTrsReply.normalised, hreply]
  split at h
  · rename_i hreply
    cases h
    simp [tryInto, OsdpTrsReply.normalised, hreply]
  · cases h

namespace Event

/-- What a struct decodes to, event by event. -/
inductive Decodes (raw : OsdpEvent) : Event → Prop where
  | cardRead {e : CardRead} (type : raw.type = OSDP_EVENT_CARDREAD)
      (decoded : CardRead.tryFrom raw.payload.cardread = .ok e) : Decodes raw (.cardRead e)
  | keyPress {e : KeyPress} (type : raw.type = OSDP_EVENT_KEYPRESS)
      (decoded : KeyPress.tryFrom raw.payload.keypress = .ok e) : Decodes raw (.keyPress e)
  | mfgReply {e : MfgReply} (type : raw.type = OSDP_EVENT_MFGREP)
      (decoded : MfgReply.tryFrom raw.payload.mfgrep = .ok e) : Decodes raw (.mfgReply e)
  | status {e : Status} (type : raw.type = OSDP_EVENT_STATUS)
      (decoded : Status.tryFrom raw.payload.status = .ok e) : Decodes raw (.status e)
  | mfgStatus {e : MfgStatus} (type : raw.type = OSDP_EVENT_MFGSTATR)
      (decoded : MfgStatus.tryFrom raw.payload.mfgstatr = .ok e) : Decodes raw (.mfgStatus e)
  | mfgError {e : MfgStatus} (type : raw.type = OSDP_EVENT_MFGERRR)
      (decoded : MfgStatus.tryFrom raw.payload.mfgerrr = .ok e) : Decodes raw (.mfgError e)
  | bioRead {e : BioReadReply} (type : raw.type = OSDP_EVENT_BIOREADR)
      (decoded : BioReadReply.tryFrom raw.payload.bioreadr = .ok e) : Decodes raw (.bioRead e)
  | bioMatch (type : raw.type = OSDP_EVENT_BIOMATCHR) :
      Decodes raw (.bioMatch (.fromRaw raw.payload.biomatchr))
  | pivData {e : PivReply} (type : raw.type = OSDP_EVENT_PIVDATAR)
      (decoded : PivReply.tryFrom raw.payload.pivReply = .ok e) : Decodes raw (.pivData e)
  | genAuth {e : PivReply} (type : raw.type = OSDP_EVENT_GENAUTHR)
      (decoded : PivReply.tryFrom raw.payload.pivReply = .ok e) : Decodes raw (.genAuth e)
  | crAuth {e : PivReply} (type : raw.type = OSDP_EVENT_CRAUTHR)
      (decoded : PivReply.tryFrom raw.payload.pivReply = .ok e) : Decodes raw (.crAuth e)
  | trs {e : TrsReply} (type : raw.type = OSDP_EVENT_TRS)
      (decoded : TrsReply.tryFrom raw.payload.trs = .ok e) : Decodes raw (.trs e)

/-- A branch of the decoder, under its constructor. -/
theorem Decodes.branch {α : Type} {raw : OsdpEvent} {e : Event} {r : Res α} (wrap : α → Event)
    (h : tryFrom raw = .ok e) (heq : tryFrom raw = r >>= fun a => .ok (wrap a))
    (hv : ∀ {a}, r = .ok a → Decodes raw (wrap a)) : Decodes raw e := by
  rw [heq] at h
  obtain ⟨a, ha, rfl⟩ := bind_pure_eq_ok.1 h
  exact hv ha

theorem decodes_of_tryFrom {raw : OsdpEvent} {e : Event} (h : tryFrom raw = .ok e) :
    Decodes raw e := by
  have htype : raw.type ∈ OsdpEvent.appTypes :=
    ((decodesExactly raw).decides.ok_iff.1 ⟨e, h⟩).type_mem
  simp only [OsdpEvent.appTypes, List.mem_cons, List.not_mem_nil, or_false] at htype
  rcases htype with type | type | type | type | type | type | type | type | type | type | type | type
  · exact .branch cardRead h (by simp [tryFrom, type]) (.cardRead type)
  · exact .branch keyPress h (by simp [tryFrom, type]) (.keyPress type)
  · exact .branch mfgReply h (by simp [tryFrom, type]) (.mfgReply type)
  · exact .branch status h (by simp [tryFrom, type]) (.status type)
  · exact .branch mfgStatus h (by simp [tryFrom, type]) (.mfgStatus type)
  · exact .branch mfgError h (by simp [tryFrom, type]) (.mfgError type)
  · exact .branch bioRead h (by simp [tryFrom, type]) (.bioRead type)
  · have heq : tryFrom raw = .ok (bioMatch (.fromRaw raw.payload.biomatchr)) := by
      simp [tryFrom, type]
    rw [heq] at h
    cases h
    exact .bioMatch type
  · exact .branch pivData h (by simp [tryFrom, type]) (.pivData type)
  · exact .branch genAuth h (by simp [tryFrom, type]) (.genAuth type)
  · exact .branch crAuth h (by simp [tryFrom, type]) (.crAuth type)
  · exact .branch trs h (by simp [tryFrom, type]) (.trs type)

/-- A smart card's reply without bytes: the decoder delivers one, and the encoder refuses it. -/
def EmptyReply (e : Event) : Prop :=
  ∃ reply : PivReply, (e = pivData reply ∨ e = genAuth reply ∨ e = crAuth reply) ∧ reply.data = []

theorem not_encodable_of_emptyReply {e : Event} (h : e.EmptyReply) : ¬ e.Encodable := by
  obtain ⟨reply, heq, hempty⟩ := h
  intro he
  have hbytes : ∃ p ∈ e.sized, p.least = 1 ∧ p.bytes = [] := by
    rcases heq with rfl | rfl | rfl <;> simp [sized, hempty]
  obtain ⟨p, hp, hleast, hnone⟩ := hbytes
  have hfit := (he.payloads_fit p hp).1
  rw [hleast, hnone] at hfit
  exact absurd hfit (by simp)

/-- What is encoded from a decoded event is the struct it came from, normalised; and what the
    round trip would rename is under its name already. -/
theorem tryInto_of_decodes {raw : OsdpEvent} {e : Event} (h : Decodes raw e) :
    (¬ e.EmptyReply → e.tryInto = .ok raw.normalised) ∧ e.norm = e := by
  cases h with
  | cardRead type decoded =>
    obtain ⟨hinto, hnorm⟩ := CardRead.tryInto_of_tryFrom decoded
    exact ⟨fun _ => by simp [tryInto, hinto, OsdpEvent.normalised, type], by rw [norm, hnorm]⟩
  | keyPress type decoded =>
    have hinto := KeyPress.tryInto_of_tryFrom decoded
    exact ⟨fun _ => by simp [tryInto, hinto, OsdpEvent.normalised, type], rfl⟩
  | mfgReply type decoded =>
    have hinto := MfgReply.tryInto_of_tryFrom decoded
    exact ⟨fun _ => by simp [tryInto, hinto, OsdpEvent.normalised, type], rfl⟩
  | status type decoded =>
    obtain ⟨hinto, hnorm⟩ := Status.tryInto_of_tryFrom decoded
    exact ⟨fun _ => by simp [tryInto, hinto, OsdpEvent.normalised, type], by rw [norm, hnorm]⟩
  | mfgStatus type decoded =>
    have hinto := MfgStatus.tryInto_of_tryFrom decoded
    exact ⟨fun _ => by simp [tryInto, hinto, OsdpEvent.normalised, type], rfl⟩
  | mfgError type decoded =>
    have hinto := MfgStatus.tryInto_of_tryFrom decoded
    exact ⟨fun _ => by simp [tryInto, hinto, OsdpEvent.normalised, type], rfl⟩
  | bioRead type decoded =>
    obtain ⟨hinto, hnorm⟩ := BioReadReply.tryInto_of_tryFrom decoded
    exact ⟨fun _ => by simp [tryInto, hinto, OsdpEvent.normalised, type], by rw [norm, hnorm]⟩
  | bioMatch type =>
    refine ⟨fun _ => ?_, ?_⟩
    · simp [tryInto, BioMatchReply.intoRaw, BioMatchReply.fromRaw, OsdpEvent.normalised, type]
    · simp [norm, BioMatchReply.norm, BioMatchReply.fromRaw]
  | pivData type decoded =>
    refine ⟨fun hsome => ?_, rfl⟩
    have hinto := PivReply.tryInto_of_tryFrom decoded fun hnil => hsome ⟨_, .inl rfl, hnil⟩
    simp [tryInto, hinto, OsdpEvent.normalised, type]
  | genAuth type decoded =>
    refine ⟨fun hsome => ?_, rfl⟩
    have hinto := PivReply.tryInto_of_tryFrom decoded fun hnil => hsome ⟨_, .inr (.inl rfl), hnil⟩
    simp [tryInto, hinto, OsdpEvent.normalised, type]
  | crAuth type decoded =>
    refine ⟨fun hsome => ?_, rfl⟩
    have hinto := PivReply.tryInto_of_tryFrom decoded fun hnil => hsome ⟨_, .inr (.inr rfl), hnil⟩
    simp [tryInto, hinto, OsdpEvent.normalised, type]
  | trs type decoded =>
    have hinto := TrsReply.tryInto_of_tryFrom decoded
    exact ⟨fun _ => by simp [tryInto, hinto, OsdpEvent.normalised, type], rfl⟩

theorem trsFields_normalised {raw : OsdpTrsReply} (fits : ∀ f ∈ OsdpEvent.trsFields raw, f.Fits) :
    (OsdpEvent.trsFields raw.normalised).map PayloadField.length =
        (OsdpEvent.trsFields raw).map PayloadField.length ∧
      (OsdpEvent.trsFields raw.normalised).map PayloadField.bytes =
        (OsdpEvent.trsFields raw).map PayloadField.bytes := by
  by_cases hinfo : raw.reply = OSDP_TRS_REPLY_CARD_INFO
  · simp [OsdpEvent.trsFields, hinfo] at fits
    simp [OsdpEvent.trsFields, OsdpTrsReply.normalised, OsdpTrsCardInfo.normalised, hinfo,
      PayloadField.of, PayloadField.bytes, take_refilled fits.1, take_refilled fits.2]
  · by_cases hdata : raw.reply = OSDP_TRS_REPLY_CARD_DATA
    · simp [OsdpEvent.trsFields, hdata] at fits
      simp [OsdpEvent.trsFields, OsdpTrsReply.normalised, OsdpTrsApdu.normalised, hdata,
        PayloadField.of, PayloadField.bytes, take_refilled fits]
    · simp [OsdpEvent.trsFields, OsdpTrsReply.normalised, hinfo, hdata]

/-- The normalised struct carries the same lengths, and its payloads are the bytes sent on. -/
structure Sent (raw : OsdpEvent) : Prop where
  lengths : raw.normalised.lengthFields.map PayloadField.length =
    raw.lengthFields.map PayloadField.length
  bytes : raw.normalised.payloadFields.map PayloadField.bytes = raw.sentBytes

theorem sent_of_inGrammar {raw : OsdpEvent} (h : raw.InGrammar) : Sent raw := by
  have htype := h.type_mem
  have fits := h.lengths_fit
  simp only [OsdpEvent.appTypes, List.mem_cons, List.not_mem_nil, or_false] at htype
  simp only [OsdpEvent.payloadFields] at fits
  rcases htype with type | type | type | type | type | type | type | type | type | type | type | type
  · have fits : divCeil8 raw.payload.cardread.length.toNat ≤ 64 := by simpa [type] using fits
    constructor <;>
      simp [OsdpEvent.lengthFields, OsdpEvent.payloadFields, OsdpEvent.normalised,
        OsdpEvent.sentBytes, OsdpEventCardread.normalised, PayloadField.of, PayloadField.bytes, type,
        take_refilled fits]
  · have fits : 0 ≤ raw.payload.keypress.length.toInt ∧ raw.payload.keypress.length.toInt ≤ 64 := by
      simpa [type] using fits
    have hfit : raw.payload.keypress.length.toNatClampNeg ≤ 64 := by
      show raw.payload.keypress.length.toInt.toNat ≤ 64
      omega
    constructor <;>
      simp [OsdpEvent.lengthFields, OsdpEvent.payloadFields, OsdpEvent.normalised,
        OsdpEvent.sentBytes, OsdpEventKeypress.normalised, PayloadField.bytes, type,
        take_refilled hfit]
  · have fits : raw.payload.mfgrep.length.toNat ≤ 128 := by simpa [type] using fits
    constructor <;>
      simp [OsdpEvent.lengthFields, OsdpEvent.payloadFields, OsdpEvent.normalised,
        OsdpEvent.sentBytes, OsdpEventMfgrep.normalised, PayloadField.of, PayloadField.bytes, type,
        take_refilled fits]
  · have fits : 0 ≤ raw.payload.status.nrEntries.toInt ∧ raw.payload.status.nrEntries.toInt ≤ 64 := by
      simpa [type] using fits
    have hlength := length_sentEntries fits.1 fits.2
    have hbytes : (padded 0 64 raw.payload.status.sentEntries).toList.take
        raw.payload.status.nrEntries.toInt.toNat = raw.payload.status.sentEntries := by
      rw [take_padded (by omega) (by omega), List.take_of_length_le (by omega)]
    constructor
    · simp [OsdpEvent.lengthFields, OsdpEvent.payloadFields, OsdpEvent.normalised,
        OsdpStatusReport.normalised, type]
    · simpa [OsdpEvent.payloadFields, OsdpEvent.normalised, OsdpStatusReport.normalised,
        OsdpEvent.sentBytes, PayloadField.bytes, type] using hbytes
  · have fits : raw.payload.mfgstatr.length.toNat ≤ 128 := by simpa [type] using fits
    constructor <;>
      simp [OsdpEvent.lengthFields, OsdpEvent.payloadFields, OsdpEvent.normalised,
        OsdpEvent.sentBytes, OsdpEventMfgstat.normalised, PayloadField.of, PayloadField.bytes, type,
        take_refilled fits]
  · have fits : raw.payload.mfgerrr.length.toNat ≤ 128 := by simpa [type] using fits
    constructor <;>
      simp [OsdpEvent.lengthFields, OsdpEvent.payloadFields, OsdpEvent.normalised,
        OsdpEvent.sentBytes, OsdpEventMfgstat.normalised, PayloadField.of, PayloadField.bytes, type,
        take_refilled fits]
  · have fits : raw.payload.bioreadr.length.toNat ≤ 256 := by simpa [type] using fits
    constructor <;>
      simp [OsdpEvent.lengthFields, OsdpEvent.payloadFields, OsdpEvent.normalised,
        OsdpEvent.sentBytes, OsdpEventBioreadr.normalised, PayloadField.of, PayloadField.bytes, type,
        take_refilled fits]
  · constructor <;>
      simp [OsdpEvent.lengthFields, OsdpEvent.payloadFields, OsdpEvent.normalised,
        OsdpEvent.sentBytes, type]
  · have fits : raw.payload.pivReply.length.toNat ≤ 256 := by simpa [type] using fits
    constructor <;>
      simp [OsdpEvent.lengthFields, OsdpEvent.payloadFields, OsdpEvent.normalised,
        OsdpEvent.sentBytes, OsdpEventPivReply.normalised, PayloadField.of, PayloadField.bytes, type,
        take_refilled fits]
  · have fits : raw.payload.pivReply.length.toNat ≤ 256 := by simpa [type] using fits
    constructor <;>
      simp [OsdpEvent.lengthFields, OsdpEvent.payloadFields, OsdpEvent.normalised,
        OsdpEvent.sentBytes, OsdpEventPivReply.normalised, PayloadField.of, PayloadField.bytes, type,
        take_refilled fits]
  · have fits : raw.payload.pivReply.length.toNat ≤ 256 := by simpa [type] using fits
    constructor <;>
      simp [OsdpEvent.lengthFields, OsdpEvent.payloadFields, OsdpEvent.normalised,
        OsdpEvent.sentBytes, OsdpEventPivReply.normalised, PayloadField.of, PayloadField.bytes, type,
        take_refilled fits]
  · have fits : ∀ f ∈ OsdpEvent.trsFields raw.payload.trs, f.Fits := by simpa [type] using fits
    obtain ⟨hlengths, hbytes⟩ := trsFields_normalised fits
    constructor
    · simpa [OsdpEvent.lengthFields, OsdpEvent.payloadFields, OsdpEvent.normalised, type] using hlengths
    · simpa [OsdpEvent.payloadFields, OsdpEvent.normalised, OsdpEvent.sentBytes, type] using hbytes

/-- **A decoded event is sent on unchanged**: only a smart card's reply without bytes is not,
    and any other is the struct it came from, normalised, with its type, its length fields and its
    payload bytes, which reads as the event itself. -/
theorem decoded_event_resends {raw : OsdpEvent} {e : Event} (h : tryFrom raw = .ok e) :
    ((∃ raw', e.tryInto = .ok raw') ↔ ¬ e.EmptyReply) ∧
      ∀ raw', e.tryInto = .ok raw' →
        raw' = raw.normalised ∧ raw'.type = raw.type ∧
        raw'.lengthFields.map PayloadField.length = raw.lengthFields.map PayloadField.length ∧
        raw'.payloadFields.map PayloadField.bytes = raw.sentBytes ∧ tryFrom raw' = .ok e := by
  obtain ⟨hinto, hnorm⟩ := tryInto_of_decodes (decodes_of_tryFrom h)
  have hsent := sent_of_inGrammar ((decodesExactly raw).decides.ok_iff.1 ⟨e, h⟩)
  have hsome : (∃ raw', e.tryInto = .ok raw') → ¬ e.EmptyReply := by
    intro hok hempty
    exact not_encodable_of_emptyReply hempty (e.tryInto_decides.ok_iff.1 hok)
  refine ⟨⟨hsome, fun hne => ⟨_, hinto hne⟩⟩, fun raw' hraw' => ?_⟩
  have heq : raw' = raw.normalised :=
    Except.ok.inj (hraw'.symm.trans (hinto (hsome ⟨raw', hraw'⟩)))
  refine ⟨heq, by rw [heq]; rfl, by rw [heq]; exact hsent.lengths, by rw [heq]; exact hsent.bytes, ?_⟩
  rw [event_round_trip hraw', hnorm]

/-- What a PD sets in `flags` is not carried on. -/
theorem decoded_event_resends_flags : ∃ raw e raw', tryFrom raw = .ok e ∧ e.tryInto = .ok raw' ∧
    raw.flags = 5 ∧ raw'.flags = 0 :=
  ⟨{ type := OSDP_EVENT_BIOMATCHR, flags := 5 }, _, _, rfl, rfl, rfl, rfl⟩

/-- A read of nine bits from a card, in a direction that is none, over a stale buffer. -/
def staleRead : OsdpEvent where
  type := OSDP_EVENT_CARDREAD
  payload := { cardread := {
    format := OSDP_CARD_FMT_RAW_WIEGAND
    direction := 7
    length := 9
    data := Vector.replicate 64 255 } }

theorem decoded_event_resends_staleRead :
    ∃ e, tryFrom staleRead = .ok e ∧ ∃ raw', e.tryInto = .ok raw' ∧ raw' = staleRead.normalised := by
  refine ⟨_, rfl, ?_⟩
  obtain ⟨hsome, hsent⟩ := @decoded_event_resends staleRead _ rfl
  obtain ⟨raw', hraw'⟩ := hsome.2 (by rintro ⟨reply, h | h | h, -⟩ <;> cases h)
  exact ⟨raw', hraw', (hsent raw' hraw').1⟩

end Event

end LibOsdp
