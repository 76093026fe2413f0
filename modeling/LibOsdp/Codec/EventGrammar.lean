import LibOsdp.Codec.Event

/-!
# The grammar of events

Which structs the event decoder accepts, said without the decoder, in the manner of the grammar
of commands. A card read's payload is as long as its bits need; a local status has its two
entries and no other count.
-/

set_option autoImplicit false

namespace LibOsdp

open Base Sys

namespace Sys.OsdpEvent

/-- The types of application events. -/
def appTypes : List UInt8 :=
  [OSDP_EVENT_CARDREAD, OSDP_EVENT_KEYPRESS, OSDP_EVENT_MFGREP, OSDP_EVENT_STATUS,
    OSDP_EVENT_MFGSTATR, OSDP_EVENT_MFGERRR, OSDP_EVENT_BIOREADR, OSDP_EVENT_BIOMATCHR,
    OSDP_EVENT_PIVDATAR, OSDP_EVENT_GENAUTHR, OSDP_EVENT_CRAUTHR, OSDP_EVENT_TRS]

/-- The codes that a struct of its type holds, each beside the codes defined in its place. -/
def codes (raw : OsdpEvent) : List (UInt8 × List UInt8) :=
  if raw.type = OSDP_EVENT_CARDREAD then [(raw.payload.cardread.format, CardFormat.codes)]
  else if raw.type = OSDP_EVENT_STATUS then [(raw.payload.status.type, StatusKind.codes)]
  else if raw.type = OSDP_EVENT_TRS then
    let trs := raw.payload.trs
    (trs.reply, TrsReply.codes) ::
      if trs.reply = OSDP_TRS_REPLY_CARD_INFO then
        [(trs.payload.cardInfo.protocol, CardProtocol.codes)]
      else if trs.reply = OSDP_TRS_REPLY_CARD_PRESENT then
        [(trs.payload.cardPresent.status, CardStatus.codes)]
      else []
  else []

/-- The length-prefixed payloads of a transparent reader reply. -/
def trsFields (trs : OsdpTrsReply) : List PayloadField :=
  if trs.reply = OSDP_TRS_REPLY_CARD_INFO then
    [.of trs.payload.cardInfo.csnLen.toNat trs.payload.cardInfo.csn,
      .of trs.payload.cardInfo.protocolDataLen.toNat trs.payload.cardInfo.protocolData]
  else if trs.reply = OSDP_TRS_REPLY_CARD_DATA then
    [.of trs.payload.cardData.apdu.length.toNat trs.payload.cardData.apdu.data]
  else []

/-- The length-prefixed payloads that a struct of its type carries. -/
def payloadFields (raw : OsdpEvent) : List PayloadField :=
  if raw.type = OSDP_EVENT_CARDREAD then
    [.of (divCeil8 raw.payload.cardread.length.toNat) raw.payload.cardread.data]
  else if raw.type = OSDP_EVENT_KEYPRESS then
    [⟨raw.payload.keypress.length.toInt, raw.payload.keypress.data.toList⟩]
  else if raw.type = OSDP_EVENT_MFGREP then
    [.of raw.payload.mfgrep.length.toNat raw.payload.mfgrep.data]
  else if raw.type = OSDP_EVENT_STATUS then
    [⟨raw.payload.status.nrEntries.toInt, raw.payload.status.report.toList⟩]
  else if raw.type = OSDP_EVENT_MFGSTATR then
    [.of raw.payload.mfgstatr.length.toNat raw.payload.mfgstatr.data]
  else if raw.type = OSDP_EVENT_MFGERRR then
    [.of raw.payload.mfgerrr.length.toNat raw.payload.mfgerrr.data]
  else if raw.type = OSDP_EVENT_BIOREADR then
    [.of raw.payload.bioreadr.length.toNat raw.payload.bioreadr.data]
  else if raw.type = OSDP_EVENT_PIVDATAR ∨ raw.type = OSDP_EVENT_GENAUTHR ∨
      raw.type = OSDP_EVENT_CRAUTHR then
    [.of raw.payload.pivReply.length.toNat raw.payload.pivReply.data]
  else if raw.type = OSDP_EVENT_TRS then trsFields raw.payload.trs
  else []

/-- The structs of an application event. -/
structure InGrammar (raw : OsdpEvent) : Prop where
  type_mem : raw.type ∈ appTypes
  codes_defined : ∀ c ∈ raw.codes, c.1 ∈ c.2
  lengths_fit : ∀ f ∈ raw.payloadFields, f.Fits
  local_entries : raw.type = OSDP_EVENT_STATUS →
    raw.payload.status.type = OSDP_STATUS_REPORT_LOCAL → raw.payload.status.nrEntries.toInt = 2

theorem inGrammar_iff {raw : OsdpEvent} :
    raw.InGrammar ↔ raw.type ∈ appTypes ∧ (∀ c ∈ raw.codes, c.1 ∈ c.2) ∧
      (∀ f ∈ raw.payloadFields, f.Fits) ∧
      (raw.type = OSDP_EVENT_STATUS → raw.payload.status.type = OSDP_STATUS_REPORT_LOCAL →
        raw.payload.status.nrEntries.toInt = 2) :=
  ⟨fun h => ⟨h.1, h.2, h.3, h.4⟩, fun h => ⟨h.1, h.2.1, h.2.2.1, h.2.2.2⟩⟩

end Sys.OsdpEvent

namespace Event

/-- The variable payloads of an event are these bytes, field by field. -/
def Carries (e : Event) (payloads : List (List UInt8)) : Prop :=
  match e with
  | cardRead e => payloads = [e.data]
  | keyPress e => payloads = [e.data]
  | mfgReply e => payloads = [e.data]
  | mfgStatus e => payloads = [e.data]
  | mfgError e => payloads = [e.data]
  | bioRead e => payloads = [e.template]
  | bioMatch _ => payloads = []
  | pivData e => payloads = [e.data]
  | genAuth e => payloads = [e.data]
  | crAuth e => payloads = [e.data]
  | trs e => payloads = e.payloads
  | status e => ∃ entries, payloads = [entries] ∧ e.Carries entries

/-- The decoder accepts `raw` exactly in the grammar, and then takes its payload prefixes. -/
structure DecodesExactly (raw : OsdpEvent) : Prop where
  decides : Decides Fault.Malformed raw.InGrammar (tryFrom raw)
  carries : ∀ e, tryFrom raw = .ok e → e.Carries (raw.payloadFields.map PayloadField.bytes)

/-- A branch of the decoder: the codec of one payload, under its constructor. -/
theorem DecodesExactly.branch {α : Type} {raw : OsdpEvent} {r : Res α} {p : Prop}
    (wrap : α → Event) (heq : tryFrom raw = r >>= fun a => .ok (wrap a))
    (hr : Decides Fault.Malformed p r) (hp : p ↔ raw.InGrammar)
    (hv : ∀ a, r = .ok a → (wrap a).Carries (raw.payloadFields.map PayloadField.bytes)) :
    DecodesExactly raw where
  decides := heq ▸ hr.bind_ok.congr hp
  carries e he := by
    rw [heq] at he
    obtain ⟨a, ha, rfl⟩ := bind_pure_eq_ok.1 he
    exact hv a ha

theorem payloads_of_trsReply {raw : OsdpTrsReply} {e : TrsReply} (h : TrsReply.tryFrom raw = .ok e) :
    e.payloads = (OsdpEvent.trsFields raw).map PayloadField.bytes := by
  unfold TrsReply.tryFrom at h
  split at h
  · simp only [TrsReply.cardInfoOf, bind_eq_ok] at h
    obtain ⟨protocol, -, h⟩ := h
    split at h
    · rename_i hcsn hdata
      cases h
      simp_all [TrsReply.payloads, OsdpEvent.trsFields, getTo_eq_some]
    · cases h
  · split at h
    · obtain ⟨status, -, rfl⟩ := bind_pure_eq_ok.1 h
      simp_all [TrsReply.payloads, OsdpEvent.trsFields]
    · split at h
      · obtain ⟨apdu, hapdu, rfl⟩ := bind_pure_eq_ok.1 h
        simp_all [TrsReply.payloads, OsdpEvent.trsFields, data_of_fromApdu hapdu]
      · split at h
        · cases h
          simp_all [TrsReply.payloads, OsdpEvent.trsFields]
        · split at h
          · cases h
            simp_all [TrsReply.payloads, OsdpEvent.trsFields]
          · cases h

theorem inGrammar_trs {raw : OsdpEvent} (h : raw.type = OSDP_EVENT_TRS) :
    (raw.payload.trs.reply ∈ TrsReply.codes ∧
      (raw.payload.trs.reply = OSDP_TRS_REPLY_CARD_INFO →
        raw.payload.trs.payload.cardInfo.protocol ∈ CardProtocol.codes ∧
          raw.payload.trs.payload.cardInfo.csnLen.toNat ≤ OSDP_TRS_CSN_MAX_LEN ∧
            raw.payload.trs.payload.cardInfo.protocolDataLen.toNat ≤
              OSDP_TRS_PROTOCOL_DATA_MAX_LEN) ∧
      (raw.payload.trs.reply = OSDP_TRS_REPLY_CARD_PRESENT →
        raw.payload.trs.payload.cardPresent.status ∈ CardStatus.codes) ∧
      (raw.payload.trs.reply = OSDP_TRS_REPLY_CARD_DATA →
        raw.payload.trs.payload.cardData.apdu.length.toNat ≤ OSDP_TRS_APDU_MAX_LEN)) ↔
      raw.InGrammar := by
  have grammar := @OsdpEvent.inGrammar_iff raw
  simp only [OsdpEvent.codes, OsdpEvent.payloadFields, OsdpEvent.trsFields] at grammar
  by_cases hinfo : raw.payload.trs.reply = OSDP_TRS_REPLY_CARD_INFO
  · simp [grammar, OsdpEvent.appTypes, h, hinfo, and_assoc]
  · by_cases hpresent : raw.payload.trs.reply = OSDP_TRS_REPLY_CARD_PRESENT
    · simp [grammar, OsdpEvent.appTypes, h, hpresent]
    · by_cases hdata : raw.payload.trs.reply = OSDP_TRS_REPLY_CARD_DATA
      · simp [grammar, OsdpEvent.appTypes, h, hdata]
      · simp [grammar, OsdpEvent.appTypes, h, hinfo, hpresent, hdata]

/-- The decoder, branch by branch: each payload's codec decides its own part of the grammar. -/
theorem decodesExactly (raw : OsdpEvent) : DecodesExactly raw := by
  have grammar := @OsdpEvent.inGrammar_iff raw
  simp only [OsdpEvent.codes, OsdpEvent.payloadFields] at grammar
  by_cases htype : raw.type ∈ OsdpEvent.appTypes
  · simp only [OsdpEvent.appTypes, List.mem_cons, List.not_mem_nil, or_false] at htype
    rcases htype with h | h | h | h | h | h | h | h | h | h | h | h
    · exact .branch cardRead (by simp [tryFrom, h]) (CardRead.tryFrom_decides raw.payload.cardread)
        (by simp [grammar, h, OsdpEvent.appTypes]) fun a ha => by
          simp [Carries, OsdpEvent.payloadFields, h, CardRead.data_of_tryFrom ha]
    · exact .branch keyPress (by simp [tryFrom, h]) (KeyPress.tryFrom_decides raw.payload.keypress)
        (by simp [grammar, h, OsdpEvent.appTypes]) fun a ha => by
          simp [Carries, OsdpEvent.payloadFields, h, KeyPress.data_of_tryFrom ha, PayloadField.bytes]
    · exact .branch mfgReply (by simp [tryFrom, h]) (MfgReply.tryFrom_decides raw.payload.mfgrep)
        (by simp [grammar, h, OsdpEvent.appTypes]) fun a ha => by
          simp [Carries, OsdpEvent.payloadFields, h, MfgReply.data_of_tryFrom ha]
    · refine .branch status (by simp [tryFrom, h]) (Status.tryFrom_decides raw.payload.status) ?_
        fun a ha => ?_
      · simp [grammar, h, OsdpEvent.appTypes]
        tauto
      · exact ⟨_, by simp [OsdpEvent.payloadFields, h, PayloadField.bytes],
          Status.carries_of_tryFrom ha⟩
    · exact .branch mfgStatus (by simp [tryFrom, h])
        (MfgStatus.tryFrom_decides raw.payload.mfgstatr)
        (by simp [grammar, h, OsdpEvent.appTypes]) fun a ha => by
          simp [Carries, OsdpEvent.payloadFields, h, MfgStatus.data_of_tryFrom ha]
    · exact .branch mfgError (by simp [tryFrom, h]) (MfgStatus.tryFrom_decides raw.payload.mfgerrr)
        (by simp [grammar, h, OsdpEvent.appTypes]) fun a ha => by
          simp [Carries, OsdpEvent.payloadFields, h, MfgStatus.data_of_tryFrom ha]
    · exact .branch bioRead (by simp [tryFrom, h])
        (BioReadReply.tryFrom_decides raw.payload.bioreadr)
        (by simp [grammar, h, OsdpEvent.appTypes]) fun a ha => by
          simp [Carries, OsdpEvent.payloadFields, h, BioReadReply.template_of_tryFrom ha]
    · exact .branch bioMatch (by simp [tryFrom, h])
        (Decides.ok (BioMatchReply.fromRaw raw.payload.biomatchr))
        (by simp [grammar, h, OsdpEvent.appTypes]) fun a ha => by
          simp [Carries, OsdpEvent.payloadFields, h]
    · exact .branch pivData (by simp [tryFrom, h]) (PivReply.tryFrom_decides raw.payload.pivReply)
        (by simp [grammar, h, OsdpEvent.appTypes]) fun a ha => by
          simp [Carries, OsdpEvent.payloadFields, h, PivReply.data_of_tryFrom ha]
    · exact .branch genAuth (by simp [tryFrom, h]) (PivReply.tryFrom_decides raw.payload.pivReply)
        (by simp [grammar, h, OsdpEvent.appTypes]) fun a ha => by
          simp [Carries, OsdpEvent.payloadFields, h, PivReply.data_of_tryFrom ha]
    · exact .branch crAuth (by simp [tryFrom, h]) (PivReply.tryFrom_decides raw.payload.pivReply)
        (by simp [grammar, h, OsdpEvent.appTypes]) fun a ha => by
          simp [Carries, OsdpEvent.payloadFields, h, PivReply.data_of_tryFrom ha]
    · refine .branch trs (by simp [tryFrom, h]) (TrsReply.tryFrom_decides raw.payload.trs)
        (inGrammar_trs h) fun a ha => ?_
      simp [Carries, OsdpEvent.payloadFields, h, payloads_of_trsReply ha]
  · have hmalformed : tryFrom raw = malformed "event type" := by
      simp only [OsdpEvent.appTypes, List.mem_cons, List.not_mem_nil, or_false, not_or] at htype
      simp [tryFrom, htype]
    refine ⟨?_, fun e he => ?_⟩
    · rw [hmalformed]
      exact (malformed_decides _).congr ⟨False.elim, fun h => htype h.type_mem⟩
    · rw [hmalformed] at he
      cases he

/-- **Event decoding accepts exactly its grammar**, takes exactly the payload prefixes, and
    reports everything else as malformed: no struct makes it fail in another way. -/
theorem event_decoding_exact (raw : OsdpEvent) :
    ((∃ e, tryFrom raw = .ok e) ↔ raw.InGrammar) ∧
      (∀ e, tryFrom raw = .ok e → e.Carries (raw.payloadFields.map PayloadField.bytes)) ∧
      (¬ raw.InGrammar → ∃ what, tryFrom raw = .error (.err (.malformed what))) := by
  obtain ⟨hdecides, hcarries⟩ := decodesExactly raw
  refine ⟨hdecides.ok_iff, hcarries, fun hbad => ?_⟩
  obtain ⟨f, hf, herror⟩ := hdecides.error_of_not hbad
  obtain ⟨what, rfl⟩ := Fault.malformed_iff.1 hf
  exact ⟨what, herror⟩

end Event

end LibOsdp
