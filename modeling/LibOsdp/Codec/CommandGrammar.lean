import LibOsdp.Codec.Command

/-!
# The grammar of commands

Which structs the command decoder accepts, said without the decoder: by the codes a struct of
each id holds, with the codes defined there, and by the length-prefixed payloads it carries.
-/

set_option autoImplicit false

namespace LibOsdp

open Base Sys

namespace Sys.OsdpCmd

/-- The ids of application commands. -/
def appIds : List UInt8 :=
  [OSDP_CMD_LED, OSDP_CMD_BUZZER, OSDP_CMD_TEXT, OSDP_CMD_OUTPUT, OSDP_CMD_COMSET,
    OSDP_CMD_COMSET_DONE, OSDP_CMD_KEYSET, OSDP_CMD_MFG, OSDP_CMD_FILE_TX, OSDP_CMD_STATUS,
    OSDP_CMD_BIOREAD, OSDP_CMD_BIOMATCH, OSDP_CMD_TDSET, OSDP_CMD_PIVDATA, OSDP_CMD_GENAUTH,
    OSDP_CMD_CRAUTH, OSDP_CMD_XWR]

/-- The codes that a struct of its id holds, each beside the codes defined in its place. -/
def codes (raw : OsdpCmd) : List (UInt8 × List UInt8) :=
  if raw.id = OSDP_CMD_LED then
    [(raw.payload.led.temporary.controlCode, LedTemporary.codes),
      (raw.payload.led.permanent.controlCode, LedPermanent.codes)]
  else if raw.id = OSDP_CMD_BUZZER then [(raw.payload.buzzer.controlCode, BuzzerCommand.codes)]
  else if raw.id = OSDP_CMD_TEXT then [(raw.payload.text.controlCode, TextCommand.codes)]
  else if raw.id = OSDP_CMD_OUTPUT then [(raw.payload.output.controlCode, OutputCommand.codes)]
  else if raw.id = OSDP_CMD_STATUS then [(raw.payload.status.type, StatusKind.codes)]
  else if raw.id = OSDP_CMD_XWR then
    (raw.payload.trs.command, TrsCommand.codes) ::
      if raw.payload.trs.command = OSDP_TRS_CMD_ENTER_PIN then
        [(raw.payload.trs.payload.pinEntry.pinBlock.format, PinFormat.codes)]
      else []
  else []

/-- The length-prefixed payload that a struct of its id carries, if it carries one. -/
def payloadFields (raw : OsdpCmd) : List PayloadField :=
  if raw.id = OSDP_CMD_TEXT then [.of raw.payload.text.length.toNat raw.payload.text.data]
  else if raw.id = OSDP_CMD_KEYSET then
    [.of raw.payload.keyset.length.toNat raw.payload.keyset.data]
  else if raw.id = OSDP_CMD_MFG then [.of raw.payload.mfg.length.toNat raw.payload.mfg.data]
  else if raw.id = OSDP_CMD_BIOMATCH then
    [.of raw.payload.biomatch.length.toNat raw.payload.biomatch.data]
  else if raw.id = OSDP_CMD_GENAUTH ∨ raw.id = OSDP_CMD_CRAUTH then
    [.of raw.payload.auth.length.toNat raw.payload.auth.data]
  else if raw.id = OSDP_CMD_XWR then
    let trs := raw.payload.trs
    if trs.command = OSDP_TRS_CMD_SEND_APDU then
      [.of trs.payload.apdu.length.toNat trs.payload.apdu.data]
    else if trs.command = OSDP_TRS_CMD_ENTER_PIN then
      [.of trs.payload.pinEntry.apdu.length.toNat trs.payload.pinEntry.apdu.data]
    else []
  else []

/-- The structs of an application command. -/
structure InGrammar (raw : OsdpCmd) : Prop where
  id_mem : raw.id ∈ appIds
  codes_defined : ∀ c ∈ raw.codes, c.1 ∈ c.2
  lengths_fit : ∀ f ∈ raw.payloadFields, f.Fits

theorem inGrammar_iff {raw : OsdpCmd} :
    raw.InGrammar ↔ raw.id ∈ appIds ∧ (∀ c ∈ raw.codes, c.1 ∈ c.2) ∧
      ∀ f ∈ raw.payloadFields, f.Fits :=
  ⟨fun h => ⟨h.1, h.2, h.3⟩, fun h => ⟨h.1, h.2.1, h.2.2⟩⟩

end Sys.OsdpCmd

namespace Command

/-- The variable payload of a command, if it has one. -/
def payloads : Command → List (List UInt8)
  | text c => [c.data]
  | keySet c => [c.data]
  | mfg c => [c.data]
  | bioMatch c => [c.template]
  | genAuth c => [c.data]
  | crAuth c => [c.data]
  | trs (.apdu data) => [data]
  | trs (.enterPin entry) => [entry.apdu]
  | _ => []

/-- The decoder accepts `raw` exactly in the grammar, and then takes its payload prefixes. -/
structure DecodesExactly (raw : OsdpCmd) : Prop where
  decides : Decides Fault.Malformed raw.InGrammar (tryFrom raw)
  payloads_eq : ∀ c, tryFrom raw = .ok c → c.payloads = raw.payloadFields.map PayloadField.bytes

/-- A branch of the decoder: the codec of one command, under its constructor. -/
theorem DecodesExactly.branch {α : Type} {raw : OsdpCmd} {r : Res α} {p : Prop}
    (wrap : α → Command) (heq : tryFrom raw = r >>= fun a => .ok (wrap a))
    (hr : Decides Fault.Malformed p r)
    (hp : p ↔ raw.InGrammar)
    (hv : ∀ a, r = .ok a → (wrap a).payloads = raw.payloadFields.map PayloadField.bytes) :
    DecodesExactly raw where
  decides := heq ▸ hr.bind_ok.congr hp
  payloads_eq c hc := by
    rw [heq] at hc
    obtain ⟨a, ha, rfl⟩ := bind_pure_eq_ok.1 hc
    exact hv a ha

theorem payloads_of_trs {raw : OsdpTrsCmd} {c : TrsCommand} (h : TrsCommand.tryFrom raw = .ok c) :
    (trs c).payloads =
      (if raw.command = OSDP_TRS_CMD_SEND_APDU then
        [PayloadField.of raw.payload.apdu.length.toNat raw.payload.apdu.data]
      else if raw.command = OSDP_TRS_CMD_ENTER_PIN then
        [PayloadField.of raw.payload.pinEntry.apdu.length.toNat raw.payload.pinEntry.apdu.data]
      else []).map PayloadField.bytes := by
  unfold TrsCommand.tryFrom at h
  split at h
  · cases h
    simp_all [payloads]
  · split at h
    · cases h
      simp_all [payloads]
    · split at h
      · obtain ⟨data, hdata, rfl⟩ := bind_pure_eq_ok.1 h
        simp_all [payloads, data_of_fromApdu hdata]
      · split at h
        · obtain ⟨entry, hentry, rfl⟩ := bind_pure_eq_ok.1 h
          simp_all [payloads, PinEntry.apdu_of_tryFrom hentry]
        · split at h
          · cases h
            simp_all [payloads]
          · cases h

theorem inGrammar_trs {raw : OsdpCmd} (h : raw.id = OSDP_CMD_XWR) :
    (raw.payload.trs.command ∈ TrsCommand.codes ∧
      (raw.payload.trs.command = OSDP_TRS_CMD_SEND_APDU →
        raw.payload.trs.payload.apdu.length.toNat ≤ OSDP_TRS_APDU_MAX_LEN) ∧
      (raw.payload.trs.command = OSDP_TRS_CMD_ENTER_PIN →
        raw.payload.trs.payload.pinEntry.pinBlock.format ∈ PinFormat.codes ∧
          raw.payload.trs.payload.pinEntry.apdu.length.toNat ≤ OSDP_TRS_APDU_MAX_LEN)) ↔
      raw.InGrammar := by
  by_cases hapdu : raw.payload.trs.command = OSDP_TRS_CMD_SEND_APDU
  · simp [OsdpCmd.inGrammar_iff, OsdpCmd.appIds, OsdpCmd.codes, OsdpCmd.payloadFields, h, hapdu]
  · by_cases hpin : raw.payload.trs.command = OSDP_TRS_CMD_ENTER_PIN
    · simp [OsdpCmd.inGrammar_iff, OsdpCmd.appIds, OsdpCmd.codes, OsdpCmd.payloadFields, h, hpin,
        and_assoc]
    · simp [OsdpCmd.inGrammar_iff, OsdpCmd.appIds, OsdpCmd.codes, OsdpCmd.payloadFields, h, hapdu,
        hpin]

/-- The decoder, branch by branch: each command's codec decides its own part of the grammar. -/
theorem decodesExactly (raw : OsdpCmd) : DecodesExactly raw := by
  have grammar := @OsdpCmd.inGrammar_iff raw
  simp only [OsdpCmd.codes, OsdpCmd.payloadFields] at grammar
  by_cases hid : raw.id ∈ OsdpCmd.appIds
  · simp only [OsdpCmd.appIds, List.mem_cons, List.not_mem_nil, or_false] at hid
    rcases hid with h | h | h | h | h | h | h | h | h | h | h | h | h | h | h | h | h
    · exact .branch led (by simp [tryFrom, h]) (LedCommand.tryFrom_decides raw.payload.led)
        (by simp [grammar, h, OsdpCmd.appIds]) fun a ha => by
          simp [payloads, OsdpCmd.payloadFields, h]
    · exact .branch buzzer (by simp [tryFrom, h]) (BuzzerCommand.tryFrom_decides raw.payload.buzzer)
        (by simp [grammar, h, OsdpCmd.appIds]) fun a ha => by
          simp [payloads, OsdpCmd.payloadFields, h]
    · exact .branch text (by simp [tryFrom, h]) (TextCommand.tryFrom_decides raw.payload.text)
        (by simp [grammar, h, OsdpCmd.appIds]) fun a ha => by
          simp [payloads, OsdpCmd.payloadFields, h, TextCommand.data_of_tryFrom ha]
    · exact .branch output (by simp [tryFrom, h]) (OutputCommand.tryFrom_decides raw.payload.output)
        (by simp [grammar, h, OsdpCmd.appIds]) fun a ha => by
          simp [payloads, OsdpCmd.payloadFields, h]
    · exact .branch comSet (by simp [tryFrom, h]) (Decides.ok (ComSet.fromRaw raw.payload.comset))
        (by simp [grammar, h, OsdpCmd.appIds]) fun a ha => by
          simp [payloads, OsdpCmd.payloadFields, h]
    · exact .branch comSetDone (by simp [tryFrom, h])
        (Decides.ok (ComSet.fromRaw raw.payload.comset))
        (by simp [grammar, h, OsdpCmd.appIds]) fun a ha => by
          simp [payloads, OsdpCmd.payloadFields, h]
    · exact .branch keySet (by simp [tryFrom, h]) (KeySetCommand.tryFrom_decides raw.payload.keyset)
        (by simp [grammar, h, OsdpCmd.appIds]) fun a ha => by
          simp [payloads, OsdpCmd.payloadFields, h, KeySetCommand.data_of_tryFrom ha]
    · exact .branch mfg (by simp [tryFrom, h]) (MfgCommand.tryFrom_decides raw.payload.mfg)
        (by simp [grammar, h, OsdpCmd.appIds]) fun a ha => by
          simp [payloads, OsdpCmd.payloadFields, h, MfgCommand.data_of_tryFrom ha]
    · exact .branch fileTx (by simp [tryFrom, h])
        (Decides.ok (FileTxCommand.fromRaw raw.payload.fileTx))
        (by simp [grammar, h, OsdpCmd.appIds]) fun a ha => by
          simp [payloads, OsdpCmd.payloadFields, h]
    · exact .branch status (by simp [tryFrom, h])
        (StatusKind.tryFrom_decides raw.payload.status.type)
        (by simp [grammar, h, OsdpCmd.appIds]) fun a ha => by
          simp [payloads, OsdpCmd.payloadFields, h]
    · exact .branch bioRead (by simp [tryFrom, h])
        (Decides.ok (BioReadCommand.fromRaw raw.payload.bioread))
        (by simp [grammar, h, OsdpCmd.appIds]) fun a ha => by
          simp [payloads, OsdpCmd.payloadFields, h]
    · exact .branch bioMatch (by simp [tryFrom, h])
        (BioMatchCommand.tryFrom_decides raw.payload.biomatch)
        (by simp [grammar, h, OsdpCmd.appIds]) fun a ha => by
          simp [payloads, OsdpCmd.payloadFields, h, BioMatchCommand.template_of_tryFrom ha]
    · exact .branch timeDate (by simp [tryFrom, h])
        (Decides.ok (TimeDateCommand.fromRaw raw.payload.tdset))
        (by simp [grammar, h, OsdpCmd.appIds]) fun a ha => by
          simp [payloads, OsdpCmd.payloadFields, h]
    · exact .branch pivData (by simp [tryFrom, h])
        (Decides.ok (PivRequest.fromRaw raw.payload.pivdata))
        (by simp [grammar, h, OsdpCmd.appIds]) fun a ha => by
          simp [payloads, OsdpCmd.payloadFields, h]
    · exact .branch genAuth (by simp [tryFrom, h]) (Challenge.tryFrom_decides raw.payload.auth)
        (by simp [grammar, h, OsdpCmd.appIds]) fun a ha => by
          simp [payloads, OsdpCmd.payloadFields, h, Challenge.data_of_tryFrom ha]
    · exact .branch crAuth (by simp [tryFrom, h]) (Challenge.tryFrom_decides raw.payload.auth)
        (by simp [grammar, h, OsdpCmd.appIds]) fun a ha => by
          simp [payloads, OsdpCmd.payloadFields, h, Challenge.data_of_tryFrom ha]
    · refine .branch trs (by simp [tryFrom, h]) (TrsCommand.tryFrom_decides raw.payload.trs)
        (inGrammar_trs h) fun a ha => ?_
      rw [payloads_of_trs ha]
      simp [OsdpCmd.payloadFields, h]
  · have hmalformed : tryFrom raw = malformed "command id" := by
      simp only [OsdpCmd.appIds, List.mem_cons, List.not_mem_nil, or_false, not_or] at hid
      simp [tryFrom, hid]
    refine ⟨?_, fun c hc => ?_⟩
    · rw [hmalformed]
      exact (malformed_decides _).congr ⟨False.elim, fun h => hid h.id_mem⟩
    · rw [hmalformed] at hc
      cases hc

/-- **Command decoding accepts exactly its grammar**, takes exactly the payload prefixes, and
    reports everything else as malformed: no struct makes it fail in another way. -/
theorem command_decoding_exact (raw : OsdpCmd) :
    ((∃ c, tryFrom raw = .ok c) ↔ raw.InGrammar) ∧
      (∀ c, tryFrom raw = .ok c → c.payloads = raw.payloadFields.map PayloadField.bytes) ∧
      (¬ raw.InGrammar → ∃ what, tryFrom raw = .error (.err (.malformed what))) := by
  obtain ⟨hdecides, hpayloads⟩ := decodesExactly raw
  refine ⟨hdecides.ok_iff, hpayloads, fun hbad => ?_⟩
  obtain ⟨f, hf, herror⟩ := hdecides.error_of_not hbad
  obtain ⟨what, rfl⟩ := Fault.malformed_iff.1 hf
  exact ⟨what, herror⟩

end Command

end LibOsdp
