import LibOsdp.Codec.Trs

/-!
# Transparent reader replies

Five kinds of reply under one tag; a card's description has two length-prefixed fields, which
are checked together.
-/

set_option autoImplicit false

namespace LibOsdp

open Base Sys

/-- `trs.rs`: how a card talks to the reader. -/
inductive CardProtocol where
  | contact | contactless
deriving DecidableEq, Repr

namespace CardProtocol

/-- The match on the protocol in `TryFrom<osdp_trs_reply> for TrsReply`. -/
def tryFrom (value : UInt8) : Res CardProtocol :=
  if value = OSDP_TRS_CARD_PROTOCOL_CONTACT then .ok contact
  else if value = OSDP_TRS_CARD_PROTOCOL_CONTACTLESS then .ok contactless
  else malformed "card protocol"

/-- The match on the protocol in `TryFrom<TrsReply> for osdp_trs_reply`. -/
def toU8 : CardProtocol → UInt8
  | contact => OSDP_TRS_CARD_PROTOCOL_CONTACT
  | contactless => OSDP_TRS_CARD_PROTOCOL_CONTACTLESS

/-- The card protocols. -/
def codes : List UInt8 := [OSDP_TRS_CARD_PROTOCOL_CONTACT, OSDP_TRS_CARD_PROTOCOL_CONTACTLESS]

@[simp] theorem tryFrom_toU8 (value : CardProtocol) : tryFrom value.toU8 = .ok value := by
  cases value <;> rfl

theorem toU8_of_tryFrom {byte : UInt8} {value : CardProtocol} (h : tryFrom byte = .ok value) :
    value.toU8 = byte := by
  unfold tryFrom at h
  split at h
  · rename_i hbyte
    cases h
    exact hbyte.symm
  split at h
  · rename_i hbyte
    cases h
    exact hbyte.symm
  · cases h

theorem tryFrom_decides (value : UInt8) :
    Decides Fault.Malformed (value ∈ codes) (tryFrom value) := by
  refine ((Decides.ok _).orElse <| (Decides.ok _).orElse <| malformed_decides _).congr ?_
  simp [codes]

end CardProtocol

/-- `trs.rs`: whether a card is in a reader's field. -/
inductive CardStatus where
  | unknown | notPresent | present | presentContactless | presentContact
deriving DecidableEq, Repr

namespace CardStatus

/-- The match on the status in `TryFrom<osdp_trs_reply> for TrsReply`. -/
def tryFrom (value : UInt8) : Res CardStatus :=
  if value = OSDP_TRS_CARD_STATUS_UNKNOWN then .ok unknown
  else if value = OSDP_TRS_CARD_NOT_PRESENT then .ok notPresent
  else if value = OSDP_TRS_CARD_PRESENT then .ok present
  else if value = OSDP_TRS_CARD_PRESENT_CONTACTLESS then .ok presentContactless
  else if value = OSDP_TRS_CARD_PRESENT_CONTACT then .ok presentContact
  else malformed "card status"

/-- The match on the status in `TryFrom<TrsReply> for osdp_trs_reply`. -/
def toU8 : CardStatus → UInt8
  | unknown => OSDP_TRS_CARD_STATUS_UNKNOWN
  | notPresent => OSDP_TRS_CARD_NOT_PRESENT
  | present => OSDP_TRS_CARD_PRESENT
  | presentContactless => OSDP_TRS_CARD_PRESENT_CONTACTLESS
  | presentContact => OSDP_TRS_CARD_PRESENT_CONTACT

/-- The card statuses. -/
def codes : List UInt8 :=
  [OSDP_TRS_CARD_STATUS_UNKNOWN, OSDP_TRS_CARD_NOT_PRESENT, OSDP_TRS_CARD_PRESENT,
    OSDP_TRS_CARD_PRESENT_CONTACTLESS, OSDP_TRS_CARD_PRESENT_CONTACT]

@[simp] theorem tryFrom_toU8 (value : CardStatus) : tryFrom value.toU8 = .ok value := by
  cases value <;> rfl

theorem toU8_of_tryFrom {byte : UInt8} {value : CardStatus} (h : tryFrom byte = .ok value) :
    value.toU8 = byte := by
  unfold tryFrom at h
  split at h
  · rename_i hbyte
    cases h
    exact hbyte.symm
  split at h
  · rename_i hbyte
    cases h
    exact hbyte.symm
  split at h
  · rename_i hbyte
    cases h
    exact hbyte.symm
  split at h
  · rename_i hbyte
    cases h
    exact hbyte.symm
  split at h
  · rename_i hbyte
    cases h
    exact hbyte.symm
  · cases h

theorem tryFrom_decides (value : UInt8) :
    Decides Fault.Malformed (value ∈ codes) (tryFrom value) := by
  refine ((Decides.ok _).orElse <| (Decides.ok _).orElse <| (Decides.ok _).orElse <|
    (Decides.ok _).orElse <| (Decides.ok _).orElse <| malformed_decides _).congr ?_
  simp [codes]

end CardStatus

/-- `trs.rs`: a card that entered a reader's field. -/
structure CardInfo where
  reader : UInt8
  protocol : CardProtocol
  csn : List UInt8
  protocolData : List UInt8
deriving DecidableEq, Repr

/-- `trs.rs`: a card's answer to a C-APDU. -/
structure CardData where
  reader : UInt8
  status : UInt8
  apdu : List UInt8
deriving DecidableEq, Repr

/-- `trs.rs`: how a PIN entry went. -/
structure PinResult where
  reader : UInt8
  status : UInt8
  tries : UInt8
deriving DecidableEq, Repr

/-- `trs.rs`: a transparent reader reply. -/
inductive TrsReply where
  | cardInfo (info : CardInfo)
  | cardPresent (reader : UInt8) (status : CardStatus)
  | cardData (data : CardData)
  | pinComplete (pin : PinResult)
  | error (code : UInt8)
deriving DecidableEq, Repr

/-- `bytes_to::<N>`. -/
def bytesTo (n : Nat) (data : List UInt8) : Res (UInt8 × Vector UInt8 n) := do
  let buf ← copyInto n data
  return (UInt8.ofNat data.length, buf)

namespace TrsReply

/-- The card info arm of `TryFrom<osdp_trs_reply> for TrsReply`. -/
def cardInfoOf (info : OsdpTrsCardInfo) : Res TrsReply := do
  let protocol ← CardProtocol.tryFrom info.protocol
  let csn := getTo info.csn info.csnLen.toNat
  let data := getTo info.protocolData info.protocolDataLen.toNat
  match csn, data with
  | some csn, some data =>
    return cardInfo { reader := info.reader, protocol, csn, protocolData := data }
  | _, _ => malformed "card info length"

/-- `TryFrom<osdp_trs_reply> for TrsReply`. -/
def tryFrom (value : OsdpTrsReply) : Res TrsReply :=
  if value.reply = OSDP_TRS_REPLY_CARD_INFO then cardInfoOf value.payload.cardInfo
  else if value.reply = OSDP_TRS_REPLY_CARD_PRESENT then do
    let present := value.payload.cardPresent
    let status ← CardStatus.tryFrom present.status
    return cardPresent present.reader status
  else if value.reply = OSDP_TRS_REPLY_CARD_DATA then do
    let data := value.payload.cardData
    let apdu ← fromApdu data.apdu
    return cardData { reader := data.reader, status := data.status, apdu }
  else if value.reply = OSDP_TRS_REPLY_PIN_COMPLETE then
    let pin := value.payload.pinComplete
    .ok (pinComplete { reader := pin.reader, status := pin.status, tries := pin.tries })
  else if value.reply = OSDP_TRS_REPLY_ERROR then .ok (error value.payload.error.code)
  else malformed "TRS reply"

/-- `TryFrom<TrsReply> for osdp_trs_reply`. -/
def tryInto (value : TrsReply) : Res OsdpTrsReply :=
  match value with
  | cardInfo info => do
    let (csnLen, csn) ← bytesTo OSDP_TRS_CSN_MAX_LEN info.csn
    let (protocolDataLen, protocolData) ← bytesTo OSDP_TRS_PROTOCOL_DATA_MAX_LEN info.protocolData
    return {
      reply := OSDP_TRS_REPLY_CARD_INFO
      payload := { cardInfo := {
        reader := info.reader, protocol := info.protocol.toU8
        csnLen, csn, protocolDataLen, protocolData } } }
  | cardPresent reader status => .ok {
      reply := OSDP_TRS_REPLY_CARD_PRESENT
      payload := { cardPresent := { reader, status := status.toU8 } } }
  | cardData data => do
    let apdu ← toApdu data.apdu
    return {
      reply := OSDP_TRS_REPLY_CARD_DATA
      payload := { cardData := { reader := data.reader, status := data.status, apdu } } }
  | pinComplete pin => .ok {
      reply := OSDP_TRS_REPLY_PIN_COMPLETE
      payload := { pinComplete := { reader := pin.reader, status := pin.status, tries := pin.tries } } }
  | error code => .ok { reply := OSDP_TRS_REPLY_ERROR, payload := { error := { code } } }

/-- The transparent reader replies. -/
def codes : List UInt8 :=
  [OSDP_TRS_REPLY_CARD_INFO, OSDP_TRS_REPLY_CARD_PRESENT, OSDP_TRS_REPLY_CARD_DATA,
    OSDP_TRS_REPLY_PIN_COMPLETE, OSDP_TRS_REPLY_ERROR]

theorem getTo_bytesTo {n : Nat} {data : List UInt8} {length : UInt8} {buf : Vector UInt8 n}
    (hn : n < 256) (h : bytesTo n data = .ok (length, buf)) :
    getTo buf length.toNat = some data := by
  simp only [bytesTo, bind_eq_ok, pure_eq_ok, Except.ok.injEq, Prod.mk.injEq] at h
  obtain ⟨buf, hbuf, rfl, rfl⟩ := h
  have hlen := toNat_len8 hbuf hn
  obtain ⟨hfit, rfl⟩ := copyInto_eq_ok.1 hbuf
  rw [hlen, getTo_padded hfit]

theorem round_trip {value : TrsReply} {raw : OsdpTrsReply} (h : value.tryInto = .ok raw) :
    tryFrom raw = .ok value := by
  cases value with
  | cardInfo info =>
    simp only [tryInto, bind_eq_ok, pure_eq_ok, Except.ok.injEq] at h
    obtain ⟨⟨csnLen, csn⟩, hcsn, ⟨dataLen, data⟩, hdata, rfl⟩ := h
    simp [tryFrom, cardInfoOf, getTo_bytesTo (by decide) hcsn, getTo_bytesTo (by decide) hdata]
  | cardPresent reader status =>
    cases h
    simp [tryFrom]
  | cardData data =>
    obtain ⟨apdu, hapdu, rfl⟩ := bind_pure_eq_ok.1 h
    simp [tryFrom, fromApdu_toApdu hapdu]
  | pinComplete pin => cases h; rfl
  | error code => cases h; rfl

theorem cardInfoOf_decides (info : OsdpTrsCardInfo) :
    Decides Fault.Malformed
      (info.protocol ∈ CardProtocol.codes ∧
        info.csnLen.toNat ≤ OSDP_TRS_CSN_MAX_LEN ∧
          info.protocolDataLen.toNat ≤ OSDP_TRS_PROTOCOL_DATA_MAX_LEN) (cardInfoOf info) := by
  refine (CardProtocol.tryFrom_decides info.protocol).bind fun protocol _ => ?_
  cases hcsn : getTo info.csn info.csnLen.toNat with
  | none =>
    have := getTo_eq_none.1 hcsn
    exact (malformed_decides _).congr (by simp; omega)
  | some csn =>
    have hcsn := (getTo_eq_some.1 hcsn).1
    cases hdata : getTo info.protocolData info.protocolDataLen.toNat with
    | none =>
      have := getTo_eq_none.1 hdata
      exact (malformed_decides _).congr (by simp; omega)
    | some data => exact (Decides.ok _).congr (by simp [hcsn, (getTo_eq_some.1 hdata).1])

theorem tryFrom_decides (raw : OsdpTrsReply) :
    Decides Fault.Malformed
      (raw.reply ∈ codes ∧
        (raw.reply = OSDP_TRS_REPLY_CARD_INFO →
          raw.payload.cardInfo.protocol ∈ CardProtocol.codes ∧
            raw.payload.cardInfo.csnLen.toNat ≤ OSDP_TRS_CSN_MAX_LEN ∧
              raw.payload.cardInfo.protocolDataLen.toNat ≤ OSDP_TRS_PROTOCOL_DATA_MAX_LEN) ∧
        (raw.reply = OSDP_TRS_REPLY_CARD_PRESENT →
          raw.payload.cardPresent.status ∈ CardStatus.codes) ∧
        (raw.reply = OSDP_TRS_REPLY_CARD_DATA →
          raw.payload.cardData.apdu.length.toNat ≤ OSDP_TRS_APDU_MAX_LEN)) (tryFrom raw) := by
  refine ((cardInfoOf_decides raw.payload.cardInfo).ite <|
    (CardStatus.tryFrom_decides raw.payload.cardPresent.status).bind_ok.ite <|
      (fromApdu_decides raw.payload.cardData.apdu).bind_ok.ite <|
        (Decides.ok _).orElse <| (Decides.ok _).orElse <| malformed_decides _).congr ?_
  simp only [codes, List.mem_cons, List.not_mem_nil, or_false]
  constructor
  · rintro (⟨h, hinfo⟩ | ⟨h, ⟨h', hstatus⟩ | ⟨h', ⟨h'', hapdu⟩ | ⟨h'', h'''⟩⟩⟩) <;> simp_all
  · rintro ⟨h | h | h | h | h, hinfo, hstatus, hapdu⟩ <;> simp_all

/-- The payloads of a reply, in the order of its fields. -/
def payloads : TrsReply → List (List UInt8)
  | cardInfo info => [info.csn, info.protocolData]
  | cardData data => [data.apdu]
  | _ => []

theorem bytesTo_decides (n : Nat) (data : List UInt8) :
    Decides Fault.Refused (data.length ≤ n) (bytesTo n data) :=
  (copyInto_decides n data).bind_ok

theorem bytesTo_holds {n : Nat} {data : List UInt8} {length : UInt8} {buf : Vector UInt8 n}
    (hn : n < 256) (h : bytesTo n data = .ok (length, buf)) :
    (PayloadField.of length.toNat buf).Holds data.length data := by
  simp only [bytesTo, bind_eq_ok, pure_eq_ok, Except.ok.injEq, Prod.mk.injEq] at h
  obtain ⟨buf, hbuf, rfl, rfl⟩ := h
  exact PayloadField.of_holds_copyInto hbuf (toNat_len8 hbuf hn)

end TrsReply

end LibOsdp
