import LibOsdp.Sys.Command

/-!
# LibOSDP's event structs

The part of the generated bindings that the event codec reads and writes, in the conventions
of the command structs.
-/

set_option autoImplicit false

namespace LibOsdp.Sys

@[simp] abbrev OSDP_EVENT_CARDREAD : UInt8 := 1
@[simp] abbrev OSDP_EVENT_KEYPRESS : UInt8 := 2
@[simp] abbrev OSDP_EVENT_MFGREP : UInt8 := 3
@[simp] abbrev OSDP_EVENT_STATUS : UInt8 := 4
@[simp] abbrev OSDP_EVENT_NOTIFICATION : UInt8 := 5
@[simp] abbrev OSDP_EVENT_MFGSTATR : UInt8 := 6
@[simp] abbrev OSDP_EVENT_MFGERRR : UInt8 := 7
@[simp] abbrev OSDP_EVENT_BIOREADR : UInt8 := 8
@[simp] abbrev OSDP_EVENT_BIOMATCHR : UInt8 := 9
@[simp] abbrev OSDP_EVENT_PIVDATAR : UInt8 := 10
@[simp] abbrev OSDP_EVENT_GENAUTHR : UInt8 := 11
@[simp] abbrev OSDP_EVENT_CRAUTHR : UInt8 := 12
@[simp] abbrev OSDP_EVENT_TRS : UInt8 := 13

@[simp] abbrev OSDP_CARD_FMT_RAW_UNSPECIFIED : UInt8 := 0
@[simp] abbrev OSDP_CARD_FMT_RAW_WIEGAND : UInt8 := 1

@[simp] abbrev OSDP_TRS_CARD_PROTOCOL_CONTACT : UInt8 := 1
@[simp] abbrev OSDP_TRS_CARD_PROTOCOL_CONTACTLESS : UInt8 := 2

@[simp] abbrev OSDP_TRS_CARD_STATUS_UNKNOWN : UInt8 := 0
@[simp] abbrev OSDP_TRS_CARD_NOT_PRESENT : UInt8 := 1
@[simp] abbrev OSDP_TRS_CARD_PRESENT : UInt8 := 2
@[simp] abbrev OSDP_TRS_CARD_PRESENT_CONTACTLESS : UInt8 := 3
@[simp] abbrev OSDP_TRS_CARD_PRESENT_CONTACT : UInt8 := 4

@[simp] abbrev OSDP_TRS_REPLY_CARD_INFO : UInt8 := 1
@[simp] abbrev OSDP_TRS_REPLY_CARD_PRESENT : UInt8 := 2
@[simp] abbrev OSDP_TRS_REPLY_CARD_DATA : UInt8 := 3
@[simp] abbrev OSDP_TRS_REPLY_PIN_COMPLETE : UInt8 := 4
@[simp] abbrev OSDP_TRS_REPLY_ERROR : UInt8 := 5

@[simp] abbrev OSDP_EVENT_CARDREAD_MAX_DATALEN : Nat := 64
@[simp] abbrev OSDP_EVENT_KEYPRESS_MAX_DATALEN : Nat := 64
@[simp] abbrev OSDP_EVENT_MFGREP_MAX_DATALEN : Nat := 128
@[simp] abbrev OSDP_EVENT_MFGSTAT_MAX_DATALEN : Nat := 128
@[simp] abbrev OSDP_EVENT_BIOREADR_MAX_TEMPLATE_LEN : Nat := 256
@[simp] abbrev OSDP_TRS_CSN_MAX_LEN : Nat := 32
@[simp] abbrev OSDP_TRS_PROTOCOL_DATA_MAX_LEN : Nat := 64

structure OsdpEventCardread where
  readerNo : Int32 := 0
  format : UInt8 := 0
  direction : Int32 := 0
  length : UInt16 := 0
  data : Vector UInt8 64 := zeroed 64
deriving DecidableEq, Repr

structure OsdpEventKeypress where
  readerNo : Int32 := 0
  length : Int32 := 0
  data : Vector UInt8 64 := zeroed 64
deriving DecidableEq, Repr

structure OsdpEventMfgrep where
  vendorCode : UInt32 := 0
  length : UInt8 := 0
  data : Vector UInt8 128 := zeroed 128
deriving DecidableEq, Repr

structure OsdpEventMfgstat where
  length : UInt8 := 0
  data : Vector UInt8 128 := zeroed 128
deriving DecidableEq, Repr

structure OsdpEventBioreadr where
  reader : UInt8 := 0
  status : UInt8 := 0
  type : UInt8 := 0
  quality : UInt8 := 0
  length : UInt16 := 0
  data : Vector UInt8 256 := zeroed 256
deriving DecidableEq, Repr

structure OsdpEventBiomatchr where
  reader : UInt8 := 0
  status : UInt8 := 0
  score : UInt8 := 0
deriving DecidableEq, Repr

structure OsdpEventPivReply where
  length : UInt16 := 0
  data : Vector UInt8 256 := zeroed 256
deriving DecidableEq, Repr

structure OsdpTrsCardInfo where
  reader : UInt8 := 0
  protocol : UInt8 := 0
  csnLen : UInt8 := 0
  csn : Vector UInt8 32 := zeroed 32
  protocolDataLen : UInt8 := 0
  protocolData : Vector UInt8 64 := zeroed 64
deriving DecidableEq, Repr

structure OsdpTrsCardPresent where
  reader : UInt8 := 0
  status : UInt8 := 0
deriving DecidableEq, Repr

structure OsdpTrsCardData where
  reader : UInt8 := 0
  status : UInt8 := 0
  apdu : OsdpTrsApdu := {}
deriving DecidableEq, Repr

structure OsdpTrsPinComplete where
  reader : UInt8 := 0
  status : UInt8 := 0
  tries : UInt8 := 0
deriving DecidableEq, Repr

structure OsdpTrsError where
  code : UInt8 := 0
deriving DecidableEq, Repr

/-- The union of `osdp_trs_reply`. -/
structure OsdpTrsReplyPayload where
  cardInfo : OsdpTrsCardInfo := {}
  cardPresent : OsdpTrsCardPresent := {}
  cardData : OsdpTrsCardData := {}
  pinComplete : OsdpTrsPinComplete := {}
  error : OsdpTrsError := {}
deriving DecidableEq, Repr

structure OsdpTrsReply where
  reply : UInt8 := 0
  payload : OsdpTrsReplyPayload := {}
deriving DecidableEq, Repr

/-- The union of `osdp_event`. -/
structure OsdpEventPayload where
  keypress : OsdpEventKeypress := {}
  cardread : OsdpEventCardread := {}
  mfgrep : OsdpEventMfgrep := {}
  mfgstatr : OsdpEventMfgstat := {}
  mfgerrr : OsdpEventMfgstat := {}
  bioreadr : OsdpEventBioreadr := {}
  biomatchr : OsdpEventBiomatchr := {}
  pivReply : OsdpEventPivReply := {}
  status : OsdpStatusReport := {}
  notif : OsdpNotification := {}
  trs : OsdpTrsReply := {}
deriving DecidableEq, Repr

structure OsdpEvent where
  type : UInt8 := 0
  flags : UInt32 := 0
  payload : OsdpEventPayload := {}
deriving DecidableEq, Repr

end LibOsdp.Sys
