import LibOsdp.Sys.Notification

/-!
# LibOSDP's command structs

The part of the generated bindings that the command codec reads and writes. Every enumeration
of the C side is a byte there, and so it is here, with its values as constants. A C union is
the record of the readings of its bytes, one a member; an initialiser fixes the reading it
names and the others stay zero, which nothing looks at, since the tag beside a union says which
member to read. The intrusive queue node of `osdp_cmd` is LibOSDP's own and is left out.
-/

set_option autoImplicit false

namespace LibOsdp.Sys

@[simp] abbrev OSDP_CMD_OUTPUT : UInt8 := 1
@[simp] abbrev OSDP_CMD_LED : UInt8 := 2
@[simp] abbrev OSDP_CMD_BUZZER : UInt8 := 3
@[simp] abbrev OSDP_CMD_TEXT : UInt8 := 4
@[simp] abbrev OSDP_CMD_KEYSET : UInt8 := 5
@[simp] abbrev OSDP_CMD_COMSET : UInt8 := 6
@[simp] abbrev OSDP_CMD_MFG : UInt8 := 7
@[simp] abbrev OSDP_CMD_FILE_TX : UInt8 := 8
@[simp] abbrev OSDP_CMD_STATUS : UInt8 := 9
@[simp] abbrev OSDP_CMD_COMSET_DONE : UInt8 := 10
@[simp] abbrev OSDP_CMD_NOTIFICATION : UInt8 := 11
@[simp] abbrev OSDP_CMD_BIOREAD : UInt8 := 12
@[simp] abbrev OSDP_CMD_BIOMATCH : UInt8 := 13
@[simp] abbrev OSDP_CMD_TDSET : UInt8 := 14
@[simp] abbrev OSDP_CMD_PIVDATA : UInt8 := 15
@[simp] abbrev OSDP_CMD_GENAUTH : UInt8 := 16
@[simp] abbrev OSDP_CMD_CRAUTH : UInt8 := 17
@[simp] abbrev OSDP_CMD_XWR : UInt8 := 18

@[simp] abbrev OSDP_LED_COLOR_NONE : UInt8 := 0
@[simp] abbrev OSDP_LED_COLOR_RED : UInt8 := 1
@[simp] abbrev OSDP_LED_COLOR_GREEN : UInt8 := 2
@[simp] abbrev OSDP_LED_COLOR_AMBER : UInt8 := 3
@[simp] abbrev OSDP_LED_COLOR_BLUE : UInt8 := 4
@[simp] abbrev OSDP_LED_COLOR_MAGENTA : UInt8 := 5
@[simp] abbrev OSDP_LED_COLOR_CYAN : UInt8 := 6
@[simp] abbrev OSDP_LED_COLOR_WHITE : UInt8 := 7

@[simp] abbrev OSDP_CMD_LED_TEMPORARY_CC_NOP : UInt8 := 0
@[simp] abbrev OSDP_CMD_LED_TEMPORARY_CC_CANCEL : UInt8 := 1
@[simp] abbrev OSDP_CMD_LED_TEMPORARY_CC_SET : UInt8 := 2
@[simp] abbrev OSDP_CMD_LED_PERMANENT_CC_NOP : UInt8 := 0
@[simp] abbrev OSDP_CMD_LED_PERMANENT_CC_SET : UInt8 := 1

@[simp] abbrev OSDP_CMD_BUZZER_CC_NO_TONE : UInt8 := 0
@[simp] abbrev OSDP_CMD_BUZZER_CC_OFF : UInt8 := 1
@[simp] abbrev OSDP_CMD_BUZZER_CC_DEFAULT_TONE : UInt8 := 2

@[simp] abbrev OSDP_CMD_TEXT_CC_PERMANENT_NO_WRAP : UInt8 := 1
@[simp] abbrev OSDP_CMD_TEXT_CC_PERMANENT_WRAP : UInt8 := 2
@[simp] abbrev OSDP_CMD_TEXT_CC_TEMPORARY_NO_WRAP : UInt8 := 3
@[simp] abbrev OSDP_CMD_TEXT_CC_TEMPORARY_WRAP : UInt8 := 4

@[simp] abbrev OSDP_CMD_OUTPUT_CC_NOP : UInt8 := 0
@[simp] abbrev OSDP_CMD_OUTPUT_CC_PERMANENT_OFF : UInt8 := 1
@[simp] abbrev OSDP_CMD_OUTPUT_CC_PERMANENT_ON : UInt8 := 2
@[simp] abbrev OSDP_CMD_OUTPUT_CC_PERMANENT_OFF_ALLOW_TIMED : UInt8 := 3
@[simp] abbrev OSDP_CMD_OUTPUT_CC_PERMANENT_ON_ALLOW_TIMED : UInt8 := 4
@[simp] abbrev OSDP_CMD_OUTPUT_CC_TEMPORARY_ON : UInt8 := 5
@[simp] abbrev OSDP_CMD_OUTPUT_CC_TEMPORARY_OFF : UInt8 := 6

@[simp] abbrev OSDP_STATUS_REPORT_INPUT : UInt8 := 0
@[simp] abbrev OSDP_STATUS_REPORT_OUTPUT : UInt8 := 1
@[simp] abbrev OSDP_STATUS_REPORT_LOCAL : UInt8 := 2
@[simp] abbrev OSDP_STATUS_REPORT_READER : UInt8 := 3

@[simp] abbrev OSDP_BIO_TYPE_NOT_SPECIFIED : UInt8 := 0
@[simp] abbrev OSDP_BIO_TYPE_RIGHT_THUMB_PRINT : UInt8 := 1
@[simp] abbrev OSDP_BIO_TYPE_RIGHT_INDEX_FINGER_PRINT : UInt8 := 2
@[simp] abbrev OSDP_BIO_TYPE_RIGHT_MIDDLE_FINGER_PRINT : UInt8 := 3
@[simp] abbrev OSDP_BIO_TYPE_RIGHT_RING_FINGER_PRINT : UInt8 := 4
@[simp] abbrev OSDP_BIO_TYPE_RIGHT_LITTLE_FINGER_PRINT : UInt8 := 5
@[simp] abbrev OSDP_BIO_TYPE_LEFT_THUMB_PRINT : UInt8 := 6
@[simp] abbrev OSDP_BIO_TYPE_LEFT_INDEX_FINGER_PRINT : UInt8 := 7
@[simp] abbrev OSDP_BIO_TYPE_LEFT_MIDDLE_FINGER_PRINT : UInt8 := 8
@[simp] abbrev OSDP_BIO_TYPE_LEFT_RING_FINGER_PRINT : UInt8 := 9
@[simp] abbrev OSDP_BIO_TYPE_LEFT_LITTLE_FINGER_PRINT : UInt8 := 10
@[simp] abbrev OSDP_BIO_TYPE_RIGHT_IRIS_SCAN : UInt8 := 11
@[simp] abbrev OSDP_BIO_TYPE_RIGHT_RETINA_SCAN : UInt8 := 12
@[simp] abbrev OSDP_BIO_TYPE_LEFT_IRIS_SCAN : UInt8 := 13
@[simp] abbrev OSDP_BIO_TYPE_LEFT_RETINA_SCAN : UInt8 := 14
@[simp] abbrev OSDP_BIO_TYPE_FULL_FACE_IMAGE : UInt8 := 15
@[simp] abbrev OSDP_BIO_TYPE_RIGHT_HAND_GEOMETRY : UInt8 := 16
@[simp] abbrev OSDP_BIO_TYPE_LEFT_HAND_GEOMETRY : UInt8 := 17

@[simp] abbrev OSDP_BIO_FMT_NOT_SPECIFIED : UInt8 := 0
@[simp] abbrev OSDP_BIO_FMT_RAW_PGM : UInt8 := 1
@[simp] abbrev OSDP_BIO_FMT_ANSI_INCITS_378 : UInt8 := 2

@[simp] abbrev OSDP_BIO_STATUS_SUCCESS : UInt8 := 0
@[simp] abbrev OSDP_BIO_STATUS_TIMEOUT : UInt8 := 1
@[simp] abbrev OSDP_BIO_STATUS_UNKNOWN_ERROR : UInt8 := 255

@[simp] abbrev OSDP_TRS_CMD_START : UInt8 := 1
@[simp] abbrev OSDP_TRS_CMD_STOP : UInt8 := 2
@[simp] abbrev OSDP_TRS_CMD_SEND_APDU : UInt8 := 3
@[simp] abbrev OSDP_TRS_CMD_ENTER_PIN : UInt8 := 4
@[simp] abbrev OSDP_TRS_CMD_CARD_SCAN : UInt8 := 5

@[simp] abbrev OSDP_TRS_PIN_FORMAT_BINARY : UInt8 := 1
@[simp] abbrev OSDP_TRS_PIN_FORMAT_BCD : UInt8 := 2
@[simp] abbrev OSDP_TRS_PIN_FORMAT_ASCII : UInt8 := 3

@[simp] abbrev OSDP_CMD_TEXT_MAX_LEN : Nat := 32
@[simp] abbrev OSDP_CMD_KEYSET_KEY_MAX_LEN : Nat := 32
@[simp] abbrev OSDP_CMD_MFG_MAX_DATALEN : Nat := 64
@[simp] abbrev OSDP_CMD_BIOMATCH_MAX_TEMPLATE_LEN : Nat := 128
@[simp] abbrev OSDP_PIV_DATA_MAX_LEN : Nat := 256
@[simp] abbrev OSDP_TRS_APDU_MAX_LEN : Nat := 258
@[simp] abbrev OSDP_STATUS_REPORT_MAX_LEN : Nat := 64

/-- A zeroed `[u8; n]`. -/
abbrev zeroed (n : Nat) : Vector UInt8 n := Vector.replicate n 0

structure OsdpCmdLedParams where
  controlCode : UInt8 := 0
  onCount : UInt8 := 0
  offCount : UInt8 := 0
  onColor : UInt8 := 0
  offColor : UInt8 := 0
  timerCount : UInt16 := 0
deriving DecidableEq, Repr

structure OsdpCmdLed where
  reader : UInt8 := 0
  ledNumber : UInt8 := 0
  temporary : OsdpCmdLedParams := {}
  permanent : OsdpCmdLedParams := {}
deriving DecidableEq, Repr

structure OsdpCmdBuzzer where
  reader : UInt8 := 0
  controlCode : UInt8 := 0
  onCount : UInt8 := 0
  offCount : UInt8 := 0
  repCount : UInt8 := 0
deriving DecidableEq, Repr

structure OsdpCmdText where
  reader : UInt8 := 0
  controlCode : UInt8 := 0
  tempTime : UInt8 := 0
  offsetRow : UInt8 := 0
  offsetCol : UInt8 := 0
  length : UInt8 := 0
  data : Vector UInt8 32 := zeroed 32
deriving DecidableEq, Repr

structure OsdpCmdOutput where
  outputNo : UInt8 := 0
  controlCode : UInt8 := 0
  timerCount : UInt16 := 0
deriving DecidableEq, Repr

structure OsdpCmdComset where
  address : UInt8 := 0
  baudRate : UInt32 := 0
deriving DecidableEq, Repr

structure OsdpCmdKeyset where
  type : UInt8 := 0
  length : UInt8 := 0
  data : Vector UInt8 32 := zeroed 32
deriving DecidableEq, Repr

structure OsdpCmdMfg where
  vendorCode : UInt32 := 0
  data : Vector UInt8 64 := zeroed 64
  length : UInt8 := 0
deriving DecidableEq, Repr

structure OsdpCmdFileTx where
  id : Int32 := 0
  flags : UInt32 := 0
deriving DecidableEq, Repr

structure OsdpStatusReport where
  type : UInt8 := 0
  nrEntries : Int32 := 0
  report : Vector UInt8 64 := zeroed 64
deriving DecidableEq, Repr

structure OsdpCmdBioread where
  reader : UInt8 := 0
  type : UInt8 := 0
  format : UInt8 := 0
  quality : UInt8 := 0
deriving DecidableEq, Repr

structure OsdpCmdBiomatch where
  reader : UInt8 := 0
  type : UInt8 := 0
  format : UInt8 := 0
  quality : UInt8 := 0
  length : UInt16 := 0
  data : Vector UInt8 128 := zeroed 128
deriving DecidableEq, Repr

structure OsdpCmdTdset where
  year : UInt16 := 0
  month : UInt8 := 0
  day : UInt8 := 0
  hour : UInt8 := 0
  minute : UInt8 := 0
  second : UInt8 := 0
deriving DecidableEq, Repr

structure OsdpCmdPivdata where
  oid : Vector UInt8 3 := zeroed 3
  element : UInt8 := 0
  offset : UInt8 := 0
deriving DecidableEq, Repr

structure OsdpCmdAuth where
  algorithm : UInt8 := 0
  key : UInt8 := 0
  length : UInt16 := 0
  data : Vector UInt8 256 := zeroed 256
deriving DecidableEq, Repr

structure OsdpTrsApdu where
  length : UInt16 := 0
  data : Vector UInt8 258 := zeroed 258
deriving DecidableEq, Repr

/-- `osdp_trs_pin_entry__bindgen_ty_1`. -/
structure OsdpTrsPinBlock where
  format : UInt8 := 0
  rightJustify : Bool := false
  offsetBits : UInt16 := 0
  sizeBytes : UInt8 := 0
deriving DecidableEq, Repr

/-- `osdp_trs_pin_entry__bindgen_ty_2`. -/
structure OsdpTrsPinLengthField where
  sizeBits : UInt8 := 0
  offsetBits : UInt16 := 0
deriving DecidableEq, Repr

structure OsdpTrsPinEntry where
  timeoutInitial : UInt8 := 0
  timeoutDigit : UInt8 := 0
  pinBlock : OsdpTrsPinBlock := {}
  pinLengthField : OsdpTrsPinLengthField := {}
  minDigits : UInt8 := 0
  maxDigits : UInt8 := 0
  completeOn : UInt32 := 0
  numMessages : UInt8 := 0
  languageId : UInt16 := 0
  msgIndex : UInt8 := 0
  teoPrologue : Vector UInt8 3 := zeroed 3
  apdu : OsdpTrsApdu := {}
deriving DecidableEq, Repr

/-- The union of `osdp_trs_cmd`. -/
structure OsdpTrsCmdPayload where
  apdu : OsdpTrsApdu := {}
  pinEntry : OsdpTrsPinEntry := {}
deriving DecidableEq, Repr

structure OsdpTrsCmd where
  command : UInt8 := 0
  payload : OsdpTrsCmdPayload := {}
deriving DecidableEq, Repr

/-- The union of `osdp_cmd`. -/
structure OsdpCmdPayload where
  led : OsdpCmdLed := {}
  buzzer : OsdpCmdBuzzer := {}
  text : OsdpCmdText := {}
  output : OsdpCmdOutput := {}
  comset : OsdpCmdComset := {}
  keyset : OsdpCmdKeyset := {}
  mfg : OsdpCmdMfg := {}
  fileTx : OsdpCmdFileTx := {}
  status : OsdpStatusReport := {}
  notif : OsdpNotification := {}
  bioread : OsdpCmdBioread := {}
  biomatch : OsdpCmdBiomatch := {}
  tdset : OsdpCmdTdset := {}
  pivdata : OsdpCmdPivdata := {}
  auth : OsdpCmdAuth := {}
  trs : OsdpTrsCmd := {}
deriving DecidableEq, Repr

structure OsdpCmd where
  id : UInt8 := 0
  flags : UInt32 := 0
  payload : OsdpCmdPayload := {}
deriving DecidableEq, Repr

end LibOsdp.Sys
