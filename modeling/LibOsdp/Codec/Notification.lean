import LibOsdp.Codec.PdId
import LibOsdp.Sys.Notification

/-!
# Notifications

What LibOSDP observes about a link, as opposed to what a peer sends over it. Notifications are
only ever decoded.
-/

set_option autoImplicit false

namespace LibOsdp

open Base Sys

/-- `notification.rs`: kinds of multi-part operation. -/
inductive MpKind where
  | fileTransfer | piv | genAuth | crAuth | bioRead
deriving DecidableEq, Repr

namespace MpKind

/-- `MpKind::as_c`. -/
def asC : MpKind → UInt8
  | fileTransfer => OSDP_MP_MSG_FILE_TRANSFER
  | piv => OSDP_MP_MSG_PIV
  | genAuth => OSDP_MP_MSG_GENAUTH
  | crAuth => OSDP_MP_MSG_CRAUTH
  | bioRead => OSDP_MP_MSG_BIOREAD

/-- `TryFrom<osdp_mp_msg_type> for MpKind`. -/
def tryFrom (value : UInt8) : Res MpKind :=
  if value = OSDP_MP_MSG_FILE_TRANSFER then .ok fileTransfer
  else if value = OSDP_MP_MSG_PIV then .ok piv
  else if value = OSDP_MP_MSG_GENAUTH then .ok genAuth
  else if value = OSDP_MP_MSG_CRAUTH then .ok crAuth
  else if value = OSDP_MP_MSG_BIOREAD then .ok bioRead
  else malformed "multi-part kind"

/-- The kind a cancel names is the kind LibOSDP reports the operation under. -/
@[simp] theorem tryFrom_asC (kind : MpKind) : tryFrom kind.asC = .ok kind := by
  cases kind <;> rfl

end MpKind

/-- `notification.rs`: how a multi-part operation ended. -/
inductive MpOutcome where
  | ok | okRebooting | aborted | unrecognized | invalid
deriving DecidableEq, Repr

/-- `TryFrom<osdp_mp_outcome> for MpOutcome`. -/
def MpOutcome.tryFrom (value : UInt8) : Res MpOutcome :=
  if value = OSDP_MP_OUTCOME_OK then .ok ok
  else if value = OSDP_MP_OUTCOME_OK_REBOOTING then .ok okRebooting
  else if value = OSDP_MP_OUTCOME_ABORTED then .ok aborted
  else if value = OSDP_MP_OUTCOME_UNRECOGNIZED then .ok unrecognized
  else if value = OSDP_MP_OUTCOME_INVALID then .ok invalid
  else malformed "multi-part outcome"

/-- `From<MpOutcome> for osdp_mp_outcome`. -/
def MpOutcome.intoRaw : MpOutcome → UInt8
  | ok => OSDP_MP_OUTCOME_OK
  | okRebooting => OSDP_MP_OUTCOME_OK_REBOOTING
  | aborted => OSDP_MP_OUTCOME_ABORTED
  | unrecognized => OSDP_MP_OUTCOME_UNRECOGNIZED
  | invalid => OSDP_MP_OUTCOME_INVALID

/-- `notification.rs`: where a multi-part operation is in its life. -/
inductive MpPhase where
  | start
  | progress
  | done (outcome : MpOutcome)
deriving DecidableEq, Repr

/-- `notification.rs`: progress of a multi-part operation. -/
structure Multipart where
  kind : MpKind
  phase : MpPhase
  objectId : Int32
  offset : UInt32
  total : UInt32
deriving DecidableEq, Repr

/-- `notification.rs`: the state of a transparent reader card session. -/
inductive TrsSessionStatus where
  | opened | closed | failed | scanSuspended | scanNoDeparture
deriving DecidableEq, Repr

/-- `TryFrom<osdp_trs_session_status_e> for TrsSessionStatus`. -/
def TrsSessionStatus.tryFrom (value : UInt8) : Res TrsSessionStatus :=
  if value = OSDP_TRS_SESSION_OPENED then .ok opened
  else if value = OSDP_TRS_SESSION_CLOSED then .ok closed
  else if value = OSDP_TRS_SESSION_FAILED then .ok failed
  else if value = OSDP_TRS_SCAN_SUSPENDED then .ok scanSuspended
  else if value = OSDP_TRS_SCAN_NO_DEPARTURE then .ok scanNoDeparture
  else malformed "TRS session status"

/-- `notification.rs`: something LibOSDP observed about a link. -/
inductive Notification where
  | scStatus (active scbkD : Bool)
  | pdStatus (online : Bool)
  | multipart (multipart : Multipart)
  | pdId (id : PdId)
  | trsStatus (status : TrsSessionStatus)
deriving DecidableEq, Repr

namespace Notification

/-- The closure `multipart` of the decoder. -/
def multipartOf (mp : OsdpMpNotification) (phase : MpPhase) : Res Notification := do
  let kind ← MpKind.tryFrom mp.mpType
  return multipart { kind, phase, objectId := mp.objectId, offset := mp.offset, total := mp.total }

/-- `TryFrom<osdp_notification> for Notification`. -/
def tryFrom (value : OsdpNotification) : Res Notification :=
  let payload := value.payload
  if value.type = OSDP_NOTIFICATION_SC_STATUS then
    .ok (scStatus payload.scStatus.active payload.scStatus.scbkD)
  else if value.type = OSDP_NOTIFICATION_PD_STATUS then .ok (pdStatus payload.pdStatus.online)
  else if value.type = OSDP_NOTIFICATION_MP_START then multipartOf payload.mp .start
  else if value.type = OSDP_NOTIFICATION_MP_PROGRESS then multipartOf payload.mp .progress
  else if value.type = OSDP_NOTIFICATION_MP_DONE then do
    let outcome ← MpOutcome.tryFrom payload.mp.outcome
    multipartOf payload.mp (.done outcome)
  else if value.type = OSDP_NOTIFICATION_PD_ID then .ok (pdId (.fromRaw payload.pdId))
  else if value.type = OSDP_NOTIFICATION_TRS_STATUS then do
    let status ← TrsSessionStatus.tryFrom payload.trsStatus.status
    return trsStatus status
  else malformed "notification type"

end Notification

end LibOsdp
