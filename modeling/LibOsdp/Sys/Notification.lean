/-!
# LibOSDP's notification struct

What LibOSDP observes about a link, in one struct that travels as an event to a CP's
application and as a command to a PD's.
-/

set_option autoImplicit false

namespace LibOsdp.Sys

@[simp] abbrev OSDP_NOTIFICATION_SC_STATUS : UInt8 := 0
@[simp] abbrev OSDP_NOTIFICATION_PD_STATUS : UInt8 := 1
@[simp] abbrev OSDP_NOTIFICATION_MP_START : UInt8 := 2
@[simp] abbrev OSDP_NOTIFICATION_MP_PROGRESS : UInt8 := 3
@[simp] abbrev OSDP_NOTIFICATION_MP_DONE : UInt8 := 4
@[simp] abbrev OSDP_NOTIFICATION_PD_ID : UInt8 := 5
@[simp] abbrev OSDP_NOTIFICATION_TRS_STATUS : UInt8 := 6

@[simp] abbrev OSDP_MP_MSG_FILE_TRANSFER : UInt8 := 1
@[simp] abbrev OSDP_MP_MSG_PIV : UInt8 := 2
@[simp] abbrev OSDP_MP_MSG_GENAUTH : UInt8 := 3
@[simp] abbrev OSDP_MP_MSG_CRAUTH : UInt8 := 4
@[simp] abbrev OSDP_MP_MSG_BIOREAD : UInt8 := 5

@[simp] abbrev OSDP_MP_OUTCOME_OK : UInt8 := 0
@[simp] abbrev OSDP_MP_OUTCOME_OK_REBOOTING : UInt8 := 1
@[simp] abbrev OSDP_MP_OUTCOME_ABORTED : UInt8 := 2
@[simp] abbrev OSDP_MP_OUTCOME_UNRECOGNIZED : UInt8 := 3
@[simp] abbrev OSDP_MP_OUTCOME_INVALID : UInt8 := 4

@[simp] abbrev OSDP_TRS_SESSION_OPENED : UInt8 := 0
@[simp] abbrev OSDP_TRS_SESSION_CLOSED : UInt8 := 1
@[simp] abbrev OSDP_TRS_SESSION_FAILED : UInt8 := 2
@[simp] abbrev OSDP_TRS_SCAN_SUSPENDED : UInt8 := 3
@[simp] abbrev OSDP_TRS_SCAN_NO_DEPARTURE : UInt8 := 4

structure OsdpPdId where
  version : Int32 := 0
  model : Int32 := 0
  vendorCode : UInt32 := 0
  serialNumber : UInt32 := 0
  firmwareVersion : UInt32 := 0
deriving DecidableEq, Repr

structure OsdpNotificationScStatus where
  active : Bool := false
  scbkD : Bool := false
deriving DecidableEq, Repr

structure OsdpNotificationPdStatus where
  online : Bool := false
deriving DecidableEq, Repr

structure OsdpMpNotification where
  mpType : UInt8 := 0
  objectId : Int32 := 0
  total : UInt32 := 0
  offset : UInt32 := 0
  outcome : UInt8 := 0
deriving DecidableEq, Repr

structure OsdpNotificationTrsStatus where
  status : UInt8 := 0
deriving DecidableEq, Repr

/-- The union of `osdp_notification`. -/
structure OsdpNotificationPayload where
  scStatus : OsdpNotificationScStatus := {}
  pdStatus : OsdpNotificationPdStatus := {}
  mp : OsdpMpNotification := {}
  pdId : OsdpPdId := {}
  trsStatus : OsdpNotificationTrsStatus := {}
deriving DecidableEq, Repr

structure OsdpNotification where
  type : UInt8 := 0
  payload : OsdpNotificationPayload := {}
deriving DecidableEq, Repr

end LibOsdp.Sys
