import LibOsdp.Codec.Payload
import LibOsdp.Sys.Event

/-!
# Smart card requests and replies

PIV data requests, challenges, and the reply that answers either. The sender refuses an empty
challenge or reply; the receiver takes one.
-/

set_option autoImplicit false

namespace LibOsdp

open Base Sys

/-- `to_payload`: refuse `data` when it is empty or too long. -/
def toPayload (data : List UInt8) (what : String) : Res (UInt16 × Vector UInt8 256) :=
  if data.isEmpty then invalidArgument what
  else do
    let buf ← copyInto OSDP_PIV_DATA_MAX_LEN data
    return (UInt16.ofNat data.length, buf)

theorem toPayload_decides (data : List UInt8) (what : String) :
    Decides Fault.Refused (1 ≤ data.length ∧ data.length ≤ OSDP_PIV_DATA_MAX_LEN)
      (toPayload data what) := by
  unfold toPayload
  cases data with
  | nil => exact ⟨by simp, trivial⟩
  | cons b data => exact (copyInto_decides _ _).bind_ok.congr (by simp)

/-- What `to_payload` produces: the exact length, beside the payload in its buffer. -/
theorem toPayload_eq_ok {data : List UInt8} {what : String} {length : UInt16}
    {buf : Vector UInt8 256} (h : toPayload data what = .ok (length, buf)) :
    length.toNat = data.length ∧ copyInto 256 data = .ok buf := by
  unfold toPayload at h
  split at h
  · cases h
  · simp only [bind_eq_ok, pure_eq_ok, Except.ok.injEq, Prod.mk.injEq] at h
    obtain ⟨buf, hbuf, rfl, rfl⟩ := h
    exact ⟨toNat_len16 hbuf (by decide), hbuf⟩

theorem toPayload_spec {data : List UInt8} {what : String} {length : UInt16}
    {buf : Vector UInt8 256} (h : toPayload data what = .ok (length, buf)) (what' : String) :
    slice buf length.toNat what' = .ok data := by
  obtain ⟨hlength, hbuf⟩ := toPayload_eq_ok h
  exact slice_copyInto hbuf hlength

/-- `piv.rs`: ask a PD's smart card for a PIV data object. -/
structure PivRequest where
  objectId : Vector UInt8 3
  element : UInt8
  offset : UInt8
deriving DecidableEq, Repr

/-- `From<osdp_cmd_pivdata> for PivRequest`. -/
def PivRequest.fromRaw (value : OsdpCmdPivdata) : PivRequest :=
  { objectId := value.oid, element := value.element, offset := value.offset }

/-- `From<PivRequest> for osdp_cmd_pivdata`. -/
def PivRequest.intoRaw (value : PivRequest) : OsdpCmdPivdata :=
  { oid := value.objectId, element := value.element, offset := value.offset }

/-- `piv.rs`: a cryptographic challenge for a PD's smart card. -/
structure Challenge where
  algorithm : UInt8
  key : UInt8
  data : List UInt8
deriving DecidableEq, Repr

namespace Challenge

/-- `TryFrom<osdp_cmd_auth> for Challenge`. -/
def tryFrom (value : OsdpCmdAuth) : Res Challenge := do
  let data ← slice value.data value.length.toNat "challenge length"
  return { algorithm := value.algorithm, key := value.key, data }

/-- `TryFrom<Challenge> for osdp_cmd_auth`. -/
def tryInto (value : Challenge) : Res OsdpCmdAuth := do
  let (length, data) ← toPayload value.data "challenge is empty"
  return { algorithm := value.algorithm, key := value.key, length, data }

theorem round_trip {value : Challenge} {raw : OsdpCmdAuth} (h : value.tryInto = .ok raw) :
    tryFrom raw = .ok value := by
  obtain ⟨⟨length, data⟩, hpayload, rfl⟩ := bind_pure_eq_ok.1 h
  simp only [tryFrom, toPayload_spec hpayload, ok_bind, pure_eq_ok]

theorem tryFrom_decides (raw : OsdpCmdAuth) :
    Decides Fault.Malformed (raw.length.toNat ≤ OSDP_PIV_DATA_MAX_LEN) (tryFrom raw) :=
  (slice_decides raw.data raw.length.toNat _).bind_ok

theorem data_of_tryFrom {raw : OsdpCmdAuth} {value : Challenge} (h : tryFrom raw = .ok value) :
    value.data = raw.data.toList.take raw.length.toNat := by
  obtain ⟨-, rfl⟩ := slice_bind_pure_eq_ok.1 h
  rfl

theorem tryInto_decides (value : Challenge) :
    Decides Fault.Refused (1 ≤ value.data.length ∧ value.data.length ≤ OSDP_PIV_DATA_MAX_LEN)
      value.tryInto :=
  (toPayload_decides value.data _).bind_ok

theorem holds_of_tryInto {value : Challenge} {raw : OsdpCmdAuth} (h : value.tryInto = .ok raw) :
    (PayloadField.of raw.length.toNat raw.data).Holds value.data.length value.data := by
  obtain ⟨⟨length, data⟩, hpayload, rfl⟩ := bind_pure_eq_ok.1 h
  obtain ⟨hlength, hdata⟩ := toPayload_eq_ok hpayload
  exact PayloadField.of_holds_copyInto hdata hlength

end Challenge

/-- `piv.rs`: a smart card's answer to a `PivRequest` or a `Challenge`. -/
structure PivReply where
  data : List UInt8
deriving DecidableEq, Repr

namespace PivReply

/-- `TryFrom<osdp_event_piv_reply> for PivReply`. -/
def tryFrom (value : OsdpEventPivReply) : Res PivReply := do
  let data ← slice value.data value.length.toNat "PIV reply length"
  return { data }

/-- `TryFrom<PivReply> for osdp_event_piv_reply`. -/
def tryInto (value : PivReply) : Res OsdpEventPivReply := do
  let (length, data) ← toPayload value.data "PIV reply is empty"
  return { length, data }

theorem round_trip {value : PivReply} {raw : OsdpEventPivReply} (h : value.tryInto = .ok raw) :
    tryFrom raw = .ok value := by
  obtain ⟨⟨length, data⟩, hpayload, rfl⟩ := bind_pure_eq_ok.1 h
  simp only [tryFrom, toPayload_spec hpayload, ok_bind, pure_eq_ok]

theorem tryFrom_decides (raw : OsdpEventPivReply) :
    Decides Fault.Malformed (raw.length.toNat ≤ OSDP_PIV_DATA_MAX_LEN) (tryFrom raw) :=
  (slice_decides raw.data raw.length.toNat _).bind_ok

theorem data_of_tryFrom {raw : OsdpEventPivReply} {value : PivReply} (h : tryFrom raw = .ok value) :
    value.data = raw.data.toList.take raw.length.toNat := by
  obtain ⟨-, rfl⟩ := slice_bind_pure_eq_ok.1 h
  rfl

theorem tryInto_decides (value : PivReply) :
    Decides Fault.Refused (1 ≤ value.data.length ∧ value.data.length ≤ OSDP_PIV_DATA_MAX_LEN)
      value.tryInto :=
  (toPayload_decides value.data _).bind_ok

theorem holds_of_tryInto {value : PivReply} {raw : OsdpEventPivReply} (h : value.tryInto = .ok raw) :
    (PayloadField.of raw.length.toNat raw.data).Holds value.data.length value.data := by
  obtain ⟨⟨length, data⟩, hpayload, rfl⟩ := bind_pure_eq_ok.1 h
  obtain ⟨hlength, hdata⟩ := toPayload_eq_ok hpayload
  exact PayloadField.of_holds_copyInto hdata hlength

end PivReply

end LibOsdp
