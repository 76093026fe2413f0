import LibOsdp.Codec.Payload
import LibOsdp.Sys.Command

/-!
# Setup commands

Communication parameters, keys, manufacturer data, file transfers and the clock: the commands
whose fields travel as they are, beside at most one length-prefixed payload.
-/

set_option autoImplicit false

namespace LibOsdp

open Base Sys

/-- `commands.rs`: communication parameters of a PD. -/
structure ComSet where
  address : UInt8
  baudRate : UInt32
deriving DecidableEq, Repr

/-- `From<osdp_cmd_comset> for ComSet`. -/
def ComSet.fromRaw (value : OsdpCmdComset) : ComSet :=
  { address := value.address, baudRate := value.baudRate }

/-- `From<ComSet> for osdp_cmd_comset`. -/
def ComSet.intoRaw (value : ComSet) : OsdpCmdComset :=
  { address := value.address, baudRate := value.baudRate }

/-- `commands.rs`: command to set secure channel keys. -/
structure KeySetCommand where
  keyType : UInt8
  data : List UInt8
deriving DecidableEq, Repr

namespace KeySetCommand

/-- `TryFrom<osdp_cmd_keyset> for KeySetCommand`. -/
def tryFrom (value : OsdpCmdKeyset) : Res KeySetCommand := do
  let data ← slice value.data value.length.toNat "key length"
  return { keyType := value.type, data }

/-- `TryFrom<KeySetCommand> for osdp_cmd_keyset`. -/
def tryInto (value : KeySetCommand) : Res OsdpCmdKeyset := do
  let data ← copyInto OSDP_CMD_KEYSET_KEY_MAX_LEN value.data
  return { type := value.keyType, length := UInt8.ofNat value.data.length, data }

theorem round_trip {value : KeySetCommand} {raw : OsdpCmdKeyset} (h : value.tryInto = .ok raw) :
    tryFrom raw = .ok value := by
  obtain ⟨data, hdata, rfl⟩ := bind_pure_eq_ok.1 h
  simp only [tryFrom, slice_copyInto hdata (toNat_len8 hdata (by decide)), ok_bind, pure_eq_ok]

theorem tryFrom_decides (raw : OsdpCmdKeyset) :
    Decides Fault.Malformed (raw.length.toNat ≤ OSDP_CMD_KEYSET_KEY_MAX_LEN) (tryFrom raw) :=
  (slice_decides raw.data raw.length.toNat _).bind_ok

theorem data_of_tryFrom {raw : OsdpCmdKeyset} {value : KeySetCommand}
    (h : tryFrom raw = .ok value) : value.data = raw.data.toList.take raw.length.toNat := by
  obtain ⟨-, rfl⟩ := slice_bind_pure_eq_ok.1 h
  rfl

theorem tryInto_decides (value : KeySetCommand) :
    Decides Fault.Refused (value.data.length ≤ OSDP_CMD_KEYSET_KEY_MAX_LEN) value.tryInto :=
  (copyInto_decides _ value.data).bind_ok

end KeySetCommand

/-- `commands.rs`: wrapper for manufacturer specific commands. -/
structure MfgCommand where
  vendorCode : UInt8 × UInt8 × UInt8
  data : List UInt8
deriving DecidableEq, Repr

namespace MfgCommand

/-- `TryFrom<osdp_cmd_mfg> for MfgCommand`. -/
def tryFrom (value : OsdpCmdMfg) : Res MfgCommand := do
  let data ← slice value.data value.length.toNat "manufacturer command length"
  return { vendorCode := leBytes3 value.vendorCode, data }

/-- `TryFrom<MfgCommand> for osdp_cmd_mfg`. -/
def tryInto (value : MfgCommand) : Res OsdpCmdMfg := do
  let data ← copyInto OSDP_CMD_MFG_MAX_DATALEN value.data
  return { vendorCode := asLe value.vendorCode, length := UInt8.ofNat value.data.length, data }

theorem round_trip {value : MfgCommand} {raw : OsdpCmdMfg} (h : value.tryInto = .ok raw) :
    tryFrom raw = .ok value := by
  obtain ⟨data, hdata, rfl⟩ := bind_pure_eq_ok.1 h
  simp only [tryFrom, slice_copyInto hdata (toNat_len8 hdata (by decide)), leBytes3_asLe, ok_bind,
    pure_eq_ok]

theorem tryFrom_decides (raw : OsdpCmdMfg) :
    Decides Fault.Malformed (raw.length.toNat ≤ OSDP_CMD_MFG_MAX_DATALEN) (tryFrom raw) :=
  (slice_decides raw.data raw.length.toNat _).bind_ok

theorem data_of_tryFrom {raw : OsdpCmdMfg} {value : MfgCommand} (h : tryFrom raw = .ok value) :
    value.data = raw.data.toList.take raw.length.toNat := by
  obtain ⟨-, rfl⟩ := slice_bind_pure_eq_ok.1 h
  rfl

theorem tryInto_decides (value : MfgCommand) :
    Decides Fault.Refused (value.data.length ≤ OSDP_CMD_MFG_MAX_DATALEN) value.tryInto :=
  (copyInto_decides _ value.data).bind_ok

end MfgCommand

/-- `commands.rs`: command to kick off a file transfer. -/
structure FileTxCommand where
  id : Int32
deriving DecidableEq, Repr

/-- `From<osdp_cmd_file_tx> for FileTxCommand`. -/
def FileTxCommand.fromRaw (value : OsdpCmdFileTx) : FileTxCommand := { id := value.id }

/-- `From<FileTxCommand> for osdp_cmd_file_tx`. -/
def FileTxCommand.intoRaw (value : FileTxCommand) : OsdpCmdFileTx := { id := value.id, flags := 0 }

/-- `commands.rs`: set a PD's local date and time. -/
structure TimeDateCommand where
  year : UInt16
  month : UInt8
  day : UInt8
  hour : UInt8
  minute : UInt8
  second : UInt8
deriving DecidableEq, Repr

namespace TimeDateCommand

/-- `From<osdp_cmd_tdset> for TimeDateCommand`: the fields are taken as they come. -/
def fromRaw (value : OsdpCmdTdset) : TimeDateCommand where
  year := value.year
  month := value.month
  day := value.day
  hour := value.hour
  minute := value.minute
  second := value.second

/-- The fields are in range; only the sender checks them. -/
def InRange (value : TimeDateCommand) : Prop :=
  1 ≤ value.month ∧ value.month ≤ 12 ∧ 1 ≤ value.day ∧ value.day ≤ 31 ∧
    value.hour ≤ 23 ∧ value.minute ≤ 59 ∧ value.second ≤ 59

instance (value : TimeDateCommand) : Decidable value.InRange :=
  inferInstanceAs (Decidable (_ ∧ _))

/-- `TryFrom<TimeDateCommand> for osdp_cmd_tdset`. -/
def tryInto (value : TimeDateCommand) : Res OsdpCmdTdset :=
  if ¬ value.InRange then invalidArgument "date or time out of range"
  else .ok {
    year := value.year
    month := value.month
    day := value.day
    hour := value.hour
    minute := value.minute
    second := value.second }

theorem round_trip {value : TimeDateCommand} {raw : OsdpCmdTdset} (h : value.tryInto = .ok raw) :
    fromRaw raw = value := by
  unfold tryInto at h
  split at h
  · cases h
  · cases h
    rfl

theorem tryInto_decides (value : TimeDateCommand) :
    Decides Fault.Refused value.InRange value.tryInto := by
  by_cases h : value.InRange
  · rw [tryInto, if_neg (fun hn => hn h)]
    exact h
  · rw [tryInto, if_pos h]
    exact ⟨h, trivial⟩

end TimeDateCommand

end LibOsdp
