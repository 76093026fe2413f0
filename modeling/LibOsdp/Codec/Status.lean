import LibOsdp.Codec.Payload
import LibOsdp.Sys.Command

/-!
# Status queries and reports

One struct carries both: a query sets only its type, a report also one entry per entity. A
report counts its entries in a C int, so the decoder meets negative counts too.
-/

set_option autoImplicit false

namespace LibOsdp

open Base Sys

/-- `status.rs`: which status a CP asks a PD for. -/
inductive StatusKind where
  | input | output | local | reader
deriving DecidableEq, Repr

namespace StatusKind

/-- `TryFrom<osdp_status_report_type> for StatusKind`. -/
def tryFrom (value : UInt8) : Res StatusKind :=
  if value = OSDP_STATUS_REPORT_INPUT then .ok input
  else if value = OSDP_STATUS_REPORT_OUTPUT then .ok output
  else if value = OSDP_STATUS_REPORT_LOCAL then .ok «local»
  else if value = OSDP_STATUS_REPORT_READER then .ok reader
  else malformed "status report type"

/-- `From<StatusKind> for osdp_status_report_type`. -/
def intoType : StatusKind → UInt8
  | input => OSDP_STATUS_REPORT_INPUT
  | output => OSDP_STATUS_REPORT_OUTPUT
  | «local» => OSDP_STATUS_REPORT_LOCAL
  | reader => OSDP_STATUS_REPORT_READER

/-- `From<StatusKind> for osdp_status_report`: a query. -/
def intoRaw (value : StatusKind) : OsdpStatusReport :=
  { type := value.intoType, nrEntries := 0, report := zeroed OSDP_STATUS_REPORT_MAX_LEN }

/-- The report types. -/
def codes : List UInt8 :=
  [OSDP_STATUS_REPORT_INPUT, OSDP_STATUS_REPORT_OUTPUT, OSDP_STATUS_REPORT_LOCAL,
    OSDP_STATUS_REPORT_READER]

@[simp] theorem tryFrom_intoType (value : StatusKind) : tryFrom value.intoType = .ok value := by
  cases value <;> rfl

theorem intoType_of_tryFrom {byte : UInt8} {value : StatusKind} (h : tryFrom byte = .ok value) :
    value.intoType = byte := by
  unfold tryFrom at h
  split at h
  · rename_i hbyte
    cases h
    exact hbyte.symm
  split at h
  · rename_i hbyte
    cases h
    exact hbyte.symm
  split at h
  · rename_i hbyte
    cases h
    exact hbyte.symm
  split at h
  · rename_i hbyte
    cases h
    exact hbyte.symm
  · cases h

theorem tryFrom_decides (value : UInt8) :
    Decides Fault.Malformed (value ∈ codes) (tryFrom value) := by
  refine ((Decides.ok _).orElse <| (Decides.ok _).orElse <| (Decides.ok _).orElse <|
    (Decides.ok _).orElse <| malformed_decides _).congr ?_
  simp [codes]

theorem tryFrom_local {value : UInt8} :
    tryFrom value = .ok «local» ↔ value = OSDP_STATUS_REPORT_LOCAL := by
  unfold tryFrom
  split
  · simp_all
  · split
    · simp_all
    · split
      · simp_all
      · split <;> simp_all

end StatusKind

/-- `status.rs`: the state of a reader attached to a PD. -/
inductive ReaderStatus where
  | normal | notConnected | tamper
  | unknown (other : UInt8)
deriving DecidableEq, Repr

namespace ReaderStatus

/-- `From<u8> for ReaderStatus`. -/
def ofU8 (value : UInt8) : ReaderStatus :=
  if value = 0 then normal
  else if value = 1 then notConnected
  else if value = 2 then tamper
  else unknown value

/-- `From<ReaderStatus> for u8`. -/
def toU8 : ReaderStatus → UInt8
  | normal => 0
  | notConnected => 1
  | tamper => 2
  | unknown other => other

/-- The reader states as a partly named byte. -/
def byteEnum : ByteEnum ReaderStatus where
  named := [normal, notConnected, tamper]
  code := toU8
  other := unknown

/-- A reader state with its byte's name, where the byte has one. -/
def norm : ReaderStatus → ReaderStatus
  | unknown other => byteEnum.value other
  | status => status

theorem ofU8_eq_value (b : UInt8) : ofU8 b = byteEnum.value b := by
  refine ByteEnum.eq_value (by decide) (fun b hb => ?_) b
  simp only [byteEnum, List.forall_mem_cons, toU8, ne_comm (b := b)] at hb
  simp [ofU8, byteEnum, hb]

@[simp] theorem ofU8_toU8 (status : ReaderStatus) : ofU8 status.toU8 = status.norm := by
  cases status with
  | unknown other => exact ofU8_eq_value other
  | _ => rfl

@[simp] theorem toU8_ofU8 (b : UInt8) : (ofU8 b).toU8 = b := by
  rw [ofU8_eq_value]
  show byteEnum.code (byteEnum.value b) = b
  exact ByteEnum.code_value (fun _ => rfl) b

/-- A reader state read from a byte is under its name already. -/
@[simp] theorem norm_ofU8 (b : UInt8) : (ofU8 b).norm = ofU8 b := by
  rw [← ofU8_toU8, toU8_ofU8]

end ReaderStatus

/-- `status.rs`: a PD's status of one kind, one entry per entity. -/
inductive Status where
  | input (entries : List UInt8)
  | output (entries : List UInt8)
  | local (tamper power : Bool)
  | reader (readers : List ReaderStatus)
deriving DecidableEq, Repr

namespace Status

/-- `Status::kind`. -/
def kind : Status → StatusKind
  | input _ => .input
  | output _ => .output
  | «local» _ _ => .local
  | reader _ => .reader

/-- The match on the kind in `TryFrom<osdp_status_report> for Status`. -/
def ofEntries (kind : StatusKind) (entries : List UInt8) : Res Status :=
  match kind with
  | .input => .ok (input entries)
  | .output => .ok (output entries)
  | .local =>
    match entries with
    | [tamper, power] => .ok («local» (tamper != 0) (power != 0))
    | _ => malformed "status entry count"
  | .reader => .ok (reader (entries.map ReaderStatus.ofU8))

/-- `TryFrom<osdp_status_report> for Status`. -/
def tryFrom (value : OsdpStatusReport) : Res Status := do
  let entries ← sliceInt value.report value.nrEntries "status entry count"
  let kind ← StatusKind.tryFrom value.type
  ofEntries kind entries

/-- The entries in `TryFrom<Status> for osdp_status_report`. -/
def entries : Status → List UInt8
  | input entries => entries
  | output entries => entries
  | «local» tamper power => [tamper.toUInt8, power.toUInt8]
  | reader readers => readers.map ReaderStatus.toU8

/-- `TryFrom<Status> for osdp_status_report`. -/
def tryInto (value : Status) : Res OsdpStatusReport := do
  let kind := value.kind
  let entries := value.entries
  let report ← copyInto OSDP_STATUS_REPORT_MAX_LEN entries
  return { type := kind.intoType, nrEntries := Int32.ofNat entries.length, report }

def norm : Status → Status
  | reader readers => reader (readers.map ReaderStatus.norm)
  | status => status

theorem ofEntries_entries (value : Status) : ofEntries value.kind value.entries = .ok value.norm := by
  cases value with
  | input entries => rfl
  | output entries => rfl
  | «local» tamper power => cases tamper <;> cases power <;> rfl
  | reader readers =>
    simp only [kind, entries, ofEntries, norm, List.map_map]
    congr 3
    funext status
    exact ReaderStatus.ofU8_toU8 status

theorem round_trip {value : Status} {raw : OsdpStatusReport} (h : value.tryInto = .ok raw) :
    tryFrom raw = .ok value.norm := by
  obtain ⟨report, hreport, rfl⟩ := bind_pure_eq_ok.1 h
  simp only [tryFrom, sliceInt_copyInto hreport (by decide), StatusKind.tryFrom_intoType, ok_bind,
    ofEntries_entries]

/-- Only a local status constrains how many entries it has. -/
theorem ofEntries_decides (kind : StatusKind) (entries : List UInt8) :
    Decides Fault.Malformed (kind = .local → entries.length = 2) (ofEntries kind entries) := by
  cases kind with
  | input => exact (Decides.ok _).congr (by simp)
  | output => exact (Decides.ok _).congr (by simp)
  | reader => exact (Decides.ok _).congr (by simp)
  | «local» =>
    match entries with
    | [tamper, power] => exact (Decides.ok _).congr (by simp)
    | [] => exact (malformed_decides _).congr (by simp)
    | [_] => exact (malformed_decides _).congr (by simp)
    | _ :: _ :: _ :: _ => exact (malformed_decides _).congr (by simp)

theorem tryFrom_decides (raw : OsdpStatusReport) :
    Decides Fault.Malformed
      ((0 ≤ raw.nrEntries.toInt ∧ raw.nrEntries.toInt ≤ OSDP_STATUS_REPORT_MAX_LEN) ∧
        raw.type ∈ StatusKind.codes ∧
        (raw.type = OSDP_STATUS_REPORT_LOCAL → raw.nrEntries.toInt = 2)) (tryFrom raw) := by
  refine (sliceInt_decides raw.report raw.nrEntries _).bind fun entries hentries =>
    (StatusKind.tryFrom_decides raw.type).bind fun kind hkind => ?_
  obtain ⟨h0, hmax, rfl⟩ := sliceInt_eq_ok.1 hentries
  refine (ofEntries_decides kind _).congr ?_
  rw [← StatusKind.tryFrom_local, hkind, Except.ok.injEq, List.length_take, Vector.length_toList]
  refine imp_congr_right fun _ => ?_
  omega

/-- `value` is a reading of these entries: byte for byte, or flag for byte for a local status. -/
def Carries (value : Status) (entries : List UInt8) : Prop :=
  match value with
  | input bytes => bytes = entries
  | output bytes => bytes = entries
  | «local» tamper power => [tamper, power] = entries.map (· != 0)
  | reader readers => readers.map ReaderStatus.toU8 = entries

/-- A local status is read from its two entries, as flags. -/
theorem ofEntries_local {entries : List UInt8} {value : Status}
    (h : ofEntries .local entries = .ok value) :
    ∃ tamper power, entries = [tamper, power] ∧ value = «local» (tamper != 0) (power != 0) := by
  match entries, h with
  | [tamper, power], h =>
    cases h
    exact ⟨tamper, power, rfl, rfl⟩

theorem carries_ofEntries {kind : StatusKind} {entries : List UInt8} {value : Status}
    (h : ofEntries kind entries = .ok value) : value.Carries entries := by
  cases kind with
  | input => cases h; rfl
  | output => cases h; rfl
  | reader =>
    cases h
    simp only [Carries, List.map_map]
    exact List.map_id'' ReaderStatus.toU8_ofU8 entries
  | «local» =>
    obtain ⟨tamper, power, rfl, rfl⟩ := ofEntries_local h
    rfl

theorem carries_of_tryFrom {raw : OsdpStatusReport} {value : Status} (h : tryFrom raw = .ok value) :
    value.Carries (raw.report.toList.take raw.nrEntries.toInt.toNat) := by
  simp only [tryFrom, bind_eq_ok, sliceInt_eq_ok] at h
  obtain ⟨entries, ⟨-, -, rfl⟩, kind, -, h⟩ := h
  exact carries_ofEntries h

theorem tryInto_decides (value : Status) :
    Decides Fault.Refused (value.entries.length ≤ OSDP_STATUS_REPORT_MAX_LEN) value.tryInto :=
  (copyInto_decides _ value.entries).bind_ok

end Status

end LibOsdp
