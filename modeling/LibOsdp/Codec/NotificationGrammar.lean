import LibOsdp.Codec.Notification

/-!
# The grammar of notifications

What a notification struct carries, said without the decoder, and which structs carry anything: by
their type and by the codes that a struct of this type holds.
-/

set_option autoImplicit false

namespace LibOsdp

open Base Sys

/-! ## The codes -/

namespace MpKind

def codes : List UInt8 :=
  [OSDP_MP_MSG_FILE_TRANSFER, OSDP_MP_MSG_PIV, OSDP_MP_MSG_GENAUTH, OSDP_MP_MSG_CRAUTH,
    OSDP_MP_MSG_BIOREAD]

theorem tryFrom_decides (value : UInt8) :
    Decides Fault.Malformed (value ∈ codes) (tryFrom value) := by
  refine ((Decides.ok _).orElse <| (Decides.ok _).orElse <| (Decides.ok _).orElse <|
    (Decides.ok _).orElse <| (Decides.ok _).orElse <| malformed_decides _).congr ?_
  simp [codes]

theorem tryFrom_eq_ok {value : UInt8} {kind : MpKind} :
    tryFrom value = .ok kind ↔ value = kind.asC := by
  constructor
  · intro h
    unfold tryFrom at h
    split_ifs at h <;> cases h <;> assumption
  · rintro rfl
    exact tryFrom_asC kind

end MpKind

namespace MpOutcome

def codes : List UInt8 :=
  [OSDP_MP_OUTCOME_OK, OSDP_MP_OUTCOME_OK_REBOOTING, OSDP_MP_OUTCOME_ABORTED,
    OSDP_MP_OUTCOME_UNRECOGNIZED, OSDP_MP_OUTCOME_INVALID]

theorem tryFrom_decides (value : UInt8) :
    Decides Fault.Malformed (value ∈ codes) (tryFrom value) := by
  refine ((Decides.ok _).orElse <| (Decides.ok _).orElse <| (Decides.ok _).orElse <|
    (Decides.ok _).orElse <| (Decides.ok _).orElse <| malformed_decides _).congr ?_
  simp [codes]

theorem tryFrom_eq_ok {value : UInt8} {outcome : MpOutcome} :
    tryFrom value = .ok outcome ↔ value = outcome.intoRaw := by
  constructor
  · intro h
    unfold tryFrom at h
    split_ifs at h <;> cases h <;> assumption
  · rintro rfl
    cases outcome <;> rfl

end MpOutcome

namespace TrsSessionStatus

/-- The code that LibOSDP reports a status with. -/
def code : TrsSessionStatus → UInt8
  | opened => OSDP_TRS_SESSION_OPENED
  | closed => OSDP_TRS_SESSION_CLOSED
  | failed => OSDP_TRS_SESSION_FAILED
  | scanSuspended => OSDP_TRS_SCAN_SUSPENDED
  | scanNoDeparture => OSDP_TRS_SCAN_NO_DEPARTURE

def codes : List UInt8 :=
  [OSDP_TRS_SESSION_OPENED, OSDP_TRS_SESSION_CLOSED, OSDP_TRS_SESSION_FAILED,
    OSDP_TRS_SCAN_SUSPENDED, OSDP_TRS_SCAN_NO_DEPARTURE]

theorem tryFrom_decides (value : UInt8) :
    Decides Fault.Malformed (value ∈ codes) (tryFrom value) := by
  refine ((Decides.ok _).orElse <| (Decides.ok _).orElse <| (Decides.ok _).orElse <|
    (Decides.ok _).orElse <| (Decides.ok _).orElse <| malformed_decides _).congr ?_
  simp [codes]

theorem tryFrom_eq_ok {value : UInt8} {status : TrsSessionStatus} :
    tryFrom value = .ok status ↔ value = status.code := by
  constructor
  · intro h
    unfold tryFrom at h
    split_ifs at h <;> cases h <;> assumption
  · rintro rfl
    cases status <;> rfl

end TrsSessionStatus

/-! ## What a struct carries -/

namespace Sys.OsdpNotification

/-- The type of the notifications of a phase. -/
def typeOf : MpPhase → UInt8
  | .start => OSDP_NOTIFICATION_MP_START
  | .progress => OSDP_NOTIFICATION_MP_PROGRESS
  | .done _ => OSDP_NOTIFICATION_MP_DONE

/-- What the struct says, by the fields that its type is about: no other field of the union is in
    use. -/
def Carries (raw : OsdpNotification) : Notification → Prop
  | .scStatus active scbkD => raw.type = OSDP_NOTIFICATION_SC_STATUS ∧
    raw.payload.scStatus = ⟨active, scbkD⟩
  | .pdStatus online => raw.type = OSDP_NOTIFICATION_PD_STATUS ∧ raw.payload.pdStatus = ⟨online⟩
  | .multipart mp => raw.type = typeOf mp.phase ∧ raw.payload.mp.mpType = mp.kind.asC ∧
    (∀ outcome, mp.phase = .done outcome → raw.payload.mp.outcome = outcome.intoRaw) ∧
    raw.payload.mp.objectId = mp.objectId ∧ raw.payload.mp.offset = mp.offset ∧
    raw.payload.mp.total = mp.total
  | .pdId id => raw.type = OSDP_NOTIFICATION_PD_ID ∧ PdId.fromRaw raw.payload.pdId = id
  | .trsStatus status => raw.type = OSDP_NOTIFICATION_TRS_STATUS ∧
    raw.payload.trsStatus.status = status.code

/-- The codes that a struct of its type holds, each beside the codes defined in its place. -/
def codes (raw : OsdpNotification) : List (UInt8 × List UInt8) :=
  let kind := (raw.payload.mp.mpType, MpKind.codes)
  if raw.type = OSDP_NOTIFICATION_MP_START ∨ raw.type = OSDP_NOTIFICATION_MP_PROGRESS then [kind]
  else if raw.type = OSDP_NOTIFICATION_MP_DONE then
    [(raw.payload.mp.outcome, MpOutcome.codes), kind]
  else if raw.type = OSDP_NOTIFICATION_TRS_STATUS then
    [(raw.payload.trsStatus.status, TrsSessionStatus.codes)]
  else []

def types : List UInt8 :=
  [OSDP_NOTIFICATION_SC_STATUS, OSDP_NOTIFICATION_PD_STATUS, OSDP_NOTIFICATION_MP_START,
    OSDP_NOTIFICATION_MP_PROGRESS, OSDP_NOTIFICATION_MP_DONE, OSDP_NOTIFICATION_PD_ID,
    OSDP_NOTIFICATION_TRS_STATUS]

/-- The structs of a notification. -/
def InGrammar (raw : OsdpNotification) : Prop :=
  raw.type ∈ types ∧ ∀ c ∈ raw.codes, c.1 ∈ c.2

end Sys.OsdpNotification

namespace Notification

variable {raw : OsdpNotification} {n : Notification}

theorem multipartOf_eq_ok {mp : OsdpMpNotification} {phase : MpPhase} :
    multipartOf mp phase = .ok n ↔ ∃ kind : MpKind, mp.mpType = kind.asC ∧
      multipart { kind, phase, objectId := mp.objectId, offset := mp.offset, total := mp.total } = n := by
  rw [multipartOf, bind_pure_eq_ok]
  simp only [MpKind.tryFrom_eq_ok]

/-- A struct is decoded to what it carries. -/
theorem carries_of_tryFrom (h : tryFrom raw = .ok n) : raw.Carries n := by
  unfold tryFrom at h
  dsimp only at h
  split_ifs at h with sc pd start progress done id trs
  · cases h
    exact ⟨sc, rfl⟩
  · cases h
    exact ⟨pd, rfl⟩
  · obtain ⟨kind, code, rfl⟩ := multipartOf_eq_ok.mp h
    exact ⟨start, code, nofun, rfl, rfl, rfl⟩
  · obtain ⟨kind, code, rfl⟩ := multipartOf_eq_ok.mp h
    exact ⟨progress, code, nofun, rfl, rfl, rfl⟩
  · obtain ⟨outcome, ended, h⟩ := bind_eq_ok.mp h
    obtain ⟨kind, code, rfl⟩ := multipartOf_eq_ok.mp h
    refine ⟨done, code, fun other same => ?_, rfl, rfl, rfl⟩
    obtain rfl := MpPhase.done.inj same
    exact MpOutcome.tryFrom_eq_ok.mp ended
  · cases h
    exact ⟨id, rfl⟩
  · obtain ⟨status, read, rfl⟩ := bind_pure_eq_ok.mp h
    exact ⟨trs, TrsSessionStatus.tryFrom_eq_ok.mp read⟩

theorem tryFrom_of_carries (carries : raw.Carries n) : tryFrom raw = .ok n := by
  rw [tryFrom]
  cases n with
  | scStatus active scbkD =>
    obtain ⟨type, fields⟩ := carries
    simp [type, fields]
  | pdStatus online =>
    obtain ⟨type, fields⟩ := carries
    simp [type, fields]
  | multipart mp =>
    obtain ⟨kind, phase, objectId, offset, total⟩ := mp
    obtain ⟨type, code, ended, rfl, rfl, rfl⟩ := carries
    have read : multipartOf raw.payload.mp phase = .ok (multipart
        { kind, phase, objectId := raw.payload.mp.objectId, offset := raw.payload.mp.offset,
          total := raw.payload.mp.total }) := multipartOf_eq_ok.mpr ⟨kind, code, rfl⟩
    cases phase with
    | start =>
      have type : raw.type = OSDP_NOTIFICATION_MP_START := type
      simpa [type] using read
    | progress =>
      have type : raw.type = OSDP_NOTIFICATION_MP_PROGRESS := type
      simpa [type] using read
    | done outcome =>
      have type : raw.type = OSDP_NOTIFICATION_MP_DONE := type
      simpa [type, MpOutcome.tryFrom_eq_ok.mpr (ended outcome rfl)] using read
  | pdId id =>
    obtain ⟨type, rfl⟩ := carries
    simp [type]
  | trsStatus status =>
    obtain ⟨type, code⟩ := carries
    simp [type, TrsSessionStatus.tryFrom_eq_ok.mpr code]

theorem multipartOf_decides (mp : OsdpMpNotification) (phase : MpPhase) :
    Decides Fault.Malformed (mp.mpType ∈ MpKind.codes) (multipartOf mp phase) :=
  (MpKind.tryFrom_decides mp.mpType).bind_ok

theorem tryFrom_decides (raw : OsdpNotification) :
    Decides Fault.Malformed raw.InGrammar (tryFrom raw) := by
  have kind := multipartOf_decides raw.payload.mp
  have outcome := MpOutcome.tryFrom_decides raw.payload.mp.outcome
  have status := TrsSessionStatus.tryFrom_decides raw.payload.trsStatus.status
  refine ((Decides.ok _).orElse <| (Decides.ok _).orElse <| (kind _).ite <| (kind _).ite <|
    (outcome.bind fun _ _ => kind _).ite <| (Decides.ok _).orElse <|
    status.bind_ok.ite <| malformed_decides _).congr ?_
  unfold OsdpNotification.InGrammar OsdpNotification.codes OsdpNotification.types
  by_cases start : raw.type = OSDP_NOTIFICATION_MP_START
  · simp [start]
  by_cases progress : raw.type = OSDP_NOTIFICATION_MP_PROGRESS
  · simp [progress]
  by_cases done : raw.type = OSDP_NOTIFICATION_MP_DONE
  · simp [done]
  by_cases trs : raw.type = OSDP_NOTIFICATION_TRS_STATUS
  · simp [trs]
  · simp [start, progress, done, trs]

/-- **A notification is decoded to what the struct carries**, and to nothing else: a struct that
    carries nothing is malformed, and one carries something exactly if its type is one of the seven
    and the codes that its type is about are defined. -/
theorem notification_decoding_exact (raw : OsdpNotification) :
    (∀ n, tryFrom raw = .ok n ↔ raw.Carries n) ∧ ((∃ n, raw.Carries n) ↔ raw.InGrammar) ∧
      (¬ raw.InGrammar → ∃ what, tryFrom raw = malformed what) := by
  have exact : ∀ n, tryFrom raw = .ok n ↔ raw.Carries n :=
    fun n => ⟨carries_of_tryFrom, tryFrom_of_carries⟩
  refine ⟨exact, ?_, fun out => ?_⟩
  · rw [← (tryFrom_decides raw).ok_iff]
    exact exists_congr fun n => (exact n).symm
  · obtain ⟨fault, bad, failed⟩ := (tryFrom_decides raw).error_of_not out
    obtain ⟨what, rfl⟩ := Fault.malformed_iff.mp bad
    exact ⟨what, failed⟩

end Notification

end LibOsdp
