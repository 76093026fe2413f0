import LibOsdp.Codec.Notification
import LibOsdp.Codec.Piv

/-!
# Slots and wakers

What a submission leaves behind in Rust: the slot its outcome and its reply are reported
through, and the waker of the task that awaits it.
-/

set_option autoImplicit false

namespace LibOsdp

/-- A task's waker. Two wakers that wake the same task are equal, as `Waker::will_wake` has it. -/
abbrev Waker := Nat

/-- `WakerSlot::register`: park `waker`, keeping the one already parked if it wakes the same task. -/
def WakerSlot.register (parked : Option Waker) (waker : Waker) : Option Waker :=
  match parked with
  | some current => if current = waker then some current else some waker
  | none => some waker

@[simp] theorem WakerSlot.register_eq (parked : Option Waker) (waker : Waker) :
    register parked waker = some waker := by
  cases parked with
  | none => rfl
  | some current =>
    simp only [register]
    split <;> simp_all

@[simp] abbrev OSDP_COMPLETION_OK : UInt8 := 0
@[simp] abbrev OSDP_COMPLETION_FAILED : UInt8 := 1
@[simp] abbrev OSDP_COMPLETION_FLUSHED : UInt8 := 2
@[simp] abbrev OSDP_COMPLETION_ABORTED : UInt8 := 3

/-- `ffi/submit.rs`: how a completion status reads in Rust. -/
def completion (status : UInt8) : Except CompletionError Unit :=
  if status = OSDP_COMPLETION_OK then .ok ()
  else if status = OSDP_COMPLETION_FLUSHED then .error .flushed
  else if status = OSDP_COMPLETION_ABORTED then .error .aborted
  else .error .failed

/-- `submit.rs`: where the outcome of one submission is left. -/
structure Slot where
  status : Option (Except CompletionError Unit) := none
  reply : Option PivReply := none
  hasHandle : Bool := false
  waker : Option Waker := none

namespace Slot

/-- `Slot::complete`. -/
def complete (slot : Slot) (status : Except CompletionError Unit) : Slot :=
  { slot with status := some status }

/-- `Slot::is_pending`. -/
def isPending (slot : Slot) : Bool := slot.status.isNone

/-- `Slot::set_reply`. -/
def setReply (slot : Slot) (reply : PivReply) : Slot := { slot with reply := some reply }

/-- `Submission<PivReply>::status`: the smart card's reply, or how the command failed. -/
def replyStatus (slot : Slot) : Option (Except CompletionError PivReply) :=
  slot.status.map fun status => status.bind fun () =>
    match slot.reply with
    | some reply => .ok reply
    | none => .error .failed

theorem isPending_iff {slot : Slot} : slot.isPending = true ↔ slot.status = none := by
  simp [isPending]

theorem replyStatus_eq_ok {slot : Slot} {reply : PivReply} :
    slot.replyStatus = some (.ok reply) ↔
      slot.status = some (.ok ()) ∧ slot.reply = some reply := by
  rw [replyStatus]
  constructor
  · intro resolved
    obtain ⟨outcome, set, eq⟩ := Option.map_eq_some_iff.mp resolved
    cases outcome with
    | error fault => cases eq
    | ok _ =>
      refine ⟨set, ?_⟩
      cases stored : slot.reply with
      | none => simp [Except.bind, stored] at eq
      | some reply' => simpa [Except.bind, stored] using eq
  · rintro ⟨set, stored⟩
    simp [set, stored, Except.bind]

end Slot

/-- `MpKind::Piv | MpKind::GenAuth | MpKind::CrAuth`: the operations a smart card answers. -/
def MpKind.isSmartCard : MpKind → Bool
  | .piv | .genAuth | .crAuth => true
  | _ => false

/-- The kinds that bypass a PD's command queue: `OSDP_CMD_FILE_TX`, `OSDP_CMD_PIVDATA`,
`OSDP_CMD_GENAUTH` and `OSDP_CMD_CRAUTH`, which an engine runs from their acceptance on. -/
def MpKind.bypassesQueue : MpKind → Bool
  | .bioRead => false
  | _ => true

theorem MpKind.bypassesQueue_of_isSmartCard {kind : MpKind} (h : kind.isSmartCard = true) :
    kind.bypassesQueue = true := by
  cases kind <;> simp_all [isSmartCard, bypassesQueue]

end LibOsdp
