import LibOsdp.Codec.Command
import LibOsdp.Codec.Event
import LibOsdp.Ctx.Queue
import LibOsdp.Ctx.Slot
import Mathlib.Logic.Function.Basic

/-!
# The state of a context

A `ControlPanel` or a `PeripheralDevice` with everything its methods share: the crate's cells, the
boxes and slots on the heap, what LibOSDP holds, and the calls on the stack. Application code
that LibOSDP or a waker runs may call back into the context, so the stack is explicit: a method is
entered, interrupted and left step by step. `log` records what happened, for statements to speak
of; no step reads it.
-/

set_option autoImplicit false

namespace LibOsdp

open Sys

/-- `PdIndex`: which PD of a bus. -/
abbrev PdIndex := UInt8

/-- `PdIndex::new(pd as u8)` of a C int. -/
def PdIndex.ofC (pd : Int32) : PdIndex := pd.toUInt32.toUInt8

/-- Which of the two contexts it is. -/
inductive Role where
  | cp | pd
deriving DecidableEq, Repr

/-- One submission: the box that carries it, and what it was made for. -/
structure Sub where
  id : Nat
  pd : PdIndex
  kind : Option MpKind
  wantsReply : Bool
deriving DecidableEq, Repr

/-- The submission is a PIV or authenticate command. -/
def Sub.isSmartCard (n : Sub) : Bool := n.kind.any MpKind.isSmartCard

/-- The struct in a box. -/
inductive Raw where
  | cmd (raw : OsdpCmd)
  | event (raw : OsdpEvent)

/-- `submit.rs`: what `osdp_cp_cancel` names an operation by. -/
structure Operation where
  pd : PdIndex
  kind : MpKind
deriving DecidableEq, Repr

/-- `submit.rs`: the handle on a submission, less its slot, which is the submission's own. -/
structure Handle where
  operation : Option Operation
deriving DecidableEq, Repr

/-- `cp.rs`: what `next_event` hands over. -/
inductive CpEvent where
  | event (event : Event)
  | notification (notification : Notification)
deriving DecidableEq, Repr

/-- An item of a context's queue: an event of a CP, or a notification of a PD. -/
inductive Item where
  | cp (pd : PdIndex) (event : CpEvent)
  | pd (notification : Notification)
deriving DecidableEq, Repr

/-- A command handler, by name. -/
abbrev HandlerId := Nat

@[simp] abbrev OSDP_PD_NAK_BIO_TYPE : Int := 7
@[simp] abbrev OSDP_PD_NAK_BIO_FMT : Int := 8
@[simp] abbrev OSDP_PD_NAK_RECORD : Int := 9

/-- `error.rs`: why a PD refuses a command. -/
inductive Nak where
  | bioType | bioFormat | record
deriving DecidableEq, Repr

/-- `Nak::as_c`. -/
def Nak.asC : Nak → Int
  | bioType => -OSDP_PD_NAK_BIO_TYPE
  | bioFormat => -OSDP_PD_NAK_BIO_FMT
  | record => -OSDP_PD_NAK_RECORD

/-- The method that hands a submission to LibOSDP. -/
inductive Via where
  /-- `ControlPanel::queue_command`. -/
  | command
  /-- `PeripheralDevice::submit`. -/
  | event
  /-- `Responder::reply`. -/
  | reply
deriving DecidableEq, Repr

/-- A LibOSDP call in progress. -/
inductive Call where
  /-- `osdp_cp_refresh`, `osdp_pd_refresh`. -/
  | refresh
  /-- `osdp_cp_submit_command`, `osdp_pd_submit_event`, and whether LibOSDP has taken `n` yet. -/
  | submit (via : Via) (n : Sub) (accepted : Bool)
  /-- `osdp_cp_flush_commands`, `osdp_pd_flush_events`. -/
  | flush (pd : PdIndex)
  /-- `osdp_cp_teardown`, `osdp_pd_teardown`. -/
  | teardown
deriving DecidableEq, Repr

/-- The calls that can run application code, which a context marks itself busy around. -/
def Call.guarded : Call → Bool
  | refresh => true
  | submit via _ _ => via = .command
  | flush _ | teardown => false

/-- What is left of a method once `wake_waiting` returns. -/
inductive After where
  /-- `refresh`. -/
  | done
  /-- `flush`, with the count LibOSDP returned. -/
  | dropped (count : Int)
  /-- A submission, and whether LibOSDP refused it. -/
  | settle (via : Via) (n : Sub) (refused : Bool)
deriving DecidableEq, Repr

/-- Application code, by what runs it. -/
inductive Code where
  /-- A channel or file op, run by LibOSDP. -/
  | callback
  /-- A command handler, and the command it is given. -/
  | handler (h : HandlerId) (cmd : OsdpCmd)
  /-- A waker. -/
  | waker (w : Waker)

/-- A frame of the stack. -/
inductive Frame where
  /-- LibOSDP is running. -/
  | lib (call : Call)
  /-- `wake_waiting` is going through the wakers it took. -/
  | waking (rest : List (Sub × Waker)) (after : After)
  /-- `wake_waiting` is over. -/
  | finishing (after : After)
  /-- The application is running. -/
  | app (code : Code)

/-- A guarded LibOSDP call. -/
def Frame.guarded : Frame → Bool
  | lib call => call.guarded
  | _ => false

/-- Any LibOSDP call. -/
def Frame.isLib : Frame → Bool
  | lib _ => true
  | _ => false

/-- What the last method to return gave its caller. -/
inductive Ret where
  | unit
  | error (fault : Fault)
  | dropped (count : Nat)
  | submission (n : Sub)
  | item (item : Option Item)
  | poll (status : Option (Except CompletionError Unit))

/-- What happened, newest first in a context's log. -/
inductive Obs where
  /-- `RawSubmission::into_raw` boxed `n`. -/
  | made (n : Sub)
  /-- LibOSDP took `n`. -/
  | accepted (n : Sub)
  /-- LibOSDP refused `n`. -/
  | refused (n : Sub)
  /-- `RawSubmission::reclaim` freed the box of `n`. -/
  | reclaimed (n : Sub)
  /-- The completion callback freed the box of `n`. -/
  | completed (n : Sub) (status : UInt8)
  /-- The submitting method returned `Ok` for `n`. -/
  | returned (n : Sub)
  /-- `n` was polled with `w`, and is pending. -/
  | polled (n : Sub) (w : Waker)
  /-- `w`, parked by `n`, was woken. -/
  | woken (n : Sub) (w : Waker)
  /-- The event stream's waker was woken. -/
  | wokenStream (w : Waker)
  /-- A reply event of `kind` went into the slot of `n`. -/
  | delivered (n : Sub) (kind : MpKind) (reply : PivReply)
  /-- Cancelling `n` made LibOSDP stop the operation that `target` started. -/
  | stopped (n target : Sub)
  /-- A handler was given a command. -/
  | handled (h : HandlerId) (cmd : Command)
  /-- The command callback answered LibOSDP. -/
  | answered (code : Int)
deriving DecidableEq, Repr

/-- A context, with all that its methods read and change. -/
structure Context where
  /-- The flag of `Busy`. -/
  busy : Bool := false
  /-- `Wakeups`, with the submission each waker was parked by. -/
  wakeups : List (Sub × Waker) := []
  /-- `CpEvents::queue`, `PdCommandSlot::notifications`. -/
  queue : DrainQueue Item
  streamWaker : Option Waker := none
  /-- `CpEvents::replies`: the submission waiting for a reply, per PD. -/
  replies : PdIndex → Option Sub := fun _ => none
  /-- `PdCommandSlot::handler`. -/
  handler : Option HandlerId := none
  /-- The next box. -/
  next : Nat := 0
  /-- The boxes not yet freed. -/
  boxes : Sub → Option Raw := fun _ => none
  slots : Sub → Slot := fun _ => {}
  /-- The handles not yet dropped. -/
  handles : Sub → Option Handle := fun _ => none
  /-- The submissions LibOSDP has taken and not completed, oldest first. -/
  held : List Sub := []
  /-- The operations LibOSDP is running. -/
  running : PdIndex → MpKind → Option Sub := fun _ _ => none
  /-- LibOSDP has handed over the reply to this one. -/
  replied : Sub → Bool := fun _ => false
  torn : Bool := false
  stack : List Frame := []
  ret : Ret := .unit
  log : List Obs := []

/-- A context as it is built, with room for `capacity` items in its queue. -/
def Context.new (capacity : Nat) (pos : 0 < capacity) : Context where
  queue := .new capacity pos

end LibOsdp
