import LibOsdp.Ctx.State

/-!
# One step of a context

The methods of `ControlPanel` and `PeripheralDevice`, LibOSDP's callbacks, and what LibOSDP
itself does to a submission, as one partial step function. A step is one of: the application
calls a method or returns; LibOSDP, inside one of its calls, takes or completes a submission,
calls back or returns; or a method goes on after LibOSDP has returned.
-/

set_option autoImplicit false

namespace LibOsdp

open Sys

/-- The submitting methods of a `ControlPanel`. -/
inductive Request where
  | submit (cmd : Command)
  | pivData (request : PivRequest)
  | generalAuth (challenge : Challenge)
  | challengeAuth (challenge : Challenge)

namespace Request

/-- The command the method passes to `queue_command`. -/
def cmd : Request → Command
  | submit cmd => cmd
  | pivData request => .pivData request
  | generalAuth challenge => .genAuth challenge
  | challengeAuth challenge => .crAuth challenge

/-- The `wants_reply` the method passes to `queue_command`. -/
def wantsReply : Request → Bool
  | submit _ => false
  | _ => true

end Request

/-- What the application does. -/
inductive AppAct where
  | refresh
  | submit (pd : PdIndex) (request : Request)
  | submitEvent (event : Event)
  | reply (event : Event)
  | flush (pd : PdIndex)
  | drop (n : Sub)
  | poll (n : Sub) (w : Waker)
  | cancel (n : Sub)
  | nextItem
  | pollStream (w : Waker)
  | setCommandHandler (h : HandlerId)
  /-- Any method that only reads the context or asks LibOSDP about a link. -/
  | query
  /-- The application code that is running returns. -/
  | ret (nak : Option Nak)
  /-- The context is dropped. -/
  | teardown

/-- What LibOSDP does inside one of its calls. -/
inductive LibAct where
  /-- It runs a channel or file op. -/
  | callback
  /-- It takes the submission it was called with. -/
  | accept
  /-- It completes a submission it holds. -/
  | complete (n : Sub) (status : UInt8)
  /-- It calls the CP event callback. -/
  | event (pd : Int32) (raw : OsdpEvent)
  /-- It calls the PD command callback. -/
  | command (raw : OsdpCmd)
  /-- It starts the multi-part reply of a biometric read. -/
  | bioStart (n : Sub)
  /-- It completes a biometric read whose reply runs on: beside the operation of another engine,
  the command completes at the first fragment. -/
  | completeRead (n : Sub) (status : UInt8)
  /-- The reply of a biometric read that has completed ends. -/
  | bioEnd (n : Sub)
  /-- The call returns. -/
  | ret (rc : Int)

inductive Act where
  | app (act : AppAct)
  | lib (act : LibAct)
  /-- The method whose frame is on top goes on. -/
  | tick

/-- The reply in an event, under the kind of operation it answers. -/
def Event.smartCardReply : Event → Option (MpKind × PivReply)
  | .pivData reply => some (.piv, reply)
  | .genAuth reply => some (.genAuth, reply)
  | .crAuth reply => some (.crAuth, reply)
  | _ => none

/-- `cp_event_trampoline`: how an event of LibOSDP's is read. -/
def CpEvent.tryFrom (raw : OsdpEvent) : Res CpEvent :=
  if raw.type = OSDP_EVENT_NOTIFICATION then
    (Notification.tryFrom raw.payload.notif).map CpEvent.notification
  else (Event.tryFrom raw).map CpEvent.event

/-- The check that `Responder::reply` makes of a status: it is of the kind that `cmd` queries. -/
def Event.answers (event : Event) (cmd : OsdpCmd) : Bool :=
  match event with
  | .status report => cmd.id ≠ OSDP_CMD_STATUS || cmd.payload.status.type = report.kind.intoType
  | _ => true

namespace Context

open Function (update)

variable (c : Context)

/-- Application code is running: outside every method, or in code that one of them runs. -/
def atApp : Bool :=
  !c.torn &&
    match c.stack with
    | [] => true
    | .app _ :: _ => true
    | _ => false

/-! ### Methods, up to the call into LibOSDP -/

/-- `refresh`. -/
def refresh : Context :=
  if c.busy then { c with ret := .unit }
  else { c with busy := true, stack := .lib .refresh :: c.stack }

/-- `RawSubmission::into_raw`, and the call that offers the box to LibOSDP. -/
@[simp] def offer (via : Via) (n : Sub) (raw : Raw) : Context :=
  { c with
    next := c.next + 1
    boxes := update c.boxes n (some raw)
    slots := update c.slots n {}
    stack := .lib (.submit via n false) :: c.stack
    log := .made n :: c.log }

/-- `ControlPanel::queue_command`. -/
def queueCommand (pd : PdIndex) (cmd : Command) (wantsReply : Bool) : Context :=
  if c.busy then { c with ret := .error (.err .rejected) }
  else
    match cmd.tryInto with
    -- the guard taken before the conversion is dropped by the early return
    | .error fault => { c with busy := false, ret := .error fault }
    | .ok raw =>
      { c with busy := true }.offer .command ⟨c.next, pd, cmd.multipartKind, wantsReply⟩ (.cmd raw)

/-- `PeripheralDevice::submit` and the end of `Responder::reply`. -/
def offerEvent (via : Via) (event : Event) : Context :=
  match event.tryInto with
  | .error fault => { c with ret := .error fault }
  | .ok raw => c.offer via ⟨c.next, 0, none, false⟩ (.event raw)

/-- `Responder::reply`, from the handler of `cmd`. -/
def reply (cmd : OsdpCmd) (event : Event) : Context :=
  if event.answers cmd then c.offerEvent .reply event
  else { c with ret := .error (.err (.invalidArgument "status reply of another kind")) }

/-- `Drop for Submission`. -/
@[simp] def dropHandle (n : Sub) : Context :=
  { c with
    handles := update c.handles n none
    slots := update c.slots n { c.slots n with hasHandle := false } }

/-- `Future::poll` of a submission. -/
def poll (n : Sub) (w : Waker) : Context :=
  match (c.slots n).status with
  | some status => { c with ret := .poll (some status) }
  | none =>
    { c with
      slots := update c.slots n
        { c.slots n with waker := WakerSlot.register (c.slots n).waker w }
      ret := .poll none
      log := .polled n w :: c.log }

/-- `Submission::cancel`. LibOSDP stops whichever operation runs under the name it is given. -/
def cancel (n : Sub) (handle : Handle) : Context :=
  match handle.operation with
  | none => { c with ret := .error (.err (.invalidArgument "not a multi-part operation")) }
  | some op =>
    if (c.slots n).isPending then
      match c.running op.pd op.kind with
      | none => { c with ret := .error (.err .notInProgress) }
      | some target => { c with ret := .unit, log := .stopped n target :: c.log }
    else { c with ret := .error (.err .notInProgress) }

/-- `next_event`, `next_notification`. -/
@[simp] def nextItem : Context := { c with queue := c.queue.pop.2, ret := .item c.queue.pop.1 }

/-- `Stream::poll_next`. -/
def pollStream (w : Waker) : Context :=
  match c.queue.pop.1 with
  | some _ => c.nextItem
  | none => { c with streamWaker := WakerSlot.register c.streamWaker w, ret := .item none }

/-- Application code returns. A handler goes back to its slot, unless it was replaced. -/
def appReturn (nak : Option Nak) : Option Context :=
  match c.stack with
  | .app (.handler h _) :: below =>
    some { c with
      handler := c.handler.or (some h)
      stack := below
      log := .answered (nak.elim 0 Nak.asC) :: c.log }
  | .app _ :: below => some { c with stack := below }
  | _ => none

/-- What the application can do where its code runs. -/
def appStep (role : Role) : AppAct → Option Context
  | .refresh => some c.refresh
  | .submit pd request =>
    if role = .cp then some (c.queueCommand pd request.cmd request.wantsReply) else none
  | .submitEvent event => if role = .pd then some (c.offerEvent .event event) else none
  | .reply event =>
    match c.stack with
    | .app (.handler _ cmd) :: _ => some (c.reply cmd event)
    | _ => none
  | .flush pd => some { c with stack := .lib (.flush pd) :: c.stack }
  | .drop n => if (c.handles n).isSome then some (c.dropHandle n) else none
  | .poll n w => if (c.handles n).isSome then some (c.poll n w) else none
  | .cancel n => (c.handles n).map fun handle => c.cancel n handle
  | .nextItem => some c.nextItem
  | .pollStream w => some (c.pollStream w)
  | .setCommandHandler h => if role = .pd then some { c with handler := some h } else none
  | .query => some { c with ret := .unit }
  | .ret nak => c.appReturn nak
  | .teardown => if c.stack.isEmpty then some { c with stack := [.lib .teardown] } else none

/-! ### LibOSDP and its callbacks -/

/-- The operations running once that of `n` has started. -/
def started (n : Sub) (pd : PdIndex) (kind : MpKind) : Option Sub :=
  if n.pd = pd ∧ n.kind = some kind then some n else c.running pd kind

/-- LibOSDP takes the submission it was called with, and an engine starts what it runs at once. -/
@[simp] def accept (via : Via) (n : Sub) (below : List Frame) : Context :=
  { c with
    held := c.held ++ [n]
    running := if n.kind.any MpKind.bypassesQueue then c.started n else c.running
    stack := .lib (.submit via n true) :: below
    log := .accepted n :: c.log }

/-- The operations running once that of `n` has ended. -/
def ended (n : Sub) (pd : PdIndex) (kind : MpKind) : Option Sub :=
  if c.running pd kind = some n then none else c.running pd kind

/-- `RawSubmission::complete`, with the operation LibOSDP ends. -/
@[simp] def complete (n : Sub) (status : UInt8) : Context :=
  { c with
    boxes := update c.boxes n none
    slots := update c.slots n { (c.slots n).complete (completion status) with waker := none }
    wakeups := c.wakeups ++ (c.slots n).waker.toList.map fun w => (n, w)
    held := c.held.erase n
    running := c.ended n
    log := .completed n status :: c.log }

/-- `RawSubmission::complete` of a biometric read whose reply LibOSDP goes on reassembling. -/
@[simp] def completeRead (n : Sub) (status : UInt8) : Context :=
  { c.complete n status with running := c.running }

/-- `Weak::upgrade`: the slot is there as long as its box or its handle is. -/
def upgrades (n : Sub) : Bool := (c.boxes n).isSome || (c.handles n).isSome

/-- The submission that `deliver_reply` hands a reply on `pd` to. -/
def waiting (pd : PdIndex) : Option Sub :=
  match c.replies pd with
  | some n => if c.upgrades n && (c.slots n).isPending && (c.slots n).hasHandle then some n else none
  | none => none

/-- A smart card operation of `n` is running. -/
def runsSmartCard (n : Sub) : Bool :=
  match n.kind with
  | some kind => kind.isSmartCard && c.running n.pd kind = some n
  | none => false

/-- LibOSDP has handed over a reply on `pd`, and so that of the operation running there. -/
def repliedOn (pd : PdIndex) (n : Sub) : Bool := c.replied n || (n.pd = pd && c.runsSmartCard n)

/-- `CpEvents::deliver_reply` and the push that follows when it gives the event back. -/
def deliverReply (pd : PdIndex) (event : Event) (kind : MpKind) (reply : PivReply) : Context :=
  let c' := { c with replies := update c.replies pd none, replied := c.repliedOn pd }
  match c.waiting pd with
  | some n =>
    { c' with
      slots := update c.slots n ((c.slots n).setReply reply)
      log := .delivered n kind reply :: c.log }
  | none => { c' with queue := c.queue.push (.cp pd (.event event)) }

/-- `cp_event_trampoline`. -/
def cpEvent (pd : PdIndex) (raw : OsdpEvent) : Context :=
  match CpEvent.tryFrom raw with
  | .error _ => c
  | .ok (.notification notification) =>
    { c with queue := c.queue.push (.cp pd (.notification notification)) }
  | .ok (.event event) =>
    match event.smartCardReply with
    | some (kind, reply) => c.deliverReply pd event kind reply
    | none => { c with queue := c.queue.push (.cp pd (.event event)) }

/-- The command callback answers without running a handler. -/
def answer (code : Int) : Context := { c with log := .answered code :: c.log }

/-- `pd_command_trampoline`, up to the handler. -/
def pdCommand (raw : OsdpCmd) : Context :=
  if raw.id = OSDP_CMD_NOTIFICATION then
    match Notification.tryFrom raw.payload.notif with
    | .ok notification => { c with queue := c.queue.push (.pd notification) }.answer 0
    | .error _ => c.answer 0
  else
    match Command.tryFrom raw, c.handler with
    | .error _, _ => c.answer Nak.record.asC
    | .ok _, none => c.answer Nak.record.asC
    | .ok cmd, some h =>
      { c with
        handler := none
        stack := .app (.handler h raw) :: c.stack
        log := .handled h cmd :: c.log }

/-- `wake_waiting`, which does nothing inside a guarded call, before the rest of the method. -/
def wakeWaiting (after : After) (below : List Frame) : Context :=
  if c.busy then { c with stack := .finishing after :: below }
  else { c with wakeups := [], stack := .waking c.wakeups after :: below }

/-- A call into LibOSDP returns, and the method it was made by drops its guard. -/
def libReturn (call : Call) (below : List Frame) (rc : Int) : Option Context :=
  match call with
  | .refresh => some ({ c with busy := false }.wakeWaiting .done below)
  | .flush _ => some (c.wakeWaiting (.dropped rc) below)
  | .teardown => if c.held = [] then some { c with torn := true, stack := below } else none
  | .submit via n accepted =>
    -- LibOSDP's result says whether it took the submission
    if accepted = decide (rc < 0) then none
    else
      let c' := if accepted then c else { c with log := .refused n :: c.log }
      let after := After.settle via n (rc < 0)
      match via with
      | .command => some ({ c' with busy := false }.wakeWaiting after below)
      | .event => some (c'.wakeWaiting after below)
      | .reply => some { c' with stack := .finishing after :: below }

/-- What LibOSDP can do inside `call`. -/
def libStep (role : Role) (call : Call) (below : List Frame) : LibAct → Option Context
  | .callback => if call.guarded then some { c with stack := .app .callback :: c.stack } else none
  | .accept =>
    match call with
    | .submit via n false => some (c.accept via n below)
    | _ => none
  | .complete n status => if n ∈ c.held then some (c.complete n status) else none
  | .event pd raw =>
    if role = .cp ∧ call.guarded then some (c.cpEvent (.ofC pd) raw) else none
  | .command raw => if role = .pd ∧ call = .refresh then some (c.pdCommand raw) else none
  | .bioStart n =>
    if call = .refresh ∧ n ∈ c.held ∧ n.kind = some .bioRead then
      some { c with running := c.started n }
    else none
  | .completeRead n status =>
    if n ∈ c.held ∧ n.kind = some .bioRead then some (c.completeRead n status) else none
  | .bioEnd n =>
    if call = .refresh ∧ n ∉ c.held ∧ c.running n.pd .bioRead = some n then
      some { c with running := c.ended n }
    else none
  | .ret rc => c.libReturn call below rc

/-! ### The rest of a method -/

/-- `CpEvents::route_reply` as `queue_command` calls it. -/
@[simp] def routeReply (n : Sub) : Context :=
  { c with
    replies :=
      if n.isSmartCard then update c.replies n.pd (if n.wantsReply then some n else none)
      else c.replies }

/-- `Submission::new`. -/
@[simp] def newHandle (n : Sub) (operation : Option Operation) : Context :=
  { c with
    handles := update c.handles n (some ⟨operation⟩)
    slots := update c.slots n { c.slots n with hasHandle := true }
    ret := .submission n }

/-- What a method does last. -/
def finish : After → Context
  | .done => { c with ret := .unit }
  | .dropped count => { c with ret := .dropped count.toNat }
  | .settle _ n true =>
    { c with
      boxes := update c.boxes n none
      ret := .error (.err .rejected)
      log := .reclaimed n :: c.log }
  | .settle via n false =>
    let c' := { c with log := .returned n :: c.log }
    match via with
    | .command => (c'.routeReply n).newHandle n (n.kind.map (Operation.mk n.pd))
    | .event => c'.newHandle n none
    | .reply => { c' with ret := .unit }

/-- The method on top goes on: `Wakeups::wake_all` one waker at a time, then the stream's waker
when something is queued, then the rest. -/
def tick : Option Context :=
  match c.stack with
  | .waking ((n, w) :: rest) after :: below =>
    some { c with
      stack := .app (.waker w) :: .waking rest after :: below
      log := .woken n w :: c.log }
  | .waking [] after :: below =>
    match c.queue.isEmpty, c.streamWaker with
    | false, some w =>
      some { c with
        streamWaker := none
        stack := .app (.waker w) :: .finishing after :: below
        log := .wokenStream w :: c.log }
    | _, _ => some { c with stack := .finishing after :: below }
  | .finishing after :: below => some ({ c with stack := below }.finish after)
  | _ => none

end Context

/-- One step of a context. -/
def step (role : Role) (c : Context) : Act → Option Context
  | .app act => if c.atApp then c.appStep role act else none
  | .lib act =>
    match c.stack with
    | .lib call :: below => c.libStep role call below act
    | _ => none
  | .tick => c.tick

end LibOsdp
