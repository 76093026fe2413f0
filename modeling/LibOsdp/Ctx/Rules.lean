import LibOsdp.Base.Lts
import LibOsdp.Ctx.Step

/-!
# What a step can do

The inversion of `step`: one rule for each thing a step can do to a context, with the condition
it does it under. Every invariant is derived from these rules, never from `step` itself.
-/

set_option autoImplicit false

namespace LibOsdp

open Function (update)

/-- What LibOSDP's return adds to the log. -/
def Call.refusal : Call → List Obs
  | submit _ n false => [.refused n]
  | _ => []

theorem Call.refusal_cases (call : Call) : call.refusal = [] ∨ ∃ n, call.refusal = [.refused n] := by
  cases call with
  | submit via n accepted => cases accepted <;> simp [refusal]
  | refresh | flush | teardown => exact .inl rfl

theorem Call.log_refusal {c : Context} {via : Via} {n : Sub} {accepted : Bool} :
    (if accepted then c else { c with log := .refused n :: c.log }) =
      { c with log := (Call.submit via n accepted).refusal ++ c.log } := by
  cases accepted <;> rfl

/-- What the method is left with when the call returns. -/
def Call.after (rc : Int) : Call → After
  | submit via n _ => .settle via n (rc < 0)
  | flush _ => .dropped rc
  | refresh | teardown => .done

/-- LibOSDP's result is negative exactly when it did not take the submission. -/
def Call.Tells (rc : Int) : Call → Prop
  | submit _ _ accepted => accepted = !decide (rc < 0)
  | _ => True

/-- `Rule c act c'`: the step `act` takes `c` to `c'`. -/
inductive Rule (c : Context) : Act → Context → Prop where
  /-- The method only gives its caller a value. -/
  | quiet {a : AppAct} (top : c.atApp) (ret : Ret) : Rule c (.app a) { c with ret }
  | refresh (top : c.atApp) (free : c.busy = false) :
      Rule c (.app .refresh) { c with busy := true, stack := .lib .refresh :: c.stack }
  | offer {a : AppAct} {via : Via} {n : Sub} {raw : Raw} (top : c.atApp)
      (calls : ∀ nak, a ≠ .ret nak) (fresh : n.id = c.next)
      (free : via = .command → c.busy = false) (plain : via ≠ .command → n.kind = none)
      (handles : via = .reply → ∃ h cmd below, c.stack = .app (.handler h cmd) :: below) :
      Rule c (.app a) ({ c with busy := c.busy || decide (via = Via.command) }.offer via n raw)
  | flush {pd : PdIndex} (top : c.atApp) :
      Rule c (.app (.flush pd)) { c with stack := .lib (.flush pd) :: c.stack }
  | drop {n : Sub} (top : c.atApp) : Rule c (.app (.drop n)) (c.dropHandle n)
  | poll {n : Sub} {w : Waker} (top : c.atApp) (live : (c.handles n).isSome)
      (pending : (c.slots n).status = none) :
      Rule c (.app (.poll n w)) { c with
        slots := update c.slots n { c.slots n with waker := some w }
        ret := .poll none
        log := .polled n w :: c.log }
  | stop {n target : Sub} {op : Operation} (top : c.atApp) (handle : c.handles n = some ⟨some op⟩)
      (pending : (c.slots n).status = none) (runs : c.running op.pd op.kind = some target) :
      Rule c (.app (.cancel n)) { c with ret := .unit, log := .stopped n target :: c.log }
  | nextItem {a : AppAct} (top : c.atApp) : Rule c (.app a) c.nextItem
  | parkStream {w : Waker} (top : c.atApp) :
      Rule c (.app (.pollStream w)) { c with streamWaker := some w, ret := .item none }
  | setHandler {h : HandlerId} (top : c.atApp) :
      Rule c (.app (.setCommandHandler h)) { c with handler := some h }
  | handlerReturn {nak : Option Nak} {h : HandlerId} {cmd : Sys.OsdpCmd} {below : List Frame}
      (stack : c.stack = .app (.handler h cmd) :: below) :
      Rule c (.app (.ret nak)) { c with
        handler := c.handler.or (some h)
        stack := below
        log := .answered (nak.elim 0 Nak.asC) :: c.log }
  | appReturn {nak : Option Nak} {code : Code} {below : List Frame}
      (stack : c.stack = .app code :: below) :
      Rule c (.app (.ret nak)) { c with stack := below }
  | teardown (top : c.atApp) (stack : c.stack = []) :
      Rule c (.app .teardown) { c with stack := [.lib .teardown] }
  | callback {call : Call} {below : List Frame} (stack : c.stack = .lib call :: below)
      (guarded : call.guarded) :
      Rule c (.lib .callback) { c with stack := .app .callback :: c.stack }
  | accept {via : Via} {n : Sub} {below : List Frame}
      (stack : c.stack = .lib (.submit via n false) :: below) :
      Rule c (.lib .accept) (c.accept via n below)
  | complete {n : Sub} {status : UInt8} {call : Call} {below : List Frame}
      (stack : c.stack = .lib call :: below) (held : n ∈ c.held) :
      Rule c (.lib (.complete n status)) (c.complete n status)
  /-- An event that does not convert, or a command callback that answers on its own. -/
  | answer {a : LibAct} {call : Call} {below : List Frame} (log : List Obs)
      (stack : c.stack = .lib call :: below)
      (answers : log = c.log ∨ ∃ code, log = .answered code :: c.log) :
      Rule c (.lib a) { c with log }
  /-- An item for the application. -/
  | queue {a : LibAct} {call : Call} {below : List Frame} (item : Item) (log : List Obs)
      (stack : c.stack = .lib call :: below) (guarded : call.guarded)
      (answers : log = c.log ∨ ∃ code, log = .answered code :: c.log) :
      Rule c (.lib a) { c with queue := c.queue.push item, log }
  /-- A smart card's reply goes into the slot of the submission waiting for it. -/
  | deliver {pd : Int32} {raw : Sys.OsdpEvent} {event : Event} {kind : MpKind} {reply : PivReply}
      {n : Sub} {call : Call} {below : List Frame} (stack : c.stack = .lib call :: below)
      (guarded : call.guarded) (reads : CpEvent.tryFrom raw = .ok (.event event))
      (isReply : event.smartCardReply = some (kind, reply))
      (waits : c.waiting (.ofC pd) = some n) :
      Rule c (.lib (.event pd raw)) { c with
        replies := update c.replies (.ofC pd) none
        replied := c.repliedOn (.ofC pd)
        slots := update c.slots n ((c.slots n).setReply reply)
        log := .delivered n kind reply :: c.log }
  /-- A smart card's reply that no submission waits for is queued. -/
  | handBack {pd : Int32} {raw : Sys.OsdpEvent} {event : Event} {kind : MpKind} {reply : PivReply}
      {call : Call} {below : List Frame} (stack : c.stack = .lib call :: below)
      (guarded : call.guarded) (reads : CpEvent.tryFrom raw = .ok (.event event))
      (isReply : event.smartCardReply = some (kind, reply))
      (waits : c.waiting (.ofC pd) = none) :
      Rule c (.lib (.event pd raw)) { c with
        replies := update c.replies (.ofC pd) none
        replied := c.repliedOn (.ofC pd)
        queue := c.queue.push (.cp (.ofC pd) (.event event)) }
  | handle {raw : Sys.OsdpCmd} {cmd : Command} {h : HandlerId} {below : List Frame}
      (stack : c.stack = .lib .refresh :: below) (installed : c.handler = some h)
      (reads : Command.tryFrom raw = .ok cmd) :
      Rule c (.lib (.command raw)) { c with
        handler := none
        stack := .app (.handler h raw) :: c.stack
        log := .handled h cmd :: c.log }
  | bioStart {n : Sub} {below : List Frame} (stack : c.stack = .lib .refresh :: below)
      (held : n ∈ c.held) (kind : n.kind = some .bioRead) :
      Rule c (.lib (.bioStart n)) { c with running := c.started n }
  | completeRead {n : Sub} {status : UInt8} {call : Call} {below : List Frame}
      (stack : c.stack = .lib call :: below) (held : n ∈ c.held) (kind : n.kind = some .bioRead) :
      Rule c (.lib (.completeRead n status)) (c.completeRead n status)
  | bioEnd {n : Sub} {below : List Frame} (stack : c.stack = .lib .refresh :: below)
      (free : n ∉ c.held) (runs : c.running n.pd .bioRead = some n) :
      Rule c (.lib (.bioEnd n)) { c with running := c.ended n }
  /-- LibOSDP returns, and `wake_waiting` takes the wakers collected. -/
  | leaveWaking {rc : Int} {call : Call} {below : List Frame} (stack : c.stack = .lib call :: below)
      (tells : call.Tells rc) (free : (!call.guarded && c.busy) = false) :
      Rule c (.lib (.ret rc)) { c with
        busy := !call.guarded && c.busy
        wakeups := []
        stack := .waking c.wakeups (call.after rc) :: below
        log := call.refusal ++ c.log }
  /-- LibOSDP returns to a method that runs inside a guarded call, and that wakes nothing. -/
  | leaveFinishing {rc : Int} {call : Call} {below : List Frame}
      (stack : c.stack = .lib call :: below) (tells : call.Tells rc) (inner : call.guarded = false)
      (busy : c.busy ∨ ∃ n accepted, call = .submit .reply n accepted) :
      Rule c (.lib (.ret rc)) { c with
        stack := .finishing (call.after rc) :: below
        log := call.refusal ++ c.log }
  | tornDown {rc : Int} {below : List Frame} (stack : c.stack = .lib .teardown :: below)
      (empty : c.held = []) : Rule c (.lib (.ret rc)) { c with torn := true, stack := below }
  | wake {n : Sub} {w : Waker} {rest : List (Sub × Waker)} {after : After} {below : List Frame}
      (stack : c.stack = .waking ((n, w) :: rest) after :: below) :
      Rule c .tick { c with
        stack := .app (.waker w) :: .waking rest after :: below
        log := .woken n w :: c.log }
  | wakeStream {w : Waker} {after : After} {below : List Frame}
      (stack : c.stack = .waking [] after :: below) :
      Rule c .tick { c with
        streamWaker := none
        stack := .app (.waker w) :: .finishing after :: below
        log := .wokenStream w :: c.log }
  | wakeEnd {after : After} {below : List Frame} (stack : c.stack = .waking [] after :: below) :
      Rule c .tick { c with stack := .finishing after :: below }
  | done {after : After} {below : List Frame} (stack : c.stack = .finishing after :: below)
      (plain : after = .done ∨ ∃ count, after = .dropped count) (ret : Ret) :
      Rule c .tick { c with stack := below, ret }
  | reclaim {via : Via} {n : Sub} {below : List Frame}
      (stack : c.stack = .finishing (.settle via n true) :: below) :
      Rule c .tick { c with
        boxes := update c.boxes n none
        stack := below
        ret := .error (.err .rejected)
        log := .reclaimed n :: c.log }
  | settleCommand {n : Sub} {below : List Frame}
      (stack : c.stack = .finishing (.settle .command n false) :: below) :
      Rule c .tick ((({ c with
        stack := below
        log := .returned n :: c.log }).routeReply n).newHandle n (n.kind.map (Operation.mk n.pd)))
  | settleEvent {n : Sub} {below : List Frame}
      (stack : c.stack = .finishing (.settle .event n false) :: below) :
      Rule c .tick (({ c with stack := below, log := .returned n :: c.log }).newHandle n none)
  | settleReply {n : Sub} {below : List Frame}
      (stack : c.stack = .finishing (.settle .reply n false) :: below) :
      Rule c .tick { c with stack := below, ret := .unit, log := .returned n :: c.log }

namespace Context

variable {c c' : Context} {role : Role}

theorem atApp_iff : c.atApp = true ↔
    c.torn = false ∧ (c.stack = [] ∨ ∃ code below, c.stack = .app code :: below) := by
  unfold atApp
  split <;> simp_all

end Context

namespace Rule

variable {c c' : Context} {role : Role}

theorem of_queueCommand {a : AppAct} {pd : PdIndex} {cmd : Command} {wantsReply : Bool}
    (top : c.atApp) (calls : ∀ nak, a ≠ .ret nak) :
    Rule c (.app a) (c.queueCommand pd cmd wantsReply) := by
  unfold Context.queueCommand
  split
  · exact .quiet top _
  · next busy =>
    have free : c.busy = false := by simpa using busy
    cases cmd.tryInto with
    | error fault =>
      have same : { c with busy := false, ret := .error fault } = { c with ret := .error fault } := by
        rw [← free]
      simp only [same]
      exact .quiet top _
    | ok raw =>
      let n : Sub := ⟨c.next, pd, cmd.multipartKind, wantsReply⟩
      have rule : Rule c (.app a) ({ c with busy := c.busy || true }.offer .command n (.cmd raw)) :=
        .offer top calls rfl (fun _ => free) nofun nofun
      simpa [free] using rule

theorem of_offerEvent {a : AppAct} {via : Via} {event : Event} (top : c.atApp)
    (calls : ∀ nak, a ≠ .ret nak) (isEvent : via ≠ .command)
    (handles : via = .reply → ∃ h cmd below, c.stack = .app (.handler h cmd) :: below) :
    Rule c (.app a) (c.offerEvent via event) := by
  unfold Context.offerEvent
  cases event.tryInto with
  | error fault => exact .quiet top _
  | ok raw =>
    let n : Sub := ⟨c.next, 0, none, false⟩
    have rule : Rule c (.app a)
        ({ c with busy := c.busy || decide (via = Via.command) }.offer via n (.event raw)) :=
      .offer top calls rfl (fun h => absurd h isEvent) (fun _ => rfl) handles
    simpa [isEvent] using rule

theorem of_cancel {n : Sub} {handle : Handle} (top : c.atApp) (live : c.handles n = some handle) :
    Rule c (.app (.cancel n)) (c.cancel n handle) := by
  obtain ⟨operation⟩ := handle
  unfold Context.cancel
  cases operation with
  | none => exact .quiet top _
  | some op =>
    simp only
    split
    · next pending =>
      cases runs : c.running op.pd op.kind with
      | none => exact .quiet top _
      | some target => exact .stop top live (Slot.isPending_iff.mp pending) runs
    · exact .quiet top _

theorem of_poll {n : Sub} {w : Waker} (top : c.atApp) (live : (c.handles n).isSome) :
    Rule c (.app (.poll n w)) (c.poll n w) := by
  unfold Context.poll
  cases pending : (c.slots n).status with
  | some status => exact .quiet top _
  | none =>
    simp only [WakerSlot.register_eq]
    exact .poll top live pending

theorem of_pollStream {w : Waker} (top : c.atApp) : Rule c (.app (.pollStream w)) (c.pollStream w) := by
  unfold Context.pollStream
  cases c.queue.pop.1 with
  | some item => exact .nextItem top
  | none =>
    simp only [WakerSlot.register_eq]
    exact .parkStream top

theorem of_appReturn {nak : Option Nak} (h : c.appReturn nak = some c') :
    Rule c (.app (.ret nak)) c' := by
  unfold Context.appReturn at h
  split at h
  · next stack =>
    obtain rfl := Option.some.inj h
    exact .handlerReturn stack
  · next stack =>
    obtain rfl := Option.some.inj h
    exact .appReturn stack
  · cases h

theorem of_appStep {a : AppAct} (top : c.atApp) (h : c.appStep role a = some c') :
    Rule c (.app a) c' := by
  cases a with
  | refresh =>
    obtain rfl := Option.some.inj h
    unfold Context.refresh
    split
    · exact .quiet top _
    · next busy => exact .refresh top (by simpa using busy)
  | submit pd request =>
    obtain ⟨-, eq⟩ := Option.ite_none_right_eq_some.mp h
    obtain rfl := Option.some.inj eq
    exact of_queueCommand top fun nak => nofun
  | submitEvent event =>
    obtain ⟨-, eq⟩ := Option.ite_none_right_eq_some.mp h
    obtain rfl := Option.some.inj eq
    exact of_offerEvent top (fun nak => nofun) nofun nofun
  | reply event =>
    simp only [Context.appStep] at h
    split at h
    · next h' cmd below stack =>
      obtain rfl := Option.some.inj h
      unfold Context.reply
      split
      · exact of_offerEvent top (fun nak => nofun) nofun fun _ => ⟨h', cmd, below, stack⟩
      · exact .quiet top _
    · cases h
  | flush pd =>
    obtain rfl := Option.some.inj h
    exact .flush top
  | drop n =>
    obtain ⟨-, eq⟩ := Option.ite_none_right_eq_some.mp h
    obtain rfl := Option.some.inj eq
    exact .drop top
  | poll n w =>
    obtain ⟨live, eq⟩ := Option.ite_none_right_eq_some.mp h
    obtain rfl := Option.some.inj eq
    exact of_poll top live
  | cancel n =>
    obtain ⟨handle, live, rfl⟩ := Option.map_eq_some_iff.mp h
    exact of_cancel top live
  | nextItem =>
    obtain rfl := Option.some.inj h
    exact .nextItem top
  | pollStream w =>
    obtain rfl := Option.some.inj h
    exact of_pollStream top
  | setCommandHandler h' =>
    obtain ⟨-, eq⟩ := Option.ite_none_right_eq_some.mp h
    obtain rfl := Option.some.inj eq
    exact .setHandler top
  | query =>
    obtain rfl := Option.some.inj h
    exact .quiet top _
  | ret nak => exact of_appReturn h
  | teardown =>
    obtain ⟨empty, eq⟩ := Option.ite_none_right_eq_some.mp h
    obtain rfl := Option.some.inj eq
    exact .teardown top (List.isEmpty_iff.mp empty)

theorem of_deliverReply {pd : Int32} {raw : Sys.OsdpEvent} {event : Event} {kind : MpKind}
    {reply : PivReply} {call : Call} {below : List Frame} (stack : c.stack = .lib call :: below)
    (guarded : call.guarded) (reads : CpEvent.tryFrom raw = .ok (.event event))
    (isReply : event.smartCardReply = some (kind, reply)) :
    Rule c (.lib (.event pd raw)) (c.deliverReply (.ofC pd) event kind reply) := by
  unfold Context.deliverReply
  cases waits : c.waiting (.ofC pd) with
  | some n => exact .deliver stack guarded reads isReply waits
  | none => exact .handBack stack guarded reads isReply waits

theorem of_cpEvent {pd : Int32} {raw : Sys.OsdpEvent} {call : Call} {below : List Frame}
    (stack : c.stack = .lib call :: below) (guarded : call.guarded) :
    Rule c (.lib (.event pd raw)) (c.cpEvent (.ofC pd) raw) := by
  unfold Context.cpEvent
  cases reads : CpEvent.tryFrom raw with
  | error fault => exact .answer c.log stack (.inl rfl)
  | ok event =>
    cases event with
    | notification notification => exact .queue _ c.log stack guarded (.inl rfl)
    | event event =>
      cases isReply : event.smartCardReply with
      | none =>
        simp only [isReply]
        exact .queue _ c.log stack guarded (.inl rfl)
      | some pair =>
        obtain ⟨kind, reply⟩ := pair
        simp only [isReply]
        exact of_deliverReply stack guarded reads isReply

theorem of_pdCommand {raw : Sys.OsdpCmd} {below : List Frame}
    (stack : c.stack = .lib .refresh :: below) : Rule c (.lib (.command raw)) (c.pdCommand raw) := by
  unfold Context.pdCommand
  split
  · cases Notification.tryFrom raw.payload.notif with
    | error fault => exact .answer _ stack (.inr ⟨_, rfl⟩)
    | ok notification => exact .queue _ _ stack rfl (.inr ⟨_, rfl⟩)
  · cases reads : Command.tryFrom raw with
    | error fault => exact .answer _ stack (.inr ⟨_, rfl⟩)
    | ok cmd =>
      cases installed : c.handler with
      | none => exact .answer _ stack (.inr ⟨_, rfl⟩)
      | some h => exact .handle stack installed reads

theorem of_libReturn {call : Call} {below : List Frame} {rc : Int}
    (stack : c.stack = .lib call :: below) (h : c.libReturn call below rc = some c') :
    Rule c (.lib (.ret rc)) c' := by
  cases call with
  | refresh =>
    obtain rfl := Option.some.inj h
    exact .leaveWaking stack trivial rfl
  | flush pd =>
    obtain rfl := Option.some.inj h
    unfold Context.wakeWaiting
    split
    · next busy => exact .leaveFinishing stack trivial rfl (.inl busy)
    · next busy => exact .leaveWaking stack trivial (by simpa [Call.guarded] using busy)
  | teardown =>
    obtain ⟨empty, eq⟩ := Option.ite_none_right_eq_some.mp h
    obtain rfl := Option.some.inj eq
    exact .tornDown stack empty
  | submit via n accepted =>
    simp only [Context.libReturn] at h
    split at h
    · cases h
    · next differ =>
      have tells : (Call.submit via n accepted).Tells rc := by
        simp only [Call.Tells]
        cases accepted <;> simp_all
      simp only [@Call.log_refusal c via n accepted] at h
      cases via with
      | command =>
        obtain rfl := Option.some.inj h
        exact .leaveWaking stack tells rfl
      | event =>
        obtain rfl := Option.some.inj h
        unfold Context.wakeWaiting
        split
        · next busy => exact .leaveFinishing stack tells rfl (.inl busy)
        · next busy => exact .leaveWaking stack tells (by simpa [Call.guarded] using busy)
      | reply =>
        obtain rfl := Option.some.inj h
        exact .leaveFinishing stack tells rfl (.inr ⟨n, accepted, rfl⟩)

theorem of_libStep {a : LibAct} {call : Call} {below : List Frame}
    (stack : c.stack = .lib call :: below) (h : c.libStep role call below a = some c') :
    Rule c (.lib a) c' := by
  cases a with
  | callback =>
    obtain ⟨guarded, eq⟩ := Option.ite_none_right_eq_some.mp h
    obtain rfl := Option.some.inj eq
    exact .callback stack guarded
  | accept =>
    simp only [Context.libStep] at h
    split at h
    · obtain rfl := Option.some.inj h
      exact .accept stack
    · cases h
  | complete n status =>
    obtain ⟨held, eq⟩ := Option.ite_none_right_eq_some.mp h
    obtain rfl := Option.some.inj eq
    exact .complete stack held
  | event pd raw =>
    obtain ⟨⟨-, guarded⟩, eq⟩ := Option.ite_none_right_eq_some.mp h
    obtain rfl := Option.some.inj eq
    exact of_cpEvent stack guarded
  | command raw =>
    obtain ⟨⟨-, rfl⟩, eq⟩ := Option.ite_none_right_eq_some.mp h
    obtain rfl := Option.some.inj eq
    exact of_pdCommand stack
  | bioStart n =>
    obtain ⟨⟨rfl, held, kind⟩, eq⟩ := Option.ite_none_right_eq_some.mp h
    obtain rfl := Option.some.inj eq
    exact .bioStart stack held kind
  | completeRead n status =>
    obtain ⟨⟨held, kind⟩, eq⟩ := Option.ite_none_right_eq_some.mp h
    obtain rfl := Option.some.inj eq
    exact .completeRead stack held kind
  | bioEnd n =>
    obtain ⟨⟨rfl, free, runs⟩, eq⟩ := Option.ite_none_right_eq_some.mp h
    obtain rfl := Option.some.inj eq
    exact .bioEnd stack free runs
  | ret rc => exact of_libReturn stack h

theorem of_tick (h : c.tick = some c') : Rule c .tick c' := by
  unfold Context.tick at h
  split at h
  · next stack =>
    obtain rfl := Option.some.inj h
    exact .wake stack
  · next stack =>
    split at h
    · obtain rfl := Option.some.inj h
      exact .wakeStream stack
    · obtain rfl := Option.some.inj h
      exact .wakeEnd stack
  · next after below stack =>
    obtain rfl := Option.some.inj h
    cases after with
    | done => exact .done stack (.inl rfl) _
    | dropped count => exact .done stack (.inr ⟨count, rfl⟩) _
    | settle via n refused =>
      cases refused with
      | true => exact .reclaim stack
      | false =>
        cases via with
        | command => exact .settleCommand stack
        | event => exact .settleEvent stack
        | reply => exact .settleReply stack
  · cases h

/-- **The inversion of a step**: whatever a step does, one of the rules did it. -/
theorem of_step {act : Act} (h : step role c act = some c') : Rule c act c' := by
  cases act with
  | app a =>
    obtain ⟨top, eq⟩ := Option.ite_none_right_eq_some.mp h
    exact of_appStep top eq
  | lib a =>
    simp only [step] at h
    split at h
    · next stack => exact of_libStep stack h
    · cases h
  | tick => exact of_tick h

/-- The log only grows. -/
theorem log_grows {act : Act} (rule : Rule c act c') : c.log <:+ c'.log := by
  cases rule with
  | quiet | refresh | flush | drop | nextItem | parkStream | setHandler | appReturn | teardown
  | callback | handBack | bioStart | bioEnd | tornDown | wakeEnd | done =>
    exact List.suffix_refl _
  | offer | poll | stop | handlerReturn | accept | complete | completeRead | deliver | handle | wake
  | wakeStream | reclaim | settleCommand | settleEvent | settleReply =>
    exact List.suffix_cons _ _
  | answer log _ answers | queue _ log _ _ answers =>
    rcases answers with rfl | ⟨code, rfl⟩
    · exact List.suffix_refl _
    · exact List.suffix_cons _ _
  | leaveWaking | leaveFinishing => exact List.suffix_append _ _

end Rule

/-- The log of a run only grows. -/
theorem log_suffix_of_run {role : Role} {c c' : Context} {hops : List (Base.Hop Context Act)}
    (run : Base.Run (step role) c hops c') : c.log <:+ c'.log := by
  induction run with
  | nil => exact List.suffix_refl _
  | snoc _ hstep ih => exact ih.trans (Rule.of_step hstep).log_grows

end LibOsdp
