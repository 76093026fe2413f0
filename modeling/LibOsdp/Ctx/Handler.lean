import LibOsdp.Base.Loan
import LibOsdp.Ctx.Stack

/-!
# The command handler of a PD

LibOSDP's command callback takes the handler out of its slot, calls it, and puts it back unless
the slot was filled meanwhile: a cell on loan. Every command that converts goes to the handler
installed last, whatever handlers install from inside themselves.
-/

set_option autoImplicit false

namespace LibOsdp

open Base Sys

/-- The handler that the frame runs. -/
def Frame.handler : Frame → Option HandlerId
  | .app (.handler h _) => some h
  | _ => none

/-- The frame of application code. -/
def Frame.isApp : Frame → Bool
  | .app _ => true
  | _ => false

/-- The command callback gives a handler its command, or answers. -/
def Obs.ofCommand : Obs → Bool
  | .handled _ _ | .answered _ => true
  | _ => false

/-- The steps that have to do with the handler. -/
def Act.ofHandler : Act → Bool
  | .app (.setCommandHandler _) | .app (.ret _) | .lib (.command _) => true
  | _ => false

/-- The handler that a step installs. -/
def installed (h : Hop Context Act) : Option HandlerId :=
  match h.act with
  | .app (.setCommandHandler h') => some h'
  | _ => none

/-- The handler installed last. -/
def lastInstalled (hops : List (Hop Context Act)) : Option HandlerId :=
  (hops.filterMap installed).getLast?

/-- The handler that a step drops: one that `CallbackSlot::replace` finds in the slot, or one that
was replaced while `CallbackSlot::call` ran it. -/
def released (h : Hop Context Act) : Option HandlerId :=
  match h.act, h.src.stack with
  | .app (.setCommandHandler _), _ => h.src.handler
  | .app (.ret _), .app (.handler id _) :: _ => if h.src.handler.isSome then some id else none
  | _, _ => none

/-- What the command callback does with a command, the handler installed last being `last`. -/
def respond (last : Option HandlerId) (raw : OsdpCmd) : Obs :=
  if raw.id = OSDP_CMD_NOTIFICATION then .answered 0
  else
    match Command.tryFrom raw, last with
    | .ok cmd, some h => .handled h cmd
    | _, _ => .answered Nak.record.asC

/-- What LibOSDP is answered when the handler has returned. -/
def answerOf (nak : Option Nak) : Int := nak.elim 0 Nak.asC

theorem respond_cases {last : Option HandlerId} {raw : OsdpCmd} :
    (∃ h cmd, respond last raw = .handled h cmd ∧ last = some h ∧
      raw.id ≠ OSDP_CMD_NOTIFICATION ∧ Command.tryFrom raw = .ok cmd) ∨
    (∃ code, respond last raw = .answered code ∧ (code = 0 ↔ raw.id = OSDP_CMD_NOTIFICATION)) := by
  unfold respond
  split
  · next id => exact .inr ⟨0, rfl, by simp [id]⟩
  · next id =>
    split
    · next cmd h reads => exact .inl ⟨h, cmd, rfl, rfl, id, reads⟩
    · exact .inr ⟨_, rfl, by simp [id, Nak.asC]⟩

theorem answerOf_eq_zero {nak : Option Nak} : answerOf nak = 0 ↔ nak = none := by
  cases nak with
  | none => exact iff_of_true rfl rfl
  | some nak => cases nak <;> exact iff_of_false (by decide) nofun

namespace Context

variable {c c' : Context} {role : Role} {act : Act}

/-- What the command callback did, newest first. -/
def calls (c : Context) : List Obs := c.log.filter Obs.ofCommand

/-- The handler that runs. -/
def inUse (c : Context) : Option HandlerId := c.stack.findSome? Frame.handler

/-- The handler's slot, as a cell on loan. -/
def loan (c : Context) : Loan HandlerId := ⟨c.handler, c.inUse⟩

/-- What a step does to the loan. -/
def move (h : Hop Context Act) : Loan.Move HandlerId :=
  match h.act with
  | .app (.setCommandHandler h') => .install h'
  | .app (.ret _) => if (h.src.stack.head?.bind Frame.handler).isSome then .giveBack else .stay
  | .lib (.command raw) =>
    match respond h.src.handler raw with
    | .handled _ _ => .take
    | _ => .stay
  | _ => .stay

/-- The step has nothing to do with the handler. -/
structure Aside (c c' : Context) : Prop where
  handler : c'.handler = c.handler
  inUse : c'.inUse = c.inUse
  calls : c'.calls = c.calls

theorem aside_app {a : AppAct} (h : step role c (.app a) = some c')
    (other : (Act.app a).ofHandler = false) : c.Aside c' := by
  have rule := Rule.of_step h
  cases rule with
  | quiet | refresh | flush | drop | nextItem | parkStream | offer | poll | stop =>
    exact ⟨rfl, rfl, rfl⟩
  | teardown top stack => exact ⟨rfl, by rw [inUse, inUse, stack]; rfl, rfl⟩
  | setHandler | handlerReturn | appReturn => cases other

theorem Aside.trans {c'' : Context} (first : c.Aside c') (rest : c'.Aside c'') : c.Aside c'' :=
  ⟨rest.handler.trans first.handler, rest.inUse.trans first.inUse, rest.calls.trans first.calls⟩

theorem aside_tick (h : step role c .tick = some c') : c.Aside c' := by
  have rule := Rule.of_step h
  cases rule with
  | wake stack | wakeStream stack | wakeEnd stack | done stack | reclaim stack | settleCommand stack
  | settleEvent stack | settleReply stack =>
    exact ⟨rfl, by rw [inUse, inUse, stack]; rfl, rfl⟩

theorem aside_wakeWaiting {after : After} {below : List Frame} {call : Call}
    (stack : c.stack = .lib call :: below) : c.Aside (c.wakeWaiting after below) := by
  unfold wakeWaiting
  split <;> exact ⟨rfl, by rw [inUse, inUse, stack]; rfl, rfl⟩

theorem aside_refusal {call : Call} : c.Aside { c with log := call.refusal ++ c.log } := by
  refine ⟨rfl, rfl, ?_⟩
  rcases call.refusal_cases with none | ⟨n, one⟩
  · rw [none]
    rfl
  · rw [one]
    rfl

theorem aside_libReturn {call : Call} {below : List Frame} {rc : Int}
    (stack : c.stack = .lib call :: below) (h : c.libReturn call below rc = some c') :
    c.Aside c' := by
  cases call with
  | refresh =>
    obtain rfl := Option.some.inj h
    have same := @aside_wakeWaiting { c with busy := false } .done below _ stack
    exact ⟨same.handler, same.inUse, same.calls⟩
  | flush pd =>
    obtain rfl := Option.some.inj h
    exact aside_wakeWaiting stack
  | teardown =>
    obtain ⟨-, eq⟩ := Option.ite_none_right_eq_some.mp h
    obtain rfl := Option.some.inj eq
    exact ⟨rfl, by rw [inUse, inUse, stack]; rfl, rfl⟩
  | submit via n accepted =>
    simp only [libReturn] at h
    split at h
    · cases h
    · simp only [@Call.log_refusal c via n accepted] at h
      apply Aside.trans (@aside_refusal c (.submit via n accepted))
      cases via with
      | command =>
        obtain rfl := Option.some.inj h
        have same := @aside_wakeWaiting
          { c with busy := false, log := (Call.submit .command n accepted).refusal ++ c.log }
          (.settle .command n (rc < 0)) below _ stack
        exact ⟨same.handler, same.inUse, same.calls⟩
      | event =>
        obtain rfl := Option.some.inj h
        exact aside_wakeWaiting stack
      | reply =>
        obtain rfl := Option.some.inj h
        exact ⟨rfl, by rw [inUse, inUse]; simp only [stack]; rfl, rfl⟩

theorem aside_lib {a : LibAct} (h : step .pd c (.lib a) = some c')
    (other : (Act.lib a).ofHandler = false) : c.Aside c' := by
  simp only [step] at h
  split at h
  · next call below stack =>
    cases a with
    | callback =>
      obtain ⟨-, eq⟩ := Option.ite_none_right_eq_some.mp h
      obtain rfl := Option.some.inj eq
      exact ⟨rfl, rfl, rfl⟩
    | accept =>
      simp only [libStep] at h
      split at h
      · obtain rfl := Option.some.inj h
        exact ⟨rfl, by rw [inUse, inUse, stack]; rfl, rfl⟩
      · cases h
    | complete n status | completeRead n status =>
      obtain ⟨-, eq⟩ := Option.ite_none_right_eq_some.mp h
      obtain rfl := Option.some.inj eq
      exact ⟨rfl, rfl, rfl⟩
    | event pd raw => simp [libStep] at h
    | command raw => cases other
    | bioStart n | bioEnd n =>
      obtain ⟨-, eq⟩ := Option.ite_none_right_eq_some.mp h
      obtain rfl := Option.some.inj eq
      exact ⟨rfl, rfl, rfl⟩
    | ret rc => exact aside_libReturn stack h
  · cases h

/-- A step that has nothing to do with the handler. -/
theorem aside_of_step (h : step .pd c act = some c') (other : act.ofHandler = false) :
    c.Aside c' := by
  cases act with
  | app a => exact aside_app h other
  | lib a => exact aside_lib h other
  | tick => exact aside_tick h

/-- What the command callback does when LibOSDP calls it. -/
structure Responds (c : Context) (raw : OsdpCmd) (c' : Context) : Prop where
  calls : c'.calls = respond c.handler raw :: c.calls
  /-- A handler is taken out of its slot to be called. -/
  given : ∀ h cmd, respond c.handler raw = .handled h cmd →
    c'.handler = none ∧ c'.stack = .app (.handler h raw) :: c.stack
  answered : ∀ code, respond c.handler raw = .answered code →
    c'.handler = c.handler ∧ c'.stack = c.stack

theorem responds_pdCommand {raw : OsdpCmd} : c.Responds raw (c.pdCommand raw) := by
  unfold pdCommand
  split
  · next id =>
    have said : respond c.handler raw = .answered 0 := by simp [respond, id]
    cases Notification.tryFrom raw.payload.notif with
    | error fault => exact ⟨by rw [said]; rfl, by simp [said], fun _ _ => ⟨rfl, rfl⟩⟩
    | ok notification => exact ⟨by rw [said]; rfl, by simp [said], fun _ _ => ⟨rfl, rfl⟩⟩
  · next id =>
    cases reads : Command.tryFrom raw with
    | error fault =>
      have said : respond c.handler raw = .answered Nak.record.asC := by
        simp [respond, id, reads]
      exact ⟨by rw [said]; rfl, by simp [said], fun _ _ => ⟨rfl, rfl⟩⟩
    | ok cmd =>
      cases installed : c.handler with
      | none =>
        have said : respond none raw = .answered Nak.record.asC := by simp [respond, id, reads]
        exact ⟨by rw [installed, said]; rfl, by simp [installed, said], fun _ _ => ⟨rfl, rfl⟩⟩
      | some h =>
        have said : respond (some h) raw = .handled h cmd := by simp [respond, id, reads]
        refine ⟨by rw [installed, said]; rfl, ?_, by simp [installed, said]⟩
        rw [installed, said]
        rintro _ _ ⟨⟩
        exact ⟨rfl, rfl⟩

theorem responds_of_step {raw : OsdpCmd} (h : step role c (.lib (.command raw)) = some c') :
    c.Responds raw c' ∧ ∃ below, c.stack = .lib .refresh :: below := by
  simp only [step] at h
  split at h
  · next call below stack =>
    obtain ⟨⟨-, rfl⟩, eq⟩ := Option.ite_none_right_eq_some.mp h
    obtain rfl := Option.some.inj eq
    exact ⟨responds_pdCommand, below, stack⟩
  · cases h

/-- A handler returns: LibOSDP is answered, and the handler goes back unless it was replaced. -/
theorem handlerReturn_of_step {nak : Option Nak} {id : HandlerId} {raw : OsdpCmd}
    {below : List Frame} (h : step role c (.app (.ret nak)) = some c')
    (stack : c.stack = .app (.handler id raw) :: below) :
    c'.calls = .answered (answerOf nak) :: c.calls ∧ c'.handler = c.handler.or (some id) ∧
      c'.stack = below := by
  obtain ⟨-, eq⟩ := Option.ite_none_right_eq_some.mp h
  simp only [appStep, appReturn, stack] at eq
  obtain rfl := Option.some.inj eq
  exact ⟨rfl, rfl, rfl⟩

/-- Application code that is no handler returns. -/
theorem aside_of_return {nak : Option Nak} (h : step role c (.app (.ret nak)) = some c')
    (top : c.stack.head?.bind Frame.handler = none) : c.Aside c' := by
  obtain ⟨-, eq⟩ := Option.ite_none_right_eq_some.mp h
  simp only [appStep, appReturn] at eq
  split at eq
  · next stack =>
    rw [stack] at top
    cases top
  · next stack =>
    obtain rfl := Option.some.inj eq
    refine ⟨rfl, ?_, rfl⟩
    rw [stack] at top
    rw [inUse, inUse, stack, List.findSome?_cons]
    simp only [List.head?_cons, Option.bind_some] at top
    rw [top]
  · cases eq

theorem handler_on_top {id : HandlerId} (top : c.stack.head?.bind Frame.handler = some id) :
    ∃ raw below, c.stack = .app (.handler id raw) :: below := by
  obtain ⟨frame, head, runs⟩ := Option.bind_eq_some_iff.mp top
  obtain ⟨below, stack⟩ := List.head?_eq_some_iff.mp head
  cases frame with
  | lib | waking | finishing => cases runs
  | app code =>
    cases code with
    | callback | waker => cases runs
    | handler id' raw =>
      obtain rfl := Option.some.inj runs
      exact ⟨raw, below, stack⟩

theorem installs_of_step {id : HandlerId}
    (h : step role c (.app (.setCommandHandler id)) = some c') :
    c' = { c with handler := some id } := by
  obtain ⟨-, eq⟩ := Option.ite_none_right_eq_some.mp h
  obtain ⟨-, eq⟩ := Option.ite_none_right_eq_some.mp eq
  exact (Option.some.inj eq).symm

/-- A handler runs only inside a guarded call. -/
theorem inUse_of_unguarded {stack : List Frame} (nest : Nest stack)
    (free : stack.countP Frame.guarded = 0) : stack.findSome? Frame.handler = none := by
  induction stack with
  | nil => rfl
  | cons frame below ih =>
    have later := Nat.eq_zero_of_add_eq_zero_right ((List.countP_cons).symm.trans free)
    rw [List.findSome?_cons, ih nest.2 later]
    cases frame with
    | lib | waking | finishing => rfl
    | app code =>
      cases code with
      | callback | waker => rfl
      | handler id raw =>
        obtain ⟨rest, rfl⟩ := nest.1
        simp [Frame.guarded, Call.guarded] at later

/-- LibOSDP calls the command callback where no handler runs. -/
theorem idle_of_refresh {below : List Frame} (shape : c.Shape)
    (stack : c.stack = .lib .refresh :: below) : c.inUse = none := by
  have nest := shape.nest
  rw [stack] at nest
  rw [inUse, stack]
  show below.findSome? Frame.handler = none
  exact inUse_of_unguarded nest.2 (shape.busy.leave stack)

/-- Below a handler no other runs. -/
theorem idle_below {id : HandlerId} {raw : OsdpCmd} {below : List Frame} (shape : c.Shape)
    (stack : c.stack = .app (.handler id raw) :: below) :
    below.findSome? Frame.handler = none := by
  have nest := shape.nest
  have busy := shape.busy
  rw [stack] at nest
  rw [BusyExact, stack] at busy
  obtain ⟨rest, rfl⟩ := nest.1
  have bound := Bool.toNat_le c.busy
  have free : rest.countP Frame.guarded = 0 := by
    simp [List.countP_cons, Frame.guarded, Call.guarded] at busy
    omega
  show rest.findSome? Frame.handler = none
  exact inUse_of_unguarded nest.2.2 free

/-- **The loan of the handler**: each step of a PD moves its handler as a cell on loan moves. -/
theorem loan_of_step (shape : c.Shape) (h : step .pd c act = some c') :
    c.loan.step (move ⟨c, act, c'⟩) = some c'.loan := by
  have stay (other : act.ofHandler = false) :
      c.loan.step .stay = some c'.loan := by
    have same := aside_of_step h other
    rw [loan, loan, same.handler, same.inUse]
    rfl
  cases act with
  | tick => exact stay rfl
  | app a =>
    cases a with
    | setCommandHandler id =>
      obtain rfl := installs_of_step h
      rfl
    | ret nak =>
      cases top : c.stack.head?.bind Frame.handler with
      | none =>
        have same := aside_of_return h top
        simp only [move, top]
        rw [loan, loan, same.handler, same.inUse]
        rfl
      | some id =>
        obtain ⟨raw, below, stack⟩ := handler_on_top top
        obtain ⟨-, back, popped⟩ := handlerReturn_of_step h stack
        simp only [move, top]
        rw [loan, loan, inUse, inUse, popped, idle_below shape stack, back, stack]
        rfl
    | _ => exact stay rfl
  | lib a =>
    cases a with
    | command raw =>
      obtain ⟨responds, below, stack⟩ := responds_of_step h
      have idle := idle_of_refresh shape stack
      rcases @respond_cases c.handler raw with ⟨id, cmd, said, installed, -⟩ | ⟨code, said, -⟩
      · obtain ⟨taken, calls⟩ := responds.given id cmd said
        simp only [move, said]
        rw [loan, loan, idle, installed, taken, inUse, calls]
        rfl
      · obtain ⟨same, calls⟩ := responds.answered code said
        simp only [move, said]
        rw [loan, loan, same, inUse, inUse, calls]
        rfl
    | _ => exact stay rfl

theorem installed_move (h : Hop Context Act) : (move h).installed = installed h := by
  obtain ⟨c, act, c'⟩ := h
  cases act with
  | tick => rfl
  | app a =>
    cases a with
    | ret nak =>
      simp only [move]
      split <;> rfl
    | _ => rfl
  | lib a =>
    cases a with
    | command raw =>
      simp only [move]
      split <;> rfl
    | _ => rfl

theorem released_move (h : Hop Context Act) : h.src.loan.released (move h) = released h := by
  obtain ⟨c, act, c'⟩ := h
  cases act with
  | tick => rfl
  | app a =>
    cases a with
    | ret nak =>
      cases top : c.stack.head?.bind Frame.handler with
      | none =>
        have stays : move ⟨c, .app (.ret nak), c'⟩ = .stay := by simp [move, top]
        rw [stays]
        show none = released _
        unfold released
        split
        · next eq => cases eq
        · next stack =>
          rw [show c.stack = _ from stack] at top
          cases top
        · rfl
      | some id =>
        obtain ⟨raw, below, stack⟩ := handler_on_top top
        simp only [move, released, stack]
        rw [loan, inUse, stack]
        rfl
    | _ => rfl
  | lib a =>
    cases a with
    | command raw =>
      simp only [move]
      split <;> rfl
    | _ => rfl

/-- The handler's slot of a PD over a run is a cell on loan. -/
theorem loan_of_run {capacity : Nat} {pos : 0 < capacity} {hops : List (Hop Context Act)}
    (run : Run (LibOsdp.step .pd) (new capacity pos) hops c) :
    Run Loan.step {} (hops.map fun h => ⟨h.src.loan, move h, h.dst.loan⟩) c.loan := by
  show Run Loan.step (loan (new capacity pos))
    (hops.map fun h => ⟨loan h.src, move h, loan h.dst⟩) (loan c)
  apply run.simulate shape_new
  · intro x a y before h
    exact before.step (Rule.of_step h)
  · intro x a y shape h
    exact loan_of_step shape h

theorem map_installed {hops : List (Hop Context Act)} :
    ((hops.map fun h => (⟨h.src.loan, move h, h.dst.loan⟩ : Hop _ _)).filterMap
      fun h => h.act.installed) = hops.filterMap installed := by
  rw [List.filterMap_map]
  exact List.filterMap_congr fun h _ => installed_move h

theorem map_released {hops : List (Hop Context Act)} :
    ((hops.map fun h => (⟨h.src.loan, move h, h.dst.loan⟩ : Hop _ _)).filterMap
      fun h => h.src.released h.act) = hops.filterMap released := by
  rw [List.filterMap_map]
  exact List.filterMap_congr fun h _ => released_move h

/-- The handler in the slot or running is the one installed last. -/
theorem handler_of_run {capacity : Nat} {pos : 0 < capacity} {hops : List (Hop Context Act)}
    (run : Run (LibOsdp.step .pd) (new capacity pos) hops c) :
    c.handler.or c.inUse = lastInstalled hops := by
  have current := Loan.current_run (loan_of_run run)
  rw [map_installed] at current
  exact current.trans (Option.or_none ..)

/-- What a step of a PD, after the steps `before`, has to do with its handlers. -/
structure Serves (before : List (Hop Context Act)) (h : Hop Context Act) : Prop where
  /-- A command is answered at once, or given to the handler installed last, which then runs. -/
  command : ∀ raw, h.act = .lib (.command raw) →
    h.dst.calls = respond (lastInstalled before) raw :: h.src.calls ∧
      (∀ id cmd, respond (lastInstalled before) raw = .handled id cmd →
        h.dst.stack = .app (.handler id raw) :: h.src.stack) ∧
      ∀ code, respond (lastInstalled before) raw = .answered code → h.dst.stack = h.src.stack
  /-- What a handler returns is the answer, and the slot then holds the handler installed last. -/
  returned : ∀ nak id raw below, h.act = .app (.ret nak) →
    h.src.stack = .app (.handler id raw) :: below →
    h.dst.calls = .answered (answerOf nak) :: h.src.calls ∧
      h.dst.handler = lastInstalled before ∧ h.dst.stack = below
  /-- Nothing else gives a handler a command, or answers one. -/
  aside : (∀ raw, h.act ≠ .lib (.command raw)) →
    (∀ nak, h.act = .app (.ret nak) → h.src.stack.head?.bind Frame.handler = none) →
    h.dst.calls = h.src.calls ∧ h.dst.inUse = h.src.inUse
  /-- A handler that runs goes on running until it returns. -/
  finishes : ∀ id raw below, .app (.handler id raw) :: below <:+ h.src.stack →
    .app (.handler id raw) :: below <:+ h.dst.stack ∨
      (∃ nak, h.act = .app (.ret nak)) ∧ h.src.stack = .app (.handler id raw) :: below

/-- Code that runs under a method runs under whatever takes its place. -/
theorem running_under {code : Code} {frame : Frame} {below rest : List Frame}
    (runs : .app code :: below <:+ frame :: rest) (method : frame.isApp = false) :
    .app code :: below <:+ rest := by
  refine (List.suffix_cons_iff.mp runs).resolve_left ?_
  rintro ⟨⟩
  cases method

/-- The code that runs goes on running until it returns. -/
theorem running_of_rule {code : Code} {below : List Frame} (rule : Rule c act c')
    (runs : .app code :: below <:+ c.stack) :
    .app code :: below <:+ c'.stack ∨
      (∃ nak, act = .app (.ret nak)) ∧ c.stack = .app code :: below := by
  cases rule with
  | quiet | drop | poll | stop | nextItem | parkStream | setHandler | answer | queue | deliver
  | handBack | bioStart | bioEnd | complete | completeRead => exact .inl runs
  | refresh | flush | offer | callback | handle => exact .inl (runs.trans (List.suffix_cons _ _))
  | teardown top stack =>
    rw [stack] at runs
    cases List.eq_nil_of_suffix_nil runs
  | handlerReturn stack | appReturn stack =>
    rw [stack] at runs ⊢
    rcases List.suffix_cons_iff.mp runs with eq | later
    · exact .inr ⟨⟨_, rfl⟩, eq.symm⟩
    · exact .inl later
  | accept stack | leaveWaking stack | leaveFinishing stack | wakeEnd stack =>
    rw [stack] at runs
    have under := running_under runs rfl
    exact .inl (under.trans (List.suffix_cons _ _))
  | tornDown stack | done stack | reclaim stack | settleCommand stack | settleEvent stack
  | settleReply stack =>
    rw [stack] at runs
    exact .inl (running_under runs rfl)
  | wake stack | wakeStream stack =>
    rw [stack] at runs
    have under := running_under runs rfl
    exact .inl ((under.trans (List.suffix_cons _ _)).trans (List.suffix_cons _ _))

/-- Every step of a run serves the handler installed last. -/
theorem serves_of_run {capacity : Nat} {pos : 0 < capacity} {before : List (Hop Context Act)}
    (run : Run (LibOsdp.step .pd) (new capacity pos) before c)
    (h : LibOsdp.step .pd c act = some c') : Serves before ⟨c, act, c'⟩ where
  command := by
    rintro raw rfl
    obtain ⟨responds, below, stack⟩ := responds_of_step h
    have last := handler_of_run run
    rw [idle_of_refresh (shape_of_run run) stack, Option.or_none] at last
    rw [← last]
    refine ⟨responds.calls, ?_, ?_⟩
    · intro id cmd said
      exact (responds.given id cmd said).2
    · intro code said
      exact (responds.answered code said).2
  returned := by
    rintro nak id raw below rfl stack
    obtain ⟨calls, handler, popped⟩ := handlerReturn_of_step h stack
    have last := handler_of_run run
    rw [inUse, show c.stack = _ from stack] at last
    exact ⟨calls, handler.trans last, popped⟩
  aside := by
    intro noCommand noReturn
    cases act with
    | tick => exact ⟨(aside_tick h).calls, (aside_tick h).inUse⟩
    | lib a =>
      have other : (Act.lib a).ofHandler = false := by
        cases a with
        | command raw => exact absurd rfl (noCommand raw)
        | _ => rfl
      exact ⟨(aside_lib h other).calls, (aside_lib h other).inUse⟩
    | app a =>
      cases a with
      | setCommandHandler id =>
        obtain rfl := installs_of_step h
        exact ⟨rfl, rfl⟩
      | ret nak =>
        have same := aside_of_return h (noReturn nak rfl)
        exact ⟨same.calls, same.inUse⟩
      | _ => exact ⟨(aside_app h rfl).calls, (aside_app h rfl).inUse⟩
  finishes := by
    intro id raw below runs
    exact running_of_rule (Rule.of_step h) runs

/-- A handler is called with a command that converts, and it is the one installed last. -/
theorem Serves.called {before : List (Hop Context Act)} {h : Hop Context Act} {id : HandlerId}
    {cmd : Command} (serves : Serves before h)
    (called : h.dst.calls = .handled id cmd :: h.src.calls) :
    lastInstalled before = some id ∧ ∃ raw, h.act = .lib (.command raw) ∧
      raw.id ≠ OSDP_CMD_NOTIFICATION ∧ Command.tryFrom raw = .ok cmd := by
  by_cases command : ∃ raw, h.act = .lib (.command raw)
  · obtain ⟨raw, act⟩ := command
    have said := (List.cons.inj ((serves.command raw act).1.symm.trans called)).1
    rcases @respond_cases (lastInstalled before) raw with
      ⟨id', cmd', eq, last, plain, reads⟩ | ⟨code, eq, -⟩
    · rw [said] at eq
      cases eq
      exact ⟨last, raw, act, plain, reads⟩
    · rw [said] at eq
      cases eq
  · have noCommand : ∀ raw, h.act ≠ .lib (.command raw) := fun raw eq => command ⟨raw, eq⟩
    by_cases noReturn : ∀ nak, h.act = .app (.ret nak) →
        h.src.stack.head?.bind Frame.handler = none
    · rw [(serves.aside noCommand noReturn).1] at called
      exact absurd called (List.cons_ne_self _ _).symm
    · obtain ⟨nak, other⟩ := not_forall.mp noReturn
      obtain ⟨act, top⟩ := Classical.not_imp.mp other
      obtain ⟨id', top⟩ := Option.ne_none_iff_exists'.mp top
      obtain ⟨raw, below, stack⟩ := handler_on_top top
      rw [(serves.returned nak id' raw below act stack).1] at called
      cases called

/-- A handler that was replaced is not called until it is installed again. -/
theorem reinstalled_of_called {before middle : List (Hop Context Act)} {g h : Hop Context Act}
    {id : HandlerId} {cmd : Command} (serves : Serves (before ++ g :: middle) h)
    (replaces : (installed g).isSome) (called : h.dst.calls = .handled id cmd :: h.src.calls) :
    id ∈ (g :: middle).filterMap installed := by
  have last := (serves.called called).1
  obtain ⟨new, eq⟩ := Option.isSome_iff_exists.mp replaces
  rw [lastInstalled, List.filterMap_append, List.filterMap_cons_some eq,
    List.getLast?_append_of_ne_nil _ (List.cons_ne_nil _ _)] at last
  rw [List.filterMap_cons_some eq]
  exact List.mem_of_getLast? last

/-- **A PD's commands reach the current handler**: a command that converts is given, once, to the
    handler installed last, and nothing else reaches one; that handler is in the slot, or runs;
    one that was replaced is not called again; and what was installed is released, once, when it
    is neither in the slot nor running. LibOSDP is answered 0 for a notification or by a handler
    that does not refuse. -/
theorem commands_reach_handler {capacity : Nat} {pos : 0 < capacity}
    {hops : List (Hop Context Act)}
    (run : Run (LibOsdp.step .pd) (new capacity pos) hops c) :
    (∀ before h after, hops = before ++ h :: after → Serves before h) ∧
      c.handler.or c.inUse = lastInstalled hops ∧
      (∀ before g middle h after id cmd, hops = before ++ g :: (middle ++ h :: after) →
        (installed g).isSome → h.dst.calls = .handled id cmd :: h.src.calls →
        id ∈ (g :: middle).filterMap installed) ∧
      (hops.filterMap installed).Perm
        (hops.filterMap released ++ (c.handler.toList ++ c.inUse.toList)) ∧
      ((hops.filterMap installed).Nodup → ∀ id ∈ hops.filterMap installed,
        (id ∈ hops.filterMap released ↔ c.handler ≠ some id ∧ c.inUse ≠ some id)) ∧
      (∀ last raw, respond last raw = .answered 0 ↔ raw.id = OSDP_CMD_NOTIFICATION) ∧
      ∀ nak, answerOf nak = 0 ↔ nak = none := by
  have serves : ∀ before h after, hops = before ++ h :: after → Serves before h := by
    rintro before h after rfl
    obtain ⟨pre, hstep, -⟩ := run.cut_at
    exact serves_of_run pre hstep
  have loan := loan_of_run run
  refine ⟨serves, handler_of_run run, ?_, ?_, ?_, ?_, fun nak => answerOf_eq_zero⟩
  · intro before g middle h after id cmd eq replaces called
    refine reinstalled_of_called (serves (before ++ g :: middle) h after ?_) replaces called
    rw [eq, List.append_assoc, List.cons_append]
  · have perm := Loan.owned_run loan
    rw [map_installed, map_released] at perm
    exact perm
  · intro once id mem
    rw [← map_installed] at once mem
    rw [← map_released]
    exact Loan.released_iff loan once mem
  · intro last raw
    rcases @respond_cases last raw with ⟨id, cmd, eq, -, plain, -⟩ | ⟨code, eq, zero⟩
    · rw [eq]
      exact iff_of_false nofun plain
    · rw [eq, Obs.answered.injEq]
      exact zero

/-- A handler that replaces itself answers its command, and the next goes to the other. -/
theorem commands_reach_handler_selfReplaced : ∃ hops c,
    Run (LibOsdp.step .pd) (new 32 (by decide)) hops c ∧ c.handler = some 2 ∧
      c.calls = [.answered (-8), .handled 2 (.mfg ⟨(0, 0, 0), []⟩), .answered 0,
        .handled 1 (.mfg ⟨(0, 0, 0), []⟩)] ∧
      1 ∈ hops.filterMap released := by
  let raw : OsdpCmd := { id := OSDP_CMD_MFG }
  let acts : List Act :=
    [.app (.setCommandHandler 1), .app .refresh, .lib (.command raw), .app (.setCommandHandler 2),
      .app (.ret none), .lib (.command raw), .app (.ret (some .bioFormat))]
  have run := @run_trace _ _ (LibOsdp.step .pd) acts (new 32 (by decide)) (by decide)
  obtain ⟨-, -, -, -, releases, -⟩ := commands_reach_handler run
  exact ⟨_, _, run, rfl, by decide, (releases (by decide) 1 (by decide)).mpr (by decide)⟩

end Context

end LibOsdp
