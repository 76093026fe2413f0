import LibOsdp.Ctx.Rules

/-!
# The busy guard

The flag of `Busy` counts the guarded LibOSDP calls on the stack, whatever application code runs
inside them and however deep it calls back: there is never more than one, a nested `refresh` does
nothing, a nested submission is refused before anything is made of it, and a context outside
every guarded call refuses neither.
-/

set_option autoImplicit false

namespace LibOsdp

open Base Function

namespace Context

/-- The flag counts the guarded calls on the stack. -/
def BusyExact (c : Context) : Prop := c.stack.countP Frame.guarded = c.busy.toNat

variable {c c' : Context} {role : Role} {act : Act}

theorem busyExact_new {capacity : Nat} {pos : 0 < capacity} : (new capacity pos).BusyExact := rfl

/-- Leaving `call` takes the flag down exactly when `call` was guarded. -/
theorem BusyExact.leave {call : Call} {below : List Frame} (h : c.BusyExact)
    (stack : c.stack = .lib call :: below) :
    below.countP Frame.guarded = (!call.guarded && c.busy).toNat := by
  have count := h
  rw [BusyExact, stack, List.countP_cons, Frame.guarded] at count
  have bound := Bool.toNat_le c.busy
  cases guarded : call.guarded with
  | true =>
    simp only [guarded, if_true] at count
    simp only [Bool.not_true, Bool.false_and, Bool.toNat_false]
    omega
  | false => simpa [guarded] using count

/-- **The step of the guard**: every step keeps the flag exact. -/
theorem BusyExact.step (h : c.BusyExact) (rule : Rule c act c') : c'.BusyExact := by
  have exact' := h
  rw [BusyExact] at exact'
  cases rule with
  | quiet | drop | poll | stop | nextItem | parkStream | setHandler | complete | completeRead
  | answer | queue | deliver | handBack | bioStart | bioEnd => exact h
  | refresh top free => simp [BusyExact, List.countP_cons, exact', free, Frame.guarded, Call.guarded]
  | @offer _ via n raw top calls fresh free =>
    cases via with
    | command =>
      simp [BusyExact, exact', free rfl, Frame.guarded, Call.guarded]
    | event | reply =>
      simpa [BusyExact, List.countP_cons, Frame.guarded, Call.guarded] using exact'
  | flush | callback | handle =>
    simpa [BusyExact, List.countP_cons, Frame.guarded, Call.guarded] using exact'
  | teardown top stack | handlerReturn stack | appReturn stack | wakeEnd stack | wake stack
  | wakeStream stack | done stack | tornDown stack | reclaim stack | settleCommand stack
  | settleEvent stack | settleReply stack =>
    simpa [BusyExact, stack, List.countP_cons, Frame.guarded, Call.guarded] using exact'
  | accept stack =>
    simpa [BusyExact, stack, List.countP_cons, Frame.guarded, Call.guarded] using exact'
  | leaveWaking stack => simpa [BusyExact, List.countP_cons, Frame.guarded] using h.leave stack
  | leaveFinishing stack tells inner =>
    have left := h.leave stack
    rw [inner] at left
    simpa [BusyExact, List.countP_cons, Frame.guarded] using left

/-- The flag is exact in every state a run reaches. -/
theorem busyExact_of_run {capacity : Nat} {pos : 0 < capacity} {hops : List (Hop Context Act)}
    (run : Run (LibOsdp.step role) (new capacity pos) hops c) : c.BusyExact :=
  run.always busyExact_new fun before hstep => before.step (Rule.of_step hstep)

/-- What the guard makes of the calls that can be made at `c`. -/
structure Guards (role : Role) (c : Context) : Prop where
  /-- The flag is set exactly while a guarded call is on the stack. -/
  exact : c.busy = true ↔ ∃ frame ∈ c.stack, frame.guarded = true
  /-- Guarded calls do not nest. -/
  single : c.stack.countP Frame.guarded ≤ 1
  /-- A nested `refresh` does nothing. -/
  nestedRefresh : c.atApp → c.busy = true →
    LibOsdp.step role c (.app .refresh) = some { c with ret := .unit }
  /-- A nested submission is rejected, and nothing is made of it. -/
  nestedSubmit : c.atApp → c.busy = true → role = .cp → ∀ pd request,
    LibOsdp.step role c (.app (.submit pd request)) =
      some { c with ret := .error (.err .rejected) }
  /-- Whatever way a guarded call returns, the flag is clear. -/
  returns : ∀ call below rc c', c.stack = .lib call :: below → call.guarded = true →
    LibOsdp.step role c (.lib (.ret rc)) = some c' → c'.busy = false
  /-- Outside every method, the flag is clear. -/
  outermost : c.stack = [] → c.busy = false
  /-- With the flag clear, `refresh` goes ahead. -/
  refreshes : c.atApp → c.busy = false →
    LibOsdp.step role c (.app .refresh) =
      some { c with busy := true, stack := .lib .refresh :: c.stack }
  /-- With the flag clear, a submission fails only as its conversion does, which leaves the flag
  clear, and is offered to LibOSDP otherwise. -/
  submits : c.atApp → c.busy = false → role = .cp → ∀ pd request,
    LibOsdp.step role c (.app (.submit pd request)) =
      match request.cmd.tryInto with
      | .error fault => some { c with ret := .error fault }
      | .ok raw =>
        some ({ c with busy := true }.offer .command
          ⟨c.next, pd, request.cmd.multipartKind, request.wantsReply⟩ (.cmd raw))

theorem BusyExact.iff (h : c.BusyExact) :
    c.busy = true ↔ ∃ frame ∈ c.stack, frame.guarded = true := by
  rw [← List.countP_pos_iff, h]
  cases c.busy <;> simp

theorem BusyExact.single (h : c.BusyExact) : c.stack.countP Frame.guarded ≤ 1 := by
  rw [h]
  exact Bool.toNat_le _

theorem wakeWaiting_busy {after : After} {below : List Frame} :
    (c.wakeWaiting after below).busy = c.busy := by
  unfold wakeWaiting
  split <;> rfl

theorem busy_of_returns {call : Call} {below : List Frame} {rc : Int}
    (stack : c.stack = .lib call :: below) (guarded : call.guarded = true)
    (hstep : LibOsdp.step role c (.lib (.ret rc)) = some c') : c'.busy = false := by
  have hret : c.libReturn call below rc = some c' := by
    simpa only [LibOsdp.step, stack, libStep] using hstep
  cases call with
  | refresh =>
    obtain rfl := Option.some.inj hret
    exact wakeWaiting_busy
  | submit via n accepted =>
    obtain rfl : via = .command := by simpa [Call.guarded] using guarded
    obtain ⟨-, eq⟩ := Option.ite_none_left_eq_some.mp hret
    obtain rfl := Option.some.inj eq
    exact wakeWaiting_busy
  | flush | teardown => cases guarded

theorem queueCommand_of_free {pd : PdIndex} {cmd : Command} {wantsReply : Bool}
    (free : c.busy = false) : c.queueCommand pd cmd wantsReply =
      match cmd.tryInto with
      | .error fault => { c with ret := .error fault }
      | .ok raw =>
        { c with busy := true }.offer .command ⟨c.next, pd, cmd.multipartKind, wantsReply⟩
          (.cmd raw) := by
  have same : { c with busy := false } = c := by rw [← free]
  unfold queueCommand
  rw [if_neg (by simp [free])]
  cases cmd.tryInto with
  | error fault =>
    have ret := congrArg (fun x : Context => { x with ret := .error fault }) same
    exact ret
  | ok raw => rfl

/-- **The busy guard is exact under any re-entrancy**: in every state that any run of a context
reaches, with application code calling back into it from callbacks, handlers and wakers to any
depth. -/
theorem busy_guard_exact {role : Role} {capacity : Nat} {pos : 0 < capacity} {c : Context}
    {hops : List (Hop Context Act)} (run : Run (LibOsdp.step role) (new capacity pos) hops c) :
    c.Guards role := by
  have h := busyExact_of_run run
  exact {
    exact := h.iff
    single := h.single
    nestedRefresh := by
      intro top busy
      simp [LibOsdp.step, top, appStep, refresh, busy]
    nestedSubmit := by
      intro top busy isCp pd request
      simp [LibOsdp.step, top, appStep, isCp, queueCommand, busy]
    returns := fun call below rc c' stack guarded hstep => busy_of_returns stack guarded hstep
    outermost := by
      intro stack
      by_contra busy
      obtain ⟨frame, mem, -⟩ := h.iff.mp (by simpa using busy)
      rw [stack] at mem
      cases mem
    refreshes := by
      intro top free
      simp [LibOsdp.step, top, appStep, refresh, free]
    submits := by
      intro top free isCp pd request
      rw [LibOsdp.step, if_pos top, appStep, if_pos isCp, queueCommand_of_free free]
      cases request.cmd.tryInto <;> rfl }

/-- A channel op of a control panel refreshes it and submits to it, and is turned away twice. -/
theorem busy_guard_exact_channelOp : ∃ hops c,
    Run (LibOsdp.step .cp) (new 32 (by decide)) hops c ∧ hops.length = 4 ∧ c.busy = true ∧
      c.Guards .cp := by
  let acts : List Act :=
    [.app .refresh, .lib .callback, .app .refresh, .app (.submit 0 (.submit (.fileTx ⟨1⟩)))]
  have run := @run_trace _ _ (LibOsdp.step .cp) acts (new 32 (by decide)) (by decide)
  exact ⟨_, _, run, rfl, rfl, busy_guard_exact run⟩

end Context

end LibOsdp
