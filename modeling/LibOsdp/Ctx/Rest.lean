import LibOsdp.Base.Potential
import LibOsdp.Ctx.Stream
import LibOsdp.Ctx.Wake

/-!
# Coming to rest

Callbacks call methods, methods wake wakers, and wakers call methods again, to any depth. None of
it goes on by itself: what is left to do in a context is put there by calls, so much by each, and
every return takes from it. `wake_waiting` takes the wakers that are there before it wakes the
first, and looks at the queue once.
-/

set_option autoImplicit false

namespace LibOsdp

open Base

/-- The step ends something: application code or a LibOSDP call returns, LibOSDP completes a
    submission, or a method goes on. -/
def Act.settles : Act → Bool
  | .app (.ret _) | .lib (.ret _) | .lib (.complete _ _) | .lib (.completeRead _ _) | .tick => true
  | _ => false

/-- How many steps a frame can take before it is gone, with those of the wakers it wakes. -/
def Frame.load : Frame → Nat
  | .app _ | .finishing _ => 1
  | .waking rest _ => 3 + 2 * rest.length
  | .lib _ => 4

namespace Context

variable {c c' : Context} {role : Role} {act : Act} {below : List Frame}

/-- How many steps a context can take before it is at rest: a submission that LibOSDP holds can be
    completed, and its waker woken. -/
def load (c : Context) : Nat :=
  (c.stack.map Frame.load).sum + 2 * c.wakeups.length + 3 * c.held.length

/-- No method is running, and nothing that a method has to do is left. -/
structure Idle (c : Context) : Prop where
  stack : c.stack = []
  busy : c.busy = false
  wakeups : c.torn = false → c.wakeups = []
  stream : ¬ c.Asleep

@[simp] theorem load_new {capacity : Nat} {pos : 0 < capacity} : (new capacity pos).load = 0 := rfl

/-! ## What a return takes -/

theorem load_appReturn {nak : Option Nak} (h : c.appReturn nak = some c') :
    c'.load < c.load ∧ c'.queue = c.queue := by
  unfold appReturn at h
  split at h
  · next stack =>
    obtain rfl := Option.some.inj h
    refine ⟨?_, rfl⟩
    simp only [load, stack, List.map_cons, List.sum_cons, Frame.load]
    omega
  · next stack =>
    obtain rfl := Option.some.inj h
    refine ⟨?_, rfl⟩
    simp only [load, stack, List.map_cons, List.sum_cons, Frame.load]
    omega
  · cases h

/-- `wake_waiting` takes no more on than the call that it follows. -/
theorem load_wakeWaiting {after : After} {call : Call} (stack : c.stack = .lib call :: below) :
    (c.wakeWaiting after below).load < c.load ∧ (c.wakeWaiting after below).queue = c.queue := by
  unfold wakeWaiting
  split
  · refine ⟨?_, rfl⟩
    simp only [load, stack, List.map_cons, List.sum_cons, Frame.load]
    omega
  · refine ⟨?_, rfl⟩
    simp only [load, stack, List.map_cons, List.sum_cons, Frame.load, List.length_nil]
    omega

theorem load_libReturn {call : Call} {rc : Int} (stack : c.stack = .lib call :: below)
    (h : c.libReturn call below rc = some c') : c'.load < c.load ∧ c'.queue = c.queue := by
  cases call with
  | refresh =>
    obtain rfl := Option.some.inj h
    exact @load_wakeWaiting { c with busy := false } _ _ _ stack
  | flush pd =>
    obtain rfl := Option.some.inj h
    exact load_wakeWaiting stack
  | teardown =>
    obtain ⟨-, eq⟩ := Option.ite_none_right_eq_some.mp h
    obtain rfl := Option.some.inj eq
    refine ⟨?_, rfl⟩
    simp only [load, stack, List.map_cons, List.sum_cons, Frame.load]
    omega
  | submit via n accepted =>
    obtain ⟨-, eq⟩ := Option.ite_none_left_eq_some.mp h
    -- what is put into the log is no work
    have told : ∀ log busy, ∀ after : After,
        ({ c with log, busy }.wakeWaiting after below).load < c.load ∧
          ({ c with log, busy }.wakeWaiting after below).queue = c.queue := fun log busy after =>
      @load_wakeWaiting { c with log, busy } _ _ _ stack
    rw [@Call.log_refusal c via n accepted] at eq
    cases via with
    | command | event =>
      obtain rfl := Option.some.inj eq
      exact told _ _ _
    | reply =>
      obtain rfl := Option.some.inj eq
      refine ⟨?_, rfl⟩
      simp only [load, stack, List.map_cons, List.sum_cons, Frame.load]
      omega

theorem load_complete {n : Sub} {status : UInt8} (held : n ∈ c.held) :
    (c.complete n status).load < c.load := by
  have some := List.length_pos_of_mem held
  have waker : (c.slots n).waker.toList.length ≤ 1 := by cases (c.slots n).waker <;> simp
  simp only [load, complete, List.length_append, List.length_map, List.length_erase_of_mem held]
  omega

theorem finish_keeps {after : After} : (c.finish after).stack = c.stack ∧
    (c.finish after).wakeups = c.wakeups ∧ (c.finish after).held = c.held ∧
      (c.finish after).queue = c.queue := by
  unfold finish
  split
  · exact ⟨rfl, rfl, rfl, rfl⟩
  · exact ⟨rfl, rfl, rfl, rfl⟩
  · exact ⟨rfl, rfl, rfl, rfl⟩
  · next via n => cases via <;> exact ⟨rfl, rfl, rfl, rfl⟩

theorem load_tick (h : c.tick = some c') : c'.load < c.load ∧ c'.queue = c.queue := by
  unfold tick at h
  split at h
  · next stack =>
    obtain rfl := Option.some.inj h
    refine ⟨?_, rfl⟩
    simp only [load, stack, List.map_cons, List.sum_cons, Frame.load, List.length_cons]
    omega
  · next stack =>
    split at h
    · obtain rfl := Option.some.inj h
      refine ⟨?_, rfl⟩
      simp only [load, stack, List.map_cons, List.sum_cons, Frame.load]
      omega
    · obtain rfl := Option.some.inj h
      refine ⟨?_, rfl⟩
      simp only [load, stack, List.map_cons, List.sum_cons, Frame.load]
      omega
  · next after below stack =>
    obtain rfl := Option.some.inj h
    obtain ⟨eq, wakeups, held, queue⟩ := @finish_keeps { c with stack := below } after
    refine ⟨?_, queue⟩
    rw [load, eq, wakeups, held]
    simp only [load, stack, List.map_cons, List.sum_cons, Frame.load]
    omega
  · cases h

/-- **The step of a return**: it leaves less to do, and takes nothing from the queue. -/
theorem load_of_settles (h : LibOsdp.step role c act = some c') (settles : act.settles) :
    c'.load < c.load ∧ c'.queue = c.queue := by
  cases act with
  | app act =>
    obtain ⟨-, h⟩ := Option.ite_none_right_eq_some.mp h
    cases act with
    | ret nak => exact load_appReturn h
    | _ => cases settles
  | lib act =>
    simp only [LibOsdp.step] at h
    split at h
    · next call below stack =>
      cases act with
      | ret rc => exact load_libReturn stack h
      | complete n status =>
        obtain ⟨held, eq⟩ := Option.ite_none_right_eq_some.mp h
        obtain rfl := Option.some.inj eq
        exact ⟨load_complete held, rfl⟩
      | completeRead n status =>
        obtain ⟨⟨held, -⟩, eq⟩ := Option.ite_none_right_eq_some.mp h
        obtain rfl := Option.some.inj eq
        exact ⟨@load_complete c n status held, rfl⟩
      | _ => cases settles
    · cases h
  | tick => exact load_tick h

/-! ## What any step adds -/

/-- **The step of the load**: a call or a callback adds a frame, and a submission that LibOSDP takes
    is there to be completed. -/
theorem load_of_step (rule : Rule c act c') : c'.load ≤ c.load + 4 := by
  cases rule with
  | quiet | drop | poll | stop | nextItem | parkStream | setHandler | answer | queue | deliver
  | handBack | bioStart | bioEnd => exact Nat.le_add_right _ _
  | refresh | flush | offer | callback | handle =>
    simp only [load, offer, List.map_cons, List.sum_cons, Frame.load]
    omega
  | teardown top stack =>
    simp only [load, stack, List.map_cons, List.sum_cons, Frame.load, List.map_nil, List.sum_nil]
    omega
  | accept stack =>
    simp only [load, accept, stack, List.map_cons, List.sum_cons, Frame.load, List.length_append,
      List.length_singleton]
    omega
  | @complete n status _ _ stack held | @completeRead n status _ _ stack held =>
    exact Nat.le_add_right_of_le (@load_complete c n status held).le
  | handlerReturn stack | appReturn stack | leaveFinishing stack | tornDown stack | wake stack
  | wakeStream stack | wakeEnd stack | done stack | reclaim stack | settleReply stack =>
    simp only [load, stack, List.map_cons, List.sum_cons, Frame.load, List.length_cons]
    omega
  | leaveWaking stack =>
    simp only [load, stack, List.map_cons, List.sum_cons, Frame.load, List.length_nil]
    omega
  | settleCommand stack | settleEvent stack =>
    simp only [load, routeReply, newHandle, stack, List.map_cons, List.sum_cons, Frame.load]
    omega

theorem load_potential : Potential (LibOsdp.step role) Act.settles load 4 where
  pay h settles := (load_of_settles h settles).1
  add h := load_of_step (Rule.of_step h)

/-! ## What can be returned from -/

theorem idle_of_run {capacity : Nat} {pos : 0 < capacity} {hops : List (Hop Context Act)}
    (run : Run (LibOsdp.step role) (new capacity pos) hops c) (rest : c.stack = []) : c.Idle where
  stack := rest
  busy := by
    have exact' := (shape_of_run run).busy
    rw [BusyExact, rest] at exact'
    exact Bool.toNat_eq_zero.mp exact'.symm
  wakeups := collected_of_run run (by rw [rest]; exact noLib_nil)
  stream asleep := by
    obtain ⟨frame, mem, -⟩ := watched_of_run run asleep
    rw [rest] at mem
    cases mem

/-- **Nothing is stuck**: whatever is on top can end, the teardown with what LibOSDP still holds. -/
theorem settles_of_shape (shape : c.Shape) : c.stack = [] ∨
    ∃ act c', act.settles = true ∧ LibOsdp.step role c act = some c' := by
  cases stack : c.stack with
  | nil => exact .inl rfl
  | cons frame below =>
    apply Or.inr
    cases frame with
    | app code =>
      have alive : c.torn = false := by
        by_contra torn
        have rest := (shape.torn (by simpa using torn)).2
        rw [stack] at rest
        cases rest
      have top : c.atApp := atApp_iff.mpr ⟨alive, .inr ⟨code, below, stack⟩⟩
      refine ⟨.app (.ret none), ?_⟩
      simp only [LibOsdp.step, top, if_true, appStep, appReturn, stack]
      cases code <;> exact ⟨_, rfl, rfl⟩
    | waking rest after =>
      refine ⟨.tick, ?_⟩
      simp only [LibOsdp.step, tick, stack]
      cases rest with
      | nil => cases c.queue.isEmpty <;> cases c.streamWaker <;> exact ⟨_, rfl, rfl⟩
      | cons => exact ⟨_, rfl, rfl⟩
    | finishing after =>
      refine ⟨.tick, ?_⟩
      simp only [LibOsdp.step, tick, stack]
      exact ⟨_, rfl, rfl⟩
    | lib call =>
      cases call with
      | refresh | flush =>
        refine ⟨.lib (.ret 0), ?_⟩
        simp only [LibOsdp.step, stack, libStep, libReturn]
        exact ⟨_, rfl, rfl⟩
      | submit via n accepted =>
        refine ⟨.lib (.ret (if accepted then 0 else -1)), ?_⟩
        simp only [LibOsdp.step, stack, libStep, libReturn]
        cases accepted <;> cases via <;> exact ⟨_, rfl, rfl⟩
      | teardown =>
        cases held : c.held with
        | nil =>
          refine ⟨.lib (.ret 0), ?_⟩
          simp only [LibOsdp.step, stack, libStep, libReturn, held, if_true]
          exact ⟨_, rfl, rfl⟩
        | cons n rest =>
          refine ⟨.lib (.complete n OSDP_COMPLETION_ABORTED), ?_⟩
          simp only [LibOsdp.step, stack, libStep, held, List.mem_cons_self, if_true]
          exact ⟨_, rfl, rfl⟩

/-- **Methods come to an end**: in every run there are at most four returns, completions and steps
    of methods for each call and callback; and from every state that is reached, they alone lead
    to one where nothing is running or left to do, which takes nothing from the queue. -/
theorem methods_end {capacity : Nat} {pos : 0 < capacity} {hops : List (Hop Context Act)}
    (run : Run (LibOsdp.step role) (new capacity pos) hops c) :
    hops.countP (fun h => h.act.settles) + c.load ≤ 4 * hops.countP (fun h => !h.act.settles) ∧
      (∀ more c', Run (LibOsdp.step role) c more c' → (∀ h ∈ more, h.act.settles = true) →
        more.length ≤ c.load ∧ c'.queue = c.queue ∧
          (c'.Idle ∨ ∃ act c'', act.settles = true ∧ LibOsdp.step role c' act = some c'')) ∧
      ∃ more c', Run (LibOsdp.step role) c more c' ∧ (∀ h ∈ more, h.act.settles = true) ∧
        c'.Idle := by
  have amortized := load_potential.amortized run
  rw [load_new, Nat.zero_add] at amortized
  refine ⟨amortized, ?_, ?_⟩
  · intro more c' rest all
    have whole := run.trans rest
    have short := load_potential.length_le rest all
    refine ⟨by omega, ?_, ?_⟩
    · exact rest.invariant (I := fun x => x.queue = c.queue) all rfl fun same settles h =>
        (load_of_settles h settles).2.trans same
    · exact (settles_of_shape (shape_of_run whole)).imp_left (idle_of_run whole)
  · have settled : ∃ more c', Run (LibOsdp.step role) c more c' ∧
        (∀ h ∈ more, h.act.settles = true) ∧ c'.stack = [] :=
      load_potential.settles (I := Shape) (fun shape h => shape.step (Rule.of_step h))
        settles_of_shape (shape_of_run run)
    obtain ⟨more, c', rest, all, stack⟩ := settled
    exact ⟨more, c', rest, all, idle_of_run (run.trans rest) stack⟩

/-- A channel op is flushing the command that a task waits for: in eleven steps at most the task is
    woken and the refresh has returned. -/
theorem methods_end_flushInCallback : ∃ hops c more c',
    Run (LibOsdp.step .cp) (new 32 (by decide)) hops c ∧ c.stack.length = 3 ∧
      Run (LibOsdp.step .cp) c more c' ∧ more.length ≤ 11 ∧ c'.Idle := by
  let n : Sub := ⟨0, 0, some .fileTransfer, false⟩
  let acts : List Act :=
    [.app (.submit 0 (.submit (.fileTx ⟨1⟩))), .lib .accept, .lib (.ret 0), .tick, .tick,
      .app (.poll n 7), .app .refresh, .lib .callback, .app (.flush 0),
      .lib (.complete n OSDP_COMPLETION_FLUSHED)]
  have run := @run_trace _ _ (LibOsdp.step .cp) acts (new 32 (by decide)) (by decide)
  obtain ⟨-, bounded, more, c', rest, all, idle⟩ := methods_end run
  exact ⟨_, _, more, c', run, rfl, rest, (bounded more c' rest all).1, idle⟩

end Context

end LibOsdp
