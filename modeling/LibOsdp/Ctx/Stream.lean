import LibOsdp.Ctx.Drain

/-!
# The stream's waker

A stream that finds the queue empty parks its waker. Items come only while a guarded LibOSDP call
is on the stack, and such a call is followed by a `wake_waiting` that looks at the queue, so that
a parked waker and a queued item are never together without a frame that is yet to look.
-/

set_option autoImplicit false

namespace LibOsdp

open Base Sys

/-- The method of the frame is yet to look at the queue. -/
def Frame.checks : Frame → Bool
  | .lib call => call.guarded
  | .waking _ _ => true
  | _ => false

/-- Some method of the stack is yet to look at the queue. -/
def Checked (stack : List Frame) : Prop := ∃ frame ∈ stack, frame.checks

/-- No method of the context is on the stack. -/
def NoMethod (stack : List Frame) : Prop := ∀ frame ∈ stack, ∃ code, frame = .app code

theorem checked_cons {frame : Frame} {below : List Frame} :
    Checked (frame :: below) ↔ frame.checks ∨ Checked below := by
  simp [Checked]

theorem noMethod_nil : NoMethod [] := by
  intro frame mem
  cases mem

theorem NoMethod.not_checked {stack : List Frame} (h : NoMethod stack) : ¬ Checked stack := by
  rintro ⟨frame, mem, checks⟩
  obtain ⟨code, rfl⟩ := h frame mem
  cases checks

/-- The waker of a poll that finds the stream pending. -/
def pendingPoll (h : Hop Context Act) : Option Waker :=
  match h.act, h.dst.ret with
  | .app (.pollStream w), .item none => some w
  | _, _ => none

theorem pendingPoll_eq_some {h : Hop Context Act} {w : Waker} :
    pendingPoll h = some w ↔ h.act = .app (.pollStream w) ∧ h.dst.ret = .item none := by
  unfold pendingPoll
  split <;> simp_all

/-- The step wakes the stream's waker, `w`. -/
def WakesStream (h : Hop Context Act) (w : Waker) : Prop :=
  h.dst.log = .wokenStream w :: h.src.log

namespace Context

variable {c c' : Context} {role : Role} {act : Act} {w : Waker}

/-- The stream's waker is parked, and the queue holds an item. -/
def Asleep (c : Context) : Prop := c.streamWaker.isSome ∧ c.queue.items ≠ []

/-- The step is the look at the queue that `wake_waiting` ends with. -/
def Looks (c : Context) (act : Act) : Prop :=
  act = .tick ∧ ∃ after below, c.stack = .waking [] after :: below

/-- A frame that is yet to look stays on the stack until it does. -/
theorem checked_of_step (h : step role c act = some c') (before : Checked c.stack) :
    Checked c'.stack ∨ c.Looks act := by
  have rule := Rule.of_step h
  cases rule with
  | wakeStream stack | wakeEnd stack => exact .inr ⟨rfl, _, _, stack⟩
  | quiet | drop | poll | stop | nextItem | parkStream | setHandler | answer | queue | deliver
  | handBack | bioStart | bioEnd | complete | completeRead => exact .inl before
  | refresh | flush | offer | callback | handle => exact .inl (checked_cons.mpr (.inr before))
  | teardown top stack =>
    rw [stack] at before
    exact .inl (checked_cons.mpr (.inr before))
  | handlerReturn stack | appReturn stack | tornDown stack | done stack | reclaim stack
  | settleCommand stack | settleEvent stack | settleReply stack =>
    rw [stack] at before
    exact .inl ((checked_cons.mp before).resolve_left nofun)
  | accept stack =>
    rw [stack] at before
    have same := checked_cons.mp before
    exact .inl (checked_cons.mpr same)
  | leaveWaking => exact .inl (checked_cons.mpr (.inl rfl))
  | leaveFinishing stack tells inner =>
    rw [stack] at before
    apply Or.inl
    apply checked_cons.mpr
    apply Or.inr
    refine (checked_cons.mp before).resolve_left ?_
    simp [Frame.checks, inner]
  | wake stack =>
    rw [stack] at before
    exact .inl (checked_cons.mpr (.inr (checked_cons.mpr (.inl rfl))))

/-- An item comes while a guarded call, and so a look at the queue, is still to return. -/
theorem checked_of_arrival {item : Item} (h : step role c act = some c')
    (arrives : c.arrival act = some item) : Checked c.stack := by
  cases act with
  | app a => cases arrives
  | tick => cases arrives
  | lib a =>
    simp only [step] at h
    split at h
    · next call below stack =>
      have guarded : call.guarded = true := by
        cases a with
        | event pd raw => exact (Option.ite_none_right_eq_some.mp h).1.2
        | command raw =>
          rw [(Option.ite_none_right_eq_some.mp h).1.2]
          rfl
        | _ => cases arrives
      rw [stack]
      exact checked_cons.mpr (.inl guarded)
    · cases h

/-- The stream's waker is parked only by a poll that finds the queue empty. -/
theorem parked_of_streamAfter (parked : (c.streamAfter act).isSome) :
    c.streamWaker.isSome ∨ c.queue.items = [] := by
  by_cases empty : c.queue.items = []
  · exact .inr empty
  · have some : c.queue.isEmpty = false := by
      rw [Bool.eq_false_iff]
      exact fun h => empty (DrainQueue.isEmpty_iff.mp h)
    apply Or.inl
    unfold streamAfter at parked
    split at parked
    · simpa [some] using parked
    · split at parked
      · simp [some] at parked
      · exact parked
    · exact parked

/-- A step that brings no item leaves no stream asleep that was not, and a look wakes it. -/
theorem asleep_of_step (h : step role c act = some c') (idle : c.arrival act = none)
    (after : c'.Asleep) : c.Asleep ∧ ¬ c.Looks act := by
  obtain ⟨parked, some⟩ := after
  rw [(drains_of_step h).waker] at parked
  rw [(drains_of_step h).queue] at some
  have before : c.queue.items ≠ [] := by
    rw [handed_of_step h idle]
    intro empty
    exact some (List.append_eq_nil_iff.mp empty).2
  refine ⟨⟨(parked_of_streamAfter parked).resolve_right before, before⟩, ?_⟩
  rintro ⟨rfl, after, below, stack⟩
  have filled : c.queue.isEmpty = false := by
    rw [Bool.eq_false_iff]
    exact fun h => before (DrainQueue.isEmpty_iff.mp h)
  simp [streamAfter, stack, filled] at parked

/-- A stream that is asleep on a filled queue is still to be looked at. -/
def Watched (c : Context) : Prop := c.Asleep → Checked c.stack

/-- **The step of the watch**. -/
theorem Watched.step (watched : c.Watched) (h : LibOsdp.step role c act = some c') :
    c'.Watched := by
  intro after
  cases arrives : c.arrival act with
  | some item =>
    refine (checked_of_step h (checked_of_arrival h arrives)).resolve_right ?_
    rintro ⟨rfl, -⟩
    cases arrives
  | none =>
    obtain ⟨before, looks⟩ := asleep_of_step h arrives after
    exact (checked_of_step h (watched before)).resolve_right looks

theorem watched_of_run {capacity : Nat} {pos : 0 < capacity} {hops : List (Hop Context Act)}
    (run : Run (LibOsdp.step role) (new capacity pos) hops c) : c.Watched := by
  apply run.always
  · exact fun asleep => absurd rfl asleep.2
  · intro x a y before h
    exact before.step h

/-- What a step does to a parked waker: it stays, it is woken, or a pending poll replaces it. -/
theorem parked_step (h : LibOsdp.step role c act = some c') (parked : c.streamWaker = some w) :
    c'.streamWaker = some w ∨ WakesStream ⟨c, act, c'⟩ w ∨
      ∃ w', pendingPoll ⟨c, act, c'⟩ = some w' ∧ c'.streamWaker = some w' := by
  have waker := (drains_of_step h).waker
  cases act with
  | lib a => exact .inl (waker.trans parked)
  | app a =>
    obtain ⟨-, eq⟩ := Option.ite_none_right_eq_some.mp h
    cases a with
    | pollStream w' =>
      simp only [streamAfter] at waker
      split at waker
      · next empty =>
        obtain rfl := Option.some.inj eq
        have taken := DrainQueue.pop_eq_none.mpr (DrainQueue.isEmpty_iff.mp empty)
        have pending : (c.pollStream w').ret = .item none := by simp [pollStream, taken]
        exact .inr (.inr ⟨w', pendingPoll_eq_some.mpr ⟨rfl, pending⟩, waker⟩)
      · exact .inl (waker.trans parked)
    | _ => exact .inl (waker.trans parked)
  | tick =>
    simp only [LibOsdp.step, tick] at h
    split at h
    · next stack =>
      obtain rfl := Option.some.inj h
      exact .inl parked
    · next stack =>
      split at h
      · next some =>
        obtain rfl := Option.some.inj h
        rw [parked] at some
        cases some
        exact .inr (.inl rfl)
      · obtain rfl := Option.some.inj h
        exact .inl parked
    · next stack =>
      simp only [streamAfter, stack] at waker
      exact .inl (waker.trans parked)
    · cases h

/-- A pending poll parks its waker. -/
theorem parked_of_pendingPoll (h : LibOsdp.step role c act = some c')
    (parks : pendingPoll ⟨c, act, c'⟩ = some w) : c'.streamWaker = some w := by
  obtain ⟨rfl, pending⟩ := pendingPoll_eq_some.mp parks
  obtain ⟨-, eq⟩ := Option.ite_none_right_eq_some.mp h
  obtain rfl := Option.some.inj eq
  simp only [pollStream] at pending ⊢
  cases taken : c.queue.pop.1 with
  | none => exact WakerSlot.register_eq _ _
  | some item =>
    rw [taken] at pending
    simp [taken] at pending

/-- A parked waker stays until it is woken, as long as no other is parked in its place. -/
theorem parked_run {hops : List (Hop Context Act)} (run : Run (LibOsdp.step role) c hops c')
    (parked : c.streamWaker = some w) (only : ∀ h ∈ hops, ∀ w' ∈ pendingPoll h, w' = w) :
    c'.streamWaker = some w ∨ ∃ h ∈ hops, WakesStream h w := by
  induction run with
  | nil => exact .inl parked
  | @snoc hops t u a run hstep ih =>
    rcases ih fun h mem => only h (List.mem_append_left _ mem) with still | ⟨h, mem, woken⟩
    · rcases parked_step hstep still with same | woken | ⟨w', parks, other⟩
      · exact .inl same
      · exact .inr ⟨_, List.mem_append_right _ (List.mem_singleton_self _), woken⟩
      · rw [only _ (List.mem_append_right _ (List.mem_singleton_self _)) w' parks] at other
        exact .inl other
    · exact .inr ⟨h, List.mem_append_left _ mem, woken⟩

/-- **No stream sleeps on a filled queue**: when no method of the context is on the stack, the
    stream's waker is not parked while the queue holds an item; and the waker of a pending poll
    is woken once an item is left queued, unless another waker was parked in its place. -/
theorem stream_never_sleeps {capacity : Nat} {pos : 0 < capacity} {hops : List (Hop Context Act)}
    (run : Run (LibOsdp.step role) (new capacity pos) hops c) (rest : NoMethod c.stack) :
    ¬ (c.streamWaker.isSome ∧ c.queue.items ≠ []) ∧
      ∀ before h after w, hops = before ++ h :: after → pendingPoll h = some w →
        (∀ g ∈ after, ∀ w' ∈ pendingPoll g, w' = w) → c.queue.items ≠ [] →
        ∃ g ∈ after, WakesStream g w := by
  have awake : ¬ c.Asleep := fun asleep => rest.not_checked (watched_of_run run asleep)
  refine ⟨awake, ?_⟩
  rintro before h after w rfl parks only filled
  obtain ⟨-, hstep, post⟩ := run.cut_at
  rcases parked_run post (parked_of_pendingPoll hstep parks) only with still | woken
  · exact absurd ⟨by rw [still]; rfl, filled⟩ awake
  · exact woken

/-- A channel op polls the stream before LibOSDP queues two key presses. The waker woken takes
    one, and the other is left. -/
theorem stream_never_sleeps_polledInCallback : ∃ hops c,
    Run (LibOsdp.step .cp) (new 32 (by decide)) hops c ∧ c.streamWaker = none ∧
      c.queue.items = [.cp 4 (.event (.keyPress ⟨0, [0]⟩))] ∧ ∃ h ∈ hops, WakesStream h 7 := by
  let raw : OsdpEvent := { type := OSDP_EVENT_KEYPRESS, payload := { keypress := { length := 1 } } }
  let acts : List Act :=
    [.app .refresh, .lib .callback, .app (.pollStream 7), .app (.ret none), .lib (.event 4 raw),
      .lib (.event 4 raw), .lib (.ret 0), .tick, .app .nextItem, .app (.ret none), .tick]
  have run := @run_trace _ _ (LibOsdp.step .cp) acts (new 32 (by decide)) (by decide)
  obtain ⟨awake, wakes⟩ := stream_never_sleeps run noMethod_nil
  obtain ⟨h, mem, woken⟩ := wakes _ _ _ 7 (List.take_append_drop 2 _).symm rfl (by decide) nofun
  exact ⟨_, _, run, rfl, by decide, h, List.mem_of_mem_drop (i := 3) mem, woken⟩

end Context

end LibOsdp
