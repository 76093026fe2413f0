import LibOsdp.Ctx.Ownership

/-!
# Wakers

A waker parked by a pending submission moves, when the submission completes, from its slot to the
list `Wakeups`, from there to the frame of the `wake_waiting` that takes the list, and from there
it is woken. It is never in two of these places, and it never stays behind in the list once the
last LibOSDP call has returned; `wake_waiting` itself runs only where no LibOSDP call is below it.
-/

set_option autoImplicit false

namespace LibOsdp

open Base Function

/-- The wakers that the frame has yet to wake. -/
def Frame.parked : Frame → List (Sub × Waker)
  | .waking rest _ => rest
  | _ => []

/-- A poll of `n` that found it pending. -/
def Obs.poll (n : Sub) : Obs → Option Waker
  | .polled m w => if m = n then some w else none
  | _ => none

/-- The step wakes a waker. -/
def Wakes (h : Hop Context Act) : Prop :=
  ∃ w, (∃ n, h.dst.log = .woken n w :: h.src.log) ∨ h.dst.log = .wokenStream w :: h.src.log

namespace Context

/-- The waker that the last pending poll of `n` parked. -/
def lastPoll (c : Context) (n : Sub) : Option Waker := c.log.findSome? (Obs.poll n)

/-- How many wake-ups of `w` by `n` are on their way. -/
def waking (c : Context) (n : Sub) (w : Waker) : Nat :=
  c.wakeups.count (n, w) + (c.stack.flatMap Frame.parked).count (n, w)

/-- The waker that the completion of `n` is to wake: the one its last pending poll parked. -/
def awaited (c : Context) (n : Sub) : Option Waker := (c.slots n).status.bind fun _ => c.lastPoll n

/-- The accounts of the wakers that `n` parks. -/
structure Wakers (c : Context) (n : Sub) : Prop where
  fresh : c.next ≤ n.id → c.lastPoll n = none
  /-- While it is pending, its slot holds the waker it was last polled with. -/
  parked : (c.slots n).status = none → (c.slots n).waker = c.lastPoll n
  /-- Once it has completed, that waker, and no other, is on its way or was woken, once. -/
  sent : ∀ w, c.waking n w + c.log.count (.woken n w) = (c.awaited n).toList.count w

/-- Nothing is left in `Wakeups` once the last LibOSDP call has returned. -/
def Collected (c : Context) : Prop := NoLib c.stack → c.torn = false → c.wakeups = []

variable {c c' : Context} {role : Role} {act : Act} {n : Sub}

theorem awaited_of_pending (pending : (c.slots n).status = none) : c.awaited n = none := by
  rw [awaited, pending]
  rfl

theorem wakers_new {capacity : Nat} {pos : 0 < capacity} : (new capacity pos).Wakers n where
  fresh _ := rfl
  parked _ := rfl
  sent _ := rfl

/-- Frames that hold no waker come and go without changing the accounts. -/
theorem Wakers.restack (h : c.Wakers n) (stack : List Frame)
    (same : stack.flatMap Frame.parked = c.stack.flatMap Frame.parked) :
    ({ c with stack } : Context).Wakers n :=
  { h with
    sent := by
      intro w
      simp only [waking]
      rw [same]
      exact h.sent w }

/-- A slot's other cells come and go without changing the accounts. -/
theorem Wakers.reslot (h : c.Wakers n) (m : Sub) (slot : Slot)
    (status : slot.status = (c.slots m).status) (waker : slot.waker = (c.slots m).waker) :
    ({ c with slots := update c.slots m slot } : Context).Wakers n where
  fresh := h.fresh
  parked := by
    have sameStatus := slot_update (n := n) Slot.status m slot status
    have sameWaker := slot_update (n := n) Slot.waker m slot waker
    intro pending
    exact sameWaker.trans (h.parked (sameStatus.symm.trans pending))
  sent w := by
    simp only [awaited]
    rw [slot_update Slot.status m slot status]
    exact h.sent w

/-- A poll that finds `m` pending parks its waker, and so is the last. -/
theorem Wakers.poll {m : Sub} {w : Waker} (h : c.Wakers n) (old : m.id < c.next)
    (pending : (c.slots m).status = none) :
    ({ c with
      slots := update c.slots m { c.slots m with waker := some w }
      log := .polled m w :: c.log } : Context).Wakers n := by
  by_cases eq : n = m
  · subst eq
    have before : c.awaited n = none := awaited_of_pending pending
    exact {
      fresh := fun later => absurd later (Nat.not_le_of_lt old)
      parked := by simp [lastPoll, Obs.poll]
      sent := by
        intro w'
        have sent := h.sent w'
        rw [before] at sent
        rw [awaited_of_pending (by simpa using pending)]
        exact sent }
  · have ne : m ≠ n := Ne.symm eq
    exact {
      fresh := by simpa [lastPoll, List.findSome?_cons, Obs.poll, ne] using h.fresh
      parked := by
        simpa [update_of_ne eq, lastPoll, List.findSome?_cons, Obs.poll, ne] using h.parked
      sent := by
        intro w'
        simpa [update_of_ne eq, waking, awaited, lastPoll, List.findSome?_cons, Obs.poll, ne]
          using h.sent w' }

/-- The completion of `m` hands its waker to `Wakeups`. -/
theorem Wakers.complete {m : Sub} {status : UInt8} (h : c.Wakers n)
    (pending : (c.slots m).status = none) : (c.complete m status).Wakers n := by
  by_cases eq : n = m
  · subst eq
    have before : c.awaited n = none := awaited_of_pending pending
    have after : (c.complete n status).awaited n = (c.slots n).waker := by
      rw [h.parked pending]
      simp [awaited, Slot.complete, lastPoll, List.findSome?_cons, Obs.poll]
    have handed (w : Waker) : ((c.slots n).waker.toList.map fun w' => (n, w')).count (n, w) =
        (c.slots n).waker.toList.count w := by
      cases (c.slots n).waker <;> simp [List.count_cons]
    exact {
      fresh := h.fresh
      parked := by simp [Slot.complete]
      sent := by
        intro w
        have sent := h.sent w
        rw [before] at sent
        simp only [waking, Option.toList_none, List.count_nil] at sent
        rw [after, ← handed w]
        simp [waking, List.count_append]
        omega }
  · have ne : m ≠ n := Ne.symm eq
    have others (w : Waker) :
        ((c.slots m).waker.toList.map fun w' => (m, w')).count (n, w) = 0 := by
      cases (c.slots m).waker <;> simp [ne]
    exact {
      fresh := h.fresh
      parked := by simpa [update_of_ne eq, lastPoll, List.findSome?_cons, Obs.poll] using h.parked
      sent := by
        intro w
        have sent := h.sent w
        simp only [waking] at sent
        simpa [update_of_ne eq, waking, List.count_append, others, awaited, lastPoll,
          List.findSome?_cons, Obs.poll] using sent }

/-- A new submission starts out with an empty slot, and no waker of it is on its way. -/
theorem Wakers.offer {m : Sub} {via : Via} {raw : Raw} {busy : Bool} (ledger : c.Ledger n)
    (h : c.Wakers n) (fresh : m.id = c.next) : ({ c with busy }.offer via m raw).Wakers n := by
  by_cases eq : n = m
  · subst eq
    have unpolled := h.fresh (Nat.le_of_eq fresh.symm)
    have before : c.awaited n = none := awaited_of_pending (ledger.pending_of_fresh fresh)
    exact {
      fresh := by intro later; simp at later; omega
      parked := by simpa [lastPoll, List.findSome?_cons, Obs.poll] using unpolled.symm
      sent := by
        intro w
        have sent := h.sent w
        rw [before] at sent
        rw [awaited_of_pending (by simp)]
        exact sent }
  · exact {
      fresh := fun later => h.fresh (Nat.le_of_succ_le later)
      parked := by simpa [update_of_ne eq, lastPoll, List.findSome?_cons, Obs.poll] using h.parked
      sent := by
        intro w
        have sent := h.sent w
        simpa [update_of_ne eq, waking, Frame.parked, awaited, lastPoll, List.findSome?_cons,
          Obs.poll] using sent }

/-- `wake_waiting` takes the wakers collected. -/
theorem Wakers.take (h : c.Wakers n) (after : After) (below : List Frame)
    (same : below.flatMap Frame.parked = c.stack.flatMap Frame.parked) :
    ({ c with wakeups := [], stack := .waking c.wakeups after :: below } : Context).Wakers n :=
  { h with
    sent := by
      intro w
      have sent := h.sent w
      simp only [waking] at sent
      rw [← same] at sent
      simpa [waking, Frame.parked, List.count_append, awaited, lastPoll] using sent }

/-- `Wakeups::wake_all` wakes the next waker. -/
theorem Wakers.wake {m : Sub} {w : Waker} {rest : List (Sub × Waker)} {after : After}
    {below : List Frame} (h : c.Wakers n)
    (stack : c.stack = .waking ((m, w) :: rest) after :: below) :
    ({ c with
      stack := .app (.waker w) :: .waking rest after :: below
      log := .woken m w :: c.log } : Context).Wakers n :=
  { h with
    sent := by
      intro w'
      have sent := h.sent w'
      rw [waking, stack] at sent
      simp only [List.flatMap_cons, Frame.parked, List.count_append] at sent
      show _ = (c.awaited n).toList.count w'
      rw [← sent]
      by_cases same : (m, w) = (n, w')
      · obtain ⟨rfl, rfl⟩ := Prod.mk.inj same
        simp [waking, Frame.parked]
        omega
      · have differ : Obs.woken m w ≠ .woken n w' := fun eq => same (by cases eq; rfl)
        rw [List.count_cons_of_ne same, List.count_cons_of_ne differ]
        simp [waking, Frame.parked] }

theorem Wakers.step (ledger : ∀ m, c.Ledger m) (h : c.Wakers n) (rule : Rule c act c') :
    c'.Wakers n := by
  cases rule with
  | quiet | nextItem | parkStream | setHandler | stop | bioStart | bioEnd | handBack =>
    exact { h with }
  | answer log _ answers => rcases answers with rfl | ⟨code, rfl⟩ <;> exact { h with }
  | queue item log _ _ answers => rcases answers with rfl | ⟨code, rfl⟩ <;> exact { h with }
  | refresh | flush | callback | handle => exact { h with }
  | offer top calls fresh => exact h.offer (ledger n) fresh
  | @drop m => exact { h.reslot m { c.slots m with hasHandle := false } rfl rfl with }
  | @deliver _ _ _ _ reply m => exact { h.reslot m ((c.slots m).setReply reply) rfl rfl with }
  | poll top live pending => exact { h.poll ((ledger _).old_of_handle live) pending with }
  | complete stack held => exact h.complete ((ledger _).pending_of_held held)
  | completeRead stack held => exact { h.complete ((ledger _).pending_of_held held) with }
  | @teardown top stack => exact h.restack [.lib .teardown] (by rw [stack]; rfl)
  | @handlerReturn _ _ _ below stack | @appReturn _ _ below stack | @tornDown _ below stack
  | @done _ below stack | @reclaim _ _ below stack | @settleReply _ below stack =>
    exact { h.restack below (by rw [stack]; rfl) with }
  | @accept via m below stack =>
    exact { h.restack (.lib (.submit via m true) :: below) (by rw [stack]; rfl) with }
  | @leaveWaking rc call below stack =>
    have taken := h.take (call.after rc) below (by rw [stack]; rfl)
    cases call.refusal_cases with
    | inl none => rw [none]; exact { taken with }
    | inr one => obtain ⟨m, eq⟩ := one; rw [eq]; exact { taken with }
  | @leaveFinishing rc call below stack =>
    have left := h.restack (.finishing (call.after rc) :: below) (by rw [stack]; rfl)
    cases call.refusal_cases with
    | inl none => rw [none]; exact { left with }
    | inr one => obtain ⟨m, eq⟩ := one; rw [eq]; exact { left with }
  | wake stack => exact h.wake stack
  | @wakeEnd after below stack =>
    exact { h.restack (.finishing after :: below) (by rw [stack]; rfl) with }
  | @wakeStream w after below stack =>
    exact { h.restack (.app (.waker w) :: .finishing after :: below) (by rw [stack]; rfl) with }
  | @settleCommand m below stack | @settleEvent m below stack =>
    have popped := h.restack below (by rw [stack]; rfl)
    exact { popped.reslot m { c.slots m with hasHandle := true } rfl rfl with }

/-- **The step of the collection**: LibOSDP completes submissions only while one of its calls is on
the stack, and the last of them to return leaves nothing behind. -/
theorem Collected.step (h : c.Collected) (shape : c.Shape) (rule : Rule c act c') :
    c'.Collected := by
  cases rule with
  | quiet | drop | poll | stop | nextItem | parkStream | setHandler | answer | queue | deliver
  | handBack | bioStart | bioEnd => exact h
  | refresh | flush | offer | teardown =>
    exact fun free => absurd (free _ (List.mem_cons_self ..)) nofun
  | callback | handle =>
    exact fun free => h (noLib_cons.mp free).2
  | accept => exact fun free => absurd (free _ (List.mem_cons_self ..)) nofun
  | complete stack | completeRead stack =>
    intro free
    simp only [Context.completeRead, Context.complete, stack] at free
    exact absurd (free _ (List.mem_cons_self ..)) nofun
  | handlerReturn stack | appReturn stack | done stack | reclaim stack
  | settleCommand stack | settleEvent stack | settleReply stack =>
    intro free
    exact h (by rw [stack]; exact noLib_cons.mpr ⟨rfl, free⟩)
  | tornDown => exact fun _ torn => absurd torn nofun
  | leaveWaking => exact fun _ _ => rfl
  | leaveFinishing stack tells inner busy =>
    -- a method that wakes nothing was called from inside a guarded call, which is still there
    intro free
    have below := (noLib_cons.mp free).2
    rcases busy with busy | ⟨n, accepted, rfl⟩
    · have count := shape.busy.leave stack
      rw [inner, busy] at count
      obtain ⟨frame, mem, guarded⟩ := List.countP_pos_iff.mp (by rw [count]; decide)
      exact absurd (below frame mem) (by rw [Frame.isLib_of_guarded guarded]; decide)
    · have nest := shape.nest
      rw [stack] at nest
      obtain ⟨h', cmd, rest, rfl⟩ := nest.1.2.2 n accepted rfl
      obtain ⟨rest', rfl⟩ := nest.2.1
      exact absurd (below _ (List.mem_cons_of_mem _ (List.mem_cons_self ..))) nofun
  | wake stack | wakeStream stack =>
    intro free
    have below := (noLib_cons.mp (noLib_cons.mp free).2).2
    exact h (by rw [stack]; exact noLib_cons.mpr ⟨rfl, below⟩)
  | wakeEnd stack =>
    intro free
    exact h (by rw [stack]; exact noLib_cons.mpr ⟨rfl, (noLib_cons.mp free).2⟩)

/-- A step that wakes a waker is taken where no LibOSDP call is on the stack. -/
theorem noLib_of_wakes {act : Act} (nest : Nest c.stack) (rule : Rule c act c')
    (wakes : Wakes ⟨c, act, c'⟩) : NoLib c.stack := by
  obtain ⟨w, woken⟩ := wakes
  simp only at woken
  cases rule with
  | wake stack | wakeStream stack =>
    rw [stack] at nest ⊢
    exact noLib_cons.mpr ⟨rfl, nest.1.2⟩
  | answer _ _ answers | queue _ _ _ _ answers =>
    rcases answers with rfl | ⟨code, rfl⟩ <;> simp at woken
  | @leaveWaking _ call | @leaveFinishing _ call =>
    rcases call.refusal_cases with none | ⟨m, one⟩
    · simp [none] at woken
    · simp [one] at woken
  | _ => simp at woken

theorem wakers_of_run {capacity : Nat} {pos : 0 < capacity} {hops : List (Hop Context Act)}
    (run : Run (LibOsdp.step role) (new capacity pos) hops c) : ∀ n, c.Wakers n := by
  induction run with
  | nil => exact fun n => wakers_new
  | snoc run hstep ih =>
    exact fun n => (ih n).step (ledger_of_run run) (Rule.of_step hstep)

theorem collected_of_run {capacity : Nat} {pos : 0 < capacity} {hops : List (Hop Context Act)}
    (run : Run (LibOsdp.step role) (new capacity pos) hops c) : c.Collected := by
  induction run with
  | nil => exact fun _ _ => rfl
  | snoc run hstep ih => exact ih.step (shape_of_run run) (Rule.of_step hstep)

/-- **Waker discipline**: whatever application code runs inside callbacks and wakers, no waker is
woken while a LibOSDP call is on the stack; no waker is woken for a submission but the one parked
by its last pending poll, after the completion, and once; and once the outermost method has
returned, that waker has been woken. -/
theorem waker_discipline {role : Role} {capacity : Nat} {pos : 0 < capacity} {c : Context}
    {hops : List (Hop Context Act)} (run : Run (LibOsdp.step role) (new capacity pos) hops c) :
    (∀ h ∈ hops, Wakes h → NoLib h.src.stack) ∧
      (∀ n w, .woken n w ∈ c.log →
        (c.slots n).status.isSome ∧ c.lastPoll n = some w ∧ c.log.count (.woken n w) = 1) ∧
      (c.stack = [] → c.torn = false → ∀ n w, (c.slots n).status.isSome →
        c.lastPoll n = some w → c.log.count (.woken n w) = 1) := by
  refine ⟨?_, ?_, ?_⟩
  · intro h mem wakes
    obtain ⟨before, after, -, pre, hstep, -⟩ := run.cut mem
    exact noLib_of_wakes (shape_of_run pre).nest (Rule.of_step hstep) wakes
  · intro n w mem
    have sent := (wakers_of_run run n).sent w
    have woken : 0 < c.log.count (.woken n w) := List.count_pos_iff.mpr mem
    have awaited : c.awaited n = some w :=
      Option.mem_toList.mp (List.count_pos_iff.mp (by omega))
    obtain ⟨status, completed, polled⟩ := Option.bind_eq_some_iff.mp awaited
    rw [awaited, Option.toList_some, List.count_singleton_self] at sent
    exact ⟨by rw [completed]; rfl, polled, by omega⟩
  · intro rest alive n w completed polled
    have sent := (wakers_of_run run n).sent w
    have awaited : c.awaited n = some w := by
      obtain ⟨status, eq⟩ := Option.isSome_iff_exists.mp completed
      rw [Context.awaited, eq, polled]
      rfl
    have nothing : c.wakeups = [] := collected_of_run run (by rw [rest]; exact noLib_nil) alive
    rw [awaited, waking, nothing, rest] at sent
    simpa using sent

/-- A channel op flushes the command that a task is waiting for: the task is woken once the
refresh it runs in has returned. -/
theorem waker_discipline_flushInCallback : ∃ hops c,
    Run (LibOsdp.step .cp) (new 32 (by decide)) hops c ∧
      c.log.count (.woken ⟨0, 0, some .fileTransfer, false⟩ 7) = 1 := by
  let n : Sub := ⟨0, 0, some .fileTransfer, false⟩
  let acts : List Act :=
    [.app (.submit 0 (.submit (.fileTx ⟨1⟩))), .lib .accept, .lib (.ret 0), .tick, .tick,
      .app (.poll n 7), .app .refresh, .lib .callback, .app (.flush 0),
      .lib (.complete n OSDP_COMPLETION_FLUSHED), .lib (.ret 1), .tick, .app (.ret none),
      .lib (.ret 0), .tick, .app (.ret none), .tick, .tick]
  have run := @run_trace _ _ (LibOsdp.step .cp) acts (new 32 (by decide)) (by decide)
  exact ⟨_, _, run, (waker_discipline run).2.2 rfl rfl n 7 (by decide) (by decide)⟩

end Context

end LibOsdp
