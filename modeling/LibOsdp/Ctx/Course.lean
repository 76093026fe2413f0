import LibOsdp.Ctx.Wake

/-!
# The course of a submission

What a submission is to the one who made it, and to LibOSDP, as a machine of its own: it is offered,
and refused and reclaimed, or held and completed; its method reports it once it is taken; it is
polled, given a reply and cancelled only between the report and the completion, and its wakers are
woken only after it. Whatever else a context does, what it does to one submission is a run of this
machine, and what it holds for the submission is what the machine says.
-/

set_option autoImplicit false

namespace LibOsdp

open Base

namespace Course

/-- Where a submission is. -/
inductive Point where
  | unmade | offered | refused | reclaimed | held | completed
deriving DecidableEq, Repr

/-- The last of these to have happened. -/
def Point.last (made accepted refused reclaimed completed : Nat) : Point :=
  if 0 < completed then .completed
  else if 0 < accepted then .held
  else if 0 < reclaimed then .reclaimed
  else if 0 < refused then .refused
  else if 0 < made then .offered
  else .unmade

end Course

/-- Where a submission is, and whether its method has reported it. -/
structure Course where
  point : Course.Point := .unmade
  returned : Bool := false
deriving DecidableEq, Repr

/-- The submission that `o` is about. -/
def Obs.sub : Obs → Option Sub
  | made n | accepted n | refused n | reclaimed n | completed n _ | returned n | polled n _
  | woken n _ | delivered n _ _ | stopped n _ => some n
  | wokenStream _ | handled _ _ | answered _ => none

/-- What can happen next to a submission, and where it is then. -/
def Course.step (at' : Course) : Obs → Option Course
  | .made _ => if at'.point = .unmade then some { at' with point := .offered } else none
  | .accepted _ => if at'.point = .offered then some { at' with point := .held } else none
  | .refused _ => if at'.point = .offered then some { at' with point := .refused } else none
  | .reclaimed _ => if at'.point = .refused then some { at' with point := .reclaimed } else none
  | .completed _ _ => if at'.point = .held then some { at' with point := .completed } else none
  | .returned _ =>
    if (at'.point = .held ∨ at'.point = .completed) ∧ at'.returned = false then
      some { at' with returned := true }
    else none
  | .polled _ _ | .delivered _ _ _ | .stopped _ _ =>
    if at'.point = .held ∧ at'.returned = true then some at' else none
  | .woken _ _ => if at'.point = .completed then some at' else none
  | .wokenStream _ | .handled _ _ | .answered _ => none

namespace Context

variable {c c' : Context} {role : Role} {act : Act} {n : Sub} {o : Obs}

/-- What happened to `n`, in order. -/
def events (c : Context) (n : Sub) : List Obs := (c.log.filter (·.sub = some n)).reverse

/-- Where `n` is, by what happened to it. -/
def course (c : Context) (n : Sub) : Course where
  point := .last (c.log.count (.made n)) (c.log.count (.accepted n)) (c.log.count (.refused n))
    (c.log.count (.reclaimed n)) (c.log.countP (Obs.completes n))
  returned := 0 < c.log.count (.returned n)

/-- What `o` says of the slot and the handle of the submission it is about. -/
def Fits (c : Context) : Obs → Prop
  | .polled n _ | .delivered n _ _ | .stopped n _ =>
    (c.slots n).status = none ∧ (c.handles n).isSome
  | .woken n _ => (c.slots n).status.isSome
  | _ => True

/-- What a context has for a submission, by where it is. -/
structure Stands (c : Context) (n : Sub) (at' : Course) : Prop where
  held : n ∈ c.held ↔ at'.point = .held
  box : (c.boxes n).isSome ↔ at'.point ∈ [.offered, .refused, .held]
  slot : (c.slots n).status.isSome ↔ at'.point = .completed
  handle : (c.handles n).isSome → at'.returned = true
  /-- Outside every method it is decided, and reported if it was taken. -/
  rest : c.stack = [] → at'.point ≠ .offered ∧ at'.point ≠ .refused ∧
    (at'.point ∈ [.held, .completed] → at'.returned = true)
  /-- After the teardown it is over. -/
  torn : c.torn = true → at'.point ∈ [.unmade, .reclaimed, .completed]

/-! ## What a step records -/

/-- A step records one thing at most. -/
theorem records_of_rule (ledger : ∀ n, c.Ledger n) (wakers : ∀ n, c.Wakers n)
    (rule : Rule c act c') : c'.log = c.log ∨ ∃ o, c'.log = o :: c.log ∧ c.Fits o := by
  cases rule with
  | quiet | refresh | flush | drop | nextItem | parkStream | setHandler | appReturn | teardown
  | callback | handBack | bioStart | bioEnd | tornDown | wakeEnd | done => exact .inl rfl
  | offer | handlerReturn | accept | complete | completeRead | handle | wakeStream | reclaim
  | settleCommand | settleEvent | settleReply => exact .inr ⟨_, rfl, trivial⟩
  | answer log _ answers | queue _ log _ _ answers =>
    rcases answers with rfl | ⟨code, rfl⟩
    · exact .inl rfl
    · exact .inr ⟨_, rfl, trivial⟩
  | @leaveWaking _ call | @leaveFinishing _ call =>
    rcases call.refusal_cases with none | ⟨m, one⟩
    · exact .inl (by simp only [none, List.nil_append])
    · exact .inr ⟨.refused m, by simp only [one, List.singleton_append], trivial⟩
  | poll top live pending => exact .inr ⟨_, rfl, pending, live⟩
  | stop top handle pending => exact .inr ⟨_, rfl, pending, by rw [handle]; rfl⟩
  | @deliver _ _ _ _ _ n _ _ _ _ _ _ waits =>
    have waits' := waits
    unfold waiting at waits'
    split at waits'
    · next m _ =>
      obtain ⟨alive, eq⟩ := Option.ite_none_right_eq_some.mp waits'
      obtain rfl := Option.some.inj eq
      simp only [Bool.and_eq_true] at alive
      exact .inr ⟨_, rfl, Slot.isPending_iff.mp alive.1.2, (ledger m).hasHandle ▸ alive.2⟩
    · cases waits'
  | @wake n w rest after below stack =>
    -- a waker on its way belongs to a completion
    have sent := (wakers n).sent w
    have here : 0 < c.waking n w := by
      rw [waking, stack]
      simp [Frame.parked]
    have awaited : c.awaited n = some w :=
      Option.mem_toList.mp (List.count_pos_iff.mp (by omega))
    obtain ⟨status, completed, -⟩ := Option.bind_eq_some_iff.mp awaited
    exact .inr ⟨_, rfl, Option.isSome_of_eq_some completed⟩

/-- What happens to another submission moves this one nowhere. -/
theorem course_of_other (log : c'.log = o :: c.log) (other : o.sub ≠ some n) :
    c'.course n = c.course n := by
  have none : ¬ o.completes n = true := by
    intro completes
    obtain ⟨status, rfl⟩ := completes_iff.mp completes
    exact other rfl
  have same : ∀ o' : Obs, o'.sub = some n → c'.log.count o' = c.log.count o' := by
    intro o' about
    rw [log, List.count_cons_of_ne]
    rintro rfl
    exact other about
  have uncompleted : c'.log.countP (Obs.completes n) = c.log.countP (Obs.completes n) := by
    rw [log, List.countP_cons_of_neg none]
  rw [course, course, uncompleted, same (.made n) rfl, same (.accepted n) rfl,
    same (.refused n) rfl, same (.reclaimed n) rfl, same (.returned n) rfl]

/-- A slot has a status once its submission has completed. -/
theorem status_isSome_iff (ledger : c.Ledger n) : (c.slots n).status.isSome ↔
    0 < c.log.countP (Obs.completes n) := by
  rw [ledger.status]
  constructor
  · intro told
    by_contra uncompleted
    rw [outcome_of_uncompleted (by omega)] at told
    cases told
  · intro ended
    obtain ⟨status, mem⟩ := completions_pos_iff.mp ended
    rw [ledger.outcome_of_completed mem]
    rfl

/-! ## Where the accounts say that a submission is -/

section Points

variable (ledger : c.Ledger n)

include ledger

theorem point_eq_unmade : (c.course n).point = .unmade ↔ c.log.count (.made n) = 0 := by
  have offers := ledger.offers
  have holds := ledger.holds
  have reclaims := ledger.reclaims
  simp only [course, Course.Point.last]
  split_ifs <;> simp only [true_iff, false_iff] <;> omega

theorem point_eq_offered : (c.course n).point = .offered ↔
    0 < c.log.count (.made n) ∧ c.log.count (.accepted n) = 0 ∧ c.log.count (.refused n) = 0 := by
  have holds := ledger.holds
  have reclaims := ledger.reclaims
  simp only [course, Course.Point.last]
  split_ifs <;> simp only [true_iff, false_iff] <;> omega

theorem point_eq_refused : (c.course n).point = .refused ↔
    0 < c.log.count (.refused n) ∧ c.log.count (.reclaimed n) = 0 := by
  have once := ledger.once
  have offers := ledger.offers
  have holds := ledger.holds
  simp only [course, Course.Point.last]
  split_ifs <;> simp only [true_iff, false_iff] <;> omega

theorem point_eq_reclaimed : (c.course n).point = .reclaimed ↔ 0 < c.log.count (.reclaimed n) := by
  have once := ledger.once
  have offers := ledger.offers
  have holds := ledger.holds
  have reclaims := ledger.reclaims
  simp only [course, Course.Point.last]
  split_ifs <;> simp only [true_iff, false_iff] <;> omega

omit ledger

theorem point_eq_held : (c.course n).point = .held ↔
    0 < c.log.count (.accepted n) ∧ c.log.countP (Obs.completes n) = 0 := by
  simp only [course, Course.Point.last]
  split_ifs <;> simp only [true_iff, false_iff] <;> omega

theorem point_eq_completed : (c.course n).point = .completed ↔
    0 < c.log.countP (Obs.completes n) := by
  simp only [course, Course.Point.last]
  split_ifs <;> simp only [true_iff, false_iff] <;> omega

end Points

theorem returned_iff : (c.course n).returned = true ↔ 0 < c.log.count (.returned n) :=
  decide_eq_true_iff

/-- A submission that moved, and is reported as before. -/
theorem course_moved {point : Course.Point} (moved : (c'.course n).point = point)
    (returned : c'.log.count (.returned n) = c.log.count (.returned n)) :
    some { c.course n with point } = some (c'.course n) := by
  rw [← moved]
  simp only [course, returned]

/-- **The step of the course**: what is recorded of a submission can happen where it is. -/
theorem course_step (before : c.Ledger n) (after : c'.Ledger n) (log : c'.log = o :: c.log)
    (about : o.sub = some n) (fits : c.Fits o) : (c.course n).step o = some (c'.course n) := by
  have grows (x : Obs) : c'.log.count x = c.log.count x + if o = x then 1 else 0 := by
    rw [log, List.count_cons]
    simp
  have made := grows (.made n)
  have accepted := grows (.accepted n)
  have refused := grows (.refused n)
  have reclaimed := grows (.reclaimed n)
  have returned := grows (.returned n)
  have completed : c'.log.countP (Obs.completes n) =
      c.log.countP (Obs.completes n) + if o.completes n then 1 else 0 := by
    rw [log, List.countP_cons]
  have once := before.once
  have offers := before.offers
  have holds := before.holds
  have reclaims := before.reclaims
  have returns := before.returns
  have once' := after.once
  have offers' := after.offers
  have holds' := after.holds
  have reclaims' := after.reclaims
  have returns' := after.returns
  cases o with
  | made m =>
    obtain rfl := Option.some.inj about
    simp only [reduceCtorEq, if_true, if_false, add_zero, Obs.completes, Obs.outcome,
      Option.isSome_none, Bool.false_eq_true] at made accepted refused reclaimed returned completed
    rw [Course.step, if_pos ((point_eq_unmade before).mpr (by omega))]
    exact course_moved ((point_eq_offered after).mpr (by omega)) (by omega)
  | accepted m =>
    obtain rfl := Option.some.inj about
    simp only [reduceCtorEq, if_true, if_false, add_zero, Obs.completes, Obs.outcome,
      Option.isSome_none, Bool.false_eq_true] at made accepted refused reclaimed returned completed
    rw [Course.step, if_pos ((point_eq_offered before).mpr (by omega))]
    exact course_moved (point_eq_held.mpr (by omega)) (by omega)
  | refused m =>
    obtain rfl := Option.some.inj about
    simp only [reduceCtorEq, if_true, if_false, add_zero, Obs.completes, Obs.outcome,
      Option.isSome_none, Bool.false_eq_true] at made accepted refused reclaimed returned completed
    rw [Course.step, if_pos ((point_eq_offered before).mpr (by omega))]
    exact course_moved ((point_eq_refused after).mpr (by omega)) (by omega)
  | reclaimed m =>
    obtain rfl := Option.some.inj about
    simp only [reduceCtorEq, if_true, if_false, add_zero, Obs.completes, Obs.outcome,
      Option.isSome_none, Bool.false_eq_true] at made accepted refused reclaimed returned completed
    rw [Course.step, if_pos ((point_eq_refused before).mpr (by omega))]
    exact course_moved ((point_eq_reclaimed after).mpr (by omega)) (by omega)
  | completed m status =>
    obtain rfl := Option.some.inj about
    simp only [reduceCtorEq, if_true, if_false, add_zero, Obs.completes, Obs.outcome,
      Option.isSome_some] at made accepted refused reclaimed returned completed
    rw [Course.step, if_pos (point_eq_held.mpr (by omega))]
    exact course_moved (point_eq_completed.mpr (by omega)) (by omega)
  | returned m =>
    obtain rfl := Option.some.inj about
    simp only [reduceCtorEq, if_true, if_false, add_zero, Obs.completes, Obs.outcome,
      Option.isSome_none, Bool.false_eq_true] at made accepted refused reclaimed returned completed
    have there : (c.course m).point = .held ∨ (c.course m).point = .completed := by
      by_cases ended : 0 < c.log.countP (Obs.completes m)
      · exact .inr (point_eq_completed.mpr ended)
      · exact .inl (point_eq_held.mpr (by omega))
    have unreported : (c.course m).returned = false := by
      rw [Bool.eq_false_iff, ne_eq, returned_iff]
      omega
    rw [Course.step, if_pos ⟨there, unreported⟩]
    simp only [course, made, accepted, refused, reclaimed, returned, completed]
    simp
  | polled m | delivered m | stopped m =>
    obtain rfl := Option.some.inj about
    simp only [reduceCtorEq, if_false, add_zero, Obs.completes, Obs.outcome, Option.isSome_none,
      Bool.false_eq_true] at made accepted refused reclaimed returned completed
    -- nothing is polled, answered or cancelled that has completed
    obtain ⟨pending, live⟩ := fits
    have told := before.handle live
    have held := before.held_of_pending (List.count_pos_iff.mp told) pending
    have here := List.count_pos_iff.mpr held
    rw [Course.step, if_pos ⟨point_eq_held.mpr (by omega), returned_iff.mpr told⟩]
    simp only [course, made, accepted, refused, reclaimed, returned, completed]
  | woken m =>
    obtain rfl := Option.some.inj about
    simp only [reduceCtorEq, if_false, add_zero, Obs.completes, Obs.outcome, Option.isSome_none,
      Bool.false_eq_true] at made accepted refused reclaimed returned completed
    have ended : 0 < c.log.countP (Obs.completes m) := (status_isSome_iff before).mp fits
    rw [Course.step, if_pos (point_eq_completed.mpr ended)]
    simp only [course, made, accepted, refused, reclaimed, returned, completed]
  | wokenStream | handled | answered => cases about

/-- A run of the machine that ends where a submission is, through all that happened to it. -/
def Followed (c : Context) (n : Sub) : Prop :=
  ∃ hops, Run Course.step {} hops (c.course n) ∧ hops.map Hop.act = c.events n

theorem followed_of_run {capacity : Nat} {pos : 0 < capacity} {hops : List (Hop Context Act)}
    (run : Run (LibOsdp.step role) (new capacity pos) hops c) (n : Sub) : c.Followed n := by
  induction run with
  | nil => exact ⟨[], .nil, rfl⟩
  | @snoc hops x y act run hstep ih =>
    have before := ledger_of_run run
    have after := ledger_of_run (run.snoc hstep)
    obtain ⟨path, course, told⟩ := ih
    rcases records_of_rule before (wakers_of_run run) (Rule.of_step hstep)
      with same | ⟨o, log, fits⟩
    · refine ⟨path, ?_, ?_⟩
      · rw [Context.course, same]
        exact course
      · rw [Context.events, same]
        exact told
    · by_cases about : o.sub = some n
      · refine ⟨_, course.snoc (course_step (before n) (after n) log about fits), ?_⟩
        rw [List.map_append, told, events, events, log,
          List.filter_cons_of_pos (by simpa using about), List.reverse_cons]
        rfl
      · refine ⟨path, ?_, ?_⟩
        · rw [course_of_other log about]
          exact course
        · rw [told, events, events, log, List.filter_cons_of_neg (by simpa using about)]

/-- What the accounts say that the context has for a submission. -/
theorem stands_of_run {capacity : Nat} {pos : 0 < capacity} {hops : List (Hop Context Act)}
    (run : Run (LibOsdp.step role) (new capacity pos) hops c) (n : Sub) :
    c.Stands n (c.course n) := by
  have ledger := ledger_of_run run n
  have shape := shape_of_run run
  have once := ledger.once
  have offers := ledger.offers
  have holds := ledger.holds
  have reclaims := ledger.reclaims
  have returns := ledger.returns
  have box := ledger.box
  rw [freed] at box
  have heldCount : n ∈ c.held ↔ 0 < c.held.count n := List.count_pos_iff.symm
  have rest (empty : c.stack = []) : c.stack.countP (Frame.offers n) = 0 ∧
      ∀ refused, c.stack.countP (Frame.settles n refused) = 0 := by
    rw [empty]
    exact ⟨rfl, fun _ => rfl⟩
  have there : (c.boxes n).isSome ↔ 0 < (c.boxes n).isSome.toNat := by
    cases (c.boxes n).isSome <;> simp
  constructor
  · rw [heldCount, point_eq_held]
    omega
  · simp only [List.mem_cons, List.not_mem_nil, or_false, point_eq_offered ledger,
      point_eq_refused ledger, point_eq_held, there]
    omega
  · rw [point_eq_completed, status_isSome_iff ledger]
  · intro live
    exact returned_iff.mpr (ledger.handle live)
  · intro empty
    obtain ⟨none, settled⟩ := rest empty
    have refused := settled true
    have reported := settled false
    simp only [ne_eq, List.mem_cons, List.not_mem_nil, or_false, point_eq_offered ledger,
      point_eq_refused ledger, point_eq_held, point_eq_completed, returned_iff]
    omega
  · intro torn
    obtain ⟨free, empty⟩ := shape.torn torn
    obtain ⟨none, settled⟩ := rest empty
    have refused := settled true
    rw [free, List.count_nil] at holds
    simp only [List.mem_cons, List.not_mem_nil, or_false, point_eq_unmade ledger,
      point_eq_reclaimed ledger, point_eq_completed]
    omega

/-- **Every submission takes its course**: in every run what happens to a submission happens in the
    order of its machine, whatever else the context does and however deep its calls nest; and what
    the context and LibOSDP have for it is what the machine says. -/
theorem submissions_take_course {capacity : Nat} {pos : 0 < capacity}
    {hops : List (Hop Context Act)} (run : Run (LibOsdp.step role) (new capacity pos) hops c)
    (n : Sub) : ∃ path at', Run Course.step {} path at' ∧ path.map Hop.act = c.events n ∧
      c.Stands n at' := by
  obtain ⟨path, course, told⟩ := followed_of_run run n
  exact ⟨path, _, course, told, stands_of_run run n⟩

/-- A channel op flushes the command that a task is waiting for. -/
theorem submissions_take_course_flushInCallback : ∃ n hops c path at',
    Run (LibOsdp.step .cp) (new 32 (by decide)) hops c ∧ Run Course.step {} path at' ∧
      path.map Hop.act = [.made n, .accepted n, .returned n, .polled n 7,
        .completed n OSDP_COMPLETION_FLUSHED, .woken n 7] ∧ at'.point = .completed := by
  let n : Sub := ⟨0, 0, some .fileTransfer, false⟩
  let acts : List Act :=
    [.app (.submit 0 (.submit (.fileTx ⟨1⟩))), .lib .accept, .lib (.ret 0), .tick, .tick,
      .app (.poll n 7), .app .refresh, .lib .callback, .app (.flush 0),
      .lib (.complete n OSDP_COMPLETION_FLUSHED), .lib (.ret 1), .tick, .app (.ret none),
      .lib (.ret 0), .tick]
  have run := @run_trace _ _ (LibOsdp.step .cp) acts (new 32 (by decide)) (by decide)
  obtain ⟨path, at', course, told, stands⟩ := submissions_take_course run n
  exact ⟨n, _, _, path, at', run, course, told, stands.slot.mp (by decide)⟩

end Context

end LibOsdp
