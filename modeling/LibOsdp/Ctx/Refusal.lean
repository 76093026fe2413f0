import LibOsdp.Ctx.Reply

/-!
# Refused submissions

A submission can be refused before its box is made, or by LibOSDP once it is; then the method goes
through `wake_waiting` and reclaims the box. Up to there it has changed nothing that belongs to
another submission: a route is set, and a handle made, only for what LibOSDP took.
-/

set_option autoImplicit false

namespace LibOsdp

open Base Function

/-- A submitting method of any of the two contexts. -/
def AppAct.submits : AppAct → Bool
  | .submit _ _ | .submitEvent _ | .reply _ => true
  | _ => false

/-- LibOSDP takes the submission it is offered, or refuses it, and makes no callback; and wakers
do not call back into the context. -/
def Act.undisturbed : Act → Bool
  | .tick | .lib .accept | .lib (.ret _) | .app (.ret _) => true
  | _ => false

namespace Context

variable {c c' d x y : Context} {role : Role} {act : Act} {n m : Sub} {via : Via}

/-- Only what was reported to its caller is routed to, and only that is given a reply. -/
structure Told (c : Context) : Prop where
  route : ∀ pd n, c.replies pd = some n → .returned n ∈ c.log
  reply : ∀ n, (c.slots n).reply.isSome → .returned n ∈ c.log

theorem told_new {capacity : Nat} {pos : 0 < capacity} : (new capacity pos).Told where
  route := nofun
  reply := nofun

theorem told_of_waiting {pd : PdIndex} (h : c.Told) (waits : c.waiting pd = some n) :
    .returned n ∈ c.log := by
  unfold waiting at waits
  split at waits
  · next m routed =>
    obtain ⟨-, eq⟩ := Option.ite_none_right_eq_some.mp waits
    obtain rfl := Option.some.inj eq
    exact h.route pd m routed
  · cases waits

/-- A step sets the route of a PD to what it reports to its caller. -/
theorem route_cases (rule : Rule c act c') {pd : PdIndex} (routed : c'.replies pd = some n) :
    c.replies pd = some n ∨ .returned n ∈ c'.log := by
  cases rule with
  | deliver | handBack =>
    simp only [update_apply] at routed
    split at routed
    · cases routed
    · exact .inl routed
  | @settleCommand m =>
    simp only [newHandle, routeReply] at routed ⊢
    split at routed
    · rw [update_apply] at routed
      split at routed
      · obtain ⟨-, eq⟩ := Option.ite_none_right_eq_some.mp routed
        obtain rfl := Option.some.inj eq
        exact .inr (List.mem_cons_self ..)
      · exact .inl routed
    · exact .inl routed
  | _ => exact .inl routed

theorem Told.step (h : c.Told) (rule : Rule c act c') : c'.Told where
  route pd n routed := by
    rcases route_cases rule routed with before | told
    · exact rule.log_grows.subset (h.route pd n before)
    · exact told
  reply n stored := by
    apply rule.log_grows.subset
    rcases reply_cases rule n with same | ⟨-, none⟩ | ⟨pd, raw, event, kind, reply, -, -, waits, -⟩
    · exact h.reply n (by rw [← same]; exact stored)
    · rw [none] at stored
      cases stored
    · exact told_of_waiting h waits

/-- A submission not yet made has an empty slot and no box. -/
structure Unmade (c : Context) (n : Sub) : Prop where
  status : (c.slots n).status = none
  reply : (c.slots n).reply = none
  box : c.boxes n = none

theorem unmade_of_fresh (told : c.Told) (ledger : c.Ledger n) (fresh : n.id = c.next) :
    c.Unmade n := by
  have made := ledger.fresh (Nat.le_of_eq fresh.symm)
  have offers := ledger.offers
  have returns := ledger.returns
  have box := ledger.box
  refine ⟨ledger.pending_of_fresh fresh, ?_, ?_⟩
  · rw [← Option.not_isSome_iff_eq_none]
    intro stored
    have count := List.count_pos_iff.mpr (told.reply n stored)
    omega
  · rw [← Option.not_isSome_iff_eq_none]
    intro boxed
    rw [boxed] at box
    simp at box
    omega

/-- From `c` to `d`, a method boxes `n` and offers it to LibOSDP. -/
structure Boxes (c d : Context) (via : Via) (n : Sub) : Prop where
  fresh : n.id = c.next
  free : via = .command → c.busy = false
  offer : ∃ raw, d = { c with busy := c.busy || decide (via = Via.command) }.offer via n raw

theorem submission_of_offerEvent {event : Event} (other : via ≠ .command) :
    (∃ fault, c.offerEvent via event = { c with ret := .error fault }) ∨
      ∃ n, c.Boxes (c.offerEvent via event) via n := by
  unfold offerEvent
  cases event.tryInto with
  | error fault => exact .inl ⟨fault, rfl⟩
  | ok raw =>
    refine .inr ⟨⟨c.next, 0, none, false⟩, rfl, fun h => absurd h other, .event raw, ?_⟩
    simp [other]

/-- What a submitting method does up to its call of LibOSDP. -/
theorem submission_cases {a : AppAct} (submits : a.submits)
    (h : LibOsdp.step role c (.app a) = some d) :
    (∃ fault, d = { c with ret := .error fault }) ∨ ∃ via n, c.Boxes d via n := by
  obtain ⟨-, eq⟩ := Option.ite_none_right_eq_some.mp h
  cases a with
  | submit pd request =>
    obtain ⟨-, eq⟩ := Option.ite_none_right_eq_some.mp eq
    obtain rfl := Option.some.inj eq
    unfold queueCommand
    split
    · exact .inl ⟨_, rfl⟩
    · next busy =>
      have free : c.busy = false := by simpa using busy
      cases request.cmd.tryInto with
      | error fault => exact .inl ⟨fault, by simp only [← free]⟩
      | ok raw =>
        let n : Sub := ⟨c.next, pd, request.cmd.multipartKind, request.wantsReply⟩
        exact .inr ⟨.command, n, rfl, fun _ => free, .cmd raw, by simp [n]⟩
  | submitEvent event =>
    obtain ⟨-, eq⟩ := Option.ite_none_right_eq_some.mp eq
    obtain rfl := Option.some.inj eq
    rcases @submission_of_offerEvent c .event event (by rintro ⟨⟩) with refused | ⟨n, boxes⟩
    · exact .inl refused
    · exact .inr ⟨_, n, boxes⟩
  | reply event =>
    simp only [appStep] at eq
    split at eq
    · obtain rfl := Option.some.inj eq
      unfold reply
      split
      · rcases @submission_of_offerEvent c .reply event (by rintro ⟨⟩) with refused | ⟨n, boxes⟩
        · exact .inl refused
        · exact .inr ⟨_, n, boxes⟩
      · exact .inl ⟨_, rfl⟩
    · cases eq
  | _ => cases submits

/-- `x` differs from `c` by the new submission `n` at most. -/
structure Intact (c x : Context) (n : Sub) : Prop where
  held : x.held = c.held
  running : x.running = c.running
  replied : x.replied = c.replied
  replies : x.replies = c.replies
  queue : x.queue = c.queue
  handles : x.handles = c.handles
  slots : x.slots = update c.slots n {}
  boxes : update x.boxes n none = update c.boxes n none

/-- How far the method that offered `n` from `c` has got: whether LibOSDP's call is still on the
stack, and whether LibOSDP has not taken `n`. -/
inductive Stage (c : Context) (via : Via) (n : Sub) : Bool → Bool → List Frame → Prop where
  | offering : Stage c via n true true (.lib (.submit via n false) :: c.stack)
  | accepted : Stage c via n true false (.lib (.submit via n true) :: c.stack)
  | waking {refused : Bool} (rest : List (Sub × Waker)) :
      Stage c via n false refused (.waking rest (.settle via n refused) :: c.stack)
  | woken {refused : Bool} (w : Waker) (rest : List (Sub × Waker)) :
      Stage c via n false refused
        (.app (.waker w) :: .waking rest (.settle via n refused) :: c.stack)
  | wokenStream {refused : Bool} (w : Waker) :
      Stage c via n false refused
        (.app (.waker w) :: .finishing (.settle via n refused) :: c.stack)
  | finishing {refused : Bool} :
      Stage c via n false refused (.finishing (.settle via n refused) :: c.stack)

/-- The method that offered `n` from `c` is on the stack of `x`, and has changed nothing else as
long as LibOSDP has not taken `n`. -/
def Underway (c : Context) (via : Via) (n : Sub) (x : Context) : Prop :=
  ∃ inCall refused, Stage c via n inCall refused x.stack ∧
    (refused = true → c.Intact x n ∧ x.busy = (c.busy || inCall && decide (via = Via.command)))

/-- All that a refused submission leaves as it was. -/
structure Unchanged (c c' : Context) : Prop where
  stack : c'.stack = c.stack
  held : c'.held = c.held
  running : c'.running = c.running
  status : ∀ n, (c'.slots n).status = (c.slots n).status
  reply : ∀ n, (c'.slots n).reply = (c.slots n).reply
  replies : c'.replies = c.replies
  queue : c'.queue = c.queue
  busy : c'.busy = c.busy
  handles : c'.handles = c.handles
  /-- The box made for it is gone. -/
  boxes : c'.boxes = c.boxes

/-- The method has returned, and where it returned an error it has changed nothing. -/
def Over (c c' : Context) : Prop :=
  c'.stack = c.stack ∧ ∀ fault, c'.ret = .error fault → c.Unchanged c'

theorem Intact.unchanged (h : c.Intact x n) (unmade : c.Unmade n) (stack : x.stack = c.stack)
    (busy : x.busy = c.busy) : c.Unchanged { x with boxes := update x.boxes n none } where
  stack := stack
  held := h.held
  running := h.running
  status m := by
    simp only [h.slots, update_apply]
    split
    · next eq => rw [eq, unmade.status]
    · rfl
  reply m := by
    simp only [h.slots, update_apply]
    split
    · next eq => rw [eq, unmade.reply]
    · rfl
  replies := h.replies
  queue := h.queue
  busy := busy
  handles := h.handles
  boxes := by
    rw [h.boxes, ← unmade.box]
    exact update_eq_self n c.boxes

theorem underway_of_boxes (h : c.Boxes d via n) : c.Underway via n d := by
  obtain ⟨raw, rfl⟩ := h.offer
  refine ⟨true, true, .offering, fun _ => ⟨⟨rfl, rfl, rfl, rfl, rfl, rfl, rfl, ?_⟩, ?_⟩⟩
  · simp
  · simp

/-- With LibOSDP on top, an undisturbed step is LibOSDP's decision or its return. -/
theorem lib_of_undisturbed {call : Call} {below : List Frame}
    (h : LibOsdp.step role x act = some y) (quiet : act.undisturbed)
    (stack : x.stack = .lib call :: below) :
    x.libStep role call below .accept = some y ∨ ∃ rc, x.libReturn call below rc = some y := by
  cases act with
  | tick => simp [LibOsdp.step, tick, stack] at h
  | app a => simp [LibOsdp.step, atApp, stack] at h
  | lib a =>
    simp only [LibOsdp.step, stack] at h
    cases a with
    | accept => exact .inl h
    | ret rc => exact .inr ⟨rc, h⟩
    | _ => cases quiet

/-- With application code on top, an undisturbed step is its return. -/
theorem ret_of_undisturbed {code : Code} {below : List Frame}
    (h : LibOsdp.step role x act = some y) (quiet : act.undisturbed)
    (stack : x.stack = .app code :: below) : ∃ nak, x.appReturn nak = some y := by
  cases act with
  | tick => simp [LibOsdp.step, tick, stack] at h
  | lib a => simp [LibOsdp.step, stack] at h
  | app a =>
    obtain ⟨-, eq⟩ := Option.ite_none_right_eq_some.mp h
    cases a with
    | ret nak => exact ⟨nak, eq⟩
    | _ => cases quiet

/-- With a method on top that LibOSDP has returned to, a step is the method's. -/
theorem tick_of_method {frame : Frame} {below : List Frame}
    (h : LibOsdp.step role x act = some y) (stack : x.stack = frame :: below)
    (method : frame.isMethod) : x.tick = some y := by
  cases frame with
  | lib | app => cases method
  | waking | finishing =>
    cases act with
    | tick => exact h
    | app a => simp [LibOsdp.step, atApp, stack] at h
    | lib a => simp [LibOsdp.step, stack] at h

theorem underway_of_wakeWaiting {refused : Bool} {below : List Frame} (same : below = c.stack)
    (intact : refused = true → c.Intact x n ∧ x.busy = c.busy) :
    c.Underway via n (x.wakeWaiting (.settle via n refused) below) := by
  subst same
  unfold wakeWaiting
  split
  · refine ⟨false, refused, .finishing, fun h => ?_⟩
    obtain ⟨intact, busy⟩ := intact h
    exact ⟨{ intact with }, by simpa using busy⟩
  · refine ⟨false, refused, .waking _, fun h => ?_⟩
    obtain ⟨intact, busy⟩ := intact h
    exact ⟨{ intact with }, by simpa using busy⟩

/-- LibOSDP returns to the method. -/
theorem underway_of_libReturn {accepted : Bool} {rc : Int} {below : List Frame}
    (same : below = c.stack) (free : via = .command → c.busy = false)
    (intact : accepted = false →
      c.Intact x n ∧ x.busy = (c.busy || decide (via = Via.command)))
    (h : x.libReturn (.submit via n accepted) below rc = some y) : c.Underway via n y := by
  simp only [libReturn] at h
  split at h
  · cases h
  · next differ =>
    have told : accepted = !decide (rc < 0) := by cases accepted <;> simp_all
    have refused (eq : decide (rc < 0) = true) : c.Intact x n ∧
        x.busy = (c.busy || decide (via = Via.command)) := intact (by rw [told, eq]; rfl)
    simp only [@Call.log_refusal x via n accepted] at h
    cases via with
    | command =>
      obtain rfl := Option.some.inj h
      refine underway_of_wakeWaiting same fun eq => ?_
      exact ⟨{ (refused eq).1 with }, (free rfl).symm⟩
    | event =>
      obtain rfl := Option.some.inj h
      refine underway_of_wakeWaiting same fun eq => ?_
      obtain ⟨intact, busy⟩ := refused eq
      exact ⟨{ intact with }, by simpa using busy⟩
    | reply =>
      obtain rfl := Option.some.inj h
      subst same
      refine ⟨false, _, .finishing, fun eq => ?_⟩
      obtain ⟨intact, busy⟩ := refused eq
      exact ⟨{ intact with }, by simpa using busy⟩

/-- The method returns. -/
theorem over_of_finish {refused : Bool} (unmade : c.Unmade n)
    (intact : refused = true → c.Intact x n ∧ x.busy = c.busy) (stack : x.stack = c.stack) :
    c.Over (x.finish (.settle via n refused)) := by
  cases refused with
  | true =>
    obtain ⟨intact, busy⟩ := intact rfl
    refine ⟨stack, fun fault _ => ?_⟩
    exact { intact.unchanged unmade stack busy with }
  | false =>
    cases via <;> refine ⟨stack, fun fault error => ?_⟩ <;> cases error

/-- **The step of a submission**, up to its return. -/
theorem underway_step (unmade : c.Unmade n) (free : via = .command → c.busy = false)
    (before : c.Underway via n x) (h : LibOsdp.step role x act = some y)
    (quiet : act.undisturbed) : c.Underway via n y ∨ c.Over y := by
  obtain ⟨inCall, refused, stage, intact⟩ := before
  generalize stack : x.stack = frames at stage
  cases stage with
  | offering =>
    apply Or.inl
    rcases lib_of_undisturbed h quiet stack with eq | ⟨rc, eq⟩
    · obtain rfl := Option.some.inj eq
      exact ⟨true, false, .accepted, nofun⟩
    · refine underway_of_libReturn rfl free (fun _ => ?_) eq
      simpa using intact rfl
  | accepted =>
    apply Or.inl
    rcases lib_of_undisturbed h quiet stack with eq | ⟨rc, eq⟩
    · cases eq
    · refine underway_of_libReturn rfl free ?_ eq
      intro other
      cases other
  | waking rest =>
    apply Or.inl
    have ticks := tick_of_method h stack trivial
    have still (eq : refused = true) : c.Intact x n ∧ x.busy = c.busy := by simpa using intact eq
    cases rest with
    | cons head rest =>
      simp only [tick, stack] at ticks
      obtain rfl := Option.some.inj ticks
      exact ⟨false, refused, .woken _ rest, fun eq => ⟨{ (still eq).1 with }, by
        simpa using (still eq).2⟩⟩
    | nil =>
      simp only [tick, stack] at ticks
      split at ticks
      · obtain rfl := Option.some.inj ticks
        exact ⟨false, refused, .wokenStream _, fun eq => ⟨{ (still eq).1 with }, by
          simpa using (still eq).2⟩⟩
      · obtain rfl := Option.some.inj ticks
        exact ⟨false, refused, .finishing, fun eq => ⟨{ (still eq).1 with }, by
          simpa using (still eq).2⟩⟩
  | woken w rest =>
    apply Or.inl
    obtain ⟨nak, eq⟩ := ret_of_undisturbed h quiet stack
    simp only [appReturn, stack] at eq
    obtain rfl := Option.some.inj eq
    exact ⟨false, refused, .waking rest, fun eq => ⟨{ (intact eq).1 with }, (intact eq).2⟩⟩
  | wokenStream w =>
    apply Or.inl
    obtain ⟨nak, eq⟩ := ret_of_undisturbed h quiet stack
    simp only [appReturn, stack] at eq
    obtain rfl := Option.some.inj eq
    exact ⟨false, refused, .finishing, fun eq => ⟨{ (intact eq).1 with }, (intact eq).2⟩⟩
  | finishing =>
    apply Or.inr
    have ticks := tick_of_method h stack trivial
    simp only [tick, stack] at ticks
    obtain rfl := Option.some.inj ticks
    refine over_of_finish unmade (fun eq => ?_) rfl
    exact ⟨{ (intact eq).1 with }, by simpa using (intact eq).2⟩

theorem Stage.longer {inCall refused : Bool} {stack : List Frame}
    (h : Stage c via n inCall refused stack) : c.stack.length < stack.length := by
  cases h <;> simp only [List.length_cons] <;> omega

/-- A call of a method that the application makes at `c`, up to its return at `c'`. -/
structure Invocation (role : Role) (c : Context) (a : AppAct) (hops : List (Hop Context Act))
    (c' : Context) : Prop where
  runs : ∃ d, LibOsdp.step role c (.app a) = some d ∧ Run (LibOsdp.step role) d hops c'
  inside : ∀ h ∈ hops, c.stack.length < h.src.stack.length
  returns : c'.stack.length = c.stack.length

theorem told_of_run {capacity : Nat} {pos : 0 < capacity} {hops : List (Hop Context Act)}
    (run : Run (LibOsdp.step role) (new capacity pos) hops c) : c.Told :=
  run.always told_new fun before hstep => before.step (Rule.of_step hstep)

/-- A submission is over, or was offered to LibOSDP and is underway. -/
def Submitting (c x : Context) : Prop :=
  (∃ via n, c.Unmade n ∧ (via = .command → c.busy = false) ∧ c.Underway via n x) ∨ c.Over x

/-- What a submitting method has come to when LibOSDP is called, or before. -/
theorem submitting_of_step {a : AppAct} (told : c.Told) (ledger : ∀ n, c.Ledger n)
    (submits : a.submits) (h : LibOsdp.step role c (.app a) = some d) : c.Submitting d := by
  rcases submission_cases submits h with ⟨fault, rfl⟩ | ⟨via, n, boxes⟩
  · exact .inr ⟨rfl, fun _ _ => by constructor <;> intros <;> rfl⟩
  · have unmade := unmade_of_fresh told (ledger n) boxes.fresh
    exact .inl ⟨via, n, unmade, boxes.free, underway_of_boxes boxes⟩

theorem submitting_of_run {hops : List (Hop Context Act)} (first : c.Submitting d)
    (run : Run (LibOsdp.step role) d hops c')
    (inside : ∀ h ∈ hops, c.stack.length < h.src.stack.length)
    (alone : ∀ h ∈ hops, h.act.undisturbed) : c.Submitting c' := by
  apply run.invariant (fun h mem => And.intro (inside h mem) (alone h mem)) first
  rintro x a y (⟨via, n, unmade, free, underway⟩ | ended) ⟨longer, quiet⟩ hstep
  · rcases underway_step unmade free underway hstep quiet with still | ended
    · exact .inl ⟨via, n, unmade, free, still⟩
    · exact .inr ended
  · rw [ended.1] at longer
    exact absurd longer (Nat.lt_irrefl _)

/-- **A refused submission changes nothing**: where a submitting method returns an error, and
    LibOSDP's call has made no callback and wakers have not called back, the context is as it
    was. -/
theorem refused_submission_unchanged {capacity : Nat} {pos : 0 < capacity} {a : AppAct}
    {before hops : List (Hop Context Act)} {fault : Fault}
    (run : Run (LibOsdp.step role) (new capacity pos) before c)
    (call : Invocation role c a hops c') (submits : a.submits)
    (alone : ∀ h ∈ hops, h.act.undisturbed) (refused : c'.ret = .error fault) :
    c.Unchanged c' := by
  obtain ⟨d, enters, inside⟩ := call.runs
  have first := submitting_of_step (told_of_run run) (ledger_of_run run) submits enters
  rcases submitting_of_run first inside call.inside alone with ⟨_, _, -, -, _, _, stage, -⟩ | ended
  · have longer := stage.longer
    rw [call.returns] at longer
    exact absurd longer (Nat.lt_irrefl _)
  · exact ended.2 fault refused

/-- A second PIV request is refused, and the first still waits for its reply. -/
theorem refused_submission_unchanged_secondPiv : ∃ before hops c c' request,
    Run (LibOsdp.step .cp) (new 32 (by decide)) before c ∧
      Invocation .cp c (.submit 1 (.pivData request)) hops c' ∧ c'.ret = .error (.err .rejected) ∧
      c'.replies 1 = some ⟨0, 1, some .piv, true⟩ := by
  let request : PivRequest := ⟨#v[0x5f, 0xc1, 0x02], 0, 0⟩
  let first : List Act :=
    [.app (.submit 1 (.pivData request)), .lib .accept, .lib (.ret 0), .tick, .tick]
  have run := @run_trace _ _ (LibOsdp.step .cp) first (new 32 (by decide)) (by decide)
  let c := ((trace (LibOsdp.step .cp) (new 32 (by decide)) first).get (by decide)).2
  let d := (LibOsdp.step .cp c (.app (.submit 1 (.pivData request)))).get (by decide)
  have inside := @run_trace _ _ (LibOsdp.step .cp) [.lib (.ret (-1)), .tick, .tick] d (by decide)
  have call : Invocation .cp c (.submit 1 (.pivData request)) _ _ :=
    ⟨⟨d, (Option.some_get _).symm, inside⟩, by decide, by decide⟩
  have same := refused_submission_unchanged run call rfl (by decide) rfl
  exact ⟨_, _, c, _, request, run, call, rfl, (congrFun same.replies 1).trans (by decide)⟩

end Context

end LibOsdp
