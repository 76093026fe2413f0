import LibOsdp.Ctx.Ownership

/-!
# The operations LibOSDP runs

What is running under a PD and a kind is always a submission that was made for that PD and kind,
and that LibOSDP holds unless it is a biometric read, which may complete before its reply has come
in. Where LibOSDP promises to take no second operation of a kind while one runs
on the PD, the converse holds too: every submission of that kind it holds is running.
-/

set_option autoImplicit false

namespace LibOsdp

open Base Function

theorem Sub.isSmartCard_iff {n : Sub} :
    n.isSmartCard = true ↔ ∃ kind, n.kind = some kind ∧ kind.isSmartCard = true := by
  cases h : n.kind <;> simp [isSmartCard, h]

/-- The submission that a method has yet to settle, and the method. -/
def After.carries : After → Option (Via × Sub)
  | .settle via n _ => some (via, n)
  | _ => none

/-- The submission in a frame, and the method that made it. -/
def Frame.carries : Frame → Option (Via × Sub)
  | .lib (.submit via n _) => some (via, n)
  | .waking _ after | .finishing after => after.carries
  | _ => none

/-- A returning call leaves its method with the submission it carried. -/
theorem Call.carries_after {call : Call} {rc : Int} :
    (call.after rc).carries = (Frame.lib call).carries := by
  cases call <;> rfl

/-- A property of a stack that depends only on what its frames carry. -/
structure OfCarried (P : List Frame → Prop) : Prop where
  nil : P []
  push : ∀ {frame stack}, P stack → frame.carries = none → P (frame :: stack)
  pop : ∀ {frame below}, P (frame :: below) → P below
  turn : ∀ {frame next below}, P (frame :: below) → next.carries = frame.carries →
    P (next :: below)

/-- Events are no multi-part operations: only `queue_command` submits one. -/
def PlainEvents (stack : List Frame) : Prop :=
  ∀ frame ∈ stack, ∀ via n, frame.carries = some (via, n) → via ≠ .command → n.kind = none

theorem PlainEvents.nil : PlainEvents [] := by
  intro frame mem
  cases mem

theorem PlainEvents.ofCarried : OfCarried PlainEvents where
  nil := nil
  push := by
    intro frame stack h blank inner mem via n carries
    rcases List.mem_cons.mp mem with rfl | mem
    · exact absurd (blank.symm.trans carries) nofun
    · exact h inner mem via n carries
  pop h inner mem := h inner (List.mem_cons_of_mem _ mem)
  turn := by
    intro frame next below h same inner mem via n carries
    rcases List.mem_cons.mp mem with rfl | mem
    · exact h frame (List.mem_cons_self ..) via n (same.symm.trans carries)
    · exact h inner (List.mem_cons_of_mem _ mem) via n carries

namespace Context

variable {c c' : Context} {role : Role} {act : Act} {n m : Sub} {kind : MpKind}

/-- Where a submission is offered: what `Rule.offer` says of the stack and the submission. -/
structure Offers (c : Context) (act : Act) (via : Via) (n : Sub) : Prop where
  top : c.atApp
  calls : ∀ nak, act ≠ .app (.ret nak)
  free : via = .command → c.busy = false
  plain : via ≠ .command → n.kind = none

/-- **The step of what is carried**: only an offer puts a submission on the stack. -/
theorem ofCarried_step {P : List Frame → Prop} (closed : OfCarried P) (h : P c.stack)
    (rule : Rule c act c')
    (offer : ∀ via n, c.Offers act via n → P (.lib (.submit via n false) :: c.stack)) :
    P c'.stack := by
  cases rule with
  | quiet | drop | poll | stop | nextItem | parkStream | setHandler | answer | queue | deliver
  | handBack | bioStart | bioEnd | complete | completeRead => exact h
  | refresh | flush | callback | handle => exact closed.push h rfl
  | teardown => exact closed.push closed.nil rfl
  | @offer _ via n _ top calls _ free plain =>
    exact offer via n ⟨top, fun nak eq => calls nak (Act.app.inj eq), free, plain⟩
  | accept stack | wakeEnd stack =>
    rw [stack] at h
    exact closed.turn h rfl
  | handlerReturn stack | appReturn stack | tornDown stack | done stack | reclaim stack
  | settleCommand stack | settleEvent stack | settleReply stack =>
    rw [stack] at h
    exact closed.pop h
  | leaveWaking stack | leaveFinishing stack =>
    rw [stack] at h
    exact closed.turn h Call.carries_after
  | wake stack | wakeStream stack =>
    rw [stack] at h
    refine closed.push ?_ rfl
    exact closed.turn h rfl

theorem plainEvents_step (h : PlainEvents c.stack) (rule : Rule c act c') :
    PlainEvents c'.stack := by
  apply ofCarried_step PlainEvents.ofCarried h rule
  intro via n offers inner mem via' n' carries isEvent
  rcases List.mem_cons.mp mem with rfl | mem
  · obtain ⟨rfl, rfl⟩ := Prod.mk.inj (Option.some.inj carries)
    exact offers.plain isEvent
  · exact h inner mem via' n' carries isEvent

theorem runsSmartCard_iff : c.runsSmartCard n = true ↔
    ∃ kind, n.kind = some kind ∧ kind.isSmartCard = true ∧ c.running n.pd kind = some n := by
  cases h : n.kind <;> simp [runsSmartCard, h]

/-- What is running was made for that PD and kind, and is held where an engine runs it. -/
def RunsHeld (c : Context) : Prop :=
  ∀ pd kind n, c.running pd kind = some n →
    (n.pd = pd ∧ n.kind = some kind) ∧ (kind.bypassesQueue = true → n ∈ c.held)

theorem started_eq_some {pd : PdIndex} : c.started m pd kind = some n ↔
    (m.pd = pd ∧ m.kind = some kind) ∧ n = m ∨
      ¬ (m.pd = pd ∧ m.kind = some kind) ∧ c.running pd kind = some n := by
  unfold started
  split
  · next here => simp [here, eq_comm]
  · next other => simp [other]

/-- Taking a submission starts it, when it goes by that PD and kind and bypasses the queue, and
leaves the rest running. -/
theorem running_accept {via : Via} {below : List Frame} {pd : PdIndex} :
    (c.accept via m below).running pd kind =
      if m.pd = pd ∧ m.kind = some kind ∧ kind.bypassesQueue = true then some m
      else c.running pd kind := by
  simp only [accept]
  by_cases own : m.kind = some kind
  · cases bypasses : kind.bypassesQueue <;> simp [own, bypasses, started]
  · have other : c.started m pd kind = c.running pd kind := if_neg fun h => own h.2
    split <;> simp [own, other]

theorem ended_eq_some {pd : PdIndex} :
    c.ended m pd kind = some n ↔ n ≠ m ∧ c.running pd kind = some n := by
  unfold ended
  split
  · next eq => simp [eq]; exact fun ne same => ne same.symm
  · next ne =>
    constructor
    · intro h
      refine ⟨?_, h⟩
      rintro rfl
      exact ne h
    · exact fun h => h.2

/-- **The step of the engines**: what an engine runs is held. -/
theorem RunsHeld.step (h : c.RunsHeld) (rule : Rule c act c') : c'.RunsHeld := by
  cases rule with
  | @accept via m below =>
    intro pd kind n runs
    rw [running_accept] at runs
    split at runs
    · next here =>
      obtain rfl := Option.some.inj runs
      exact ⟨⟨here.1, here.2.1⟩, fun _ => List.mem_append_right _ (List.mem_singleton_self _)⟩
    · obtain ⟨own, held⟩ := h pd kind n runs
      exact ⟨own, fun bypasses => List.mem_append_left _ (held bypasses)⟩
  | complete =>
    intro pd kind n runs
    obtain ⟨ne, before⟩ := ended_eq_some.mp runs
    obtain ⟨own, held⟩ := h pd kind n before
    exact ⟨own, fun bypasses => (List.mem_erase_of_ne ne).mpr (held bypasses)⟩
  | @completeRead m _ _ _ _ _ read =>
    -- what is completed here is no engine's
    intro pd kind n runs
    obtain ⟨own, held⟩ := h pd kind n runs
    refine ⟨own, fun bypasses => (List.mem_erase_of_ne ?_).mpr (held bypasses)⟩
    rintro rfl
    obtain rfl := Option.some.inj (own.2.symm.trans read)
    cases bypasses
  | bioStart _ held read =>
    intro pd kind n runs
    rcases started_eq_some.mp runs with ⟨own, rfl⟩ | ⟨-, before⟩
    · exact ⟨own, fun _ => held⟩
    · exact h pd kind n before
  | bioEnd =>
    intro pd kind n runs
    exact h pd kind n (ended_eq_some.mp runs).2
  | _ => exact h

/-- Every submission of `kind` that LibOSDP holds is running. -/
def HeldRuns (kind : MpKind) (c : Context) : Prop :=
  ∀ n ∈ c.held, n.kind = some kind → c.running n.pd kind = some n

/-- LibOSDP takes no operation of `kind` while one runs on the PD. -/
def Exclusive (kind : MpKind) (c : Context) (act : Act) : Prop :=
  ∀ via n below, act = .lib .accept → c.stack = .lib (.submit via n false) :: below →
    n.kind = some kind → c.running n.pd kind = none

theorem HeldRuns.step (bypasses : kind.bypassesQueue = true) (ledger : ∀ n, c.Ledger n)
    (promise : c.Exclusive kind act) (h : c.HeldRuns kind) (rule : Rule c act c') :
    c'.HeldRuns kind := by
  cases rule with
  | @accept via m below stack =>
    intro n held own
    rw [running_accept]
    split
    · next here =>
      rcases List.mem_append.mp held with held | held
      · have free := promise via m below rfl stack here.2.1
        rw [here.1, h n held own] at free
        cases free
      · rw [List.mem_singleton.mp held]
    · next other =>
      rcases List.mem_append.mp held with held | held
      · exact h n held own
      · obtain rfl := List.mem_singleton.mp held
        exact absurd ⟨rfl, own, bypasses⟩ other
  | @complete m =>
    intro n held own
    have ne : n ≠ m := by
      rintro rfl
      exact (ledger n).not_mem_erase held
    exact ended_eq_some.mpr ⟨ne, h n (List.mem_of_mem_erase held) own⟩
  | completeRead => exact fun n held own => h n (List.mem_of_mem_erase held) own
  | @bioStart m _ _ _ read =>
    intro n held own
    have differ : ¬ (m.pd = n.pd ∧ m.kind = some kind) := by
      rintro ⟨-, same⟩
      obtain rfl := Option.some.inj (read.symm.trans same)
      cases bypasses
    exact started_eq_some.mpr (.inr ⟨differ, h n held own⟩)
  | @bioEnd m _ _ free =>
    intro n held own
    refine ended_eq_some.mpr ⟨?_, h n held own⟩
    rintro rfl
    exact free held
  | _ => exact h

end Context

end LibOsdp
