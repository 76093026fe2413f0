import LibOsdp.Ctx.Busy

/-!
# The shape of the stack

Which frame can be on top of which. LibOSDP runs application code only inside guarded calls, and
a waker runs only where no LibOSDP call is below it; so a LibOSDP call with anything on top of it
is guarded, and once a context is not busy, at most the call on top is LibOSDP's.
-/

set_option autoImplicit false

namespace LibOsdp

open Base

/-- The application is on top: every method is entered from here. -/
def AppTop (stack : List Frame) : Prop :=
  stack = [] ∨ ∃ code below, stack = .app code :: below

/-- No LibOSDP call is on the stack. -/
def NoLib (stack : List Frame) : Prop := ∀ frame ∈ stack, frame.isLib = false

/-- The frame of a method that LibOSDP has returned to. -/
def Frame.isMethod : Frame → Prop
  | .waking _ _ | .finishing _ => True
  | _ => False

/-- What a frame can be on top of. -/
def Frame.On (below : List Frame) : Frame → Prop
  | .lib call => AppTop below ∧ (call = .teardown → below = []) ∧
      (∀ n accepted, call = .submit .reply n accepted →
        ∃ h cmd rest, below = .app (.handler h cmd) :: rest)
  | .waking _ _ => AppTop below ∧ NoLib below
  | .finishing _ => AppTop below
  | .app .callback => ∃ call rest, below = .lib call :: rest ∧ call.guarded = true
  | .app (.handler _ _) => ∃ rest, below = .lib .refresh :: rest
  | .app (.waker _) => NoLib below ∧ ∃ frame rest, below = frame :: rest ∧ frame.isMethod

/-- Every frame of the stack is on top of one it can be on. -/
def Nest : List Frame → Prop
  | [] => True
  | frame :: below => frame.On below ∧ Nest below

theorem Frame.isLib_of_guarded {frame : Frame} (h : frame.guarded = true) : frame.isLib = true := by
  cases frame with
  | lib _ => rfl
  | waking _ _ | finishing _ | app _ => cases h

theorem noLib_cons {frame : Frame} {below : List Frame} :
    NoLib (frame :: below) ↔ frame.isLib = false ∧ NoLib below := by
  simp [NoLib]

theorem noLib_nil : NoLib [] := by
  intro frame mem
  cases mem

theorem not_appTop_lib {call : Call} {below : List Frame} : ¬ AppTop (.lib call :: below) := by
  rintro (h | ⟨code, rest, h⟩) <;> cases h

/-- **Only guarded calls are interrupted**: a LibOSDP call under another frame is guarded. -/
theorem Nest.guarded_of_mem {frame : Frame} {below : List Frame} (h : Nest (frame :: below)) :
    ∀ inner ∈ below, inner.isLib = true → inner.guarded = true := by
  induction below generalizing frame with
  | nil =>
    intro inner mem
    cases mem
  | cons next rest ih =>
    obtain ⟨on, nest⟩ := h
    intro inner mem isLib
    rcases List.mem_cons.mp mem with rfl | mem
    · cases inner with
      | lib call =>
        cases frame with
        | lib _ => exact absurd on.1 not_appTop_lib
        | waking _ _ => exact absurd on.1 not_appTop_lib
        | finishing _ => exact absurd on not_appTop_lib
        | app code =>
          cases code with
          | callback =>
            obtain ⟨call', rest', eq, guarded⟩ := on
            cases eq
            exact guarded
          | handler _ _ =>
            obtain ⟨rest', eq⟩ := on
            cases eq
            rfl
          | waker _ => simp [on.1 _ (List.mem_cons_self ..)] at isLib
      | waking _ _ | finishing _ | app _ => cases isLib
    · exact ih nest inner mem isLib

/-- With no guarded call below it, the frame on top has no LibOSDP call below it. -/
theorem Nest.noLib_below {frame : Frame} {below : List Frame} (h : Nest (frame :: below))
    (free : below.countP Frame.guarded = 0) : NoLib below := by
  intro inner mem
  by_contra isLib
  have guarded := h.guarded_of_mem inner mem (by simpa using isLib)
  exact List.countP_eq_zero.mp free inner mem guarded

namespace Context

variable {c c' : Context} {role : Role} {act : Act}

theorem appTop_of_atApp (top : c.atApp) : AppTop c.stack := (atApp_iff.mp top).2

/-- **The step of the stack**: every step leaves it well nested. -/
theorem nest_step (busy : c.BusyExact) (h : Nest c.stack) (rule : Rule c act c') :
    Nest c'.stack := by
  cases rule with
  | quiet | drop | poll | stop | nextItem | parkStream | setHandler | answer | queue | deliver
  | handBack | bioStart | bioEnd | complete | completeRead => exact h
  | refresh top | flush top => exact ⟨⟨appTop_of_atApp top, nofun, nofun⟩, h⟩
  | offer top _ _ _ _ handles =>
    refine ⟨⟨appTop_of_atApp top, nofun, ?_⟩, h⟩
    rintro n accepted ⟨⟩
    exact handles rfl
  | teardown => exact ⟨⟨.inl rfl, fun _ => rfl, nofun⟩, trivial⟩
  | callback stack guarded => exact ⟨⟨_, _, stack, guarded⟩, h⟩
  | handle stack => exact ⟨⟨_, stack⟩, h⟩
  | accept stack =>
    rw [stack] at h
    refine ⟨⟨h.1.1, nofun, ?_⟩, h.2⟩
    rintro n accepted ⟨⟩
    exact h.1.2.2 _ _ rfl
  | handlerReturn stack | appReturn stack | tornDown stack | done stack | reclaim stack
  | settleCommand stack | settleEvent stack | settleReply stack =>
    rw [stack] at h
    exact h.2
  | @leaveWaking _ call below stack _ free =>
    have unguarded : below.countP Frame.guarded = 0 := by
      rw [busy.leave stack, free]
      rfl
    rw [stack] at h
    exact ⟨⟨h.1.1, h.noLib_below unguarded⟩, h.2⟩
  | leaveFinishing stack =>
    rw [stack] at h
    exact ⟨h.1.1, h.2⟩
  | wake stack =>
    rw [stack] at h
    exact ⟨⟨noLib_cons.mpr ⟨rfl, h.1.2⟩, _, _, rfl, trivial⟩, h⟩
  | wakeStream stack =>
    rw [stack] at h
    exact ⟨⟨noLib_cons.mpr ⟨rfl, h.1.2⟩, _, _, rfl, trivial⟩, h.1.1, h.2⟩
  | wakeEnd stack =>
    rw [stack] at h
    exact ⟨h.1.1, h.2⟩

/-- A context that was torn down is at rest: LibOSDP holds nothing, and nothing is running. -/
def TornAtRest (c : Context) : Prop := c.torn = true → c.held = [] ∧ c.stack = []

/-- A context that was torn down takes no step. -/
theorem TornAtRest.not_torn (h : c.TornAtRest) (rule : Rule c act c') : c.torn = false := by
  by_contra torn
  have rest := (h (by simpa using torn)).2
  cases rule with
  | quiet top | drop top | poll top | stop top | nextItem top | parkStream top | setHandler top
  | refresh top | flush top | offer top | teardown top =>
    exact torn (atApp_iff.mp top).1
  | handlerReturn stack | appReturn stack | callback stack | accept stack | complete stack
  | completeRead stack | answer _ stack | queue _ _ stack | deliver stack | handBack stack
  | handle stack | bioStart stack | bioEnd stack | leaveWaking stack | leaveFinishing stack
  | tornDown stack | wake stack | wakeStream stack | wakeEnd stack | done stack | reclaim stack
  | settleCommand stack | settleEvent stack | settleReply stack =>
    rw [rest] at stack
    cases stack

theorem TornAtRest.step (h : c.TornAtRest) (nest : Nest c.stack) (rule : Rule c act c') :
    c'.TornAtRest := by
  have alive := h.not_torn rule
  cases rule with
  | tornDown stack empty =>
    rw [stack] at nest
    exact fun _ => ⟨empty, nest.1.2.1 rfl⟩
  | _ => exact fun torn => absurd (alive.symm.trans torn) nofun

/-- What the control of every reachable context is like. -/
structure Shape (c : Context) : Prop where
  busy : c.BusyExact
  nest : Nest c.stack
  torn : c.TornAtRest

theorem shape_new {capacity : Nat} {pos : 0 < capacity} : (new capacity pos).Shape :=
  ⟨rfl, trivial, nofun⟩

theorem Shape.step (h : c.Shape) (rule : Rule c act c') : c'.Shape :=
  ⟨h.busy.step rule, nest_step h.busy h.nest rule, h.torn.step h.nest rule⟩

theorem shape_of_run {capacity : Nat} {pos : 0 < capacity} {hops : List (Hop Context Act)}
    (run : Run (LibOsdp.step role) (new capacity pos) hops c) : c.Shape :=
  run.always shape_new fun before hstep => before.step (Rule.of_step hstep)

end Context

end LibOsdp
