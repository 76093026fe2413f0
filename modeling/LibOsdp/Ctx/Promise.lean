import LibOsdp.Ctx.Engine

/-!
# What LibOSDP promises

The promises documented on `osdp_cp_submit_command` about smart cards, as checks of one step, and
what they give of every reachable context: only `queue_command` submits PIV and authenticate
commands and one at a time, and every one that LibOSDP holds is running.
-/

set_option autoImplicit false

namespace LibOsdp

open Base Function

/-- The smart card's reply that an event of LibOSDP's carries, under the kind it answers. -/
def smartCardReplyOf (raw : Sys.OsdpEvent) : Option (Event × MpKind × PivReply) :=
  match CpEvent.tryFrom raw with
  | .ok (.event event) => event.smartCardReply.map fun reply => (event, reply)
  | _ => none

theorem smartCardReplyOf_eq_some {raw : Sys.OsdpEvent} {event : Event} {kind : MpKind}
    {reply : PivReply} : smartCardReplyOf raw = some (event, kind, reply) ↔
      CpEvent.tryFrom raw = .ok (.event event) ∧ event.smartCardReply = some (kind, reply) := by
  unfold smartCardReplyOf
  split
  · next event' reads =>
    simp only [Option.map_eq_some_iff, Prod.mk.injEq, reads, Except.ok.injEq, CpEvent.event.injEq]
    constructor
    · rintro ⟨reply', isReply, rfl, rfl⟩
      exact ⟨rfl, isReply⟩
    · rintro ⟨rfl, isReply⟩
      exact ⟨_, isReply, rfl, rfl⟩
  · next other =>
    constructor
    · exact nofun
    · exact fun h => absurd h.1 (other event)

/-- The PIV and authenticate operations. -/
def MpKind.smartCard : List MpKind := [.piv, .genAuth, .crAuth]

theorem MpKind.mem_smartCard {kind : MpKind} : kind ∈ smartCard ↔ kind.isSmartCard = true := by
  cases kind <;> decide

/-- LibOSDP runs one PIV or authenticate operation per PD: it does not take a second one. -/
def OneCardOperation (h : Hop Context Act) : Bool :=
  match h.act, h.src.stack with
  | .lib .accept, .lib (.submit _ n false) :: _ =>
    !n.isSmartCard || MpKind.smartCard.all fun kind => (h.src.running n.pd kind).isNone
  | _, _ => true

/-- LibOSDP hands over the reply of a running operation once: a reply that comes while one runs is
its reply, and it has had none before. -/
def OneReply (h : Hop Context Act) : Bool :=
  match h.act with
  | .lib (.event pd raw) =>
    (smartCardReplyOf raw).isNone ||
      MpKind.smartCard.all fun kind =>
        (h.src.running (.ofC pd) kind).all fun n => !h.src.replied n
  | _ => true

/-- Wakers do not call back into the context. -/
def QuietWaker (h : Hop Context Act) : Bool :=
  match h.src.stack, h.act with
  | .app (.waker _) :: _, .app (.ret _) => true
  | .app (.waker _) :: _, _ => false
  | _, _ => true

/-- What is documented on `osdp_cp_submit_command`, and wakers that only wake. -/
abbrev Promised (h : Hop Context Act) : Prop :=
  OneCardOperation h = true ∧ OneReply h = true ∧ QuietWaker h = true

/-- A PIV or authenticate command is being submitted. -/
def Frame.carriesCard (frame : Frame) : Bool := frame.carries.any fun made => made.2.isSmartCard

/-- At most one PIV or authenticate command is on its way to LibOSDP and back. -/
def Flight (stack : List Frame) : Prop := stack.countP Frame.carriesCard ≤ 1

theorem Flight.ofCarried : OfCarried Flight where
  nil := Nat.zero_le _
  push := by
    intro frame stack h blank
    have card : frame.carriesCard = false := by rw [Frame.carriesCard, blank]; rfl
    rw [Flight, List.countP_cons_of_neg (by simp [card])]
    exact h
  pop := by
    intro frame below h
    rw [Flight, List.countP_cons] at h
    exact Nat.le_trans (Nat.le_add_right _ _) h
  turn := by
    intro frame next below h same
    have sameCard : next.carriesCard = frame.carriesCard := by
      rw [Frame.carriesCard, Frame.carriesCard, same]
    rw [Flight, List.countP_cons, sameCard, ← List.countP_cons]
    exact h

namespace Context

variable {c c' : Context} {role : Role} {act : Act} {n m : Sub} {kind : MpKind}

theorem exclusive_of_oneCardOperation (h : OneCardOperation ⟨c, act, c'⟩ = true)
    (card : kind.isSmartCard = true) : c.Exclusive kind act := by
  rintro via n below rfl stack own
  have isCard : n.isSmartCard = true := Sub.isSmartCard_iff.mpr ⟨kind, own, card⟩
  simp only [OneCardOperation, stack, isCard, Bool.not_true, Bool.false_or, List.all_eq_true] at h
  exact Option.isNone_iff_eq_none.mp (h kind (MpKind.mem_smartCard.mpr card))

theorem not_replied_of_oneReply {pd : Int32} {raw : Sys.OsdpEvent} {reply : Event × MpKind × PivReply}
    (h : OneReply ⟨c, .lib (.event pd raw), c'⟩ = true) (isReply : smartCardReplyOf raw = some reply)
    (here : n.pd = .ofC pd) (runs : c.runsSmartCard n = true) : c.replied n = false := by
  obtain ⟨kind, -, card, running⟩ := runsSmartCard_iff.mp runs
  simp only [OneReply, isReply, Option.isNone_some, Bool.false_or, List.all_eq_true] at h
  have once := h kind (MpKind.mem_smartCard.mpr card)
  rw [← here, running] at once
  simpa using once

theorem ret_of_quietWaker {w : Waker} {below : List Frame} (h : QuietWaker ⟨c, act, c'⟩ = true)
    (stack : c.stack = .app (.waker w) :: below) : ∃ nak, act = .app (.ret nak) := by
  unfold QuietWaker at h
  simp only [stack] at h
  split at h
  · next nak _ => exact ⟨_, rfl⟩
  · cases h
  · next other _ => exact absurd rfl (other w below)

/-- With wakers that only wake, a guarded call is entered from outside every method. -/
theorem Shape.stack_of_enters (shape : c.Shape) (top : c.atApp) (free : c.busy = false)
    (quiet : QuietWaker ⟨c, act, c'⟩ = true) (calls : ∀ nak, act ≠ .app (.ret nak)) :
    c.stack = [] := by
  have unguarded : c.stack.countP Frame.guarded = 0 := by
    rw [shape.busy, free]
    rfl
  have nest := shape.nest
  rcases appTop_of_atApp top with empty | ⟨code, below, stack⟩
  · exact empty
  · rw [stack] at nest unguarded
    cases code with
    | callback =>
      obtain ⟨call, rest, rfl, guarded⟩ := nest.1
      have none := List.countP_eq_zero.mp unguarded (.lib call) (by simp)
      exact absurd guarded none
    | handler h cmd =>
      obtain ⟨rest, rfl⟩ := nest.1
      have none := List.countP_eq_zero.mp unguarded (.lib .refresh) (by simp)
      exact absurd rfl none
    | waker w =>
      obtain ⟨nak, eq⟩ := ret_of_quietWaker quiet stack
      exact absurd eq (calls nak)

theorem flight_step (shape : c.Shape) (quiet : QuietWaker ⟨c, act, c'⟩ = true)
    (h : Flight c.stack) (rule : Rule c act c') : Flight c'.stack := by
  apply ofCarried_step Flight.ofCarried h rule
  intro via n offers
  have card_iff : (Frame.lib (.submit via n false)).carriesCard = n.isSmartCard := rfl
  cases card : n.isSmartCard with
  | true =>
    have command : via = .command := by
      by_contra other
      rw [Sub.isSmartCard, offers.plain other] at card
      cases card
    have empty := shape.stack_of_enters offers.top (offers.free command) quiet offers.calls
    rw [empty, Flight, List.countP_singleton, card_iff, card]
    exact Nat.le_refl _
  | false =>
    rw [Flight, List.countP_cons_of_neg (by simp [card_iff, card])]
    exact h

/-- What holds of the submissions and the operations of a run in which the promises are kept. -/
structure Tracked (c : Context) : Prop where
  shape : c.Shape
  ledger : ∀ n, c.Ledger n
  plain : PlainEvents c.stack
  flight : Flight c.stack
  runsHeld : c.RunsHeld
  heldRuns : ∀ kind, kind.isSmartCard = true → c.HeldRuns kind

theorem tracked_new {capacity : Nat} {pos : 0 < capacity} : (new capacity pos).Tracked where
  shape := shape_new
  ledger _ := ledger_new
  plain := PlainEvents.nil
  flight := Nat.zero_le _
  runsHeld := nofun
  heldRuns _ _ := nofun

/-- What of that holds whether or not wakers call back into the context. -/
structure Engaged (c : Context) : Prop where
  shape : c.Shape
  ledger : ∀ n, c.Ledger n
  plain : PlainEvents c.stack
  runsHeld : c.RunsHeld
  heldRuns : ∀ kind, kind.isSmartCard = true → c.HeldRuns kind

theorem Tracked.engaged (h : c.Tracked) : c.Engaged := { h with }

theorem Engaged.step (h : c.Engaged) (promise : OneCardOperation ⟨c, act, c'⟩ = true)
    (rule : Rule c act c') : c'.Engaged where
  shape := h.shape.step rule
  ledger n := (h.ledger n).step rule
  plain := plainEvents_step h.plain rule
  runsHeld := h.runsHeld.step rule
  heldRuns kind card :=
    (h.heldRuns kind card).step (MpKind.bypassesQueue_of_isSmartCard card) h.ledger
      (exclusive_of_oneCardOperation promise card) rule

theorem Tracked.step (h : c.Tracked) (promise : Promised ⟨c, act, c'⟩) (rule : Rule c act c') :
    c'.Tracked :=
  { h.engaged.step promise.1 rule with
    flight := flight_step h.shape promise.2.2 h.flight rule }

/-- What is running is held. -/
theorem Engaged.held_of_runs (h : c.Engaged) (runs : c.runsSmartCard n = true) : n ∈ c.held := by
  obtain ⟨kind, -, card, running⟩ := runsSmartCard_iff.mp runs
  exact (h.runsHeld _ _ _ running).2 (MpKind.bypassesQueue_of_isSmartCard card)

/-- A smart card command that was reported to its caller and is pending is running. -/
theorem Engaged.runs_of_pending (h : c.Engaged) (card : n.isSmartCard = true)
    (told : .returned n ∈ c.log) (pending : (c.slots n).status = none) :
    c.runsSmartCard n = true := by
  obtain ⟨kind, own, isCard⟩ := Sub.isSmartCard_iff.mp card
  have held : n ∈ c.held := (h.ledger n).held_of_pending told pending
  exact runsSmartCard_iff.mpr ⟨kind, own, isCard, h.heldRuns kind isCard n held own⟩

/-- Only `queue_command` submits a smart card command. -/
theorem Engaged.command_of_carries (h : c.Engaged) {frame : Frame} {via : Via}
    (mem : frame ∈ c.stack) (carries : frame.carries = some (via, n))
    (card : n.isSmartCard = true) : via = .command := by
  by_contra other
  rw [Sub.isSmartCard, h.plain frame mem via n carries other] at card
  cases card

end Context

end LibOsdp
