import LibOsdp.Ctx.Engine

/-!
# What a cancel stops

A cancel names an operation by a PD and a kind, and is made wherever the submission is pending.
The engines run an operation from its acceptance on and one at a time, so for their kinds pending
is running. A biometric read waits its turn in the PD's command queue, and while it does, what
runs under its name is the read at the head, or one that has completed and whose reply still
comes in.
-/

set_option autoImplicit false

namespace LibOsdp

open Base Function

/-- The command rides the PD's command queue. -/
def Sub.queued (n : Sub) : Bool := !n.kind.any MpKind.bypassesQueue

theorem MpKind.bypassesQueue_of_ne {kind : MpKind} (h : kind ≠ .bioRead) :
    kind.bypassesQueue = true := by
  cases kind with
  | bioRead => exact absurd rfl h
  | _ => rfl

/-- What is first in a list stays first when something else is taken out. -/
theorem find?_erase_of_ne {α : Type} [DecidableEq α] {l : List α} {p : α → Bool} {a b : α}
    (first : l.find? p = some a) (ne : a ≠ b) : (l.erase b).find? p = some a := by
  induction l with
  | nil => cases first
  | cons x l ih =>
    rw [List.find?_cons] at first
    rw [List.erase_cons]
    cases holds : p x with
    | true =>
      simp only [holds, Option.some.injEq] at first
      subst first
      simp [ne, holds]
    | false =>
      simp only [holds] at first
      split
      · exact first
      · rw [List.find?_cons, holds]
        exact ih first

namespace Context

variable {c c' : Context} {role : Role} {act : Act} {n m : Sub} {kind : MpKind}

/-- The command at the head of the command queue of `pd`. -/
def queueHead (c : Context) (pd : PdIndex) : Option Sub :=
  c.held.find? fun n => n.pd = pd && n.queued

/-- An engine runs one operation of its kind per PD: LibOSDP does not take a second one. -/
def OneOperation (h : Hop Context Act) : Bool :=
  match h.act, h.src.stack with
  | .lib .accept, .lib (.submit _ n false) :: _ =>
    n.kind.all fun kind => !kind.bypassesQueue || (h.src.running n.pd kind).isNone
  | _, _ => true

/-- The multi-part reply of a biometric read starts while the read is at the head of the queue. -/
def BioInOrder (h : Hop Context Act) : Bool :=
  match h.act with
  | .lib (.bioStart n) => h.src.queueHead n.pd = some n
  | _ => true

/-- What is documented of the five kinds of operations. -/
abbrev Orderly (h : Hop Context Act) : Prop := OneOperation h = true ∧ BioInOrder h = true

theorem exclusive_of_oneOperation (h : OneOperation ⟨c, act, c'⟩ = true)
    (bypasses : kind.bypassesQueue = true) : c.Exclusive kind act := by
  rintro via n below rfl stack own
  simp only [OneOperation, stack, own, Option.all_some, bypasses, Bool.not_true,
    Bool.false_or] at h
  exact Option.isNone_iff_eq_none.mp h

/-- What runs was accepted. -/
def RunsAccepted (c : Context) : Prop :=
  ∀ pd kind n, c.running pd kind = some n → .accepted n ∈ c.log

theorem RunsAccepted.step (ledger : ∀ n, c.Ledger n) (h : c.RunsAccepted) (rule : Rule c act c') :
    c'.RunsAccepted := by
  have grows := rule.log_grows
  intro pd kind n runs
  cases rule with
  | @accept via m below =>
    rw [running_accept] at runs
    split at runs
    · obtain rfl := Option.some.inj runs
      exact List.mem_cons_self ..
    · exact grows.subset (h pd kind n runs)
  | complete | bioEnd => exact grows.subset (h pd kind n (ended_eq_some.mp runs).2)
  | bioStart _ held =>
    rcases started_eq_some.mp runs with ⟨-, rfl⟩ | ⟨-, before⟩
    · exact (ledger n).accepted_of_held held
    · exact h pd kind n before
  | _ => exact grows.subset (h pd kind n runs)

/-- What LibOSDP is called with was not accepted before. -/
theorem not_accepted_of_offered {via : Via} {below : List Frame} (ledger : c.Ledger n)
    (stack : c.stack = .lib (.submit via n false) :: below) : .accepted n ∉ c.log := by
  intro accepted
  have once := ledger.once
  have offers := ledger.offers
  have taken := List.count_pos_iff.mpr accepted
  rw [stack, List.countP_cons_of_pos (by simp [Frame.offers])] at offers
  omega

/-- The biometric read that runs on a PD is at the head of its queue, until it completes. -/
def BioFirst (c : Context) : Prop :=
  ∀ pd n, c.running pd .bioRead = some n → n ∈ c.held → c.queueHead pd = some n

theorem BioFirst.step (order : BioInOrder ⟨c, act, c'⟩ = true) (ledger : ∀ n, c.Ledger n)
    (accepted : c.RunsAccepted) (h : c.BioFirst) (rule : Rule c act c') : c'.BioFirst := by
  cases rule with
  | @accept via m below stack =>
    intro pd n runs held
    rw [running_accept, if_neg (by simp [MpKind.bypassesQueue])] at runs
    have before : n ∈ c.held := by
      rcases List.mem_append.mp held with before | new
      · exact before
      · obtain rfl := List.mem_singleton.mp new
        exact absurd (accepted pd .bioRead n runs) (not_accepted_of_offered (ledger n) stack)
    have first := h pd n runs before
    unfold queueHead at first
    simp only [queueHead, Context.accept, List.find?_append, first, Option.some_or]
  | @complete m status =>
    intro pd n runs held
    obtain ⟨ne, before⟩ := ended_eq_some.mp runs
    exact find?_erase_of_ne (h pd n before (List.mem_of_mem_erase held)) ne
  | @completeRead m status =>
    intro pd n runs held
    have ne : n ≠ m := by
      rintro rfl
      exact (ledger n).not_mem_erase held
    exact find?_erase_of_ne (h pd n runs (List.mem_of_mem_erase held)) ne
  | @bioStart m =>
    intro pd n runs held
    rcases started_eq_some.mp runs with ⟨⟨rfl, -⟩, rfl⟩ | ⟨-, before⟩
    · have head : c.queueHead n.pd = some n := by simpa [BioInOrder] using order
      exact head
    · exact h pd n before held
  | bioEnd => exact fun pd n runs held => h pd n (ended_eq_some.mp runs).2 held
  | _ => exact h

/-- A handle names the operation that its submission started. -/
def HandleOwn (c : Context) : Prop :=
  ∀ n handle, c.handles n = some handle → handle.operation = n.kind.map (Operation.mk n.pd)

theorem HandleOwn.step (plain : PlainEvents c.stack) (h : c.HandleOwn) (rule : Rule c act c') :
    c'.HandleOwn := by
  cases rule with
  | @drop m =>
    intro n handle live
    by_cases eq : n = m
    · simp [eq] at live
    · exact h n handle (by simpa [update_of_ne eq] using live)
  | @settleCommand m =>
    intro n handle live
    by_cases eq : n = m
    · subst eq
      simp at live
      rw [← live]
    · exact h n handle (by simpa [update_of_ne eq] using live)
  | @settleEvent m below stack =>
    intro n handle live
    by_cases eq : n = m
    · subst eq
      have none : n.kind = none :=
        plain _ (by rw [stack]; exact List.mem_cons_self ..) .event n rfl nofun
      simp at live
      rw [← live, none]
      rfl
    · exact h n handle (by simpa [update_of_ne eq] using live)
  | _ => exact h

/-- What holds of the operations of a run in which LibOSDP runs them in order. -/
structure Engines (c : Context) : Prop where
  ledger : ∀ n, c.Ledger n
  plain : PlainEvents c.stack
  handles : c.HandleOwn
  runsHeld : c.RunsHeld
  runsAccepted : c.RunsAccepted
  heldRuns : ∀ kind, kind.bypassesQueue = true → c.HeldRuns kind
  bioFirst : c.BioFirst

theorem engines_new {capacity : Nat} {pos : 0 < capacity} : (new capacity pos).Engines where
  ledger _ := ledger_new
  plain := PlainEvents.nil
  handles := nofun
  runsHeld := nofun
  runsAccepted := nofun
  heldRuns _ _ := nofun
  bioFirst := nofun

theorem Engines.step (h : c.Engines) (promise : Orderly ⟨c, act, c'⟩) (rule : Rule c act c') :
    c'.Engines where
  ledger n := (h.ledger n).step rule
  plain := plainEvents_step h.plain rule
  handles := h.handles.step h.plain rule
  runsHeld := h.runsHeld.step rule
  runsAccepted := h.runsAccepted.step h.ledger rule
  heldRuns kind bypasses :=
    (h.heldRuns kind bypasses).step bypasses h.ledger
      (exclusive_of_oneOperation promise.1 bypasses) rule
  bioFirst := h.bioFirst.step promise.2 h.ledger h.runsAccepted rule

theorem engines_of_run {capacity : Nat} {pos : 0 < capacity} {hops : List (Hop Context Act)}
    (run : Run (LibOsdp.step role) (new capacity pos) hops c) (promises : ∀ h ∈ hops, Orderly h) :
    c.Engines :=
  run.invariant promises engines_new fun before promise hstep =>
    before.step promise (Rule.of_step hstep)

/-- LibOSDP runs the reply of a biometric read on `pd` that it still holds. -/
def runsHeldRead (c : Context) (pd : PdIndex) : Bool :=
  (c.running pd .bioRead).any (· ∈ c.held)

/-- The step does not cancel a biometric read while the reply of a read runs on its PD, unless the
read it cancels is at the head of the command queue there and the one that runs is yet to
complete. -/
def CancelInTurn (h : Hop Context Act) : Bool :=
  match h.act with
  | .app (.cancel n) =>
    n.kind ≠ some .bioRead || !(h.src.slots n).isPending ||
      (h.src.running n.pd .bioRead).isNone ||
        (h.src.queueHead n.pd = some n && h.src.runsHeldRead n.pd)
  | _ => true

/-- A step stops an operation only as a cancel of a pending submission. -/
theorem stopped_cases (rule : Rule c act c') (stopped : .stopped n m ∈ c'.log) :
    .stopped n m ∈ c.log ∨ act = .app (.cancel n) ∧ ∃ op, c.handles n = some ⟨some op⟩ ∧
      (c.slots n).status = none ∧ c.running op.pd op.kind = some m := by
  cases rule with
  | quiet | refresh | flush | drop | nextItem | parkStream | setHandler | appReturn | teardown
  | callback | handBack | bioStart | bioEnd | tornDown | wakeEnd | done => exact .inl stopped
  | offer | poll | handlerReturn | accept | complete | completeRead | deliver | handle | wake
  | wakeStream | reclaim | settleCommand | settleEvent | settleReply =>
    exact .inl (by simpa using stopped)
  | answer log _ answers | queue _ log _ _ answers =>
    rcases answers with rfl | ⟨code, rfl⟩
    · exact .inl stopped
    · exact .inl (by simpa using stopped)
  | @leaveWaking _ call | @leaveFinishing _ call =>
    rcases call.refusal_cases with none | ⟨n, refused⟩
    · exact .inl (by simpa [none] using stopped)
    · exact .inl (by simpa [refused] using stopped)
  | @stop n' m' op top handle pending runs =>
    rcases List.mem_cons.mp stopped with eq | before
    · cases eq
      exact .inr ⟨rfl, op, handle, pending, runs⟩
    · exact .inl before

/-- A pending submission with a handle is held. -/
theorem Engines.held_of_pending (h : c.Engines) (live : (c.handles n).isSome)
    (pending : (c.slots n).status = none) : n ∈ c.held := by
  have told := List.count_pos_iff.mp ((h.ledger n).handle live)
  exact (h.ledger n).held_of_pending told pending

/-- **A cancel in turn stops its own operation.** -/
theorem Engines.own_of_inTurn {op : Operation} (h : c.Engines)
    (inTurn : CancelInTurn ⟨c, .app (.cancel n), c'⟩ = true)
    (handle : c.handles n = some ⟨some op⟩) (pending : (c.slots n).status = none)
    (runs : c.running op.pd op.kind = some m) : m = n := by
  obtain ⟨kind, own, rfl⟩ := Option.map_eq_some_iff.mp (h.handles n _ handle).symm
  have held := h.held_of_pending (by rw [handle]; rfl) pending
  by_cases read : kind = .bioRead
  · subst read
    have isPending := Slot.isPending_iff.mpr pending
    simp only [CancelInTurn, own, isPending, runsHeldRead, runs, Option.any_some] at inTurn
    obtain ⟨head, running⟩ : c.queueHead n.pd = some n ∧ m ∈ c.held := by simpa using inTurn
    exact Option.some.inj ((h.bioFirst n.pd m runs running).symm.trans head)
  · have bypasses := MpKind.bypassesQueue_of_ne read
    exact Option.some.inj (runs.symm.trans (h.heldRuns kind bypasses n held own))

/-- A cancel out of turn stops another's. -/
theorem Engines.other_of_outOfTurn (h : c.Engines)
    (hstep : LibOsdp.step role c (.app (.cancel n)) = some c')
    (out : CancelInTurn ⟨c, .app (.cancel n), c'⟩ = false) :
    ∃ m, m ≠ n ∧ .stopped n m ∈ c'.log := by
  simp only [CancelInTurn, Bool.or_eq_false_iff, decide_eq_false_iff_not, not_not,
    Bool.not_eq_false', Option.isNone_eq_false_iff] at out
  obtain ⟨⟨⟨read, pending⟩, running⟩, behind⟩ := out
  obtain ⟨m, runs⟩ := Option.isSome_iff_exists.mp running
  obtain ⟨-, eq⟩ := Option.ite_none_right_eq_some.mp hstep
  obtain ⟨⟨operation⟩, live, rfl⟩ := Option.map_eq_some_iff.mp eq
  refine ⟨m, ?_, ?_⟩
  · rintro rfl
    -- its own reply would run, and so the read would be held, at the head of the queue
    have held := h.held_of_pending (by rw [live]; rfl) (Slot.isPending_iff.mp pending)
    have head := h.bioFirst m.pd m runs held
    simp [head, runsHeldRead, runs, held] at behind
  · have names := h.handles n _ live
    rw [read] at names
    obtain rfl := names
    simp [cancel, pending, runs]

/-- **A cancel stops its own operation exactly when it is made in turn**: in every run in which
the engines run one operation of a kind at a time, and biometric reads go in order. -/
theorem cancel_own_exact {capacity : Nat} {pos : 0 < capacity} {hops : List (Hop Context Act)}
    (run : Run (LibOsdp.step .cp) (new capacity pos) hops c) (promises : ∀ h ∈ hops, Orderly h) :
    (∀ n m, .stopped n m ∈ c.log → m = n) ↔ ∀ h ∈ hops, CancelInTurn h = true := by
  constructor
  · rintro own ⟨x, act, y⟩ mem
    obtain ⟨before, after, rfl, pre, hstep, post⟩ := run.cut mem
    have engines := engines_of_run pre fun h inBefore => promises h (by simp [inBefore])
    by_contra out
    cases act with
    | app act =>
      cases act with
      | cancel n =>
        obtain ⟨m, other, stopped⟩ := engines.other_of_outOfTurn hstep (Bool.of_not_eq_true out)
        exact other (own n m ((log_suffix_of_run post).subset stopped))
      | _ => exact out rfl
    | _ => exact out rfl
  · intro inTurn
    induction run with
    | nil => exact nofun
    | @snoc hops x y a run hstep ih =>
      have promises' : ∀ h ∈ hops, Orderly h := fun h mem => promises h (List.mem_append_left _ mem)
      have before := ih promises' fun h mem => inTurn h (List.mem_append_left _ mem)
      intro n m stopped
      rcases stopped_cases (Rule.of_step hstep) stopped with
        old | ⟨rfl, op, handle, pending, runs⟩
      · exact before n m old
      · exact (engines_of_run run promises').own_of_inTurn
          (inTurn ⟨x, _, y⟩ (by simp)) handle pending runs

/-- The read of a right index finger. -/
def fingerRead : Request :=
  .submit (.bioRead
    { reader := 0, kind := .rightIndexFinger, format := .ansiIncits378, quality := 80 })

/-- A file transfer, and the biometric read that runs on another PD, are both cancelled. -/
theorem cancel_own_exact_twoCancels : ∃ hops c,
    Run (LibOsdp.step .cp) (new 32 (by decide)) hops c ∧
      .stopped ⟨0, 1, some .fileTransfer, false⟩ ⟨0, 1, some .fileTransfer, false⟩ ∈ c.log ∧
      .stopped ⟨1, 0, some .bioRead, false⟩ ⟨1, 0, some .bioRead, false⟩ ∈ c.log ∧
      ∀ n m, .stopped n m ∈ c.log → m = n := by
  let file : Sub := ⟨0, 1, some .fileTransfer, false⟩
  let read : Sub := ⟨1, 0, some .bioRead, false⟩
  let acts : List Act :=
    [.app (.submit 1 (.submit (.fileTx ⟨1⟩))), .lib .accept, .lib (.ret 0), .tick, .tick,
      .app (.submit 0 fingerRead), .lib .accept, .lib (.ret 0), .tick, .tick,
      .app .refresh, .lib (.bioStart read), .lib (.ret 0), .tick, .tick,
      .app (.cancel file), .app (.cancel read)]
  have run := @run_trace _ _ (LibOsdp.step .cp) acts (new 32 (by decide)) (by decide)
  exact ⟨_, _, run, by decide, by decide, (cancel_own_exact run (by decide)).mpr (by decide)⟩

/-- Of two biometric reads, the second is cancelled while the reply of the first comes in, and
LibOSDP stops the first. -/
theorem cancel_stops_earlier_read : ∃ hops c,
    Run (LibOsdp.step .cp) (new 32 (by decide)) hops c ∧ (∀ h ∈ hops, Orderly h) ∧
      ¬ ∀ n m, .stopped n m ∈ c.log → m = n := by
  let first : Sub := ⟨0, 0, some .bioRead, false⟩
  let second : Sub := ⟨1, 0, some .bioRead, false⟩
  let acts : List Act :=
    [.app (.submit 0 fingerRead), .lib .accept, .lib (.ret 0), .tick, .tick,
      .app (.submit 0 fingerRead), .lib .accept, .lib (.ret 0), .tick, .tick,
      .app .refresh, .lib (.bioStart first), .lib (.ret 0), .tick, .tick, .app (.cancel second)]
  have run := @run_trace _ _ (LibOsdp.step .cp) acts (new 32 (by decide)) (by decide)
  refine ⟨_, _, run, by decide, fun own => ?_⟩
  exact absurd (own second first (by decide)) (by decide)

-- beside a file transfer the first read completes at its first fragment, and the second, by then
-- at the head of the queue, is cancelled while the reply of the first still comes in
example : ∃ hops c, Run (LibOsdp.step .cp) (new 32 (by decide)) hops c ∧ (∀ h ∈ hops, Orderly h) ∧
    .stopped ⟨2, 0, some .bioRead, false⟩ ⟨1, 0, some .bioRead, false⟩ ∈ c.log := by
  let first : Sub := ⟨1, 0, some .bioRead, false⟩
  let second : Sub := ⟨2, 0, some .bioRead, false⟩
  let acts : List Act :=
    [.app (.submit 0 (.submit (.fileTx ⟨1⟩))), .lib .accept, .lib (.ret 0), .tick, .tick,
      .app (.submit 0 fingerRead), .lib .accept, .lib (.ret 0), .tick, .tick,
      .app (.submit 0 fingerRead), .lib .accept, .lib (.ret 0), .tick, .tick,
      .app .refresh, .lib (.bioStart first), .lib (.completeRead first OSDP_COMPLETION_OK),
      .lib (.ret 0), .tick, .tick, .app (.cancel second)]
  have run := @run_trace _ _ (LibOsdp.step .cp) acts (new 32 (by decide)) (by decide)
  exact ⟨_, _, run, by decide, by decide⟩

end Context

end LibOsdp
