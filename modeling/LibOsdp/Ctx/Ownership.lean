import LibOsdp.Ctx.Stack

/-!
# Who owns a box

A submission's box is made once, and from then on it is always in one place: with the method that
offers it to LibOSDP, held by LibOSDP, with a method about to reclaim it, or freed. The ledger
counts, for one submission, the places on the stack, in LibOSDP and in the log, and every step
keeps the accounts: what is offered is taken or refused, what is taken is held until its
completion frees it, what is refused is reclaimed.
-/

set_option autoImplicit false

namespace LibOsdp

open Base Function

/-- `n` has been offered to LibOSDP, which has not decided yet. -/
def Frame.offers (n : Sub) : Frame → Bool
  | .lib (.submit _ m false) => m = n
  | _ => false

/-- The method still has to deal with LibOSDP's decision on `n`. -/
def After.settles (n : Sub) (refused : Bool) : After → Bool
  | .settle _ m r => m = n && r = refused
  | _ => false

/-- LibOSDP has decided on `n`, and the submitting method has not returned. -/
def Frame.settles (n : Sub) (refused : Bool) : Frame → Bool
  | .lib (.submit _ m true) => m = n && !refused
  | .waking _ after | .finishing after => after.settles n refused
  | _ => false

/-- The outcome a completion gives `n`. -/
def Obs.outcome (n : Sub) : Obs → Option (Except CompletionError Unit)
  | .completed m status => if m = n then some (completion status) else none
  | _ => none

/-- A completion of `n`. -/
def Obs.completes (n : Sub) (o : Obs) : Bool := (o.outcome n).isSome

namespace Context

/-- How often the box of `n` was freed. -/
def freed (c : Context) (n : Sub) : Nat :=
  c.log.count (.reclaimed n) + c.log.countP (Obs.completes n)

/-- The outcome LibOSDP reported of `n`. -/
def outcome (c : Context) (n : Sub) : Option (Except CompletionError Unit) :=
  c.log.findSome? (Obs.outcome n)

/-- The accounts of one submission. -/
structure Ledger (c : Context) (n : Sub) : Prop where
  once : c.log.count (.made n) ≤ 1
  fresh : c.next ≤ n.id → c.log.count (.made n) = 0
  /-- What is offered is taken or refused. -/
  offers : c.stack.countP (Frame.offers n) + c.log.count (.accepted n) + c.log.count (.refused n) =
    c.log.count (.made n)
  /-- What is taken is held until it is completed. -/
  holds : c.held.count n + c.log.countP (Obs.completes n) = c.log.count (.accepted n)
  /-- What is refused is reclaimed. -/
  reclaims : c.stack.countP (Frame.settles n true) + c.log.count (.reclaimed n) =
    c.log.count (.refused n)
  /-- What is taken is reported to the caller. -/
  returns : c.stack.countP (Frame.settles n false) + c.log.count (.returned n) =
    c.log.count (.accepted n)
  /-- The box is there from when it is made to when it is freed. -/
  box : (c.boxes n).isSome.toNat + c.freed n = c.log.count (.made n)
  /-- The slot tells the outcome LibOSDP reported. -/
  status : (c.slots n).status = c.outcome n
  /-- There is a handle only on what was reported to the caller, and the slot knows of it. -/
  handle : (c.handles n).isSome → 0 < c.log.count (.returned n)
  hasHandle : (c.slots n).hasHandle = (c.handles n).isSome

variable {c c' : Context} {role : Role} {act : Act} {n : Sub}

theorem ledger_new {capacity : Nat} {pos : 0 < capacity} : (new capacity pos).Ledger n where
  once := Nat.zero_le _
  fresh _ := rfl
  offers := rfl
  holds := rfl
  reclaims := rfl
  returns := rfl
  box := rfl
  status := rfl
  handle := nofun
  hasHandle := rfl

/-- Frames that carry no submission come and go without changing the accounts. -/
theorem Ledger.restack (h : c.Ledger n) (stack : List Frame)
    (offers : stack.countP (Frame.offers n) = c.stack.countP (Frame.offers n))
    (settles : ∀ refused,
      stack.countP (Frame.settles n refused) = c.stack.countP (Frame.settles n refused)) :
    ({ c with stack } : Context).Ledger n :=
  { h with
    offers := by rw [← h.offers, ← offers]
    reclaims := by rw [← h.reclaims, ← settles]
    returns := by rw [← h.returns, ← settles] }

/-- The frame on top gives way to `stack`, which carries the same submissions. -/
theorem Ledger.turn {frame : Frame} {below : List Frame} (h : c.Ledger n)
    (top : c.stack = frame :: below) (stack : List Frame)
    (offers : stack.countP (Frame.offers n) = (frame :: below).countP (Frame.offers n))
    (settles : ∀ refused, stack.countP (Frame.settles n refused) =
      (frame :: below).countP (Frame.settles n refused)) :
    ({ c with stack } : Context).Ledger n := by
  rw [← top] at offers settles
  exact h.restack stack offers settles

/-- An update of a slot leaves what it leaves of that slot, and every other slot. -/
theorem slot_update {α : Type} (f : Slot → α) (m : Sub) (slot : Slot)
    (same : f slot = f (c.slots m)) : f (update c.slots m slot n) = f (c.slots n) := by
  by_cases eq : n = m
  · rw [eq, update_self, same]
  · rw [update_of_ne eq]

/-- A slot's other cells come and go without changing the accounts. -/
theorem Ledger.reslot (h : c.Ledger n) (m : Sub) (slot : Slot)
    (status : slot.status = (c.slots m).status)
    (hasHandle : slot.hasHandle = (c.slots m).hasHandle) :
    ({ c with slots := update c.slots m slot } : Context).Ledger n :=
  { h with
    status := (slot_update Slot.status m slot status).trans h.status
    hasHandle := (slot_update Slot.hasHandle m slot hasHandle).trans h.hasHandle }

/-- A handle is dropped. -/
theorem Ledger.drop (h : c.Ledger n) (m : Sub) : (c.dropHandle m).Ledger n := by
  have status :=
    (slot_update Slot.status m { c.slots m with hasHandle := false } rfl).trans h.status
  by_cases eq : n = m
  · subst eq
    exact { h with status, handle := by simp, hasHandle := by simp }
  · exact { h with
      status
      handle := by simpa [update_of_ne eq] using h.handle
      hasHandle := by simpa [update_of_ne eq] using h.hasHandle }

/-- Where nothing completed `n`, it has no outcome. -/
theorem outcome_of_uncompleted (h : c.log.countP (Obs.completes n) = 0) : c.outcome n = none := by
  rw [outcome, List.findSome?_eq_none_iff]
  intro o mem
  have quiet := List.countP_eq_zero.mp h o mem
  simpa [Obs.completes] using quiet

theorem Ledger.offer {m : Sub} {via : Via} {raw : Raw} {busy : Bool} (h : c.Ledger n)
    (fresh : m.id = c.next) : ({ c with busy }.offer via m raw).Ledger n := by
  have offers := h.offers
  have holds := h.holds
  have reclaims := h.reclaims
  have returns := h.returns
  have box := h.box
  simp only [freed] at box
  by_cases eq : m = n
  · subst eq
    -- nothing has happened to a submission before its box is made
    have unmade := h.fresh (Nat.le_of_eq fresh.symm)
    have uncompleted : c.outcome m = none := outcome_of_uncompleted (by omega)
    have unhandled : (c.handles m).isSome = false := by
      cases live : (c.handles m).isSome with
      | false => rfl
      | true =>
        have told := h.handle live
        omega
    exact {
      once := by simp [unmade]
      fresh := by intro later; simp at later; omega
      offers := by simp [Frame.offers]; omega
      holds := h.holds
      reclaims := h.reclaims
      returns := h.returns
      box := by simp [freed, Obs.completes, Obs.outcome]; omega
      status := by simpa [outcome, List.findSome?_cons, Obs.outcome] using uncompleted.symm
      handle := by simp [unhandled]
      hasHandle := by simp [unhandled] }
  · exact {
      once := by simpa [eq] using h.once
      fresh := by intro later; simpa [eq] using h.fresh (Nat.le_of_succ_le later)
      offers := by simpa [List.countP_cons, Frame.offers, eq] using offers
      holds := h.holds
      reclaims := h.reclaims
      returns := h.returns
      box := by
        simpa [freed, update_of_ne (Ne.symm eq), eq, Obs.completes, Obs.outcome] using h.box
      status := by
        simpa [outcome, List.findSome?_cons, Obs.outcome, update_of_ne (Ne.symm eq)] using h.status
      handle := h.handle
      hasHandle := by simpa [update_of_ne (Ne.symm eq)] using h.hasHandle }

theorem Ledger.accept {m : Sub} {via : Via} {below : List Frame} (h : c.Ledger n)
    (stack : c.stack = .lib (.submit via m false) :: below) : (c.accept via m below).Ledger n := by
  have offers := h.offers
  have returns := h.returns
  have reclaims := h.reclaims
  have holds := h.holds
  rw [stack] at offers returns reclaims
  simp only [List.countP_cons, Frame.offers, Frame.settles] at offers returns reclaims
  by_cases eq : m = n
  · subst eq
    simp at offers returns reclaims
    exact { h with
      offers := by simp [Frame.offers]; omega
      holds := by simp [Obs.completes, Obs.outcome]; omega
      reclaims := by simpa [List.countP_cons, Frame.settles] using reclaims
      returns := by simp [Frame.settles]; omega }
  · simp [eq] at offers returns reclaims
    exact { h with
      offers := by simpa [Frame.offers, eq] using offers
      holds := by simpa [Obs.completes, Obs.outcome, eq] using holds
      reclaims := by simpa [Frame.settles, eq] using reclaims
      returns := by simpa [Frame.settles, eq] using returns }

theorem Ledger.complete {m : Sub} {status : UInt8} (h : c.Ledger n) (held : m ∈ c.held) :
    (c.complete m status).Ledger n := by
  have once := h.once
  have offers := h.offers
  have holds := h.holds
  have reclaims := h.reclaims
  have box := h.box
  simp only [freed] at box
  by_cases eq : m = n
  · subst eq
    have here : 0 < c.held.count m := List.count_pos_iff.mpr held
    exact { h with
      holds := by simp [List.count_erase_self, Obs.completes, Obs.outcome]; omega
      box := by simp [freed, Obs.completes, Obs.outcome]; omega
      status := by simp [outcome, Obs.outcome, Slot.complete]
      hasHandle := by simpa [Slot.complete] using h.hasHandle }
  · have ne := Ne.symm eq
    exact { h with
      holds := by simpa [List.count_erase_of_ne ne, Obs.completes, Obs.outcome, eq] using holds
      box := by
        simpa [freed, update_of_ne ne, Obs.completes, Obs.outcome, eq] using box
      status := by
        simpa [outcome, List.findSome?_cons, Obs.outcome, update_of_ne ne, eq]
          using h.status
      hasHandle := by simpa [update_of_ne ne] using h.hasHandle }

/-- LibOSDP returns: what it did not take is refused, and what it took is still to be settled. -/
theorem Ledger.leave {call : Call} {rc : Int} {below : List Frame} {frame : Frame} (h : c.Ledger n)
    (stack : c.stack = .lib call :: below) (tells : call.Tells rc)
    (offers : frame.offers n = false)
    (settles : ∀ refused, frame.settles n refused = (call.after rc).settles n refused) :
    ({ c with stack := frame :: below, log := call.refusal ++ c.log } : Context).Ledger n := by
  have hoffers := h.offers
  have hreturns := h.returns
  have hreclaims := h.reclaims
  rw [stack, List.countP_cons] at hoffers hreturns hreclaims
  have head : (frame :: below).countP (Frame.offers n) = below.countP (Frame.offers n) := by
    simp [offers]
  have rest (refused : Bool) : (frame :: below).countP (Frame.settles n refused) =
      below.countP (Frame.settles n refused) + ((call.after rc).settles n refused).toNat := by
    rw [List.countP_cons, settles]
    cases (call.after rc).settles n refused <;> rfl
  cases call with
  | refresh | flush | teardown =>
    exact { h with
      offers := by rw [head]; exact hoffers
      reclaims := by rw [rest]; exact hreclaims
      returns := by rw [rest]; exact hreturns }
  | submit via m accepted =>
    have restTrue := rest true
    have restFalse := rest false
    simp only [Call.after, After.settles] at restTrue restFalse
    cases accepted with
    | true =>
      -- LibOSDP took it: the method still has to say so
      have took : decide (rc < 0) = false := by simpa [Call.Tells] using tells
      rw [took] at restTrue restFalse
      simp [Frame.settles] at hreturns hreclaims
      exact { h with
        offers := by rw [head]; exact hoffers
        reclaims := by rw [restTrue]; simpa [Call.refusal] using hreclaims
        returns := by
          rw [restFalse]
          by_cases eq : m = n <;> simpa [eq, Call.refusal] using hreturns }
    | false =>
      -- LibOSDP did not: the refusal is noted, and the method still has to reclaim the box
      have refused : decide (rc < 0) = true := by simpa [Call.Tells] using tells
      rw [refused] at restTrue restFalse
      simp only [Frame.offers, Frame.settles] at hoffers hreturns hreclaims
      by_cases eq : m = n
      · subst eq
        simp at hoffers hreturns hreclaims restTrue restFalse
        exact { h with
          offers := by rw [head]; simp [Call.refusal]; omega
          reclaims := by rw [restTrue]; simp [Call.refusal]; omega
          returns := by rw [restFalse]; exact hreturns }
      · simp [eq] at hoffers hreturns hreclaims restTrue restFalse
        exact { h with
          offers := by rw [head]; simpa [Call.refusal, eq] using hoffers
          reclaims := by rw [restTrue]; simpa [Call.refusal, eq] using hreclaims
          returns := by rw [restFalse]; exact hreturns }

theorem Ledger.reclaim {via : Via} {m : Sub} {below : List Frame} (h : c.Ledger n)
    (stack : c.stack = .finishing (.settle via m true) :: below) :
    ({ c with
      boxes := update c.boxes m none
      stack := below
      log := .reclaimed m :: c.log } : Context).Ledger n := by
  have once := h.once
  have offers := h.offers
  have reclaims := h.reclaims
  have returns := h.returns
  have holds := h.holds
  have box := h.box
  rw [stack] at offers returns reclaims
  simp only [List.countP_cons, Frame.offers, Frame.settles, After.settles]
    at offers returns reclaims
  simp only [freed] at box
  by_cases eq : m = n
  · subst eq
    simp at offers returns reclaims
    exact { h with
      offers
      reclaims := by simp; omega
      returns
      box := by simp [freed, Obs.completes, Obs.outcome]; omega }
  · have ne := Ne.symm eq
    simp [eq] at offers returns reclaims
    exact { h with
      offers
      reclaims := by simpa [eq] using reclaims
      returns
      box := by
        simpa [freed, update_of_ne ne, Obs.completes, Obs.outcome, eq] using box }

/-- The submitting method returns `Ok`. -/
theorem Ledger.settle {via : Via} {m : Sub} {below : List Frame} (h : c.Ledger n)
    (stack : c.stack = .finishing (.settle via m false) :: below) :
    ({ c with stack := below, log := .returned m :: c.log } : Context).Ledger n := by
  have offers := h.offers
  have reclaims := h.reclaims
  have returns := h.returns
  rw [stack] at offers returns reclaims
  simp only [List.countP_cons, Frame.offers, Frame.settles, After.settles]
    at offers returns reclaims
  by_cases eq : m = n
  · subst eq
    simp at offers returns reclaims
    exact { h with
      offers
      reclaims
      returns := by simp; omega
      handle := by intro live; simp }
  · simp [eq] at offers returns reclaims
    exact { h with
      offers
      reclaims
      returns := by simpa [eq] using returns
      handle := by simpa [eq] using h.handle }

/-- The caller is given a handle on what was reported to it. -/
theorem Ledger.newHandle {m : Sub} (h : c.Ledger n) (operation : Option Operation)
    (told : .returned m ∈ c.log) : (c.newHandle m operation).Ledger n := by
  have status := (slot_update Slot.status m { c.slots m with hasHandle := true } rfl).trans h.status
  by_cases eq : n = m
  · subst eq
    exact { h with
      status
      handle := fun _ => List.count_pos_iff.mpr told
      hasHandle := by simp }
  · exact { h with
      status
      handle := by simpa [update_of_ne eq] using h.handle
      hasHandle := by simpa [update_of_ne eq] using h.hasHandle }

theorem Ledger.step (h : c.Ledger n) (rule : Rule c act c') : c'.Ledger n := by
  cases rule with
  | quiet | nextItem | parkStream | setHandler | stop | bioStart | bioEnd | handBack =>
    exact { h with }
  | answer log _ answers => rcases answers with rfl | ⟨code, rfl⟩ <;> exact { h with }
  | queue item log _ _ answers => rcases answers with rfl | ⟨code, rfl⟩ <;> exact { h with }
  | @drop m => exact h.drop m
  | @poll m w => exact { h.reslot m { c.slots m with waker := some w } rfl rfl with }
  | @deliver _ _ _ _ reply m =>
    exact { h.reslot m ((c.slots m).setReply reply) rfl rfl with }
  | refresh => exact { h.restack (.lib .refresh :: c.stack) rfl fun _ => rfl with }
  | @flush pd => exact h.restack (.lib (.flush pd) :: c.stack) rfl fun _ => rfl
  | callback => exact h.restack (.app .callback :: c.stack) rfl fun _ => rfl
  | @handle raw _ h' =>
    exact { h.restack (.app (.handler h' raw) :: c.stack) rfl fun _ => rfl with }
  | teardown _ empty =>
    have offers : [Frame.lib .teardown].countP (Frame.offers n) =
        c.stack.countP (Frame.offers n) := by rw [empty]; rfl
    have settles (refused : Bool) : [Frame.lib .teardown].countP (Frame.settles n refused) =
        c.stack.countP (Frame.settles n refused) := by rw [empty]; rfl
    exact h.restack [.lib .teardown] offers settles
  | @handlerReturn _ _ _ below top | @appReturn _ _ below top | @tornDown _ below top =>
    exact { h.turn top below rfl fun _ => rfl with }
  | @wake n w rest after below top =>
    exact { h.turn top (.app (.waker w) :: .waking rest after :: below) rfl fun _ => rfl with }
  | @wakeStream w after below top =>
    exact { h.turn top (.app (.waker w) :: .finishing after :: below) rfl fun _ => rfl with }
  | @wakeEnd after below top =>
    exact { h.turn top (.finishing after :: below) rfl fun _ => rfl with }
  | @done _ below top plain =>
    rcases plain with rfl | ⟨count, rfl⟩
    · exact { h.turn top below rfl fun _ => rfl with }
    · exact { h.turn top below rfl fun _ => rfl with }
  | accept stack => exact h.accept stack
  | complete stack held => exact h.complete held
  | completeRead stack held => exact { h.complete held with }
  | leaveWaking stack tells => exact { h.leave stack tells rfl fun _ => rfl with }
  | leaveFinishing stack tells => exact h.leave stack tells rfl fun _ => rfl
  | offer top calls fresh => exact h.offer fresh
  | reclaim stack => exact { h.reclaim stack with }
  | @settleCommand m _ stack =>
    exact { (h.settle stack).newHandle (m.kind.map (Operation.mk m.pd))
      (List.mem_cons_self ..) with }
  | settleEvent stack => exact (h.settle stack).newHandle none (List.mem_cons_self ..)
  | settleReply stack => exact { h.settle stack with }

theorem ledger_of_run {capacity : Nat} {pos : 0 < capacity} {hops : List (Hop Context Act)}
    (run : Run (LibOsdp.step role) (new capacity pos) hops c) (n : Sub) : c.Ledger n :=
  run.always (I := fun c => c.Ledger n) ledger_new fun before hstep =>
    before.step (Rule.of_step hstep)

theorem Ledger.completions_le (h : c.Ledger n) : c.log.countP (Obs.completes n) ≤ 1 := by
  have once := h.once
  have offers := h.offers
  have holds := h.holds
  omega

theorem completes_iff {o : Obs} :
    o.completes n = true ↔ ∃ status, o = .completed n status := by
  cases o <;> simp [Obs.completes, Obs.outcome]

theorem completions_pos_iff :
    0 < c.log.countP (Obs.completes n) ↔ ∃ status, .completed n status ∈ c.log := by
  rw [List.countP_pos_iff]
  constructor
  · rintro ⟨o, mem, completes⟩
    obtain ⟨status, rfl⟩ := completes_iff.mp completes
    exact ⟨status, mem⟩
  · rintro ⟨status, mem⟩
    exact ⟨_, mem, completes_iff.mpr ⟨status, rfl⟩⟩

/-- LibOSDP holds a submission at most once. -/
theorem Ledger.held_le (h : c.Ledger n) : c.held.count n ≤ 1 := by
  have once := h.once
  have offers := h.offers
  have holds := h.holds
  omega

/-- What LibOSDP lets go of, it does not hold any more. -/
theorem Ledger.not_mem_erase (h : c.Ledger n) : n ∉ c.held.erase n := by
  intro held
  have once := h.held_le
  have left := List.count_pos_iff.mpr held
  rw [List.count_erase_self] at left
  omega

/-- What LibOSDP holds, it has taken. -/
theorem Ledger.accepted_of_held (h : c.Ledger n) (held : n ∈ c.held) : .accepted n ∈ c.log := by
  have holds := h.holds
  have here := List.count_pos_iff.mpr held
  exact List.count_pos_iff.mp (by omega)

/-- What LibOSDP holds is pending. -/
theorem Ledger.pending_of_held (h : c.Ledger n) (held : n ∈ c.held) :
    (c.slots n).status = none := by
  have once := h.once
  have offers := h.offers
  have holds := h.holds
  have here := List.count_pos_iff.mpr held
  rw [h.status]
  exact outcome_of_uncompleted (by omega)

/-- What LibOSDP took and has not completed, it holds. -/
theorem Ledger.held_of_pending (h : c.Ledger n) (told : .returned n ∈ c.log)
    (pending : (c.slots n).status = none) : n ∈ c.held := by
  have returns := h.returns
  have holds := h.holds
  have here := List.count_pos_iff.mpr told
  have uncompleted : c.log.countP (Obs.completes n) = 0 := by
    rw [h.status, outcome, List.findSome?_eq_none_iff] at pending
    rw [List.countP_eq_zero]
    intro o mem
    simp [Obs.completes, pending o mem]
  exact List.count_pos_iff.mp (by omega)

/-- A submission not made yet is pending. -/
theorem Ledger.pending_of_fresh (h : c.Ledger n) (fresh : n.id = c.next) :
    (c.slots n).status = none := by
  have unmade := h.fresh (Nat.le_of_eq fresh.symm)
  have offers := h.offers
  have holds := h.holds
  rw [h.status]
  exact outcome_of_uncompleted (by omega)

/-- A submission with a handle was made. -/
theorem Ledger.old_of_handle (h : c.Ledger n) (live : (c.handles n).isSome) : n.id < c.next := by
  have told := h.handle live
  have offers := h.offers
  have returns := h.returns
  by_contra young
  have unmade := h.fresh (Nat.le_of_not_lt young)
  omega

/-- There is no handle yet on what LibOSDP has still to decide on. -/
theorem Ledger.no_handle_of_offered {via : Via} {below : List Frame} (h : c.Ledger n)
    (stack : c.stack = .lib (.submit via n false) :: below) : (c.handles n).isSome = false := by
  have once := h.once
  have offers := h.offers
  have returns := h.returns
  rw [stack, List.countP_cons_of_pos (by simp [Frame.offers])] at offers
  by_contra live
  have told := h.handle (Bool.of_not_eq_false live)
  omega

/-- The outcome is what the one completion reported. -/
theorem Ledger.outcome_of_completed {status : UInt8} (h : c.Ledger n)
    (mem : .completed n status ∈ c.log) : c.outcome n = some (completion status) := by
  have bound := h.completions_le
  obtain ⟨newer, older, eq⟩ := List.append_of_mem mem
  have here : (Obs.completed n status).outcome n = some (completion status) := by
    simp [Obs.outcome]
  have none_newer : newer.findSome? (Obs.outcome n) = none := by
    rw [List.findSome?_eq_none_iff]
    intro o omem
    by_contra some_outcome
    have completes : o.completes n = true := by
      simpa [Obs.completes, Option.isSome_iff_ne_none] using some_outcome
    have pos := List.countP_pos_iff.mpr ⟨o, omem, completes⟩
    have this : (Obs.completed n status).completes n = true := completes_iff.mpr ⟨status, rfl⟩
    rw [eq, List.countP_append, List.countP_cons_of_pos this] at bound
    omega
  rw [outcome, eq, List.findSome?_append, none_newer, Option.none_or, List.findSome?_cons, here]

/-- What a run makes of the box and the slot of one submission. -/
structure Linear (c : Context) (n : Sub) : Prop where
  /-- It is boxed at most once, and the box freed at most once. -/
  madeOnce : c.log.count (.made n) ≤ 1
  freedOnce : c.freed n ≤ 1
  /-- The box is there exactly from when it is made to when it is freed. -/
  box : (c.boxes n).isSome ↔ .made n ∈ c.log ∧ c.freed n = 0
  /-- LibOSDP refuses it or takes it, never both. -/
  decided : ¬ (.refused n ∈ c.log ∧ .accepted n ∈ c.log)
  /-- Once freed, it was freed by `reclaim` if LibOSDP refused it, by its completion otherwise. -/
  reclaimed : c.freed n = 1 → (.reclaimed n ∈ c.log ↔ .refused n ∈ c.log)
  completed : c.freed n = 1 →
    ((∃ status, .completed n status ∈ c.log) ↔ .accepted n ∈ c.log)
  /-- While LibOSDP holds it, the box is there and the submission is pending. -/
  held : n ∈ c.held → (c.boxes n).isSome ∧ c.freed n = 0 ∧ (c.slots n).status = none
  /-- Outside every method, every box ever made is held by LibOSDP or has been freed. -/
  atRest : c.stack = [] → .made n ∈ c.log → n ∈ c.held ∨ c.freed n = 1
  /-- After teardown no box is left. -/
  torn : c.torn = true → .made n ∈ c.log → c.freed n = 1
  /-- The slot is pending until the completion, and then tells what LibOSDP reported. -/
  pending : (∀ status, .completed n status ∉ c.log) → (c.slots n).status = none
  final : ∀ status, .completed n status ∈ c.log →
    (c.slots n).status = some (completion status)

theorem Ledger.linear (h : c.Ledger n) (shape : c.Shape) : c.Linear n := by
  have once := h.once
  have offers := h.offers
  have holds := h.holds
  have reclaims := h.reclaims
  have box := h.box
  have made : .made n ∈ c.log ↔ 0 < c.log.count (.made n) := List.count_pos_iff.symm
  have refused : .refused n ∈ c.log ↔ 0 < c.log.count (.refused n) := List.count_pos_iff.symm
  have accepted : .accepted n ∈ c.log ↔ 0 < c.log.count (.accepted n) := List.count_pos_iff.symm
  have reclaimed : .reclaimed n ∈ c.log ↔ 0 < c.log.count (.reclaimed n) := List.count_pos_iff.symm
  have heldCount : n ∈ c.held ↔ 0 < c.held.count n := List.count_pos_iff.symm
  have completed := @completions_pos_iff c n
  have freed : c.freed n = c.log.count (.reclaimed n) + c.log.countP (Obs.completes n) := rfl
  have rest (empty : c.stack = []) :
      c.stack.countP (Frame.offers n) = 0 ∧ c.stack.countP (Frame.settles n true) = 0 := by
    rw [empty]
    exact ⟨rfl, rfl⟩
  have there : (c.boxes n).isSome ↔ 0 < (c.boxes n).isSome.toNat := by
    cases (c.boxes n).isSome <;> simp
  exact {
    madeOnce := once
    freedOnce := by omega
    box := by rw [there, made]; omega
    decided := by rw [refused, accepted]; omega
    reclaimed := by rw [reclaimed, refused]; omega
    completed := by rw [← completed, accepted]; omega
    held := by
      intro mem
      have here := heldCount.mp mem
      exact ⟨there.mpr (by omega), by omega, h.pending_of_held mem⟩
    atRest := by
      intro empty
      have := rest empty
      rw [made, heldCount]
      omega
    torn := by
      intro torn
      obtain ⟨nothing, empty⟩ := shape.torn torn
      have := rest empty
      rw [nothing, List.count_nil] at holds
      rw [made]
      omega
    pending := by
      intro uncompleted
      rw [h.status]
      refine outcome_of_uncompleted (Nat.eq_zero_of_not_pos fun pos => ?_)
      obtain ⟨status, mem⟩ := completed.mp pos
      exact uncompleted status mem
    final := by
      intro status mem
      rw [h.status]
      exact h.outcome_of_completed mem }

/-- A status, once there, stays: the log grows, and holds one completion at most. -/
theorem Ledger.status_stays {v : Except CompletionError Unit} (before : c.Ledger n)
    (after : c'.Ledger n) (grows : c.log <:+ c'.log) (set : (c.slots n).status = some v) :
    (c'.slots n).status = some v := by
  rw [before.status, outcome] at set
  obtain ⟨o, mem, eq⟩ := List.exists_of_findSome?_eq_some set
  obtain ⟨status, rfl⟩ := completes_iff.mp (show o.completes n = true by simp [Obs.completes, eq])
  have same : completion status = v := by simpa [Obs.outcome] using eq
  rw [after.status, after.outcome_of_completed (grows.subset mem), same]

/-- **Submission ownership is linear, and outcomes are written once**: in every state of every run
of either context. -/
theorem submission_ownership_linear {role : Role} {capacity : Nat} {pos : 0 < capacity}
    {c : Context} {hops : List (Hop Context Act)}
    (run : Run (LibOsdp.step role) (new capacity pos) hops c) (n : Sub) :
    c.Linear n ∧
      ∀ h ∈ hops, ∀ v, (h.src.slots n).status = some v → (c.slots n).status = some v := by
  have now := ledger_of_run run n
  refine ⟨now.linear (shape_of_run run), ?_⟩
  intro h mem v set
  obtain ⟨before, after, -, pre, hstep, post⟩ := run.cut mem
  have grows := (Rule.of_step hstep).log_grows.trans (log_suffix_of_run post)
  exact (ledger_of_run pre n).status_stays now grows set

/-- One file transfer taken and flushed, one refused, and the context dropped. -/
theorem submission_ownership_linear_fileTransfers : ∃ hops c,
    Run (LibOsdp.step .cp) (new 32 (by decide)) hops c ∧ c.torn = true ∧
      c.Linear ⟨0, 0, some .fileTransfer, false⟩ ∧ c.Linear ⟨1, 0, some .fileTransfer, false⟩ := by
  let acts : List Act :=
    [.app (.submit 0 (.submit (.fileTx ⟨1⟩))), .lib .accept, .lib (.ret 0), .tick, .tick,
      .app (.submit 0 (.submit (.fileTx ⟨2⟩))), .lib (.ret (-1)), .tick, .tick,
      .app (.flush 0), .lib (.complete ⟨0, 0, some .fileTransfer, false⟩ OSDP_COMPLETION_FLUSHED),
      .lib (.ret 1), .tick, .tick, .app .teardown, .lib (.ret 0)]
  have run := @run_trace _ _ (LibOsdp.step .cp) acts (new 32 (by decide)) (by decide)
  exact ⟨_, _, run, rfl, (submission_ownership_linear run _).1,
    (submission_ownership_linear run _).1⟩

end Context

end LibOsdp
