import LibOsdp.Ctx.Promise

/-!
# Reply routing

Where a smart card's reply goes. A PD's route is set when the submitting method returns, taken
down by the first reply, and left behind by an operation that ends without one; a handle may be
dropped at any time. What ties the routes to the operations LibOSDP runs is that a pending
submission that a route leads to is running, and that a running one whose handle still waits for
its reply is what its PD's route leads to.
-/

set_option autoImplicit false

namespace LibOsdp

open Base Function

namespace Context

variable {c c' : Context} {role : Role} {act : Act} {n m : Sub} {kind : MpKind}

/-- The routes, tied to the operations that LibOSDP runs. -/
structure Routed (c : Context) : Prop where
  /-- A route leads to a reply-wanting smart card command for its PD. -/
  route : ∀ pd n, c.replies pd = some n →
    n.pd = pd ∧ n.isSmartCard = true ∧ n.wantsReply = true ∧ .returned n ∈ c.log
  /-- One operation runs per PD. -/
  single : ∀ n m, c.runsSmartCard n = true → c.runsSmartCard m = true → n.pd = m.pd → n = m
  /-- While a command that LibOSDP took is not settled, no other operation runs on its PD. -/
  latest : ∀ m n, 0 < c.stack.countP (Frame.settles m false) → m.isSmartCard = true →
    c.runsSmartCard n = true → n.pd = m.pd → n = m
  /-- A running operation whose handle waits for the reply is what its PD's route leads to. -/
  waits : ∀ n, c.runsSmartCard n = true → n.wantsReply = true → (c.handles n).isSome →
    c.replied n = false → c.replies n.pd = some n
  /-- A reply in a slot was handed over. -/
  kept : ∀ n, (c.slots n).reply.isSome → c.replied n = true ∧ .returned n ∈ c.log

theorem routed_new {capacity : Nat} {pos : 0 < capacity} : (new capacity pos).Routed where
  route := nofun
  single n m runs := by
    obtain ⟨kind, -, -, running⟩ := runsSmartCard_iff.mp runs
    cases running
  latest := nofun
  waits := nofun
  kept := nofun

/-- `deliver_reply` finds a submission only where its operation is running. -/
theorem Routed.of_waiting (h : c.Routed) (engaged : c.Engaged) {pd : PdIndex}
    (waits : c.waiting pd = some n) : n.pd = pd ∧ c.runsSmartCard n = true ∧
      n.wantsReply = true ∧ (c.handles n).isSome = true ∧ .returned n ∈ c.log := by
  unfold waiting at waits
  split at waits
  · next m routed =>
    obtain ⟨found, eq⟩ := Option.ite_none_right_eq_some.mp waits
    obtain rfl := Option.some.inj eq
    simp only [Bool.and_eq_true] at found
    obtain ⟨onPd, card, wants, told⟩ := h.route pd m routed
    have pending := Slot.isPending_iff.mp found.1.2
    exact ⟨onPd, engaged.runs_of_pending card told pending, wants,
      by rw [← (engaged.ledger m).hasHandle]; exact found.2, told⟩
  · cases waits

/-- `deliver_reply` finds the running operation whose handle waits. -/
theorem Routed.waiting_of_runs (h : c.Routed) (engaged : c.Engaged)
    (runs : c.runsSmartCard n = true) (wants : n.wantsReply = true)
    (live : (c.handles n).isSome = true) (unreplied : c.replied n = false) :
    c.waiting n.pd = some n := by
  have held := engaged.held_of_runs runs
  have pending := Slot.isPending_iff.mpr ((engaged.ledger n).pending_of_held held)
  have hasHandle : (c.slots n).hasHandle = true := by rw [(engaged.ledger n).hasHandle, live]
  simp [waiting, h.waits n runs wants live unreplied, upgrades, live, pending, hasHandle]

/-- Steps that set no route, start no operation and hand over no reply. -/
theorem Routed.frame (h : c.Routed) (grows : c.log <:+ c'.log)
    (runs : ∀ n, c'.runsSmartCard n = true → c.runsSmartCard n = true)
    (settles : ∀ m, c'.stack.countP (Frame.settles m false) ≤ c.stack.countP (Frame.settles m false))
    (replies : c'.replies = c.replies)
    (handles : ∀ n, (c'.handles n).isSome → (c.handles n).isSome)
    (replied : c'.replied = c.replied)
    (kept : ∀ n, (c'.slots n).reply.isSome → (c.slots n).reply.isSome) : c'.Routed where
  route pd n routed := by
    rw [replies] at routed
    obtain ⟨onPd, card, wants, told⟩ := h.route pd n routed
    exact ⟨onPd, card, wants, grows.subset told⟩
  single n m left right := h.single n m (runs n left) (runs m right)
  latest m n flying card left := by
    have before := settles m
    exact h.latest m n (by omega) card (runs n left)
  waits n left wants live unreplied := by
    rw [replies]
    exact h.waits n (runs n left) wants (handles n live) (by rw [← replied]; exact unreplied)
  kept n reply := by
    rw [replied]
    obtain ⟨handed, told⟩ := h.kept n (kept n reply)
    exact ⟨handed, grows.subset told⟩

theorem runsSmartCard_ended
    (runs : ({ c with running := c.ended m } : Context).runsSmartCard n = true) :
    c.runsSmartCard n = true := by
  obtain ⟨kind, own, card, running⟩ := runsSmartCard_iff.mp runs
  exact runsSmartCard_iff.mpr ⟨kind, own, card, (ended_eq_some.mp running).2⟩

theorem runsSmartCard_bioStart (read : m.kind = some .bioRead)
    (runs : ({ c with running := c.started m } : Context).runsSmartCard n = true) :
    c.runsSmartCard n = true := by
  obtain ⟨kind, own, card, running⟩ := runsSmartCard_iff.mp runs
  refine runsSmartCard_iff.mpr ⟨kind, own, card, ?_⟩
  rcases started_eq_some.mp running with ⟨⟨-, same⟩, -⟩ | ⟨-, before⟩
  · obtain rfl := Option.some.inj (read.symm.trans same)
    cases card
  · exact before

/-- Taking a submission makes no other smart card operation run. -/
theorem runsSmartCard_accept {via : Via} {below : List Frame}
    (runs : (c.accept via m below).runsSmartCard n = true) :
    n = m ∧ m.isSmartCard = true ∨ c.runsSmartCard n = true := by
  obtain ⟨kind, own, card, running⟩ := runsSmartCard_iff.mp runs
  rw [running_accept] at running
  split at running
  · next here =>
    obtain rfl := Option.some.inj running
    exact .inl ⟨rfl, Sub.isSmartCard_iff.mpr ⟨kind, own, card⟩⟩
  · exact .inr (runsSmartCard_iff.mpr ⟨kind, own, card, running⟩)

/-- LibOSDP takes a smart card command only where no other one runs. -/
theorem not_runs_of_oneCardOperation {via : Via} {below : List Frame}
    (h : OneCardOperation ⟨c, .lib .accept, c'⟩ = true)
    (stack : c.stack = .lib (.submit via m false) :: below) (card : m.isSmartCard = true)
    (onPd : n.pd = m.pd) : c.runsSmartCard n = false := by
  by_contra runs
  obtain ⟨kind, own, isCard, running⟩ := runsSmartCard_iff.mp (by simpa using runs)
  simp only [OneCardOperation, stack, card, Bool.not_true, Bool.false_or, List.all_eq_true] at h
  have idle := h kind (MpKind.mem_smartCard.mpr isCard)
  rw [← onPd, running] at idle
  cases idle

theorem carriesCard_of_settles {frame : Frame} (settles : frame.settles m false = true)
    (card : m.isSmartCard = true) : frame.carriesCard = true := by
  unfold Frame.settles at settles
  split at settles
  · next via n =>
    obtain rfl : n = m := by simpa using settles
    exact card
  · next after =>
    unfold After.settles at settles
    split at settles
    · next via n refused =>
      obtain rfl : n = m := by simp at settles; exact settles.1
      exact card
    · cases settles
  · next after =>
    unfold After.settles at settles
    split at settles
    · next via n refused =>
      obtain rfl : n = m := by simp at settles; exact settles.1
      exact card
    · cases settles
  · cases settles

/-- Where a smart card command is offered to LibOSDP, no other one is still to be settled. -/
def Alone (c : Context) : Prop :=
  ∀ via n below, c.stack = .lib (.submit via n false) :: below → n.isSmartCard = true →
    ∀ m, m.isSmartCard = true → below.countP (Frame.settles m false) = 0

/-- A smart card command on top of the stack is the only one on its way. -/
theorem Tracked.alone (h : c.Tracked) : c.Alone := by
  intro via n below stack top m card
  have single : c.stack.countP Frame.carriesCard ≤ 1 := h.flight
  have isCard : (Frame.lib (.submit via n false)).carriesCard = true := top
  rw [stack, List.countP_cons_of_pos isCard] at single
  rw [List.countP_eq_zero]
  intro inner mem settles
  have another := List.countP_pos_iff.mpr ⟨inner, mem, carriesCard_of_settles settles card⟩
  omega

theorem Routed.accept {via : Via} {below : List Frame} (h : c.Routed) (engaged : c.Engaged)
    (alone : c.Alone) (promise : OneCardOperation ⟨c, .lib .accept, c'⟩ = true)
    (stack : c.stack = .lib (.submit via m false) :: below) : (c.accept via m below).Routed where
  route pd n routed := by
    obtain ⟨onPd, card, wants, told⟩ := h.route pd n routed
    exact ⟨onPd, card, wants, List.mem_cons_of_mem _ told⟩
  single n n' left right onPd := by
    rcases runsSmartCard_accept left with ⟨rfl, card⟩ | before
    · rcases runsSmartCard_accept right with ⟨rfl, -⟩ | before'
      · rfl
      · have idle := not_runs_of_oneCardOperation promise stack card onPd.symm
        exact absurd (before'.symm.trans idle) nofun
    · rcases runsSmartCard_accept right with ⟨rfl, card⟩ | before'
      · have idle := not_runs_of_oneCardOperation promise stack card onPd
        exact absurd (before.symm.trans idle) nofun
      · exact h.single n n' before before' onPd
  latest m' n flying card left onPd := by
    by_cases same : m = m'
    · -- the one just taken: nothing else ran on its PD
      subst same
      rcases runsSmartCard_accept left with ⟨eq, -⟩ | before
      · exact eq
      · have idle := not_runs_of_oneCardOperation promise stack card onPd
        exact absurd (before.symm.trans idle) nofun
    · have head : (Frame.lib (.submit via m true)).settles m' false = false := by
        simp [Frame.settles, same]
      have inner : 0 < below.countP (Frame.settles m' false) := by
        have count := List.countP_cons_of_neg (l := below) (p := Frame.settles m' false)
          (by rw [head]; exact Bool.false_ne_true)
        exact Nat.lt_of_lt_of_eq flying count
      have plain : m.isSmartCard = false := by
        by_contra isCard
        have none := alone via m below stack (Bool.of_not_eq_false isCard) m' card
        omega
      rcases runsSmartCard_accept left with ⟨-, isCard⟩ | before
      · exact absurd (isCard.symm.trans plain) nofun
      · refine h.latest m' n ?_ card before onPd
        rw [stack, List.countP_cons]
        exact Nat.lt_of_lt_of_le inner (Nat.le_add_right _ _)
  waits n left wants live unreplied := by
    rcases runsSmartCard_accept left with ⟨rfl, -⟩ | before
    · have none := (engaged.ledger n).no_handle_of_offered stack
      exact absurd (live.symm.trans none) nofun
    · exact h.waits n before wants live unreplied
  kept n reply := by
    obtain ⟨handed, told⟩ := h.kept n reply
    exact ⟨handed, List.mem_cons_of_mem _ told⟩

/-- Going from LibOSDP's call to the rest of the method changes nothing about what is settled. -/
theorem settles_after {call : Call} {rc : Int} {frame : Frame} {below : List Frame}
    (stack : c.stack = .lib call :: below) (tells : call.Tells rc)
    (turns : ∀ m, frame.settles m false = (call.after rc).settles m false) (m : Sub) :
    (frame :: below).countP (Frame.settles m false) ≤ c.stack.countP (Frame.settles m false) := by
  rw [stack, List.countP_cons, List.countP_cons, turns]
  cases call with
  | refresh | flush | teardown => exact Nat.le_refl _
  | submit via n accepted =>
    simp only [Call.Tells] at tells
    subst tells
    cases decided : decide (rc < 0) <;> simp [Call.after, After.settles, Frame.settles, decided]

/-- A reply of the smart card is handed over, to the slot of the submission it finds or back. -/
theorem Routed.handOver {log : List Obs} (h : c.Routed) (pd : PdIndex) (slots : Sub → Slot)
    (queue : DrainQueue Item) (grows : c.log <:+ log)
    (kept : ∀ n, (slots n).reply.isSome → c.repliedOn pd n = true ∧ .returned n ∈ log) :
    ({ c with
      replies := update c.replies pd none
      replied := c.repliedOn pd
      slots, queue, log } : Context).Routed where
  route pd' n routed := by
    by_cases here : pd' = pd
    · subst here
      simp at routed
    · simp only [update_of_ne here] at routed
      obtain ⟨onPd, card, wants, told⟩ := h.route pd' n routed
      exact ⟨onPd, card, wants, grows.subset told⟩
  single := h.single
  latest := h.latest
  waits n runs wants live unreplied := by
    obtain ⟨before, other⟩ := Bool.or_eq_false_iff.mp unreplied
    have elsewhere : n.pd ≠ pd := by
      intro here
      have runs' : c.runsSmartCard n = true := runs
      simp [here, runs'] at other
    rw [← h.waits n runs wants live before]
    exact update_of_ne elsewhere ..
  kept := kept

/-- `queue_command` sets the route and gives its caller the handle. -/
theorem Routed.settleCommand {below : List Frame} (h : c.Routed)
    (stack : c.stack = .finishing (.settle .command m false) :: below) :
    ((({ c with
      stack := below
      log := .returned m :: c.log }).routeReply m).newHandle m
        (m.kind.map (Operation.mk m.pd))).Routed := by
  have settling : 0 < c.stack.countP (Frame.settles m false) := by
    rw [stack, List.countP_cons_of_pos (by simp [Frame.settles, After.settles])]
    exact Nat.succ_pos _
  refine {
    route := ?_
    single := h.single
    latest := ?_
    waits := ?_
    kept := ?_ }
  · intro pd n routed
    have old (routed : c.replies pd = some n) := h.route pd n routed
    by_cases card : m.isSmartCard = true
    · by_cases here : pd = m.pd
      · subst here
        simp [card] at routed
        obtain ⟨wants, rfl⟩ := routed
        exact ⟨rfl, card, wants, List.mem_cons_self ..⟩
      · simp [card, update_of_ne here] at routed
        obtain ⟨onPd, isCard, wants, told⟩ := old routed
        exact ⟨onPd, isCard, wants, List.mem_cons_of_mem _ told⟩
    · simp [card] at routed
      obtain ⟨onPd, isCard, wants, told⟩ := old routed
      exact ⟨onPd, isCard, wants, List.mem_cons_of_mem _ told⟩
  · intro m' n flying
    refine h.latest m' n (Nat.lt_of_lt_of_le flying ?_)
    rw [stack, List.countP_cons]
    exact Nat.le_add_right _ _
  · intro n runs wants live unreplied
    have card : n.isSmartCard = true := by
      obtain ⟨kind, own, isCard, -⟩ := runsSmartCard_iff.mp runs
      exact Sub.isSmartCard_iff.mpr ⟨kind, own, isCard⟩
    by_cases same : n = m
    · subst same
      simp [card, wants]
    · have live' : (c.handles n).isSome := by simpa [update_of_ne same] using live
      have routed := h.waits n runs wants live' unreplied
      by_cases isCard : m.isSmartCard = true
      · -- the command just taken is the only one that runs on its PD
        have elsewhere : n.pd ≠ m.pd := fun here => same (h.latest m n settling isCard runs here)
        simpa [isCard, update_of_ne elsewhere] using routed
      · simpa [isCard] using routed
  · intro n reply
    have same := slot_update Slot.reply m { c.slots m with hasHandle := true } rfl (n := n)
    obtain ⟨handed, told⟩ := h.kept n (by rw [← same]; exact reply)
    exact ⟨handed, List.mem_cons_of_mem _ told⟩

/-- The frame on top goes away. -/
theorem settles_pop {frame : Frame} {below : List Frame} (stack : c.stack = frame :: below)
    (m : Sub) :
    below.countP (Frame.settles m false) ≤ c.stack.countP (Frame.settles m false) := by
  rw [stack, List.countP_cons]
  exact Nat.le_add_right _ _

/-- The frame on top turns into one that settles what it settled. -/
theorem settles_turn {frame : Frame} {below : List Frame} (next : Frame)
    (stack : c.stack = frame :: below)
    (same : ∀ m, next.settles m false = frame.settles m false) (m : Sub) :
    (next :: below).countP (Frame.settles m false) ≤ c.stack.countP (Frame.settles m false) := by
  rw [stack, List.countP_cons, List.countP_cons, same]

/-- Frames come and go, and the log grows, without changing what the routes are tied to. -/
theorem Routed.restack (h : c.Routed) (stack : List Frame) {log : List Obs} (grows : c.log <:+ log)
    (settles : ∀ m, stack.countP (Frame.settles m false) ≤
      c.stack.countP (Frame.settles m false)) : ({ c with stack, log } : Context).Routed :=
  h.frame grows (fun _ => id) settles rfl (fun _ => id) rfl fun _ => id

/-- A reply that a submission waits for goes to its slot. -/
theorem Routed.deliver {pd : Int32} {reply : PivReply} {log : List Obs} (h : c.Routed)
    (engaged : c.Engaged) (waits : c.waiting (.ofC pd) = some m) (grows : c.log <:+ log) :
    ({ c with
      replies := update c.replies (.ofC pd) none
      replied := c.repliedOn (.ofC pd)
      slots := update c.slots m ((c.slots m).setReply reply)
      log } : Context).Routed := by
  obtain ⟨onPd, runs, -, -, told⟩ := h.of_waiting engaged waits
  refine { h.handOver (.ofC pd) (update c.slots m ((c.slots m).setReply reply)) c.queue grows
    fun n stored => ?_ with }
  by_cases eq : n = m
  · subst eq
    exact ⟨by simp [repliedOn, onPd, runs], grows.subset told⟩
  · rw [update_of_ne eq] at stored
    obtain ⟨handed, told'⟩ := h.kept n stored
    exact ⟨by simp [repliedOn, handed], grows.subset told'⟩

/-- A method that offered an event gives its caller the handle, and waits for no reply. -/
theorem Routed.settleEvent {below : List Frame} (h : c.Routed) (engaged : c.Engaged)
    (stack : c.stack = .finishing (.settle .event m false) :: below) :
    (({ c with stack := below, log := .returned m :: c.log }).newHandle m none).Routed := by
  have old : ({ c with stack := below, log := .returned m :: c.log } : Context).Routed :=
    h.restack below (List.suffix_cons ..) (settles_pop stack)
  refine {
    route := old.route
    single := old.single
    latest := old.latest
    waits := ?_
    kept := ?_ }
  · intro n runs wants live unreplied
    -- an event is no smart card command, so the new handle is another one's
    have other : n ≠ m := by
      rintro rfl
      obtain ⟨kind, own, card, -⟩ := runsSmartCard_iff.mp runs
      have none : n.kind = none :=
        engaged.plain _ (by rw [stack]; exact List.mem_cons_self ..) .event n rfl nofun
      exact absurd (none.symm.trans own) nofun
    exact old.waits n runs wants (by simpa [update_of_ne other] using live) unreplied
  · intro n stored
    have kept := slot_update Slot.reply m { c.slots m with hasHandle := true } rfl (n := n)
    exact old.kept n (by rw [← kept]; exact stored)

/-- **The step of the routes.** -/
theorem Routed.step (engaged : c.Engaged) (alone : c.Alone)
    (promise : OneCardOperation ⟨c, act, c'⟩ = true) (h : c.Routed) (rule : Rule c act c') :
    c'.Routed := by
  have grows := rule.log_grows
  have same (m : Sub) : c.stack.countP (Frame.settles m false) ≤
      c.stack.countP (Frame.settles m false) := Nat.le_refl _
  cases rule with
  | quiet | parkStream | setHandler | nextItem => exact { h with }
  | stop | answer | queue => exact { h.restack c.stack grows same with }
  | refresh => exact { h.restack (.lib .refresh :: c.stack) grows same with }
  | @flush pd => exact { h.restack (.lib (.flush pd) :: c.stack) grows same with }
  | callback => exact { h.restack (.app .callback :: c.stack) grows same with }
  | @handle raw cmd h' => exact { h.restack (.app (.handler h' raw) :: c.stack) grows same with }
  | teardown top stack =>
    exact { h.restack [.lib .teardown] grows fun _ => Nat.zero_le _ with }
  | @handlerReturn _ _ _ below stack | @appReturn _ _ below stack | @tornDown _ below stack
  | @done _ below stack | @reclaim _ _ below stack | @settleReply _ below stack =>
    exact { h.restack below grows (settles_pop stack) with }
  | @leaveWaking _ call below stack tells =>
    exact { h.restack (.waking c.wakeups (call.after _) :: below) grows
      (settles_after stack tells fun _ => rfl) with }
  | @leaveFinishing _ call below stack tells =>
    exact { h.restack (.finishing (call.after _) :: below) grows
      (settles_after stack tells fun _ => rfl) with }
  | @wake n w rest after below stack =>
    exact { h.restack (.app (.waker w) :: .waking rest after :: below) grows
      (settles_turn (.waking rest after) stack fun _ => rfl) with }
  | @wakeStream w after below stack =>
    exact { h.restack (.app (.waker w) :: .finishing after :: below) grows
      (settles_turn (.finishing after) stack fun _ => rfl) with }
  | @wakeEnd after below stack =>
    exact { h.restack (.finishing after :: below) grows
      (settles_turn (.finishing after) stack fun _ => rfl) with }
  | @drop m =>
    refine h.frame grows (fun _ => id) same rfl ?_ rfl ?_
    · intro n live
      by_cases eq : n = m
      · simp [eq] at live
      · simpa [update_of_ne eq] using live
    · intro n reply
      rw [← slot_update Slot.reply m { c.slots m with hasHandle := false } rfl]
      exact reply
  | @poll m w =>
    apply h.frame grows (fun _ => id) same rfl (fun _ => id) rfl
    intro n reply
    rw [← slot_update Slot.reply m { c.slots m with waker := some w } rfl]
    exact reply
  | @offer _ via m =>
    apply h.frame grows (fun _ => id) same rfl (fun _ => id) rfl
    intro n reply
    by_cases eq : n = m
    · simp [eq] at reply
    · simpa [update_of_ne eq] using reply
  | accept stack => exact h.accept engaged alone promise stack
  | @complete m status =>
    apply h.frame grows (fun _ => runsSmartCard_ended) same rfl (fun _ => id) rfl
    intro n reply
    rw [← slot_update Slot.reply m
      { (c.slots m).complete (completion status) with waker := none } rfl]
    exact reply
  | @completeRead m status =>
    apply h.frame grows (fun _ => id) same rfl (fun _ => id) rfl
    intro n reply
    rw [← slot_update Slot.reply m
      { (c.slots m).complete (completion status) with waker := none } rfl]
    exact reply
  | bioStart _ _ read =>
    exact h.frame grows (fun _ => runsSmartCard_bioStart read) same rfl (fun _ => id) rfl fun _ => id
  | bioEnd =>
    exact h.frame grows (fun _ => runsSmartCard_ended) same rfl (fun _ => id) rfl fun _ => id
  | @deliver pd _ _ kind reply m _ _ _ _ _ _ waits => exact { h.deliver engaged waits grows with }
  | @handBack pd _ event =>
    refine { h.handOver (.ofC pd) c.slots
      (c.queue.push (.cp (.ofC pd) (.event event))) grows fun n stored => ?_ with }
    obtain ⟨handed, told⟩ := h.kept n stored
    exact ⟨by simp [repliedOn, handed], told⟩
  | settleCommand stack => exact h.settleCommand stack
  | settleEvent stack => exact h.settleEvent engaged stack

end Context

end LibOsdp
