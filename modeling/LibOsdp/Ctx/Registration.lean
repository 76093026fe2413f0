import LibOsdp.Ctx.Reply
import Mathlib.Data.List.Basic

/-!
# When a route is registered

`queue_command` wakes what waits before it registers the route of the command that LibOSDP took.
Where there is nobody to wake, the route is there before application code runs, and the reply
cannot be missed; where a waker runs first, it can refresh the context until the operation is
over, and submit another whose route is then replaced.
-/

set_option autoImplicit false

namespace LibOsdp

open Base Function

/-- The step ends no wait between the acceptance of a smart card command and the registration of
its route: nobody is there to wake. -/
def NobodyToWake (h : Hop Context Act) : Bool :=
  match h.act, h.src.stack with
  | .tick, .waking rest (.settle _ n false) :: _ =>
    !n.isSmartCard || rest.isEmpty && (h.src.queue.isEmpty || h.src.streamWaker.isNone)
  | _, _ => true

/-- LibOSDP runs a smart card command in a later refresh: no reply to it comes in the call that
submits it. -/
def RunsLater (h : Hop Context Act) : Bool :=
  match h.act, h.src.stack with
  | .lib (.event pd raw), .lib (.submit _ n _) :: _ =>
    (smartCardReplyOf raw).isNone || !n.isSmartCard || n.pd ≠ .ofC pd
  | _, _ => true

/-- What is documented of smart card commands. -/
abbrev Documented (h : Hop Context Act) : Prop :=
  OneCardOperation h = true ∧ OneReply h = true ∧ RunsLater h = true

/-- Nothing runs on top of a method that has yet to register the route of a smart card command
which LibOSDP took. -/
def RouteFirst (stack : List Frame) : Prop :=
  ∀ frame ∈ stack.tail, frame.isMethod → ∀ n, frame.settles n false = true → n.isSmartCard = false

/-- The smart card command that LibOSDP took. -/
def Obs.card : Obs → Option Sub
  | .accepted n => if n.isSmartCard then some n else none
  | _ => none

/-- LibOSDP hands over the reply of `n`, which it runs. -/
def Replies (h : Hop Context Act) (n : Sub) (reply : PivReply) : Prop :=
  ∃ pd raw event kind, h.act = .lib (.event pd raw) ∧
    smartCardReplyOf raw = some (event, kind, reply) ∧ n.pd = .ofC pd ∧
    h.src.runsSmartCard n = true

theorem routeFirst_nil : RouteFirst [] := by
  intro frame mem
  cases mem

theorem RouteFirst.pop {frame : Frame} {below : List Frame} (h : RouteFirst (frame :: below)) :
    RouteFirst below :=
  fun inner mem => h inner (List.mem_of_mem_tail mem)

theorem RouteFirst.push {frame : Frame} {stack : List Frame} (h : RouteFirst stack)
    (top : ∀ inner below, stack = inner :: below → ¬ inner.isMethod) :
    RouteFirst (frame :: stack) := by
  intro inner mem method
  cases stack with
  | nil => cases mem
  | cons next below =>
    rcases List.mem_cons.mp mem with rfl | mem
    · exact absurd method (top _ _ rfl)
    · exact h inner mem method

theorem not_isMethod_of_appTop {stack : List Frame} (h : AppTop stack) :
    ∀ inner below, stack = inner :: below → ¬ inner.isMethod := by
  rintro inner below rfl method
  rcases h with h | ⟨code, rest, h⟩
  · cases h
  · cases h
    exact method

/-- A refused submission is none that LibOSDP took. -/
theorem Call.card_refusal (call : Call) (log : List Obs) :
    (call.refusal ++ log).findSome? Obs.card = log.findSome? Obs.card := by
  rcases call.refusal_cases with none | ⟨m, one⟩
  · rw [none]
    rfl
  · rw [one]
    rfl

namespace Context

variable {c c' : Context} {role : Role} {act : Act} {n m : Sub}

/-- The smart card command that LibOSDP took last. -/
def newestCard (c : Context) : Option Sub := c.log.findSome? Obs.card

/-- `wake_waiting` goes on to the rest of the method where there is nobody to wake, and otherwise
runs a waker first. -/
theorem waking_of_tick {rest : List (Sub × Waker)} {after : After} {below : List Frame}
    (h : LibOsdp.step role c .tick = some c') (stack : c.stack = .waking rest after :: below) :
    (rest.isEmpty && (c.queue.isEmpty || c.streamWaker.isNone)) = true ∧
        c'.stack = .finishing after :: below ∨
      (rest.isEmpty && (c.queue.isEmpty || c.streamWaker.isNone)) = false ∧
        ∃ w frame, c'.stack = .app (.waker w) :: frame :: below ∧ frame.isMethod ∧
          ∀ n refused, frame.settles n refused = after.settles n refused := by
  cases rest with
  | cons head rest =>
    simp only [LibOsdp.step, tick, stack] at h
    obtain rfl := Option.some.inj h
    exact .inr ⟨rfl, _, _, rfl, trivial, fun _ _ => rfl⟩
  | nil =>
    simp only [LibOsdp.step, tick, stack] at h
    split at h
    · next filled parked =>
      obtain rfl := Option.some.inj h
      exact .inr ⟨by simp [filled, parked], _, _, rfl, trivial, fun _ _ => rfl⟩
    · next other =>
      obtain rfl := Option.some.inj h
      refine .inl ⟨?_, rfl⟩
      cases filled : c.queue.isEmpty with
      | true => rfl
      | false =>
        cases parked : c.streamWaker with
        | none => rfl
        | some w => exact absurd parked (other w filled)

/-- Where application code has yet to run before a route is registered, there was nobody to wake. -/
theorem nobodyToWake_of_routeFirst (h : LibOsdp.step role c act = some c')
    (first : RouteFirst c'.stack) : NobodyToWake ⟨c, act, c'⟩ = true := by
  unfold NobodyToWake
  split
  · next rest via n below isTick stack =>
    obtain rfl : act = .tick := isTick
    rcases waking_of_tick h stack with ⟨nobody, -⟩ | ⟨-, w, frame, woken, method, settles⟩
    · rw [nobody, Bool.or_true]
    · have mine : frame.settles n false = true := by
        rw [settles]
        simp [After.settles]
      rw [woken] at first
      have plain := first frame (List.mem_cons_self ..) method n mine
      rw [plain]
      rfl
  · rfl

theorem routeFirst_tick {rest : List (Sub × Waker)} {after : After} {below : List Frame}
    (h : LibOsdp.step role c .tick = some c') (stack : c.stack = .waking rest after :: below)
    (nobody : NobodyToWake ⟨c, .tick, c'⟩ = true) (first : RouteFirst c.stack) :
    RouteFirst c'.stack := by
  rw [stack] at first
  rcases waking_of_tick h stack with ⟨-, done⟩ | ⟨waits, w, frame, woken, method, settles⟩
  · rw [done]
    exact first
  · rw [woken]
    intro inner mem isMethod n mine
    rcases List.mem_cons.mp mem with rfl | mem
    · rw [settles] at mine
      unfold After.settles at mine
      split at mine
      · next via m refused =>
        simp only [Bool.and_eq_true, decide_eq_true_eq] at mine
        obtain ⟨rfl, rfl⟩ := mine
        simpa [NobodyToWake, stack, waits] using nobody
      · cases mine
    · exact first inner mem isMethod n mine

/-- **The step of the registration**: with nobody to wake, no application code comes before it. -/
theorem routeFirst_step (h : LibOsdp.step role c act = some c')
    (nobody : NobodyToWake ⟨c, act, c'⟩ = true) (first : RouteFirst c.stack) :
    RouteFirst c'.stack := by
  have rule := Rule.of_step h
  cases rule with
  | quiet | drop | poll | stop | nextItem | parkStream | setHandler | answer | queue | deliver
  | handBack | bioStart | bioEnd | complete | completeRead => exact first
  | refresh top | flush top | offer top =>
    exact first.push (not_isMethod_of_appTop (appTop_of_atApp top))
  | teardown => exact routeFirst_nil
  | callback stack | handle stack =>
    apply first.push
    rintro inner below eq method
    rw [stack] at eq
    cases eq
    exact method
  | handlerReturn stack | appReturn stack | tornDown stack | done stack | reclaim stack
  | settleCommand stack | settleEvent stack | settleReply stack =>
    rw [stack] at first
    exact first.pop
  | accept stack | leaveWaking stack | leaveFinishing stack =>
    rw [stack] at first
    exact first
  | wake stack | wakeStream stack | wakeEnd stack => exact routeFirst_tick h stack nobody first

/-- Below a guarded call no smart card command is yet to be settled. -/
theorem settles_below {call : Call} {below : List Frame} (engaged : c.Engaged)
    (first : RouteFirst c.stack) (stack : c.stack = .lib call :: below) (guarded : call.guarded)
    (card : m.isSmartCard = true) : below.countP (Frame.settles m false) = 0 := by
  have free := engaged.shape.busy.leave stack
  rw [guarded] at free
  rw [List.countP_eq_zero]
  intro inner mem settles
  cases inner with
  | lib call' =>
    cases call' with
    | submit via m' accepted =>
      cases accepted with
      | false => cases settles
      | true =>
        obtain rfl : m' = m := by simpa [Frame.settles] using settles
        have command : via = .command := engaged.command_of_carries
          (by rw [stack]; exact List.mem_cons_of_mem _ mem) rfl card
        subst command
        exact List.countP_eq_zero.mp free _ mem rfl
    | refresh | flush | teardown => cases settles
  | waking | finishing =>
    rw [stack] at first
    have plain := first _ mem trivial m settles
    rw [card] at plain
    cases plain
  | app => cases settles

theorem alone_of_routeFirst (engaged : c.Engaged) (first : RouteFirst c.stack) : c.Alone := by
  intro via n below stack card m isCard
  have command : via = .command :=
    engaged.command_of_carries (by rw [stack]; exact List.mem_cons_self ..) rfl card
  subst command
  exact settles_below engaged first stack rfl isCard

/-- Only an acceptance adds to what is to be settled. -/
theorem accepts_or_settles (rule : Rule c act c') :
    (∃ via n below, c.stack = .lib (.submit via n false) :: below ∧ c' = c.accept via n below) ∨
      c'.newestCard = c.newestCard ∧ ∀ m, c'.stack.countP (Frame.settles m false) ≤
        c.stack.countP (Frame.settles m false) := by
  have same (m : Sub) : c.stack.countP (Frame.settles m false) ≤
      c.stack.countP (Frame.settles m false) := Nat.le_refl _
  cases rule with
  | accept stack => exact .inl ⟨_, _, _, stack, rfl⟩
  | quiet | drop | poll | stop | nextItem | parkStream | setHandler | deliver | handBack | bioStart
  | bioEnd | complete | completeRead | refresh | flush | offer | callback | handle =>
    exact .inr ⟨rfl, same⟩
  | answer log _ answers | queue _ log _ _ answers =>
    rcases answers with rfl | ⟨code, rfl⟩ <;> exact .inr ⟨rfl, same⟩
  | teardown => exact .inr ⟨rfl, fun _ => Nat.zero_le _⟩
  | handlerReturn stack | appReturn stack | tornDown stack | done stack | reclaim stack
  | settleCommand stack | settleEvent stack | settleReply stack =>
    exact .inr ⟨rfl, settles_pop stack⟩
  | @leaveWaking _ call _ stack tells | @leaveFinishing _ call _ stack tells =>
    exact .inr ⟨call.card_refusal c.log, settles_after stack tells fun _ => rfl⟩
  | @wake _ _ rest after _ stack =>
    exact .inr ⟨rfl, settles_turn (.waking rest after) stack fun _ => rfl⟩
  | @wakeStream _ after _ stack | @wakeEnd after _ stack =>
    exact .inr ⟨rfl, settles_turn (.finishing after) stack fun _ => rfl⟩

/-- A smart card command that is yet to be settled is the one that LibOSDP took last. -/
def SettlesNewest (c : Context) : Prop :=
  ∀ n, n.isSmartCard = true → 0 < c.stack.countP (Frame.settles n false) → c.newestCard = some n

theorem SettlesNewest.step (h : c.SettlesNewest) (engaged : c.Engaged)
    (first : RouteFirst c.stack) (rule : Rule c act c') : c'.SettlesNewest := by
  intro n card settles
  rcases accepts_or_settles rule with ⟨via, m, below, stack, rfl⟩ | ⟨newest, fewer⟩
  · cases isCard : m.isSmartCard with
    | true =>
      have alone := alone_of_routeFirst engaged first via m below stack isCard n card
      by_cases eq : m = n
      · subst eq
        simp [newestCard, Obs.card, isCard]
      · simp [Frame.settles, eq, alone] at settles
    | false =>
      have ne : m ≠ n := by
        rintro rfl
        rw [card] at isCard
        cases isCard
      have inner : 0 < c.stack.countP (Frame.settles n false) := by
        rw [stack]
        simpa [List.countP_cons, Frame.settles, ne] using settles
      have before := h n card inner
      simpa [newestCard, List.findSome?_cons, Obs.card, isCard] using before
  · rw [newest]
    exact h n card (Nat.lt_of_lt_of_le settles (fewer n))

/-- Nothing was taken after what was taken last. -/
theorem not_taken_after (ledger : c.Ledger n) (newest : c.newestCard = some n)
    (card : m.isSmartCard = true) : ¬ [Obs.accepted m, .accepted n].Sublist c.log := by
  intro after
  obtain ⟨later, o, earlier, eq, isCard, none⟩ := List.findSome?_eq_some_iff.mp newest
  obtain rfl : o = .accepted n := by
    cases o with
    | accepted n' =>
      obtain ⟨-, same⟩ := Option.ite_none_right_eq_some.mp isCard
      rw [Option.some.inj same]
    | _ => cases isCard
  rw [eq] at after
  obtain ⟨front, back, split, before, rest⟩ := List.sublist_append_iff.mp after
  have twice : Obs.accepted n ∈ earlier := by
    cases front with
    | cons o front =>
      -- what comes before the newest acceptance is no acceptance of a smart card command
      obtain ⟨rfl, -⟩ := List.cons.inj split
      have blank := none _ (before.subset (List.mem_cons_self ..))
      simp [Obs.card, card] at blank
    | nil =>
      obtain rfl : _ = back := split
      rcases List.sublist_cons_iff.mp rest with inner | ⟨tail, same, inner⟩
      · exact inner.subset (List.mem_cons_of_mem _ (List.mem_cons_self ..))
      · obtain ⟨-, rfl⟩ := List.cons.inj same
        exact inner.subset (List.mem_cons_self ..)
  have count : 2 ≤ c.log.count (.accepted n) := by
    rw [eq, List.count_append, List.count_cons_self]
    have more := List.count_pos_iff.mpr twice
    omega
  have once := ledger.once
  have offers := ledger.offers
  omega

/-- A handle that was returned once does not come back when it was dropped. -/
theorem live_of_rule (ledger : c.Ledger n) (rule : Rule c act c') (told : .returned n ∈ c.log)
    (live : (c'.handles n).isSome) : (c.handles n).isSome := by
  have settled {frame : Frame} {below : List Frame} (stack : c.stack = frame :: below)
      (settles : frame.settles n false = true) : False := by
    have once := ledger.once
    have offers := ledger.offers
    have returns := ledger.returns
    rw [stack, List.countP_cons_of_pos settles] at returns
    have before := List.count_pos_iff.mpr told
    omega
  cases rule with
  | @drop m =>
    by_cases eq : n = m
    · simp [eq] at live
    · simpa [update_of_ne eq] using live
  | @settleCommand m below stack | @settleEvent m below stack =>
    have ne : n ≠ m := by
      rintro rfl
      exact settled stack (by simp [Frame.settles, After.settles])
    simpa [update_of_ne ne] using live
  | _ => exact live

theorem live_of_run {hops : List (Hop Context Act)} (ledger : ∀ n, c.Ledger n)
    (run : Run (LibOsdp.step role) c hops c') (told : .returned n ∈ c.log)
    (live : (c'.handles n).isSome) : (c.handles n).isSome := by
  have always : (∀ n, c'.Ledger n) ∧ .returned n ∈ c'.log ∧
      ((c'.handles n).isSome → (c.handles n).isSome) := by
    apply run.always ⟨ledger, told, id⟩
    rintro x a y ⟨ledger, told, back⟩ hstep
    have rule := Rule.of_step hstep
    exact ⟨fun m => (ledger m).step rule, rule.log_grows.subset told,
      fun live => back (live_of_rule (ledger n) rule told live)⟩
  exact always.2.2 live

/-- What holds where the route of every smart card command comes first. -/
structure Registered (hops : List (Hop Context Act)) (c : Context) : Prop where
  engaged : c.Engaged
  first : RouteFirst c.stack
  routed : c.Routed
  newest : c.SettlesNewest
  stored : ∀ n reply, (c.slots n).reply = some reply ↔ ∃ h ∈ hops, HandsOver h n reply

theorem registered_of_run {capacity : Nat} {pos : 0 < capacity} {hops : List (Hop Context Act)}
    (run : Run (LibOsdp.step .cp) (new capacity pos) hops c) (documented : ∀ h ∈ hops, Documented h)
    (nobody : ∀ h ∈ hops, NobodyToWake h) : Registered hops c := by
  induction run with
  | nil =>
    exact {
      engaged := tracked_new.engaged
      first := routeFirst_nil
      routed := routed_new
      newest := fun n card settles => absurd settles (Nat.lt_irrefl _)
      stored := by simp [new] }
  | @snoc hops x y a run hstep ih =>
    have before := ih (fun h mem => documented h (List.mem_append_left _ mem))
      fun h mem => nobody h (List.mem_append_left _ mem)
    obtain ⟨one, once, -⟩ := documented ⟨x, a, y⟩ (by simp)
    have quiet := nobody ⟨x, a, y⟩ (by simp)
    have rule := Rule.of_step hstep
    have alone := alone_of_routeFirst before.engaged before.first
    refine {
      engaged := before.engaged.step one rule
      first := routeFirst_step hstep quiet before.first
      routed := before.routed.step before.engaged alone one rule
      newest := before.newest.step before.engaged before.first rule
      stored := ?_ }
    intro n reply
    rw [reply_step before.engaged before.routed once hstep, before.stored]
    simp [or_and_right, exists_or]

/-- A reply comes for a command whose method has returned. -/
theorem Registered.returned_of_replies {hops : List (Hop Context Act)} {reply : PivReply}
    (h : Registered hops c) (later : RunsLater ⟨c, act, c'⟩ = true)
    (hstep : LibOsdp.step .cp c act = some c') (replies : Replies ⟨c, act, c'⟩ n reply) :
    .returned n ∈ c.log := by
  obtain ⟨pd, raw, event, kind, isEvent, isReply, onPd, runs⟩ := replies
  obtain rfl : act = .lib (.event pd raw) := isEvent
  have card : n.isSmartCard = true := by
    obtain ⟨kind, own, isCard, -⟩ := runsSmartCard_iff.mp runs
    exact Sub.isSmartCard_iff.mpr ⟨kind, own, isCard⟩
  have settled : c.stack.countP (Frame.settles n false) = 0 := by
    simp only [LibOsdp.step] at hstep
    split at hstep
    · next call below stack =>
      have guarded : call.guarded = true := (Option.ite_none_right_eq_some.mp hstep).1.2
      have inner := settles_below h.engaged h.first stack guarded card
      rw [stack, List.countP_cons, inner]
      cases call with
      | submit via m accepted =>
        have other : m ≠ n := by
          rintro rfl
          simp [RunsLater, stack, isReply, card, onPd] at later
        cases accepted <;> simp [Frame.settles, other]
      | refresh | flush | teardown => rfl
    · cases hstep
  have held := List.count_pos_iff.mpr (h.engaged.held_of_runs runs)
  have holds := (h.engaged.ledger n).holds
  have returns := (h.engaged.ledger n).returns
  exact List.count_pos_iff.mp (by omega)

/-- What is said of the replies of the smart card commands that LibOSDP takes. -/
structure RepliesKept (hops : List (Hop Context Act)) (c : Context) : Prop where
  /-- Once LibOSDP has returned, no application code runs before the route is registered. -/
  first : ∀ h ∈ hops, RouteFirst h.dst.stack
  /-- A handle whose command succeeds after its reply was handed over resolves to it. -/
  resolves : ∀ h ∈ hops, ∀ n reply, Replies h n reply → n.wantsReply = true →
    c.outcome n = some (.ok ()) → (c.handles n).isSome →
    (c.slots n).replyStatus = some (.ok reply)
  /-- Where another command was taken after `n`, the return of `n` leaves the route alone. -/
  keeps : ∀ h ∈ hops, ∀ n m below, h.act = .tick →
    h.src.stack = .finishing (.settle .command n false) :: below → n.isSmartCard = true →
    m.isSmartCard = true → m.pd = n.pd → [Obs.accepted m, .accepted n].Sublist h.src.log →
    h.dst.replies n.pd = h.src.replies n.pd

theorem nobodyToWake_of_kept {capacity : Nat} {pos : 0 < capacity} {hops : List (Hop Context Act)}
    (run : Run (LibOsdp.step role) (new capacity pos) hops c) (kept : RepliesKept hops c) :
    ∀ h ∈ hops, NobodyToWake h := by
  intro h mem
  obtain ⟨-, -, -, -, hstep, -⟩ := run.cut mem
  exact nobodyToWake_of_routeFirst hstep (kept.first h mem)

/-- **No reply is missed exactly where there is nobody to wake** between the acceptance of a smart
    card command and its route: whatever wakers do elsewhere, in every run in which LibOSDP does
    as documented. -/
theorem replies_kept_exact {capacity : Nat} {pos : 0 < capacity} {hops : List (Hop Context Act)}
    (run : Run (LibOsdp.step .cp) (new capacity pos) hops c)
    (documented : ∀ h ∈ hops, Documented h) :
    RepliesKept hops c ↔ ∀ h ∈ hops, NobodyToWake h := by
  constructor
  · intro kept
    exact nobodyToWake_of_kept run kept
  · intro nobody
    have now := registered_of_run run documented nobody
    have upTo {before after : List (Hop Context Act)} {h : Hop Context Act}
        (eq : hops = before ++ h :: after) (pre : Run (LibOsdp.step .cp) (new capacity pos) before
          h.src) : Registered before h.src := by
      subst eq
      exact registered_of_run pre (fun g mem => documented g (List.mem_append_left _ mem))
        fun g mem => nobody g (List.mem_append_left _ mem)
    refine ⟨?_, ?_, ?_⟩
    · intro h mem
      obtain ⟨before, after, eq, pre, hstep, -⟩ := run.cut mem
      exact routeFirst_step hstep (nobody h mem) (upTo eq pre).first
    · intro h mem n reply replies wants succeeded live
      obtain ⟨before, after, eq, pre, hstep, post⟩ := run.cut mem
      have there := upTo eq pre
      have told := there.returned_of_replies (documented h mem).2.2 hstep replies
      have rest := (Run.single hstep).trans post
      have alive := live_of_run there.engaged.ledger rest told live
      obtain ⟨pd, raw, event, kind, isEvent, isReply, onPd, runs⟩ := replies
      have handed : HandsOver h n reply :=
        ⟨pd, raw, event, kind, isEvent, isReply, onPd, runs, wants, alive⟩
      rw [Slot.replyStatus_eq_ok, (now.engaged.ledger n).status]
      exact ⟨succeeded, (now.stored n reply).mpr ⟨h, mem, handed⟩⟩
    · intro h mem n m below isTick stack card isCard onPd after
      obtain ⟨before, rest, eq, pre, -, -⟩ := run.cut mem
      have there := upTo eq pre
      have settles : 0 < h.src.stack.countP (Frame.settles n false) := by
        rw [stack, List.countP_cons_of_pos (by simp [Frame.settles, After.settles])]
        exact Nat.succ_pos _
      have newest := there.newest n card settles
      exact absurd after (not_taken_after (there.engaged.ledger n) newest isCard)

/-- A PIV request resolves, and the waker of its task submits another one. -/
theorem replies_kept_exact_busyWaker : ∃ hops c,
    Run (LibOsdp.step .cp) (new 32 (by decide)) hops c ∧ RepliesKept hops c ∧
      (c.slots ⟨0, 1, some .piv, true⟩).replyStatus = some (.ok ⟨[0]⟩) ∧
      c.replies 1 = some ⟨1, 1, some .piv, true⟩ := by
  let piv : Sub := ⟨0, 1, some .piv, true⟩
  let answer : Sys.OsdpEvent :=
    { type := Sys.OSDP_EVENT_PIVDATAR, payload := { pivReply := { length := 1 } } }
  let submit : Act := .app (.submit 1 (.pivData ⟨#v[0x5f, 0xc1, 0x02], 0, 0⟩))
  let acts : List Act :=
    [submit, .lib .accept, .lib (.ret 0), .tick, .tick, .app (.poll piv 7), .app .refresh,
      .lib (.event 1 answer), .lib (.complete piv OSDP_COMPLETION_OK), .lib (.ret 0), .tick, submit,
      .lib .accept, .lib (.ret 0), .tick, .tick]
  have run := @run_trace _ _ (LibOsdp.step .cp) acts (new 32 (by decide)) (by decide)
  exact ⟨_, _, run, (replies_kept_exact run (by decide)).mpr (by decide), by decide, by decide⟩

/-- LibOSDP notifies the start of a PIV request as it takes it, and the stream's waker refreshes
    the context until the request is over: its handle fails. The route of the request that the
    waker submits then is replaced by the one that is over. -/
theorem replies_missed : ∃ hops c, Run (LibOsdp.step .cp) (new 32 (by decide)) hops c ∧
    (∀ h ∈ hops, Documented h) ∧ ¬ RepliesKept hops c ∧
      c.replied ⟨0, 1, some .piv, true⟩ = true ∧
      (c.slots ⟨0, 1, some .piv, true⟩).status = some (.ok ()) ∧
      (c.slots ⟨0, 1, some .piv, true⟩).replyStatus = some (.error .failed) ∧
      c.held = [⟨1, 1, some .piv, true⟩] ∧ c.replies 1 = some ⟨0, 1, some .piv, true⟩ := by
  let piv : Sub := ⟨0, 1, some .piv, true⟩
  let start : Sys.OsdpEvent :=
    { type := Sys.OSDP_EVENT_NOTIFICATION
      payload := { notif := { type := Sys.OSDP_NOTIFICATION_MP_START
                              payload := { mp := { mpType := Sys.OSDP_MP_MSG_PIV } } } } }
  let answer : Sys.OsdpEvent :=
    { type := Sys.OSDP_EVENT_PIVDATAR, payload := { pivReply := { length := 1 } } }
  let submit : Act := .app (.submit 1 (.pivData ⟨#v[0x5f, 0xc1, 0x02], 0, 0⟩))
  let acts : List Act :=
    [.app (.pollStream 7), submit, .lib .accept, .lib (.event 1 start), .lib (.ret 0), .tick,
      .app .refresh, .lib (.event 1 answer), .lib (.complete piv OSDP_COMPLETION_OK),
      .lib (.ret 0), .tick, .tick, submit, .lib .accept, .lib (.ret 0), .tick, .tick,
      .app (.ret none), .tick]
  have run := @run_trace _ _ (LibOsdp.step .cp) acts (new 32 (by decide)) (by decide)
  refine ⟨_, _, run, by decide, ?_, by decide, by decide, by decide, by decide, by decide⟩
  exact fun kept => absurd (nobodyToWake_of_kept run kept) (by decide)

end Context

end LibOsdp
