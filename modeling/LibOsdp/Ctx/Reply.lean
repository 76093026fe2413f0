import LibOsdp.Ctx.Routing

/-!
# What a handle resolves into

A step that hands over a smart card's reply leaves it in one place, and no other step touches the
replies; so what a slot holds at the end of a run is what a step of that run handed to it.
-/

set_option autoImplicit false

namespace LibOsdp

open Base Function

namespace Context

variable {c c' : Context} {role : Role} {act : Act} {n m : Sub}

/-- The step of an event that carries a smart card's reply is `deliver_reply`. -/
theorem deliverReply_of_step {pd : Int32} {raw : Sys.OsdpEvent} {event : Event} {kind : MpKind}
    {reply : PivReply} (hstep : LibOsdp.step role c (.lib (.event pd raw)) = some c')
    (isReply : smartCardReplyOf raw = some (event, kind, reply)) :
    c' = c.deliverReply (.ofC pd) event kind reply := by
  obtain ⟨reads, carries⟩ := smartCardReplyOf_eq_some.mp isReply
  simp only [LibOsdp.step] at hstep
  split at hstep
  · obtain ⟨-, eq⟩ := Option.ite_none_right_eq_some.mp hstep
    obtain rfl := Option.some.inj eq
    simp only [cpEvent, reads, carries]
  · cases hstep

/-- **What a step does to the reply in a slot**: nothing, unless it makes the submission or hands
it a reply. -/
theorem reply_cases (rule : Rule c act c') (n : Sub) :
    (c'.slots n).reply = (c.slots n).reply ∨ (n.id = c.next ∧ (c'.slots n).reply = none) ∨
      ∃ pd raw event kind reply, act = .lib (.event pd raw) ∧
        smartCardReplyOf raw = some (event, kind, reply) ∧ c.waiting (.ofC pd) = some n ∧
        (c'.slots n).reply = some reply := by
  have kept (m : Sub) (slot : Slot) (same : slot.reply = (c.slots m).reply) :
      (update c.slots m slot n).reply = (c.slots n).reply :=
    slot_update Slot.reply m slot same
  cases rule with
  | @drop m => exact .inl (kept m { c.slots m with hasHandle := false } rfl)
  | @poll m w => exact .inl (kept m { c.slots m with waker := some w } rfl)
  | @complete m status | @completeRead m status =>
    exact .inl (kept m { (c.slots m).complete (completion status) with waker := none } rfl)
  | @settleCommand m | @settleEvent m =>
    exact .inl (kept m { c.slots m with hasHandle := true } rfl)
  | @offer _ via m raw _ _ fresh =>
    by_cases eq : n = m
    · subst eq
      exact .inr (.inl ⟨fresh, by simp⟩)
    · exact .inl (congrArg Slot.reply (update_of_ne eq ..))
  | @deliver pd raw event kind reply m _ _ _ _ reads carries waits =>
    by_cases eq : n = m
    · subst eq
      refine .inr (.inr ⟨pd, raw, event, kind, reply, rfl, ?_, waits, by simp [Slot.setReply]⟩)
      exact smartCardReplyOf_eq_some.mpr ⟨reads, carries⟩
    · exact .inl (congrArg Slot.reply (update_of_ne eq ..))
  | _ => exact .inl rfl

/-- `n` is the reply-wanting command running on `pd`, and its handle is alive. -/
structure Awaits (c : Context) (pd : PdIndex) (n : Sub) : Prop where
  onPd : n.pd = pd
  runs : c.runsSmartCard n = true
  wants : n.wantsReply = true
  live : (c.handles n).isSome = true

/-- The step hands a reply of the smart card to `n`, which awaits it. -/
def HandsOver (h : Hop Context Act) (n : Sub) (reply : PivReply) : Prop :=
  ∃ pd raw event kind, h.act = .lib (.event pd raw) ∧
    smartCardReplyOf raw = some (event, kind, reply) ∧ h.src.Awaits (.ofC pd) n

/-- Where a step leaves the reply it hands over: in the slot of the command that awaits it, or,
when there is none, in the queue. -/
def ReplyPlaced (h : Hop Context Act) : Prop :=
  ∀ pd raw event kind reply, h.act = .lib (.event pd raw) →
    smartCardReplyOf raw = some (event, kind, reply) →
    (∀ n, h.src.Awaits (.ofC pd) n →
      h.dst.slots = update h.src.slots n ((h.src.slots n).setReply reply) ∧
        h.dst.queue = h.src.queue) ∧
    ((∀ n, ¬ h.src.Awaits (.ofC pd) n) →
      h.dst.slots = h.src.slots ∧ h.dst.queue = h.src.queue.push (.cp (.ofC pd) (.event event)))

/-- `deliver_reply` finds exactly the command that awaits the reply. -/
theorem waiting_iff_awaits {pd : Int32} {raw : Sys.OsdpEvent} {reply : Event × MpKind × PivReply}
    (engaged : c.Engaged) (routed : c.Routed) (once : OneReply ⟨c, .lib (.event pd raw), c'⟩ = true)
    (isReply : smartCardReplyOf raw = some reply) :
    c.waiting (.ofC pd) = some n ↔ c.Awaits (.ofC pd) n := by
  constructor
  · intro waits
    obtain ⟨onPd, runs, wants, live, -⟩ := routed.of_waiting engaged waits
    exact ⟨onPd, runs, wants, live⟩
  · rintro ⟨onPd, runs, wants, live⟩
    have unreplied := not_replied_of_oneReply once isReply onPd runs
    rw [← onPd]
    exact routed.waiting_of_runs engaged runs wants live unreplied

theorem replyPlaced_of_step (engaged : c.Engaged) (routed : c.Routed)
    (promise : OneReply ⟨c, act, c'⟩ = true) (hstep : LibOsdp.step role c act = some c') :
    ReplyPlaced ⟨c, act, c'⟩ := by
  rintro pd raw event kind reply rfl isReply
  have found {n : Sub} := waiting_iff_awaits (n := n) engaged routed promise isReply
  obtain rfl := deliverReply_of_step hstep isReply
  constructor
  · intro n awaits
    simp [deliverReply, found.mpr awaits]
  · intro nobody
    cases waits : c.waiting (.ofC pd) with
    | none =>
      simp [deliverReply, waits]
    | some n => exact absurd (found.mp waits) (nobody n)

/-- A reply in a slot is there to stay. -/
theorem Routed.reply_stays {reply : PivReply} (routed : c.Routed) (engaged : c.Engaged)
    (promise : OneReply ⟨c, act, c'⟩ = true) (rule : Rule c act c')
    (stored : (c.slots n).reply = some reply) : (c'.slots n).reply = some reply := by
  obtain ⟨handed, told⟩ := routed.kept n (by rw [stored]; rfl)
  rcases reply_cases rule n with same | ⟨fresh, -⟩ | ⟨pd, raw, _, _, _, rfl, isReply, waits, -⟩
  · rw [same, stored]
  · -- a submission that was returned to its caller is not made again
    have unmade := (engaged.ledger n).fresh (Nat.le_of_eq fresh.symm)
    have offers := (engaged.ledger n).offers
    have returns := (engaged.ledger n).returns
    have here := List.count_pos_iff.mpr told
    omega
  · obtain ⟨onPd, runs, -⟩ := routed.of_waiting engaged waits
    have unreplied := not_replied_of_oneReply promise isReply onPd runs
    exact absurd (handed.symm.trans unreplied) nofun

/-- What a slot holds after a step, it held before, or the step handed it over. -/
theorem reply_step {reply : PivReply} (engaged : c.Engaged) (routed : c.Routed)
    (promise : OneReply ⟨c, act, c'⟩ = true) (hstep : LibOsdp.step role c act = some c') :
    (c'.slots n).reply = some reply ↔
      (c.slots n).reply = some reply ∨ HandsOver ⟨c, act, c'⟩ n reply := by
  have rule := Rule.of_step hstep
  constructor
  · intro stored
    rcases reply_cases rule n with
      same | ⟨-, none⟩ | ⟨pd, raw, event, kind, reply', rfl, isReply, waits, set⟩
    · exact .inl (same.symm.trans stored)
    · exact absurd (none.symm.trans stored) nofun
    · obtain rfl := Option.some.inj (set.symm.trans stored)
      have awaits := (waiting_iff_awaits engaged routed promise isReply).mp waits
      exact .inr ⟨pd, raw, event, kind, rfl, isReply, awaits⟩
  · rintro (stored | ⟨pd, raw, event, kind, isEvent, isReply, awaits⟩)
    · exact routed.reply_stays engaged promise rule stored
    · have placed := replyPlaced_of_step engaged routed promise hstep
      have slots := ((placed pd raw event kind reply isEvent isReply).1 n awaits).1
      have here := congrFun slots n
      simp only [update_self] at here
      rw [here]
      rfl

/-- The routes and the replies of a run in which the promises are kept. -/
structure RepliesTracked (hops : List (Hop Context Act)) (c : Context) : Prop where
  tracked : c.Tracked
  routed : c.Routed
  placed : ∀ h ∈ hops, ReplyPlaced h ∧
    ∀ pd n m, h.src.Awaits pd n → h.src.Awaits pd m → n = m
  stored : ∀ n reply, (c.slots n).reply = some reply ↔ ∃ h ∈ hops, HandsOver h n reply

theorem repliesTracked_of_run {capacity : Nat} {pos : 0 < capacity} {hops : List (Hop Context Act)}
    (run : Run (LibOsdp.step role) (new capacity pos) hops c) (promises : ∀ h ∈ hops, Promised h) :
    RepliesTracked hops c := by
  induction run with
  | nil => exact ⟨tracked_new, routed_new, by simp, by simp [new]⟩
  | @snoc hops x y a run hstep ih =>
    have before := ih fun h mem => promises h (List.mem_append_left _ mem)
    have promise := promises ⟨x, a, y⟩ (by simp)
    have rule := Rule.of_step hstep
    have engaged := before.tracked.engaged
    refine {
      tracked := before.tracked.step promise rule
      routed := before.routed.step engaged before.tracked.alone promise.1 rule
      placed := ?_
      stored := ?_ }
    · intro h mem
      rcases List.mem_append.mp mem with mem | mem
      · exact before.placed h mem
      · obtain rfl := List.mem_singleton.mp mem
        refine ⟨replyPlaced_of_step engaged before.routed promise.2.1 hstep, ?_⟩
        intro pd n m left right
        exact before.routed.single n m left.runs right.runs (left.onPd.trans right.onPd.symm)
    · intro n reply
      rw [reply_step engaged before.routed promise.2.1 hstep, before.stored]
      simp [or_and_right, exists_or]

/-- What a run makes of the replies. -/
structure RepliesRouted (hops : List (Hop Context Act)) (c : Context) : Prop where
  /-- Every reply goes to the command that awaits it on that PD, and to the queue when there is
  none. -/
  placed : ∀ h ∈ hops, ReplyPlaced h
  /-- At most one command does. -/
  single : ∀ h ∈ hops, ∀ pd n m, h.src.Awaits pd n → h.src.Awaits pd m → n = m
  /-- A slot holds a reply exactly when it was handed to its command as it awaited it. -/
  stored : ∀ n reply, (c.slots n).reply = some reply ↔ ∃ h ∈ hops, HandsOver h n reply
  /-- A handle resolves into a reply exactly when its command succeeded and was handed it. -/
  resolves : ∀ n reply, (c.slots n).replyStatus = some (.ok reply) ↔
    c.outcome n = some (.ok ()) ∧ ∃ h ∈ hops, HandsOver h n reply
  /-- A command that succeeds without one fails for its handle. -/
  unanswered : ∀ n, c.outcome n = some (.ok ()) → (∀ h ∈ hops, ∀ reply, ¬ HandsOver h n reply) →
    (c.slots n).replyStatus = some (.error .failed)

/-- **Reply routing**: in every run in which LibOSDP keeps its promises and wakers only wake, a
smart card's reply goes to the command that runs on its PD, or to the queue. -/
theorem reply_routing {capacity : Nat} {pos : 0 < capacity} {hops : List (Hop Context Act)}
    (run : Run (LibOsdp.step .cp) (new capacity pos) hops c)
    (promises : ∀ h ∈ hops, Promised h) : RepliesRouted hops c := by
  have now := repliesTracked_of_run run promises
  have status (n : Sub) : (c.slots n).status = c.outcome n := (now.tracked.ledger n).status
  refine {
    placed := fun h mem => (now.placed h mem).1
    single := fun h mem => (now.placed h mem).2
    stored := now.stored
    resolves := ?_
    unanswered := ?_ }
  · intro n reply
    rw [← now.stored, ← status, Slot.replyStatus_eq_ok]
  · intro n succeeded unreplied
    have none : (c.slots n).reply = none := by
      rw [Option.eq_none_iff_forall_ne_some]
      intro reply stored
      obtain ⟨h, mem, handed⟩ := (now.stored n reply).mp stored
      exact unreplied h mem reply handed
    rw [← status] at succeeded
    simp [Slot.replyStatus, succeeded, none, Except.bind]

/-- A PIV request is answered, and a late reply that comes after it has ended is queued. -/
theorem reply_routing_pivData : ∃ hops c,
    Run (LibOsdp.step .cp) (new 32 (by decide)) hops c ∧ RepliesRouted hops c ∧
      (c.slots ⟨0, 1, some .piv, true⟩).replyStatus = some (.ok ⟨[0]⟩) ∧
      c.queue.items = [.cp 1 (.event (.pivData ⟨[0]⟩))] := by
  let n : Sub := ⟨0, 1, some .piv, true⟩
  let raw : Sys.OsdpEvent :=
    { type := Sys.OSDP_EVENT_PIVDATAR, payload := { pivReply := { length := 1 } } }
  let acts : List Act :=
    [.app (.submit 1 (.pivData ⟨#v[0x5f, 0xc1, 0x02], 0, 0⟩)), .lib .accept, .lib (.ret 0), .tick,
      .tick, .app .refresh, .lib (.event 1 raw), .lib (.complete n OSDP_COMPLETION_OK),
      .lib (.event 1 raw), .lib (.ret 0), .tick, .tick]
  have run := @run_trace _ _ (LibOsdp.step .cp) acts (new 32 (by decide)) (by decide)
  exact ⟨_, _, run, reply_routing run (by decide), by decide, by decide⟩

end Context

end LibOsdp
