import LibOsdp.Base.Fifo
import LibOsdp.Ctx.Rules
import Mathlib.Data.List.Basic

/-!
# What goes into a context's queue, and what comes out

An item reaches the queue from the event callback of a CP or from the command callback of a PD: it
has to be well formed, and a smart card's reply is diverted when a submission waits for it. The
application takes items out, by name or through a stream, which parks its waker on an empty queue.
Between the two stands a bounded queue, and nothing else.
-/

set_option autoImplicit false

namespace LibOsdp

open Base Function Sys

/-- The PD that LibOSDP numbers `pd` keeps its number: the cast truncates no index of a bus. -/
theorem PdIndex.toNat_ofC {pd : Int32} (pos : 0 ≤ pd.toInt) (lt : pd.toInt < 256) :
    ((PdIndex.ofC pd).toNat : Int) = pd.toInt := by
  have word : pd.toUInt32.toNat = pd.toInt.toNat :=
    Int32.toNat_toUInt32_of_le (Int32.le_iff_toInt_le.mpr pos)
  rw [ofC, UInt32.toNat_toUInt8, word]
  omega

namespace Context

variable {c c' : Context} {role : Role} {act : Act}

/-- A smart card's reply that a submission waits for goes into the slot of that submission. -/
def diverts (c : Context) (pd : PdIndex) : CpEvent → Bool
  | .event event => event.smartCardReply.isSome && (c.waiting pd).isSome
  | .notification _ => false

/-- The item that a raw event on `pd` is, if it is one for the queue. -/
def eventItem (c : Context) (pd : PdIndex) (raw : OsdpEvent) : Option Item :=
  match CpEvent.tryFrom raw with
  | .ok event => if c.diverts pd event then none else some (.cp pd event)
  | .error _ => none

/-- The item that a raw command is, if it is one for the queue: a notification. -/
def commandItem (raw : OsdpCmd) : Option Item :=
  if raw.id = OSDP_CMD_NOTIFICATION then
    match Notification.tryFrom raw.payload.notif with
    | .ok notification => some (.pd notification)
    | .error _ => none
  else none

/-- The item that a step brings to the queue. -/
def arrival (c : Context) : Act → Option Item
  | .lib (.event pd raw) => c.eventItem (.ofC pd) raw
  | .lib (.command raw) => commandItem raw
  | _ => none

/-- What the queue is after a step. -/
def queueAfter (c : Context) (act : Act) : DrainQueue Item :=
  match act with
  | .app .nextItem | .app (.pollStream _) => c.queue.pop.2
  | act => (c.arrival act).elim c.queue c.queue.push

/-- What the stream's waker is after a step. -/
def streamAfter (c : Context) : Act → Option Waker
  | .app (.pollStream w) => if c.queue.isEmpty then some w else c.streamWaker
  | .tick =>
    match c.stack with
    | .waking [] _ :: _ => if c.queue.isEmpty then c.streamWaker else none
    | _ => c.streamWaker
  | _ => c.streamWaker

/-- All that a step does to the queue and to the stream's waker. -/
structure Drains (c : Context) (act : Act) (c' : Context) : Prop where
  queue : c'.queue = c.queueAfter act
  waker : c'.streamWaker = c.streamAfter act

theorem drains_cpEvent {pd : Int32} {raw : OsdpEvent} :
    c.Drains (.lib (.event pd raw)) (c.cpEvent (.ofC pd) raw) := by
  simp only [cpEvent]
  cases reads : CpEvent.tryFrom raw with
  | error fault => exact ⟨by simp [queueAfter, arrival, eventItem, reads], rfl⟩
  | ok event =>
    cases event with
    | notification notification =>
      exact ⟨by simp [queueAfter, arrival, eventItem, reads, diverts], rfl⟩
    | event event =>
      cases isReply : event.smartCardReply with
      | none =>
        refine ⟨?_, ?_⟩ <;> simp [queueAfter, arrival, eventItem, reads, diverts, isReply, streamAfter]
      | some pair =>
        cases waits : c.waiting (.ofC pd) <;> refine ⟨?_, ?_⟩ <;>
          simp [queueAfter, arrival, eventItem, reads, diverts, isReply, waits, deliverReply,
            streamAfter]

theorem drains_pdCommand {raw : OsdpCmd} : c.Drains (.lib (.command raw)) (c.pdCommand raw) := by
  simp only [pdCommand]
  split
  · next id =>
    cases reads : Notification.tryFrom raw.payload.notif with
    | error fault => exact ⟨by simp [queueAfter, arrival, commandItem, id, reads, answer], rfl⟩
    | ok notification => exact ⟨by simp [queueAfter, arrival, commandItem, id, reads, answer], rfl⟩
  · next id =>
    have none : c.arrival (.lib (.command raw)) = none := by simp [arrival, commandItem, id]
    cases Command.tryFrom raw with
    | error fault => exact ⟨by simp [queueAfter, none, answer], rfl⟩
    | ok cmd =>
      cases handler : c.handler <;> exact ⟨by simp [queueAfter, none, answer], rfl⟩

theorem drains_appStep {a : AppAct} (h : c.appStep role a = some c') : c.Drains (.app a) c' := by
  cases a with
  | refresh =>
    obtain rfl := Option.some.inj h
    unfold refresh
    split <;> exact ⟨rfl, rfl⟩
  | submit pd request =>
    obtain ⟨-, eq⟩ := Option.ite_none_right_eq_some.mp h
    obtain rfl := Option.some.inj eq
    unfold queueCommand
    split
    · exact ⟨rfl, rfl⟩
    · cases request.cmd.tryInto <;> exact ⟨rfl, rfl⟩
  | submitEvent event =>
    obtain ⟨-, eq⟩ := Option.ite_none_right_eq_some.mp h
    obtain rfl := Option.some.inj eq
    unfold offerEvent
    cases event.tryInto <;> exact ⟨rfl, rfl⟩
  | reply event =>
    simp only [appStep] at h
    split at h
    · obtain rfl := Option.some.inj h
      unfold reply offerEvent
      split
      · cases event.tryInto <;> exact ⟨rfl, rfl⟩
      · exact ⟨rfl, rfl⟩
    · cases h
  | flush pd =>
    obtain rfl := Option.some.inj h
    exact ⟨rfl, rfl⟩
  | drop n =>
    obtain ⟨-, eq⟩ := Option.ite_none_right_eq_some.mp h
    obtain rfl := Option.some.inj eq
    exact ⟨rfl, rfl⟩
  | poll n w =>
    obtain ⟨-, eq⟩ := Option.ite_none_right_eq_some.mp h
    obtain rfl := Option.some.inj eq
    unfold poll
    cases (c.slots n).status <;> exact ⟨rfl, rfl⟩
  | cancel n =>
    obtain ⟨handle, -, rfl⟩ := Option.map_eq_some_iff.mp h
    unfold cancel
    cases handle.operation with
    | none => exact ⟨rfl, rfl⟩
    | some op =>
      simp only
      split
      · cases c.running op.pd op.kind <;> exact ⟨rfl, rfl⟩
      · exact ⟨rfl, rfl⟩
  | nextItem =>
    obtain rfl := Option.some.inj h
    exact ⟨rfl, rfl⟩
  | pollStream w =>
    obtain rfl := Option.some.inj h
    unfold pollStream
    cases taken : c.queue.pop.1 with
    | some item =>
      have some : c.queue.isEmpty = false := by
        rw [Bool.eq_false_iff, ne_eq, DrainQueue.isEmpty_iff, ← DrainQueue.pop_eq_none, taken]
        simp
      exact ⟨rfl, by simp [streamAfter, some]⟩
    | none =>
      rw [DrainQueue.pop_eq_none] at taken
      have empty : c.queue.isEmpty = true := DrainQueue.isEmpty_iff.mpr taken
      exact ⟨by simp [queueAfter, DrainQueue.pop_of_nil taken], by simp [streamAfter, empty]⟩
  | setCommandHandler h' =>
    obtain ⟨-, eq⟩ := Option.ite_none_right_eq_some.mp h
    obtain rfl := Option.some.inj eq
    exact ⟨rfl, rfl⟩
  | query =>
    obtain rfl := Option.some.inj h
    exact ⟨rfl, rfl⟩
  | ret nak =>
    simp only [appStep, appReturn] at h
    split at h
    · obtain rfl := Option.some.inj h
      exact ⟨rfl, rfl⟩
    · obtain rfl := Option.some.inj h
      exact ⟨rfl, rfl⟩
    · cases h
  | teardown =>
    obtain ⟨-, eq⟩ := Option.ite_none_right_eq_some.mp h
    obtain rfl := Option.some.inj eq
    exact ⟨rfl, rfl⟩

theorem drains_wakeWaiting {after : After} {below : List Frame} :
    (c.wakeWaiting after below).queue = c.queue ∧
      (c.wakeWaiting after below).streamWaker = c.streamWaker := by
  unfold wakeWaiting
  split <;> exact ⟨rfl, rfl⟩

theorem drains_libReturn {call : Call} {below : List Frame} {rc : Int}
    (h : c.libReturn call below rc = some c') : c.Drains (.lib (.ret rc)) c' := by
  cases call with
  | refresh =>
    obtain rfl := Option.some.inj h
    exact ⟨drains_wakeWaiting.1, drains_wakeWaiting.2⟩
  | flush pd =>
    obtain rfl := Option.some.inj h
    exact ⟨drains_wakeWaiting.1, drains_wakeWaiting.2⟩
  | teardown =>
    obtain ⟨-, eq⟩ := Option.ite_none_right_eq_some.mp h
    obtain rfl := Option.some.inj eq
    exact ⟨rfl, rfl⟩
  | submit via n accepted =>
    simp only [libReturn] at h
    split at h
    · cases h
    · simp only [@Call.log_refusal c via n accepted] at h
      cases via with
      | command =>
        obtain rfl := Option.some.inj h
        exact ⟨drains_wakeWaiting.1, drains_wakeWaiting.2⟩
      | event =>
        obtain rfl := Option.some.inj h
        exact ⟨drains_wakeWaiting.1, drains_wakeWaiting.2⟩
      | reply =>
        obtain rfl := Option.some.inj h
        exact ⟨rfl, rfl⟩

theorem drains_libStep {a : LibAct} {call : Call} {below : List Frame}
    (h : c.libStep role call below a = some c') : c.Drains (.lib a) c' := by
  cases a with
  | callback =>
    obtain ⟨-, eq⟩ := Option.ite_none_right_eq_some.mp h
    obtain rfl := Option.some.inj eq
    exact ⟨rfl, rfl⟩
  | accept =>
    simp only [libStep] at h
    split at h
    · obtain rfl := Option.some.inj h
      exact ⟨rfl, rfl⟩
    · cases h
  | complete n status | completeRead n status =>
    obtain ⟨-, eq⟩ := Option.ite_none_right_eq_some.mp h
    obtain rfl := Option.some.inj eq
    exact ⟨rfl, rfl⟩
  | event pd raw =>
    obtain ⟨-, eq⟩ := Option.ite_none_right_eq_some.mp h
    obtain rfl := Option.some.inj eq
    exact drains_cpEvent
  | command raw =>
    obtain ⟨-, eq⟩ := Option.ite_none_right_eq_some.mp h
    obtain rfl := Option.some.inj eq
    exact drains_pdCommand
  | bioStart n | bioEnd n =>
    obtain ⟨-, eq⟩ := Option.ite_none_right_eq_some.mp h
    obtain rfl := Option.some.inj eq
    exact ⟨rfl, rfl⟩
  | ret rc => exact drains_libReturn h

theorem drains_tick (h : c.tick = some c') : c.Drains .tick c' := by
  unfold tick at h
  split at h
  · next stack =>
    obtain rfl := Option.some.inj h
    exact ⟨rfl, by simp [streamAfter, stack]⟩
  · next stack =>
    split at h
    · next some parked =>
      obtain rfl := Option.some.inj h
      exact ⟨rfl, by simp [streamAfter, stack, some]⟩
    · next other =>
      obtain rfl := Option.some.inj h
      refine ⟨rfl, ?_⟩
      cases empty : c.queue.isEmpty with
      | true => simp [streamAfter, stack, empty]
      | false =>
        cases parked : c.streamWaker with
        | none => simp [streamAfter, stack, empty]
        | some w => exact absurd parked (other w empty)
  · next after below stack =>
    obtain rfl := Option.some.inj h
    cases after with
    | done => exact ⟨rfl, by simp [streamAfter, stack, finish]⟩
    | dropped count => exact ⟨rfl, by simp [streamAfter, stack, finish]⟩
    | settle via n refused =>
      cases refused <;> cases via <;> exact ⟨rfl, by simp [streamAfter, stack, finish]⟩
  · cases h

/-- What a step does to the queue and to the stream's waker. -/
theorem drains_of_step (h : step role c act = some c') : c.Drains act c' := by
  cases act with
  | app a =>
    obtain ⟨-, eq⟩ := Option.ite_none_right_eq_some.mp h
    exact drains_appStep eq
  | lib a =>
    simp only [step] at h
    split at h
    · exact drains_libStep h
    · cases h
  | tick => exact drains_tick h

/-- The item that a step hands to the application: what the method it ends in returns. -/
def handed (h : Hop Context Act) : Option Item :=
  match h.act, h.dst.ret with
  | .app .nextItem, .item item => item
  | .app (.pollStream _), .item item => item
  | _, _ => none

theorem handed_lib {a : LibAct} : handed ⟨c, .lib a, c'⟩ = none := rfl

theorem arrival_eq_some {item : Item} (h : c.arrival act = some item) :
    c.queueAfter act = c.queue.push item ∧ handed ⟨c, act, c'⟩ = none := by
  cases act with
  | app a => cases h
  | tick => cases h
  | lib a => exact ⟨by simp [queueAfter, h], handed_lib⟩

/-- A drain takes the front of the queue, and any other step without an item leaves it alone. -/
theorem handed_of_step (h : step role c act = some c') (idle : c.arrival act = none) :
    c.queue.items = (handed ⟨c, act, c'⟩).toList ++ (c.queueAfter act).items := by
  have calm : c.queueAfter act = c.queue → handed ⟨c, act, c'⟩ = none →
      c.queue.items = (handed ⟨c, act, c'⟩).toList ++ (c.queueAfter act).items := by
    intro queue none
    rw [queue, none]
    rfl
  cases act with
  | lib a => exact calm (by simp [queueAfter, idle]) handed_lib
  | tick => exact calm rfl rfl
  | app a =>
    obtain ⟨-, eq⟩ := Option.ite_none_right_eq_some.mp h
    cases a with
    | nextItem =>
      obtain rfl := Option.some.inj eq
      exact DrainQueue.pop_spec
    | pollStream w =>
      obtain rfl := Option.some.inj eq
      have ret : (c.pollStream w).ret = .item c.queue.pop.1 := by
        unfold pollStream
        cases taken : c.queue.pop.1 <;> simp [taken]
      simp only [handed, ret]
      exact DrainQueue.pop_spec
    | _ => exact calm rfl rfl

/-- The queue of a context, as a bounded queue of the system. -/
def drain (role : Role) : Fifo (step role) Item where
  items c := c.queue.items
  capacity c := c.queue.capacity
  dropped c := c.queue.dropped
  arrival := arrival
  taken := handed
  fixed := by
    intro c act c' h
    rw [(drains_of_step h).queue]
    unfold queueAfter
    split
    · exact DrainQueue.capacity_pop
    · exact DrainQueue.capacity_pop
    · cases c.arrival act with
      | none => rfl
      | some item => exact DrainQueue.capacity_push
  keeps := by
    intro c act c' item h arrives room
    obtain ⟨queue, none⟩ := @arrival_eq_some c c' act item arrives
    rw [(drains_of_step h).queue, queue]
    exact ⟨none, DrainQueue.push_of_room room⟩
  drops := by
    intro c act c' item h arrives full
    obtain ⟨queue, none⟩ := @arrival_eq_some c c' act item arrives
    rw [(drains_of_step h).queue, queue]
    exact ⟨none, DrainQueue.push_of_full full⟩
  takes := by
    intro c act c' h idle
    refine ⟨?_, ?_⟩
    · rw [(drains_of_step h).queue]
      exact handed_of_step h idle
    · rw [(drains_of_step h).queue]
      unfold queueAfter
      split
      · exact DrainQueue.dropped_pop
      · exact DrainQueue.dropped_pop
      · rw [idle]
        rfl

/-- The item of a hop that found fewer than `capacity` queued. -/
def kept (capacity : Nat) (h : Hop Context Act) : Option Item :=
  if h.src.queue.items.length < capacity then h.src.arrival h.act else none

/-- The item of a hop that found the queue full. -/
def lost (capacity : Nat) (h : Hop Context Act) : Option Item :=
  if h.src.queue.items.length < capacity then none else h.src.arrival h.act

/-- Every context of a run has the capacity the first was built with. -/
theorem capacity_of_mem {hops : List (Hop Context Act)} (run : Run (step role) c hops c') :
    ∀ h ∈ hops, h.src.queue.capacity = c.queue.capacity := by
  intro h mem
  obtain ⟨before, after, -, first, -, -⟩ := run.cut mem
  exact (drain role).capacity_of_run first

/-- **The queue conserves its items**: what was handed to the application, followed by what is
    still queued, is in order what came well formed, was not diverted and found room; the items
    that found none are counted; and the queue holds no more than its capacity. No PD of a bus is
    taken for another. -/
theorem queue_conserves {capacity : Nat} {pos : 0 < capacity} {hops : List (Hop Context Act)}
    (run : Run (step role) (new capacity pos) hops c) :
    hops.filterMap handed ++ c.queue.items = hops.filterMap (kept capacity) ∧
      c.queue.dropped = (hops.filterMap (lost capacity)).length ∧
      c.queue.items.length ≤ capacity ∧
      ∀ pd : Int32, 0 ≤ pd.toInt → pd.toInt < 256 → ((PdIndex.ofC pd).toNat : Int) = pd.toInt := by
  have same := capacity_of_mem run
  have keptSame : hops.filterMap (drain role).kept = hops.filterMap (kept capacity) := by
    apply List.filterMap_congr
    intro h mem
    simp only [Fifo.kept, kept, drain, same h mem]
    rfl
  have lostSame : hops.filterMap (drain role).lost = hops.filterMap (lost capacity) := by
    apply List.filterMap_congr
    intro h mem
    simp only [Fifo.lost, lost, drain, same h mem]
    rfl
  refine ⟨?_, ?_, ?_, fun pd => PdIndex.toNat_ofC⟩
  · rw [← keptSame]
    exact ((drain role).conserves run).symm
  · rw [← lostSame]
    simpa [drain, new, DrainQueue.new] using (drain role).counts run
  · have bound := c.queue.items_le
    rwa [show c.queue.capacity = capacity from (drain role).capacity_of_run run] at bound

/-- One key press of two finds room, and the application takes it. -/
theorem queue_conserves_overflow : ∃ hops c,
    Run (LibOsdp.step .cp) (new 1 (by decide)) hops c ∧
      hops.filterMap handed = [.cp 4 (.event (.keyPress ⟨0, [0]⟩))] ∧
      hops.filterMap handed ++ c.queue.items = hops.filterMap (kept 1) ∧
      c.queue.dropped = (hops.filterMap (lost 1)).length := by
  let raw : OsdpEvent := { type := OSDP_EVENT_KEYPRESS, payload := { keypress := { length := 1 } } }
  let acts : List Act :=
    [.app .refresh, .lib (.event 4 raw), .lib (.event 5 raw), .lib (.ret 0), .tick, .tick,
      .app .nextItem]
  have run := @run_trace _ _ (LibOsdp.step .cp) acts (new 1 (by decide)) (by decide)
  obtain ⟨items, dropped, -⟩ := queue_conserves run
  exact ⟨_, _, run, by decide, items, dropped⟩

end Context

end LibOsdp
