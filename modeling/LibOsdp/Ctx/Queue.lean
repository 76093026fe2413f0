/-!
# The drain queue

The bounded queue between LibOSDP's callbacks and the application. Its bound is a field, so that
no step of a context can overfill it.
-/

set_option autoImplicit false

namespace LibOsdp

/-- `queue.rs`: a queue that counts what it has no room for. -/
structure DrainQueue (T : Type) where
  items : List T
  capacity : Nat
  dropped : Nat
  capacity_pos : 0 < capacity
  items_le : items.length ≤ capacity

namespace DrainQueue

variable {T : Type}

/-- `DrainQueue::new`. -/
def new (capacity : Nat) (pos : 0 < capacity) : DrainQueue T where
  items := []
  capacity
  dropped := 0
  capacity_pos := pos
  items_le := Nat.zero_le _

/-- `DrainQueue::push`: queue `item`, or count it as dropped when the queue is full. -/
def push (queue : DrainQueue T) (item : T) : DrainQueue T :=
  if room : queue.items.length < queue.capacity then
    { queue with
      items := queue.items ++ [item]
      items_le := by rw [List.length_append]; exact room }
  else { queue with dropped := queue.dropped + 1 }

/-- `DrainQueue::pop`. -/
def pop (queue : DrainQueue T) : Option T × DrainQueue T :=
  match eq : queue.items with
  | [] => (none, queue)
  | item :: items =>
    (some item,
      { queue with
        items
        items_le := by
          have bound := queue.items_le
          rw [eq] at bound
          exact Nat.le_of_succ_le bound })

/-- `DrainQueue::is_empty`. -/
def isEmpty (queue : DrainQueue T) : Bool := queue.items.isEmpty

variable {queue : DrainQueue T} {item : T}

theorem isEmpty_iff : queue.isEmpty = true ↔ queue.items = [] := by
  simp [isEmpty]

theorem push_of_room (room : queue.items.length < queue.capacity) :
    (queue.push item).items = queue.items ++ [item] ∧ (queue.push item).dropped = queue.dropped := by
  simp [push, room]

theorem push_of_full (full : ¬ queue.items.length < queue.capacity) :
    (queue.push item).items = queue.items ∧ (queue.push item).dropped = queue.dropped + 1 := by
  simp [push, full]

@[simp] theorem capacity_push : (queue.push item).capacity = queue.capacity := by
  unfold push
  split <;> rfl

/-- What `pop` gives is the front of the queue, and what it leaves is the rest. -/
theorem pop_spec : queue.items = queue.pop.1.toList ++ queue.pop.2.items := by
  unfold pop
  split <;> simp_all

theorem pop_of_nil (empty : queue.items = []) : queue.pop = (none, queue) := by
  unfold pop
  split <;> simp_all

@[simp] theorem dropped_pop : queue.pop.2.dropped = queue.dropped := by
  unfold pop
  split <;> rfl

@[simp] theorem capacity_pop : queue.pop.2.capacity = queue.capacity := by
  unfold pop
  split <;> rfl

theorem pop_eq_none : queue.pop.1 = none ↔ queue.items = [] := by
  unfold pop
  split <;> simp_all

end DrainQueue

end LibOsdp
