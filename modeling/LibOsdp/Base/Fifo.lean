import LibOsdp.Base.Lts

/-!
# Bounded queues inside a system

A queue with room for so many items, somewhere in the state of a system: a step brings it an item,
which it keeps at its end or drops when it is full, or takes the item at its front, or leaves it
alone. Over a run of any length nothing else is lost, and nothing is reordered or made up.
-/

set_option autoImplicit false

namespace LibOsdp.Base

variable {S A T : Type} {step : S → A → Option S}

/-- A bounded queue in the states of `step`. -/
structure Fifo (step : S → A → Option S) (T : Type) where
  items : S → List T
  capacity : S → Nat
  /-- How many items found the queue full. -/
  dropped : S → Nat
  /-- The item that a step brings. -/
  arrival : S → A → Option T
  /-- The item that a step takes. -/
  taken : Hop S A → Option T
  fixed : ∀ {s a t}, step s a = some t → capacity t = capacity s
  keeps : ∀ {s a t x}, step s a = some t → arrival s a = some x →
    (items s).length < capacity s →
      taken ⟨s, a, t⟩ = none ∧ items t = items s ++ [x] ∧ dropped t = dropped s
  drops : ∀ {s a t x}, step s a = some t → arrival s a = some x →
    ¬ (items s).length < capacity s →
      taken ⟨s, a, t⟩ = none ∧ items t = items s ∧ dropped t = dropped s + 1
  takes : ∀ {s a t}, step s a = some t → arrival s a = none →
    items s = (taken ⟨s, a, t⟩).toList ++ items t ∧ dropped t = dropped s

namespace Fifo

variable (q : Fifo step T)

/-- The item of a hop that found room. -/
def kept (h : Hop S A) : Option T :=
  if (q.items h.src).length < q.capacity h.src then q.arrival h.src h.act else none

/-- The item of a hop that found the queue full. -/
def lost (h : Hop S A) : Option T :=
  if (q.items h.src).length < q.capacity h.src then none else q.arrival h.src h.act

variable {q} {s t : S} {hops : List (Hop S A)}

/-- One step neither loses an item that found room nor makes one up. -/
theorem step_conserves {a : A} (h : step s a = some t) :
    q.items s ++ (q.kept ⟨s, a, t⟩).toList = (q.taken ⟨s, a, t⟩).toList ++ q.items t := by
  simp only [kept]
  cases arrives : q.arrival s a with
  | none =>
    have same := (q.takes h arrives).1
    simpa using same
  | some x =>
    by_cases room : (q.items s).length < q.capacity s
    · obtain ⟨none, items, -⟩ := q.keeps h arrives room
      simp [room, none, items]
    · obtain ⟨none, items, -⟩ := q.drops h arrives room
      simp [room, none, items]

/-- One step counts the item that it drops. -/
theorem step_counts {a : A} (h : step s a = some t) :
    q.dropped t = q.dropped s + (q.lost ⟨s, a, t⟩).toList.length := by
  simp only [lost]
  cases arrives : q.arrival s a with
  | none =>
    have same := (q.takes h arrives).2
    simpa using same
  | some x =>
    by_cases room : (q.items s).length < q.capacity s
    · simpa [room] using (q.keeps h arrives room).2.2
    · simpa [room] using (q.drops h arrives room).2.2

/-- **Conservation**: what was there and what found room, in order, is what was taken and what is
    still there. -/
theorem conserves (run : Run step s hops t) :
    q.items s ++ hops.filterMap q.kept = hops.filterMap q.taken ++ q.items t := by
  induction run with
  | nil => simp
  | @snoc hops t u a run h ih =>
    have one := step_conserves (q := q) h
    rw [List.filterMap_append, List.filterMap_append, ← List.append_assoc, ih, List.append_assoc,
      List.append_assoc]
    simp only [List.filterMap_cons, List.filterMap_nil]
    cases kept : q.kept ⟨t, a, u⟩ <;> cases taken : q.taken ⟨t, a, u⟩ <;> simp_all

/-- The drop count is the number of items that found the queue full. -/
theorem counts (run : Run step s hops t) :
    q.dropped t = q.dropped s + (hops.filterMap q.lost).length := by
  induction run with
  | nil => simp
  | @snoc hops t u a run h ih =>
    have one := step_counts (q := q) h
    rw [one, ih, List.filterMap_append, List.length_append, Nat.add_assoc]
    simp only [List.filterMap_cons, List.filterMap_nil]
    cases q.lost ⟨t, a, u⟩ with
    | none => rfl
    | some x => rfl

theorem capacity_of_run (run : Run step s hops t) : q.capacity t = q.capacity s := by
  induction run with
  | nil => rfl
  | snoc _ h ih => exact (q.fixed h).trans ih

/-- The queue never overfills. -/
theorem bounded (run : Run step s hops t) (first : (q.items s).length ≤ q.capacity s) :
    (q.items t).length ≤ q.capacity t := by
  apply run.always first
  intro x a y before h
  rw [q.fixed h]
  cases arrives : q.arrival x a with
  | none =>
    have same := congrArg List.length (q.takes h arrives).1
    rw [List.length_append] at same
    omega
  | some item =>
    by_cases room : (q.items x).length < q.capacity x
    · rw [(q.keeps h arrives room).2.1, List.length_append]
      exact room
    · rw [(q.drops h arrives room).2.1]
      exact before

end Fifo

end LibOsdp.Base
