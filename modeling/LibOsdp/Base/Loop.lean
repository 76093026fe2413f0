import Mathlib.Order.WellFounded

/-!
# Loops that end

Each turn of a loop either goes round again from a new state or leaves with a result. `turns` runs
a number of turns, and a `Loop` carries the measure that falls with every turn, so that it has a
result from every state. The rules are those of a loop: what one turn does, and an invariant that
holds at the result if every turn keeps it.
-/

set_option autoImplicit false

namespace LibOsdp.Base

variable {σ ρ : Type}

inductive Turn (σ ρ : Type) where
  | again (s : σ)
  | leave (r : ρ)

/-- What the loop leaves with within `n` turns. -/
def turns (body : σ → Turn σ ρ) : Nat → σ → Option ρ
  | 0, _ => none
  | n + 1, s =>
    match body s with
    | .again t => turns body n t
    | .leave r => some r

/-- A loop body whose turns cannot go on for ever. -/
structure Loop (σ ρ : Type) where
  body : σ → Turn σ ρ
  measure : σ → Nat
  falls : ∀ {s t}, body s = .again t → measure t < measure s

section Turns

variable {body : σ → Turn σ ρ} {s t : σ} {r : ρ} {n : Nat}

theorem turns_of_again (h : body s = .again t) : turns body (n + 1) s = turns body n t := by
  rw [turns, h]

theorem turns_of_leave (h : body s = .leave r) : turns body (n + 1) s = some r := by
  rw [turns, h]

end Turns

namespace Loop

variable (l : Loop σ ρ) {s t : σ} {r : ρ} {n : Nat}

/-- **Induction along the turns of a loop.** -/
theorem induct {P : σ → Prop} (turn : ∀ s, (∀ t, l.body s = .again t → P t) → P s) (s : σ) : P s := by
  induction h : l.measure s using Nat.strong_induction_on generalizing s with
  | _ n ih =>
    subst h
    exact turn s fun t again => ih _ (l.falls again) t rfl

/-- As many turns as the measure says are enough. -/
theorem ends (enough : l.measure s < n) : (turns l.body n s).isSome := by
  induction n generalizing s with
  | zero => exact absurd enough (Nat.not_lt_zero _)
  | succ n ih =>
    cases turn : l.body s with
    | again t =>
      rw [turns_of_again turn]
      exact ih (lt_of_lt_of_le (l.falls turn) (Nat.lt_succ_iff.mp enough))
    | leave r =>
      rw [turns_of_leave turn]
      rfl

/-- What the loop leaves with. -/
def run (s : σ) : ρ := (turns l.body (l.measure s + 1) s).get (l.ends (Nat.lt_succ_self _))

variable {l}

/-- More turns than needed change nothing. -/
theorem turns_eq_run (enough : l.measure s < n) : turns l.body n s = some (l.run s) := by
  have mono : ∀ (n m : Nat) (s : σ) (r : ρ), n ≤ m → turns l.body n s = some r →
      turns l.body m s = some r := by
    intro n
    induction n with
    | zero =>
      intro m s r _ h
      cases h
    | succ n ih =>
      intro m s r le h
      obtain ⟨m, rfl⟩ := Nat.exists_eq_add_of_le' (Nat.lt_of_lt_of_le (Nat.succ_pos n) le)
      cases turn : l.body s with
      | again t =>
        rw [turns_of_again turn] at h ⊢
        exact ih m t r (Nat.le_of_succ_le_succ le) h
      | leave r =>
        rw [turns_of_leave turn] at h ⊢
        exact h
  exact mono _ _ _ _ enough (Option.some_get _).symm

theorem run_again (h : l.body s = .again t) : l.run s = l.run t := by
  have one : turns l.body (l.measure s + 1) s = some (l.run s) := turns_eq_run (Nat.lt_succ_self _)
  rw [turns_of_again h, turns_eq_run (l.falls h)] at one
  exact (Option.some.inj one).symm

theorem run_leave (h : l.body s = .leave r) : l.run s = r := by
  have one : turns l.body (l.measure s + 1) s = some (l.run s) := turns_eq_run (Nat.lt_succ_self _)
  rw [turns_of_leave h] at one
  exact (Option.some.inj one).symm

/-- **The invariant rule.** -/
theorem run_of_invariant {I : σ → Prop} {Q : ρ → Prop}
    (keeps : ∀ s t, I s → l.body s = .again t → I t)
    (leaves : ∀ s r, I s → l.body s = .leave r → Q r) : ∀ s, I s → Q (l.run s) := by
  intro s
  induction s using l.induct with
  | turn s ih =>
    intro now
    cases turn : l.body s with
    | again t =>
      rw [run_again turn]
      exact ih t turn (keeps s t now turn)
    | leave r =>
      rw [run_leave turn]
      exact leaves s r now turn

end Loop

end LibOsdp.Base
