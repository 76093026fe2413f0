import LibOsdp.Base.Lts
import Mathlib.Data.List.Count

/-!
# Steps that are paid for

Some steps of a system work off a potential, and the others add to it, each so much at most. Then
a run takes only so many of the first kind for each of the second; and where a state that is not
at rest can always take one of the first kind, it comes to rest by such steps alone.
-/

set_option autoImplicit false

namespace LibOsdp.Base

variable {S A : Type} {step : S → A → Option S} {pays : A → Bool} {φ : S → Nat} {gain : Nat}
  {s t : S} {hops : List (Hop S A)}

/-- `φ` goes down with each step that `pays`, and up by at most `gain` with any other. -/
structure Potential (step : S → A → Option S) (pays : A → Bool) (φ : S → Nat) (gain : Nat) :
    Prop where
  pay : ∀ {s a t}, step s a = some t → pays a = true → φ t < φ s
  add : ∀ {s a t}, step s a = some t → φ t ≤ φ s + gain

namespace Potential

/-- **The amortized bound**: what the steps that pay take, the others have put there. -/
theorem amortized (potential : Potential step pays φ gain) (run : Run step s hops t) :
    hops.countP (fun h => pays h.act) + φ t ≤
      φ s + gain * hops.countP (fun h => !pays h.act) := by
  induction run with
  | nil => simp
  | @snoc hops x y a _ hstep ih =>
    rw [List.countP_append, List.countP_append, List.countP_singleton, List.countP_singleton]
    cases kind : pays a with
    | true =>
      have paid := potential.pay hstep kind
      simp only [Bool.not_true, if_true, Bool.false_eq_true, if_false, Nat.add_zero]
      omega
    | false =>
      have added := potential.add hstep
      simp only [Bool.not_false, if_true, Bool.false_eq_true, if_false, Nat.mul_add]
      omega

/-- A run of steps that all pay is no longer than what there is to pay with. -/
theorem length_le (potential : Potential step pays φ gain) (run : Run step s hops t)
    (all : ∀ h ∈ hops, pays h.act = true) : hops.length + φ t ≤ φ s := by
  have bound := potential.amortized run
  have paying : hops.countP (fun h => pays h.act) = hops.length := List.countP_eq_length.mpr all
  have others : hops.countP (fun h => !pays h.act) = 0 :=
    List.countP_eq_zero.mpr fun h mem => by simp [all h mem]
  rw [paying, others] at bound
  exact bound

/-- **The rule of rest**: a state comes to rest by steps that pay, where every state with the
    invariant `I` that is not at rest can take one. -/
theorem settles (potential : Potential step pays φ gain) {I rest : S → Prop}
    (keep : ∀ {x a y}, I x → step x a = some y → I y)
    (progress : ∀ {x}, I x → rest x ∨ ∃ a y, pays a = true ∧ step x a = some y) (first : I s) :
    ∃ hops t, Run step s hops t ∧ (∀ h ∈ hops, pays h.act = true) ∧ rest t := by
  induction bound : φ s using Nat.strongRecOn generalizing s with
  | ind k ih =>
    rcases progress first with resting | ⟨a, x, paying, hstep⟩
    · exact ⟨[], s, .nil, nofun, resting⟩
    · obtain ⟨hops, t, run, all, resting⟩ :=
        ih (φ x) (bound ▸ potential.pay hstep paying) (keep first hstep) rfl
      refine ⟨_, t, (Run.single hstep).trans run, fun h mem => ?_, resting⟩
      rcases List.mem_append.mp mem with mem | mem
      · obtain rfl := List.mem_singleton.mp mem
        exact paying
      · exact all h mem

end Potential

end LibOsdp.Base
