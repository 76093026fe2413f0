import Mathlib.Data.List.Infix
import Mathlib.Logic.Function.Basic
import Mathlib.Logic.Relation
import Mathlib.Order.Basic

/-!
# Journals of values that only grow

For each key a current value, which is only ever raised, and a journal of the values that were
recorded, newest first. A value is recorded while it is current, and once. So the journal of a key
rises, however the steps for the keys are interleaved, and what is in it stays.
-/

set_option autoImplicit false

namespace LibOsdp.Base

/-- The current values, and the recorded ones. -/
structure Journal (κ ω : Type) where
  now : κ → ω
  log : List (κ × ω)

namespace Journal

variable {κ ω : Type} [DecidableEq κ] {j j' : Journal κ ω} {k : κ} {v : ω}

def raised (j : Journal κ ω) (k : κ) (v : ω) : Journal κ ω :=
  { j with now := Function.update j.now k v }

def recorded (j : Journal κ ω) (k : κ) : Journal κ ω := { j with log := (k, j.now k) :: j.log }

@[simp] theorem now_raised : (j.raised k v).now k = v := Function.update_self ..

theorem now_raised_of_ne {other : κ} (differs : other ≠ k) :
    (j.raised k v).now other = j.now other := Function.update_of_ne differs ..

variable [PartialOrder ω]

/-- What can happen to a journal. -/
inductive Step (j : Journal κ ω) : Journal κ ω → Prop where
  | raise (k : κ) (v : ω) (up : j.now k < v) : Step j (j.raised k v)
  | record (k : κ) (new : (k, j.now k) ∉ j.log) : Step j (j.recorded k)

abbrev Steps : Journal κ ω → Journal κ ω → Prop := Relation.ReflTransGen Step

/-- The recorded values of a key rise up to the current one. -/
structure Rising (j : Journal κ ω) : Prop where
  behind : ∀ e ∈ j.log, e.2 ≤ j.now e.1
  rising : j.log.Pairwise fun newer older => newer.1 = older.1 → older.2 < newer.2

theorem Step.le_now (step : Step j j') (k : κ) : j.now k ≤ j'.now k := by
  cases step with
  | raise other v up =>
    by_cases same : k = other
    · subst same
      rw [now_raised]
      exact up.le
    · rw [now_raised_of_ne same]
  | record => exact le_rfl

theorem Step.log_suffix (step : Step j j') : j.log <:+ j'.log := by
  cases step with
  | raise => exact List.suffix_refl _
  | record => exact List.suffix_cons _ _

theorem Rising.step (rising : Rising j) (step : Step j j') : Rising j' := by
  cases step with
  | raise k v up =>
    refine ⟨fun e mem => ?_, rising.rising⟩
    exact (rising.behind e mem).trans ((Step.raise k v up).le_now e.1)
  | record k new =>
    refine ⟨?_, List.pairwise_cons.mpr ⟨?_, rising.rising⟩⟩
    · intro e mem
      rcases List.mem_cons.mp mem with rfl | mem
      · exact le_rfl
      · exact rising.behind e mem
    · rintro ⟨_, older⟩ mem rfl
      refine lt_of_le_of_ne (rising.behind _ mem) ?_
      rintro rfl
      exact new mem

/-- **A journal rises over any number of steps**, and forgets nothing. -/
theorem Steps.rising (steps : Steps j j') (rising : Rising j) : Rising j' := by
  induction steps with
  | refl => exact rising
  | tail _ step ih => exact ih.step step

theorem Steps.le_now (steps : Steps j j') (k : κ) : j.now k ≤ j'.now k := by
  induction steps with
  | refl => exact le_rfl
  | tail _ step ih => exact ih.trans (step.le_now k)

theorem Steps.log_suffix (steps : Steps j j') : j.log <:+ j'.log := by
  induction steps with
  | refl => exact List.suffix_refl _
  | tail _ step ih => exact ih.trans step.log_suffix

end Journal

end LibOsdp.Base
