import Mathlib.Data.List.Basic

/-!
# Objects behind an interface

An object answers calls and changes by them, as it likes. An interface makes of each foreign call
one of the object's, or refuses it without asking the object, and makes of the object's answer one
to the foreign call. Whatever the object does, it goes through the calls that were asked of it and
through nothing else; and where each answer it may give becomes one that a contract allows, every
answer of every run is allowed.
-/

set_option autoImplicit false

namespace LibOsdp.Base

variable {σ C D : Type} {R : C → Type} {Q : D → Type}

/-- What a call on a state answers, and the state after it. -/
abbrev Object (σ C : Type) (R : C → Type) := σ → (c : C) → R c × σ

/-- A call with its answer. -/
structure Served (C : Type) (R : C → Type) where
  call : C
  answer : R call

namespace Object

def run (o : Object σ C R) : σ → List C → List (Served C R) × σ
  | s, [] => ([], s)
  | s, c :: cs =>
    let rest := run o (o s c).2 cs
    (⟨c, (o s c).1⟩ :: rest.1, rest.2)

/-- What holds of the answer to any call on any state holds of the answers of a run. -/
theorem forall_run {o : Object σ C R} {P : (c : C) → R c → Prop} (each : ∀ s c, P c (o s c).1)
    (s : σ) (cs : List C) : ∀ served ∈ (o.run s cs).1, P served.call served.answer := by
  induction cs generalizing s with
  | nil => exact fun _ mem => absurd mem List.not_mem_nil
  | cons c cs ih =>
    intro served mem
    rcases List.mem_cons.mp mem with rfl | mem
    · exact each s c
    · exact ih (o s c).2 served mem

end Object

/-- Each foreign call is answered without the object, or it asks a call of the object, whose answer
    becomes one to the foreign call. -/
abbrev Interface (C : Type) (R : C → Type) (D : Type) (Q : D → Type) :=
  (c : C) → R c ⊕ (d : D) × (Q d → R c)

namespace Interface

variable (i : Interface C R D Q) (o : Object σ D Q)

def asks (c : C) : Option D :=
  match i c with
  | .inl _ => none
  | .inr ⟨d, _⟩ => some d

def behind : Object σ C R := fun s c =>
  match i c with
  | .inl r => (r, s)
  | .inr ⟨d, back⟩ => (back (o s d).1, (o s d).2)

/-- All that can be answered is allowed, whatever the object answers. -/
def Keeps (Allowed : (c : C) → R c → Prop) : Prop :=
  ∀ c, match i c with
    | .inl r => Allowed c r
    | .inr ⟨_, back⟩ => ∀ q, Allowed c (back q)

/-- Behind an interface, an object goes through the calls that are asked of it. -/
theorem state_run (s : σ) (cs : List C) :
    ((i.behind o).run s cs).2 = (o.run s (cs.filterMap i.asks)).2 := by
  induction cs generalizing s with
  | nil => rfl
  | cons c cs ih =>
    rw [Object.run]
    dsimp only
    rw [ih, behind]
    cases way : i c with
    | inl r =>
      have none : i.asks c = none := by rw [asks, way]
      rw [List.filterMap_cons_none none]
    | inr ask =>
      have some : i.asks c = some ask.1 := by rw [asks, way]
      rw [List.filterMap_cons_some some]
      rfl

/-- The contract rule. -/
theorem allowed_run {Allowed : (c : C) → R c → Prop} (keeps : i.Keeps Allowed) (s : σ)
    (cs : List C) : ∀ served ∈ ((i.behind o).run s cs).1, Allowed served.call served.answer := by
  refine Object.forall_run (fun s c => ?_) s cs
  have allowed := keeps c
  rw [behind]
  cases way : i c with
  | inl r =>
    rw [way] at allowed
    exact allowed
  | inr ask =>
    rw [way] at allowed
    exact allowed _

end Interface

end LibOsdp.Base
