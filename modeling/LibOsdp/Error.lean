import LibOsdp.Base.Result

/-!
# Errors

The error values of the crate, and the outcome of running a piece of it: a value, an error
it returns, or a panic. A panic inside a C callback aborts the process, so the two kinds of
failure are kept apart.
-/

set_option autoImplicit false

namespace LibOsdp

/-- `error.rs`: errors returned by this crate. -/
inductive Error where
  | setup
  | invalidArgument (what : String)
  | rejected
  | notInProgress
  | tooLong (max : Nat)
  | malformed (what : String)
deriving DecidableEq, Repr

/-- `error.rs`: how a submitted command or event ended, when it did not succeed. -/
inductive CompletionError where
  | failed
  | flushed
  | aborted
deriving DecidableEq, Repr

/-- How a call can fail to give a value. -/
inductive Fault where
  /-- It returned `Err(e)`. -/
  | err (e : Error)
  /-- It panicked. -/
  | panic
deriving DecidableEq, Repr

/-- What running a piece of the crate gives. -/
abbrev Res := Except Fault

/-- The faults an encoder is allowed: `Error::TooLong` and `Error::InvalidArgument`, and no
    panic. -/
def Fault.Refused : Fault → Prop
  | .err (.tooLong _) => True
  | .err (.invalidArgument _) => True
  | _ => False

theorem Fault.refused_iff {f : Fault} :
    f.Refused ↔ (∃ max, f = .err (.tooLong max)) ∨ ∃ what, f = .err (.invalidArgument what) := by
  constructor
  · intro h
    match f, h with
    | .err (.tooLong max), _ => exact .inl ⟨max, rfl⟩
    | .err (.invalidArgument what), _ => exact .inr ⟨what, rfl⟩
  · rintro (⟨max, rfl⟩ | ⟨what, rfl⟩) <;> trivial

/-- The faults a decoder is allowed: `Error::Malformed`, and no panic. -/
def Fault.Malformed : Fault → Prop
  | .err (.malformed _) => True
  | _ => False

@[simp] theorem Fault.malformed_malformed (what : String) : (Fault.err (.malformed what)).Malformed :=
  trivial

theorem Fault.malformed_iff {f : Fault} : f.Malformed ↔ ∃ what, f = .err (.malformed what) := by
  constructor
  · intro h
    match f, h with
    | .err (.malformed what), _ => exact ⟨what, rfl⟩
  · rintro ⟨what, rfl⟩
    trivial

end LibOsdp
