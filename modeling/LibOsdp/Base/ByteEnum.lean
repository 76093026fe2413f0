/-!
# Enumerations of a byte, named in part

Such a type has a value for each byte someone named and a catch-all that carries any byte. The
catch-all can therefore hold a byte that has a name; reading that byte back gives the name.
-/

set_option autoImplicit false

namespace LibOsdp.Base

/-- An enumeration of a byte: its named values, the byte of each value, and the catch-all. -/
structure ByteEnum (α : Type) where
  named : List α
  code : α → UInt8
  other : UInt8 → α

/-- The value of a byte: the one named after it, and the catch-all when there is none. -/
def ByteEnum.value {α : Type} (e : ByteEnum α) (b : UInt8) : α :=
  (e.named.find? fun a => e.code a == b).getD (e.other b)

theorem ByteEnum.value_of_unnamed {α : Type} {e : ByteEnum α} {b : UInt8}
    (h : ∀ a ∈ e.named, e.code a ≠ b) : e.value b = e.other b := by
  have hnone : (e.named.find? fun a => e.code a == b) = none := by
    rw [List.find?_eq_none]
    intro a ha
    simpa using h a ha
  rw [value, hnone, Option.getD_none]

/-- A decoder that knows every name, and hands any other byte to the catch-all, reads values. -/
theorem ByteEnum.eq_value {α : Type} {e : ByteEnum α} {f : UInt8 → α}
    (hnamed : ∀ a ∈ e.named, f (e.code a) = e.value (e.code a))
    (hother : ∀ b, (∀ a ∈ e.named, e.code a ≠ b) → f b = e.other b) (b : UInt8) :
    f b = e.value b := by
  by_cases h : ∃ a ∈ e.named, e.code a = b
  · obtain ⟨a, ha, rfl⟩ := h
    exact hnamed a ha
  · have hb : ∀ a ∈ e.named, e.code a ≠ b := fun a ha hab => h ⟨a, ha, hab⟩
    rw [hother b hb, value_of_unnamed hb]

/-- The value of a byte has that byte, named or not. -/
theorem ByteEnum.code_value {α : Type} {e : ByteEnum α} (hother : ∀ b, e.code (e.other b) = b)
    (b : UInt8) : e.code (e.value b) = b := by
  unfold value
  cases hfind : e.named.find? fun a => e.code a == b with
  | none => exact hother b
  | some a =>
    have hcode := List.find?_some hfind
    exact eq_of_beq hcode

end LibOsdp.Base
