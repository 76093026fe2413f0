import LibOsdp.Base.Lts
import Mathlib.Data.List.Perm.Basic

/-!
# A cell whose content is taken out while it is used

The content may be replaced at any time, also while it is in use, and goes back into the cell
after its use unless the cell was filled meanwhile; then it is released. So nothing is released
in use, and whatever is in the cell or in use is what was installed last.
-/

set_option autoImplicit false

namespace LibOsdp.Base

/-- A cell, and what was taken out of it to be used. -/
structure Loan (T : Type) where
  slot : Option T := none
  inUse : Option T := none

namespace Loan

variable {T : Type}

inductive Move (T : Type) where
  | install (x : T)
  | take
  | giveBack
  | stay

/-- What the move installs. -/
def Move.installed : Move T → Option T
  | install x => some x
  | _ => none

def step (l : Loan T) : Move T → Option (Loan T)
  | .install x => some { l with slot := some x }
  | .take =>
    match l.slot, l.inUse with
    | some x, none => some ⟨none, some x⟩
    | _, _ => none
  | .giveBack => l.inUse.map fun x => ⟨l.slot.or (some x), none⟩
  | .stay => some l

/-- What the cell holds, or held before it was taken out. -/
def current (l : Loan T) : Option T := l.slot.or l.inUse

def owned (l : Loan T) : List T := l.slot.toList ++ l.inUse.toList

/-- What the move releases. -/
def released (l : Loan T) : Move T → Option T
  | .install _ => l.slot
  | .giveBack => if l.slot.isSome then l.inUse else none
  | _ => none

variable {l l' : Loan T} {m : Move T} {hops : List (Hop (Loan T) (Move T))}

theorem step_take (h : l.step .take = some l') :
    ∃ x, l = ⟨some x, none⟩ ∧ l' = ⟨none, some x⟩ := by
  obtain ⟨slot, inUse⟩ := l
  cases slot with
  | none => cases h
  | some x =>
    cases inUse with
    | none =>
      obtain rfl := Option.some.inj h
      exact ⟨x, rfl, rfl⟩
    | some y => cases h

theorem current_step (h : l.step m = some l') : l'.current = m.installed.or l.current := by
  cases m with
  | install x =>
    obtain rfl := Option.some.inj h
    rfl
  | take =>
    obtain ⟨x, rfl, rfl⟩ := step_take h
    rfl
  | giveBack =>
    obtain ⟨x, inUse, rfl⟩ := Option.map_eq_some_iff.mp h
    simp [current, inUse, Move.installed]
  | stay =>
    obtain rfl := Option.some.inj h
    rfl

/-- Whatever is in the cell or in use is what was installed last. -/
theorem current_run (run : Run step l hops l') :
    l'.current = (hops.filterMap fun h => h.act.installed).getLast?.or l.current := by
  induction run with
  | nil => rfl
  | @snoc hops t u m run h ih =>
    rw [current_step h, ih, List.filterMap_append]
    cases m <;> simp [Move.installed]

theorem owned_step (h : l.step m = some l') :
    (l.owned ++ m.installed.toList).Perm ((l.released m).toList ++ l'.owned) := by
  cases m with
  | install x =>
    obtain rfl := Option.some.inj h
    simp only [owned, released, Move.installed, Option.toList_some, List.append_assoc]
    exact List.perm_append_comm.append_left _
  | take =>
    obtain ⟨x, rfl, rfl⟩ := step_take h
    exact List.Perm.refl _
  | giveBack =>
    obtain ⟨x, inUse, rfl⟩ := Option.map_eq_some_iff.mp h
    cases slot : l.slot with
    | none => simp [owned, released, Move.installed, slot, inUse]
    | some y =>
      simp only [owned, released, Move.installed, slot, inUse]
      exact List.Perm.swap _ _ _
  | stay =>
    obtain rfl := Option.some.inj h
    simp [released, Move.installed]

/-- **Ownership**: everything installed is released, in the cell, or in use, and that once. -/
theorem owned_run (run : Run step l hops l') :
    (l.owned ++ hops.filterMap fun h => h.act.installed).Perm
      ((hops.filterMap fun h => h.src.released h.act) ++ l'.owned) := by
  induction run with
  | nil => simp
  | @snoc hops t u m run h ih =>
    have one := owned_step h
    rw [List.filterMap_append, List.filterMap_append, ← List.append_assoc, List.append_assoc]
    have installed : ([⟨t, m, u⟩] : List (Hop (Loan T) (Move T))).filterMap
        (fun h => h.act.installed) = m.installed.toList := by
      cases m <;> rfl
    have released : ([⟨t, m, u⟩] : List (Hop (Loan T) (Move T))).filterMap
        (fun h => h.src.released h.act) = (t.released m).toList := by
      simp only [List.filterMap_cons, List.filterMap_nil]
      cases t.released m <;> rfl
    rw [installed, released]
    have first := ih.append_right m.installed.toList
    rw [List.append_assoc, List.append_assoc] at first
    rw [List.append_assoc]
    exact first.trans (one.append_left _)

/-- Where nothing is installed twice, what was installed has been released exactly when it is
    neither in the cell nor in use. -/
theorem released_iff (run : Run step {} hops l)
    (once : (hops.filterMap fun h => h.act.installed).Nodup) {x : T}
    (installed : x ∈ hops.filterMap fun h => h.act.installed) :
    x ∈ (hops.filterMap fun h => h.src.released h.act) ↔ l.slot ≠ some x ∧ l.inUse ≠ some x := by
  have perm := owned_run run
  have somewhere := perm.mem_iff.mp installed
  have apart := (List.nodup_append.mp (perm.nodup_iff.mp once)).2.2
  have owned : x ∈ l.owned ↔ l.slot = some x ∨ l.inUse = some x := by
    simp [Loan.owned]
  rw [← not_or, ← owned]
  constructor
  · intro released mine
    exact apart x released x mine rfl
  · intro other
    exact (List.mem_append.mp somewhere).resolve_right other

end Loan

end LibOsdp.Base
