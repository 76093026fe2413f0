import Mathlib.Data.List.Basic

/-!
# Allocations and walks to a sentinel

Memory as an allocator keeps it: what was handed out under which base address, until it is
given back. A block is given back with a size, which is to be the one it was allocated with.

An array may be handed over without its length, closed by a sentinel. Whoever takes it walks
from its first entry to the sentinel; a walk that leaves the block has no outcome.
-/

set_option autoImplicit false

namespace LibOsdp.Base

/-- The blocks in use, by base address. Addresses are not used again. -/
structure Heap (β : Type) where
  next : Nat := 0
  live : List (Nat × β) := []
deriving DecidableEq, Repr

namespace Heap

variable {β : Type}

def alloc (heap : Heap β) (block : β) : Nat × Heap β :=
  (heap.next, { next := heap.next + 1, live := (heap.next, block) :: heap.live })

/-- An allocation that may not be needed: null when it is not. -/
def allocSome (heap : Heap β) : Option β → Option Nat × Heap β
  | some block => (some (heap.alloc block).1, (heap.alloc block).2)
  | none => (none, heap)

/-- The block at an address. -/
def read? (heap : Heap β) (base : Nat) : Option β := heap.live.lookup base

/-- `dealloc` with the size `n`, where `size` is the size a block was allocated with. -/
def free (size : β → Nat) (heap : Heap β) (base n : Nat) : Option (Heap β) :=
  (heap.read? base).bind fun block =>
    if size block = n then some { heap with live := heap.live.eraseP (·.1 == base) } else none

variable {size : β → Nat} {base n : Nat} {block : β}

@[simp] theorem read?_cons {live : List (Nat × β)} {next : Nat} :
    read? ⟨next, (base, block) :: live⟩ base = some block := by
  simp [read?]

/-- A later allocation leaves an earlier block where it is. -/
theorem read?_alloc_of_ne {heap : Heap β} (hne : base ≠ heap.next) :
    (heap.alloc block).2.read? base = heap.read? base := by
  have hbeq : (base == heap.next) = false := beq_false_of_ne hne
  simp only [read?, alloc, List.lookup_cons, hbeq]

/-- A block given back with its own size leaves the others in use. -/
theorem free_cons {live : List (Nat × β)} {next : Nat} (hsize : size block = n) :
    free size ⟨next, (base, block) :: live⟩ base n = some ⟨next, live⟩ := by
  simp [free, hsize]

end Heap

section Walk

variable {α : Type} (stop : α → Bool)

/-- The walk of a pointer along a block, from `cursor` on: where it stops. The list is what the
    block holds from the cursor on. -/
def walkTo : List α → Nat → Option Nat
  | [], _ => none
  | a :: rest, cursor => if stop a then some cursor else walkTo rest (cursor + 1)

/-- The first sentinel of the block is its entry `n`. -/
structure StopsAt (block : List α) (n : Nat) : Prop where
  before : ∀ i < n, ∃ a, block[i]? = some a ∧ stop a = false
  sentinel : ∃ a, block[n]? = some a ∧ stop a = true

variable {stop}

/-- Two walks that both stop at the first sentinel stop at one entry. -/
theorem StopsAt.unique {block : List α} {m n : Nat} (hm : StopsAt stop block m)
    (hn : StopsAt stop block n) : m = n := by
  have key : ∀ {m n : Nat}, StopsAt stop block m → StopsAt stop block n → ¬ m < n := by
    intro m n hm hn hlt
    obtain ⟨a, ha, hstop⟩ := hm.sentinel
    obtain ⟨b, hb, hgo⟩ := hn.before m hlt
    rw [ha, Option.some.injEq] at hb
    rw [← hb, hstop] at hgo
    cases hgo
  have h1 := key hm hn
  have h2 := key hn hm
  omega

/-- **The walk stops at the first sentinel**, and has an outcome only where there is one. -/
theorem walkTo_eq_some {block : List α} {cursor n : Nat} :
    walkTo stop block cursor = some n ↔ cursor ≤ n ∧ StopsAt stop block (n - cursor) := by
  induction block generalizing cursor with
  | nil =>
    constructor
    · rintro ⟨⟩
    · rintro ⟨-, hstops⟩
      obtain ⟨a, ha, -⟩ := hstops.sentinel
      cases ha
  | cons a rest ih =>
    rw [walkTo]
    cases hstop : stop a with
    | true =>
      rw [if_pos rfl, Option.some.injEq]
      have h0 : StopsAt stop (a :: rest) 0 :=
        ⟨fun i hi => absurd hi (Nat.not_lt_zero i), a, rfl, hstop⟩
      constructor
      · rintro rfl
        rw [Nat.sub_self]
        exact ⟨Nat.le_refl _, h0⟩
      · rintro ⟨hle, hstops⟩
        have := h0.unique hstops
        omega
    | false =>
      rw [if_neg Bool.false_ne_true, ih]
      constructor
      · rintro ⟨hle, hstops⟩
        obtain ⟨k, rfl⟩ : ∃ k, n = cursor + 1 + k := ⟨n - (cursor + 1), by omega⟩
        have hk : cursor + 1 + k - cursor = k + 1 := by omega
        rw [Nat.add_sub_cancel_left] at hstops
        rw [hk]
        refine ⟨by omega, fun i hi => ?_, hstops.sentinel⟩
        cases i with
        | zero => exact ⟨a, rfl, hstop⟩
        | succ i => exact hstops.before i (by omega)
      · rintro ⟨hle, hstops⟩
        obtain ⟨k, hk⟩ : ∃ k, n - cursor = k := ⟨_, rfl⟩
        rw [hk] at hstops
        cases k with
        | zero =>
          obtain ⟨b, hb, hb'⟩ := hstops.sentinel
          cases hb
          rw [hstop] at hb'
          cases hb'
        | succ k =>
          have hk' : n - (cursor + 1) = k := by omega
          rw [hk']
          exact ⟨by omega, fun i hi => hstops.before (i + 1) (by omega), hstops.sentinel⟩

/-- An array closed by a sentinel, none of whose entries is one, is walked to that sentinel. -/
theorem stopsAt_append {entries : List α} {sentinel : α} (hentries : ∀ a ∈ entries, stop a = false)
    (hsentinel : stop sentinel = true) : StopsAt stop (entries ++ [sentinel]) entries.length where
  before i hi := by
    refine ⟨entries[i], ?_, hentries _ (List.getElem_mem hi)⟩
    rw [List.getElem?_append_left hi, List.getElem?_eq_getElem hi]
  sentinel := by
    refine ⟨sentinel, ?_, hsentinel⟩
    rw [List.getElem?_append_right (Nat.le_refl _), Nat.sub_self]
    rfl

theorem StopsAt.walkTo {block : List α} {n : Nat} (h : StopsAt stop block n) :
    walkTo stop block 0 = some n :=
  walkTo_eq_some.2 ⟨Nat.zero_le n, h⟩

end Walk

end LibOsdp.Base
