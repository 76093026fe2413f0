import LibOsdp.Base.Script
import Mathlib.Data.Finset.Basic
import Mathlib.Data.Finset.Lattice.Lemmas
import Mathlib.Data.Finset.Dedup

/-!
# Allocations lent to a foreign context

Which allocations there are, and which of them a foreign context holds pointers to. The context
may touch all that it holds whenever it runs. An allocation that is freed twice, freed while it is
held, or touched when it is gone is a misuse, where a script stops: a script that returns has made
none, and what it leaves allocated is what it leaks.
-/

set_option autoImplicit false

namespace LibOsdp.Base

/-- The allocations, those that the context holds, and whether there is a context. -/
structure Arena (β : Type) where
  live : Finset β
  held : Finset β
  opened : Bool

/-- What must not happen to an allocation. -/
inductive Misuse (β : Type) where
  | allocatedTwice (b : β)
  | gone (b : β)
  | freedHeld (b : β)
  | dangling
  | noContext

abbrev Owns (β : Type) := EStateM (Misuse β) (Arena β)

namespace Arena

variable {β : Type} [DecidableEq β] {a : Arena β} {b : β} {bs : List β}

def own (b : β) : Owns β Unit := do
  let a ← get
  if b ∈ a.live then throw (.allocatedTwice b)
  else set { a with live := insert b a.live }

def free (b : β) : Owns β Unit := do
  let a ← get
  if b ∉ a.live then throw (.gone b)
  else if b ∈ a.held then throw (.freedHeld b)
  else set { a with live := a.live.erase b }

/-- A foreign call reads `b`, and forgets it when it returns. -/
def touch (b : β) : Owns β Unit := do
  let a ← get
  if b ∉ a.live then throw (.gone b)

def openContext : Owns β Unit := modify fun a => { a with opened := true }

/-- A call into the context, which may touch all that it holds. -/
def call : Owns β Unit := do
  let a ← get
  if !a.opened then throw .noContext
  else if ¬ a.held ⊆ a.live then throw .dangling

/-- A call after which the context holds `b` as well. -/
def hold (b : β) : Owns β Unit := do
  call
  touch b
  modify fun a => { a with held := insert b a.held }

/-- A call that the context may refuse: what it refuses, it does not hold. -/
def offer (taken : Bool) (b : β) : Owns β Unit := if taken then hold b else call

/-- The call that ends the context. -/
def close : Owns β Unit := do
  call
  modify fun a => { a with held := ∅, opened := false }

/-- All that the context holds is allocated. -/
structure Valid (a : Arena β) : Prop where
  opened : a.opened = true
  held : a.held ⊆ a.live

theorem own_eq (fresh : b ∉ a.live) : own b a = .ok () { a with live := insert b a.live } := by
  rw [own, get_bind, if_neg fresh]
  rfl

theorem free_eq (there : b ∈ a.live) (unheld : b ∉ a.held) :
    free b a = .ok () { a with live := a.live.erase b } := by
  rw [free, get_bind, if_neg (not_not.mpr there), if_neg unheld]
  rfl

theorem touch_eq (there : b ∈ a.live) : touch b a = .ok () a := by
  rw [touch, get_bind, if_neg (not_not.mpr there)]
  rfl

theorem call_eq (valid : a.Valid) : call a = .ok () a := by
  rw [call, get_bind, valid.opened, if_neg (by simp), if_neg (not_not.mpr valid.held)]
  rfl

theorem hold_eq (valid : a.Valid) (there : b ∈ a.live) :
    hold b a = .ok () { a with held := insert b a.held } := by
  rw [hold, bind_of_ok (call_eq valid), bind_of_ok (touch_eq there)]
  rfl

theorem offer_eq {taken : Bool} (valid : a.Valid) (there : taken = true → b ∈ a.live) :
    offer taken b a = .ok () { a with held := if taken then insert b a.held else a.held } := by
  cases taken
  · exact call_eq valid
  · exact hold_eq valid (there rfl)

theorem close_eq (valid : a.Valid) :
    close a = .ok () { a with held := ∅, opened := false } := by
  rw [close, bind_of_ok (call_eq valid)]
  rfl

theorem forM_call {n : Nat} (valid : a.Valid) :
    (forM (List.replicate n ()) fun _ => call : Owns β Unit) a = .ok () a := by
  induction n with
  | zero => rfl
  | succ n ih => rw [List.replicate_succ, List.forM_cons, bind_of_ok (call_eq valid), ih]

/-! ## Allocations listed -/

variable {before after : List β} {h : Finset β} {o : Bool}

theorem own_list (fresh : b ∉ bs) :
    own b ⟨bs.toFinset, h, o⟩ = .ok () ⟨(b :: bs).toFinset, h, o⟩ := by
  rw [own_eq (a := ⟨bs.toFinset, h, o⟩) (mt List.mem_toFinset.mp fresh), List.toFinset_cons]

theorem free_list (apart : (before ++ b :: after).Nodup) (unheld : b ∉ h) :
    free b ⟨(before ++ b :: after).toFinset, h, o⟩ = .ok () ⟨(before ++ after).toFinset, h, o⟩ := by
  have there : b ∈ (before ++ b :: after).toFinset := by simp
  have rest : (before ++ b :: after).toFinset.erase b = (before ++ after).toFinset := by
    have fresh := (List.nodup_cons.mp (List.nodup_middle.mp apart)).1
    rw [List.toFinset_eq_of_perm _ _ List.perm_middle, List.toFinset_cons,
      Finset.erase_insert (mt List.mem_toFinset.mp fresh)]
  rw [free_eq there unheld, rest]

theorem free_head (apart : (b :: after).Nodup) (unheld : b ∉ h) :
    free b ⟨(b :: after).toFinset, h, o⟩ = .ok () ⟨after.toFinset, h, o⟩ := by
  rw [← List.nil_append (b :: after)] at apart ⊢
  exact free_list apart unheld

theorem forM_own (apart : (bs ++ after).Nodup) :
    (forM bs own : Owns β Unit) ⟨after.toFinset, h, o⟩ = .ok () ⟨(bs ++ after).toFinset, h, o⟩ := by
  induction bs generalizing after with
  | nil => rfl
  | cons b bs ih =>
    have moved := List.nodup_middle.mpr apart
    have fresh : b ∉ after := (List.nodup_cons.mp (List.nodup_append.mp moved).2.1).1
    rw [List.forM_cons, bind_of_ok (own_list fresh), ih moved,
      List.toFinset_eq_of_perm _ _ List.perm_middle]
    rfl

theorem forM_free (apart : (before ++ (bs ++ after)).Nodup) (unheld : ∀ b ∈ bs, b ∉ h) :
    (forM bs free : Owns β Unit) ⟨(before ++ (bs ++ after)).toFinset, h, o⟩ =
      .ok () ⟨(before ++ after).toFinset, h, o⟩ := by
  induction bs with
  | nil => rfl
  | cons b bs ih =>
    rw [List.cons_append] at apart ⊢
    have left := (List.nodup_cons.mp (List.nodup_middle.mp apart)).2
    rw [List.forM_cons, bind_of_ok (free_list apart (unheld b List.mem_cons_self))]
    exact ih left fun c mem => unheld c (List.mem_cons_of_mem _ mem)

theorem forM_free_last (apart : (before ++ bs).Nodup) (unheld : ∀ b ∈ bs, b ∉ h) :
    (forM bs free : Owns β Unit) ⟨(before ++ bs).toFinset, h, o⟩ = .ok () ⟨before.toFinset, h, o⟩ := by
  have freed : (forM bs free : Owns β Unit) ⟨(before ++ (bs ++ [])).toFinset, h, o⟩ =
      .ok () ⟨(before ++ []).toFinset, h, o⟩ := forM_free (by rwa [List.append_nil]) unheld
  rwa [List.append_nil, List.append_nil] at freed

theorem forM_free_first (apart : (bs ++ after).Nodup) (unheld : ∀ b ∈ bs, b ∉ h) :
    (forM bs free : Owns β Unit) ⟨(bs ++ after).toFinset, h, o⟩ = .ok () ⟨after.toFinset, h, o⟩ := by
  rw [← List.nil_append (bs ++ after)] at apart ⊢
  exact forM_free apart unheld

theorem forM_free_all (apart : bs.Nodup) (unheld : ∀ b ∈ bs, b ∉ h) :
    (forM bs free : Owns β Unit) ⟨bs.toFinset, h, o⟩ = .ok () ⟨∅, h, o⟩ := by
  rw [← List.append_nil bs] at apart
  have freed := @forM_free_first β _ bs [] h o apart unheld
  rwa [List.append_nil] at freed

theorem forM_touch (there : ∀ b ∈ bs, b ∈ a.live) : (forM bs touch : Owns β Unit) a = .ok () a := by
  induction bs with
  | nil => rfl
  | cons b bs ih =>
    rw [List.forM_cons, bind_of_ok (touch_eq (there b List.mem_cons_self))]
    exact ih fun c mem => there c (List.mem_cons_of_mem _ mem)

end Arena

end LibOsdp.Base
