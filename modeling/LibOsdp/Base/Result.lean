/-!
# Fallible computations

`Except ε` under Rust's words, and the one judgement its decoders are verified with:
`Decides bad p r` says that `r` succeeds exactly when `p` holds, and that a failure of `r`
is one of the errors `bad` allows. The rules below compose it along the binds of a decoder,
so that the accept set of a whole decoder is assembled from the accept sets of its parts.
-/

set_option autoImplicit false

namespace LibOsdp.Base

variable {ε α β : Type}

/-- `Option::ok_or`: the value, or `e` when there is none. -/
def okOr (o : Option α) (e : ε) : Except ε α :=
  match o with
  | some a => .ok a
  | none => .error e

theorem okOr_eq_ok {o : Option α} {e : ε} {a : α} : okOr o e = .ok a ↔ o = some a := by
  cases o <;> simp [okOr]

@[simp] theorem okOr_some {a : α} {e : ε} : okOr (some a) e = .ok a := rfl

@[simp] theorem okOr_none {e : ε} : okOr (none : Option α) e = .error e := rfl

/-- A bind that succeeds is two successes: the one way every `?` of a decoder is taken apart. -/
theorem bind_eq_ok {x : Except ε α} {f : α → Except ε β} {b : β} :
    (x >>= f) = .ok b ↔ ∃ a, x = .ok a ∧ f a = .ok b := by
  cases x <;> simp [bind, Except.bind]

/-- A computation whose last step cannot fail succeeds with that step's value. -/
theorem bind_pure_eq_ok {x : Except ε α} {f : α → β} {b : β} :
    (x >>= fun a => pure (f a)) = .ok b ↔ ∃ a, x = .ok a ∧ f a = b := by
  simp [bind_eq_ok, pure, Except.pure]

@[simp] theorem ok_bind {a : α} {f : α → Except ε β} : (Except.ok a >>= f) = f a := rfl

@[simp] theorem error_bind {e : ε} {f : α → Except ε β} :
    ((.error e : Except ε α) >>= f) = .error e := rfl

@[simp] theorem pure_eq_ok {a : α} : (pure a : Except ε α) = .ok a := rfl

@[simp] theorem throw_eq_error {e : ε} : (throw e : Except ε α) = .error e := rfl

theorem toOption_eq_some {x : Except ε α} {a : α} : x.toOption = some a ↔ x = .ok a := by
  cases x <;> simp [Except.toOption]

theorem mapError_eq_ok {ε' : Type} {x : Except ε α} {f : ε → ε'} {a : α} :
    x.mapError f = .ok a ↔ x = .ok a := by
  cases x with
  | ok b =>
    show (.ok b : Except ε' α) = .ok a ↔ _
    rw [Except.ok.injEq, Except.ok.injEq]
  | error e => exact iff_of_false (by intro h; cases h) (by intro h; cases h)

/-- A loop over a list succeeds if each of its rounds does. -/
theorem forM_eq_ok {f : α → Except ε Unit} {as : List α} {u : Unit} :
    as.forM f = .ok u ↔ ∀ a ∈ as, f a = .ok u := by
  induction as with
  | nil => exact iff_of_true rfl (by simp)
  | cons a as ih =>
    show (f a >>= fun _ => as.forM f) = _ ↔ _
    rw [bind_eq_ok, List.forall_mem_cons, ← ih]
    constructor
    · rintro ⟨_, first, rest⟩
      exact ⟨first, rest⟩
    · rintro ⟨first, rest⟩
      exact ⟨_, first, rest⟩

/-- A list is mapped if each of its elements is. -/
theorem mapM_eq_ok {f : α → Except ε β} {as : List α} :
    (∃ bs, as.mapM f = .ok bs) ↔ ∀ a ∈ as, ∃ b, f a = .ok b := by
  induction as with
  | nil => exact iff_of_true ⟨[], rfl⟩ (by simp)
  | cons a as ih =>
    rw [List.mapM_cons, List.forall_mem_cons, ← ih]
    simp only [bind_eq_ok, pure_eq_ok, Except.ok.injEq]
    constructor
    · rintro ⟨_, b, first, bs, rest, rfl⟩
      exact ⟨⟨b, first⟩, bs, rest⟩
    · rintro ⟨⟨b, first⟩, bs, rest⟩
      exact ⟨b :: bs, b, first, bs, rest, rfl⟩

theorem getElem?_of_mapM {f : α → Except ε β} {as : List α} {bs : List β} {a : α} {i : Nat}
    (h : as.mapM f = .ok bs) (found : as[i]? = some a) : ∃ b, f a = .ok b ∧ bs[i]? = some b := by
  induction as generalizing bs i with
  | nil => cases found
  | cons first rest ih =>
    rw [List.mapM_cons] at h
    simp only [bind_eq_ok, pure_eq_ok, Except.ok.injEq] at h
    obtain ⟨b, hb, bs, hbs, rfl⟩ := h
    cases i with
    | zero =>
      obtain rfl := Option.some.inj found
      exact ⟨b, hb, rfl⟩
    | succ i =>
      obtain ⟨c, made, at_i⟩ := ih hbs found
      exact ⟨c, made, at_i⟩

theorem length_of_mapM {f : α → Except ε β} {as : List α} {bs : List β} (h : as.mapM f = .ok bs) :
    bs.length = as.length := by
  induction as generalizing bs with
  | nil =>
    cases h
    rfl
  | cons first rest ih =>
    rw [List.mapM_cons] at h
    simp only [bind_eq_ok, pure_eq_ok, Except.ok.injEq] at h
    obtain ⟨_, -, bs, hbs, rfl⟩ := h
    rw [List.length_cons, List.length_cons, ih hbs]

/-- What is in a mapped list. -/
theorem mem_of_mapM {f : α → Except ε β} {as : List α} {bs : List β} {b : β}
    (h : as.mapM f = .ok bs) : b ∈ bs ↔ ∃ a ∈ as, f a = .ok b := by
  induction as generalizing bs with
  | nil =>
    cases h
    simp
  | cons a as ih =>
    rw [List.mapM_cons] at h
    simp only [bind_eq_ok, pure_eq_ok, Except.ok.injEq] at h
    obtain ⟨c, first, cs, rest, rfl⟩ := h
    simp only [List.mem_cons, ih rest, exists_eq_or_imp, first, Except.ok.injEq]
    rw [eq_comm]

/-- `r` succeeds exactly under `p`, and every failure of it satisfies `bad`. -/
def Decides (bad : ε → Prop) (p : Prop) : Except ε α → Prop
  | .ok _ => p
  | .error e => ¬ p ∧ bad e

namespace Decides

variable {bad : ε → Prop} {p q : Prop} {r : Except ε α} {f : α → Except ε β}

theorem ok (a : α) : Decides bad True (.ok a : Except ε α) := trivial

theorem error {e : ε} (h : bad e) : Decides bad False (.error e : Except ε α) := ⟨id, h⟩

theorem congr (h : Decides bad p r) (hpq : p ↔ q) : Decides bad q r := by
  cases r with
  | ok a => exact hpq.1 h
  | error e => exact ⟨fun hq => h.1 (hpq.2 hq), h.2⟩

theorem mono {bad' : ε → Prop} (h : Decides bad p r) (hbad : ∀ e, bad e → bad' e) :
    Decides bad' p r := by
  cases r with
  | ok a => exact h
  | error e => exact ⟨h.1, hbad e h.2⟩

/-- A failure may be described by what was not met. -/
theorem mono_of_not {bad' : ε → Prop} (h : Decides bad p r) (hbad : ∀ e, ¬ p → bad e → bad' e) :
    Decides bad' p r := by
  cases r with
  | ok a => exact h
  | error e => exact ⟨h.1, hbad e h.1 h.2⟩

/-- **The sequencing rule**: a `?` conjoins the accept sets, the second one read at the
    value the first computation delivers. -/
theorem bind (hr : Decides bad p r) (hf : ∀ a, r = .ok a → Decides bad q (f a)) :
    Decides bad (p ∧ q) (r >>= f) := by
  cases r with
  | ok a => exact (hf a rfl).congr ⟨fun hq => ⟨hr, hq⟩, And.right⟩
  | error e => exact ⟨fun hpq => hr.1 hpq.1, hr.2⟩

/-- What follows a computation without failing leaves its accept set alone. -/
theorem bind_ok {g : α → β} (hr : Decides bad p r) : Decides bad p (r >>= fun a => .ok (g a)) :=
  (hr.bind fun a _ => ok (g a)).congr (and_iff_left trivial)

/-- **The branching rule**, which a chain of tag tests is read through. -/
theorem ite {c : Prop} [Decidable c] {r' : Except ε α} (h : Decides bad p r)
    (h' : Decides bad q r') : Decides bad (c ∧ p ∨ ¬ c ∧ q) (if c then r else r') := by
  by_cases hc : c
  · rw [if_pos hc]
    exact h.congr (by simp [hc])
  · rw [if_neg hc]
    exact h'.congr (by simp [hc])

/-- The branching rule for a tag whose branch always succeeds: the tag joins the accept set. -/
theorem orElse {c : Prop} [Decidable c] {r' : Except ε α} (h : Decides bad True r)
    (h' : Decides bad q r') : Decides bad (c ∨ q) (if c then r else r') :=
  (h.ite h').congr (by by_cases hc : c <;> simp [hc])

theorem okOr {o : Option α} {e : ε} (h : bad e) : Decides bad (o.isSome = true) (okOr o e) := by
  cases o with
  | some a => rfl
  | none => exact ⟨by simp, h⟩

theorem ok_iff (h : Decides bad p r) : (∃ a, r = .ok a) ↔ p := by
  cases r with
  | ok a => exact ⟨fun _ => h, fun _ => ⟨a, rfl⟩⟩
  | error e => exact ⟨fun ⟨_, he⟩ => (nomatch he), fun hp => absurd hp h.1⟩

theorem error_of_not (h : Decides bad p r) (hp : ¬ p) : ∃ e, bad e ∧ r = .error e := by
  cases r with
  | ok a => exact absurd h hp
  | error e => exact ⟨e, h.2, rfl⟩

end Decides

end LibOsdp.Base
