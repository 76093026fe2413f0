/-!
# Scripts that may stop

A script changes a state and may stop with an error at any of its steps; what it has changed by
then stays changed. `left` is the state a script leaves behind, whichever way it ends, and
`Keeps P` says that it leaves `P` true where it was true. The rules follow the script: a sequence
keeps what its parts keep, and a script that only reads keeps everything.
-/

set_option autoImplicit false

namespace LibOsdp.Base

variable {ε σ α β : Type}

/-- The state a script leaves, whether it returned or stopped. -/
def left (m : EStateM ε σ α) (s : σ) : σ :=
  match m s with
  | .ok _ t => t
  | .error _ t => t

/-- Use a fallible value in a script. -/
def lift (x : Except ε α) : EStateM ε σ α :=
  match x with
  | .ok a => pure a
  | .error e => throw e

/-- Stop with `e` if `c` holds. -/
def stopIf (c : Bool) (e : ε) : EStateM ε σ Unit := if c then throw e else pure ()

section Left

variable {m : EStateM ε σ α} {f : α → EStateM ε σ β} {s t : σ} {a : α} {e : ε}

theorem left_of_ok (h : m s = .ok a t) : left m s = t := by
  rw [left, h]

theorem left_of_error (h : m s = .error e t) : left m s = t := by
  rw [left, h]

theorem bind_of_ok (h : m s = .ok a t) : (m >>= f) s = f a t := by
  show EStateM.bind m f s = f a t
  rw [EStateM.bind, h]

theorem bind_of_error (h : m s = .error e t) : (m >>= f) s = .error e t := by
  show EStateM.bind m f s = .error e t
  rw [EStateM.bind, h]

theorem get_bind {f : σ → EStateM ε σ β} : (get >>= f) s = f s s := rfl

theorem left_bind_of_ok (h : m s = .ok a t) : left (m >>= f) s = left (f a) t := by
  rw [left, left, bind_of_ok h]

theorem left_bind_of_error (h : m s = .error e t) : left (m >>= f) s = t :=
  left_of_error (bind_of_error h)

theorem tryCatch_of_ok {handler : ε → EStateM ε σ α} (h : m s = .ok a t) :
    (MonadExcept.tryCatch m handler : EStateM ε σ α) s = .ok a t := by
  show EStateM.tryCatch m handler s = _
  delta EStateM.tryCatch
  rw [h]

/-- A handler runs from where the script stopped. -/
theorem tryCatch_of_error {handler : ε → EStateM ε σ α} (h : m s = .error e t) :
    (MonadExcept.tryCatch m handler : EStateM ε σ α) s = handler e t := by
  show EStateM.tryCatch m handler s = _
  delta EStateM.tryCatch
  rw [h]
  rfl

/-- A sequence returns only if its first part did. -/
theorem bind_eq_ok_iff {b : β} {u : σ} :
    (m >>= f) s = .ok b u ↔ ∃ a t, m s = .ok a t ∧ f a t = .ok b u := by
  constructor
  · intro h
    cases eq : m s with
    | ok a t => exact ⟨a, t, rfl, (bind_of_ok eq).symm.trans h⟩
    | error e t => cases (bind_of_error eq).symm.trans h
  · rintro ⟨a, t, eq, h⟩
    rw [bind_of_ok eq, h]

theorem lift_eq_ok {x : Except ε α} : lift x s = .ok a t ↔ x = .ok a ∧ t = s := by
  cases x with
  | ok b =>
    constructor
    · intro h
      cases h
      exact ⟨rfl, rfl⟩
    · rintro ⟨⟨⟩, rfl⟩
      rfl
  | error e => exact iff_of_false (by intro h; cases h) (by intro h; cases h.1)

/-- A test passes only where its condition fails. -/
theorem stopIf_eq_ok {c : Bool} {u : Unit} : stopIf c e s = .ok u t ↔ c = false ∧ t = s := by
  cases c with
  | true => exact iff_of_false (by intro h; cases h) (by intro h; cases h.1)
  | false =>
    constructor
    · intro h
      cases h
      exact ⟨rfl, rfl⟩
    · rintro ⟨-, rfl⟩
      rfl

end Left

/-- `m` leaves `P` true where it was true. -/
structure Keeps (P : σ → Prop) (m : EStateM ε σ α) : Prop where
  after : ∀ s, P s → P (left m s)

/-- `m` changes nothing. -/
structure Reads (m : EStateM ε σ α) : Prop where
  same : ∀ s, left m s = s

namespace Keeps

variable {P : σ → Prop} {m : EStateM ε σ α} {f : α → EStateM ε σ β}

/-- **The sequencing rule**, from what is true after the first part. -/
theorem seq {s : σ} (first : P (left m s)) (rest : ∀ a, Keeps P (f a)) : P (left (m >>= f) s) := by
  cases eq : m s with
  | ok a t =>
    rw [left_of_ok eq] at first
    rw [left_bind_of_ok eq]
    exact (rest a).after t first
  | error e t =>
    rw [left_of_error eq] at first
    rwa [left_bind_of_error eq]

theorem bind (first : Keeps P m) (rest : ∀ a, Keeps P (f a)) : Keeps P (m >>= f) :=
  ⟨fun s before => seq (first.after s before) rest⟩

/-- What a script that returned has kept. -/
theorem of_ok {a : α} {s t : σ} (keeps : Keeps P m) (before : P s) (h : m s = .ok a t) : P t := by
  rw [← left_of_ok h]
  exact keeps.after s before

/-- The sequencing rule where the rest of a script keeps only part of it: `Q` holds wherever the
    first part stops, and where the rest leads from what it returned. -/
theorem left_bind {Q : σ → Prop} {s : σ} (keeps : Keeps P m) (before : P s)
    (stops : ∀ t, P t → Q t) (goes : ∀ a t, m s = .ok a t → P t → Q (left (f a) t)) :
    Q (left (m >>= f) s) := by
  have after := keeps.after s before
  cases eq : m s with
  | ok a t =>
    rw [left_of_ok eq] at after
    rw [left_bind_of_ok eq]
    exact goes a t eq after
  | error e t =>
    rw [left_of_error eq] at after
    rw [left_bind_of_error eq]
    exact stops t after

theorem modify {g : σ → σ} (keep : ∀ s, P s → P (g s)) :
    Keeps P (modify g : EStateM ε σ Unit) := ⟨keep⟩

end Keeps

namespace Reads

variable {P : σ → Prop} {m : EStateM ε σ α} {f : α → EStateM ε σ β}

theorem keeps (reads : Reads m) : Keeps P m := ⟨fun s before => (reads.same s).symm ▸ before⟩

theorem pure (a : α) : Reads (pure a : EStateM ε σ α) := ⟨fun _ => rfl⟩

theorem throw (e : ε) : Reads (throw e : EStateM ε σ α) := ⟨fun _ => rfl⟩

theorem get : Reads (get : EStateM ε σ σ) := ⟨fun _ => rfl⟩

theorem bind (first : Reads m) (rest : ∀ a, Reads (f a)) : Reads (m >>= f) := by
  constructor
  intro s
  have keeps : Keeps (· = s) (m >>= f) := first.keeps.bind fun a => (rest a).keeps
  exact keeps.after s rfl

theorem ite {c : Prop} [Decidable c] {m' : EStateM ε σ α} (yes : Reads m) (no : Reads m') :
    Reads (if c then m else m') := by
  split
  · exact yes
  · exact no

theorem lift (x : Except ε α) : Reads (lift x : EStateM ε σ α) := by
  cases x with
  | ok a => exact pure a
  | error e => exact throw e

theorem stopIf (c : Bool) (e : ε) : Reads (stopIf c e : EStateM ε σ Unit) :=
  ite (throw e) (pure ())

/-- A script that only reads and returns is where it was. -/
theorem eq_of_ok {a : α} {s t : σ} (reads : Reads m) (h : m s = .ok a t) : t = s := by
  rw [← left_of_ok h, reads.same s]

/-- Going on after a script that only reads. -/
theorem bind_eq_ok {s u : σ} {b : β} (reads : Reads m) (h : (m >>= f) s = .ok b u) :
    ∃ a, m s = .ok a s ∧ f a s = .ok b u := by
  obtain ⟨a, t, first, rest⟩ := bind_eq_ok_iff.mp h
  obtain rfl := reads.eq_of_ok first
  exact ⟨a, first, rest⟩

theorem eq_of_error {e : ε} {s t : σ} (reads : Reads m) (h : m s = .error e t) : t = s := by
  rw [← left_of_error h, reads.same s]

end Reads

end LibOsdp.Base
