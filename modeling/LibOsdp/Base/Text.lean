import Mathlib.Data.List.DropRight

/-!
# Text by lines, and the settings it holds

A text file as the list of its lines, as a script reads it, with the few string functions and
regular expressions a script applies to it: stripping, decimal numbers, and a setting
`key = "value"` on a line of its own. `search` finds the first such line and `subOnce` rewrites
it. Rewriting a setting makes it read back as the new value, and leaves every setting that
lies on other lines as it was.
-/

set_option autoImplicit false

namespace LibOsdp.Base

/-- A line, without its end. -/
abbrev Line := List Char

abbrev Text := List Line

/-- The characters that separate words, by `str.isspace`. -/
def isSpace (c : Char) : Bool :=
  let n := c.toNat
  (9 ≤ n && n ≤ 13) || (0x1c ≤ n && n ≤ 0x20) || n == 0x85 || n == 0xa0 || n == 0x1680 ||
    (0x2000 ≤ n && n ≤ 0x200a) || n == 0x2028 || n == 0x2029 || n == 0x202f || n == 0x205f ||
    n == 0x3000

/-- `str.strip`. -/
def strip (s : Line) : Line := (s.dropWhile isSpace).rdropWhile isSpace

/-- `str.strip` of a text. -/
def stripText (text : Text) : Text :=
  let blank := fun line => strip line = []
  ((text.dropWhile blank).rdropWhile blank).modifyHead (·.dropWhile isSpace)
    |>.modifyLast (·.rdropWhile isSpace)

/-- The zeros of the decimal digits, ten code points in a row each. -/
def decimalZeros : List Nat :=
  [0x30, 0x660, 0x6f0, 0x7c0, 0x966, 0x9e6, 0xa66, 0xae6, 0xb66, 0xbe6, 0xc66, 0xce6, 0xd66, 0xde6,
    0xe50, 0xed0, 0xf20, 0x1040, 0x1090, 0x17e0, 0x1810, 0x1946, 0x19d0, 0x1a80, 0x1a90, 0x1b50,
    0x1bb0, 0x1c40, 0x1c50, 0xa620, 0xa8d0, 0xa900, 0xa9d0, 0xa9f0, 0xaa50, 0xabf0, 0xff10, 0x104a0,
    0x10d30, 0x11066, 0x110f0, 0x11136, 0x111d0, 0x112f0, 0x11450, 0x114d0, 0x11650, 0x116c0,
    0x11730, 0x118e0, 0x11950, 0x11c50, 0x11d50, 0x11da0, 0x16a60, 0x16ac0, 0x16b50, 0x1d7ce,
    0x1d7d8, 0x1d7e2, 0x1d7ec, 0x1d7f6, 0x1e140, 0x1e2f0, 0x1e950, 0x1fbf0]

/-- The value of a decimal digit, `\d` of a regular expression. -/
def digit? (c : Char) : Option Nat :=
  (decimalZeros.find? fun z => z ≤ c.toNat && c.toNat < z + 10).map (c.toNat - ·)

/-- `int` of a `\d+`. -/
def number? (s : Line) : Option Nat :=
  if s = [] then none else s.foldlM (fun n c => (digit? c).map (10 * n + ·)) 0

theorem digit?_of_isDigit {c : Char} (ascii : c.isDigit = true) :
    digit? c = some (c.toNat - '0'.toNat) := by
  have range : 0x30 ≤ c.toNat ∧ c.toNat < 0x30 + 10 := by
    simp only [Char.isDigit, Bool.and_eq_true, decide_eq_true_eq] at ascii
    have low : 48 ≤ c.toNat := ascii.1
    have high : c.toNat ≤ 57 := ascii.2
    omega
  simp [digit?, decimalZeros, range.1, range.2]

/-- A number in decimal reads back as itself. -/
theorem number?_toDigits (n : Nat) : number? (Nat.toDigits 10 n) = some n := by
  have fold : ∀ (cs : List Char) (acc : Nat), (∀ c ∈ cs, c.isDigit = true) →
      cs.foldlM (fun n c => (digit? c).map (10 * n + ·)) acc =
        some (Nat.ofDigitChars 10 cs acc) := by
    intro cs
    induction cs with
    | nil => intro acc _; simp
    | cons c cs ih =>
      intro acc digits
      rw [List.foldlM_cons, digit?_of_isDigit (digits c List.mem_cons_self),
        Nat.ofDigitChars_cons]
      exact ih _ fun d mem => digits d (List.mem_cons_of_mem _ mem)
  rw [number?, if_neg Nat.toDigits_ne_nil,
    fold _ 0 fun _ mem => Nat.isDigit_of_mem_toDigits (by decide) (by decide) mem,
    Nat.ofDigitChars_ten_toDigits]

/-- A line `key = "value"`, by the text before the value: the expression `^key = "([^"]+)"$`, in
texts whose quoted values end on the line they start on. -/
structure Setting where
  opening : Line

namespace Setting

/-- The line that sets `value`. -/
def render (s : Setting) (value : Line) : Line := s.opening ++ value ++ ['"']

/-- The value that a line sets, if it is a line of this setting. -/
def value? (s : Setting) (line : Line) : Option Line :=
  match line.dropPrefix? s.opening with
  | some rest =>
    let value := rest.takeWhile (· != '"')
    if value ≠ [] ∧ rest.drop value.length = ['"'] then some value else none
  | none => none

/-- `re.search` of the setting in a text: the value on its first line. -/
def search (s : Setting) (text : Text) : Option Line := text.findSome? s.value?

end Setting

/-- `re.subn` with a count of one: rewrite the first line that `hit` matches; none if no line
does. -/
def subOnce (hit : Line → Bool) (repl : Line) : Text → Option Text
  | [] => none
  | line :: lines => if hit line then some (repl :: lines) else (subOnce hit repl lines).map (line :: ·)

theorem isSome_subOnce {hit : Line → Bool} {repl : Line} {text : Text} :
    (subOnce hit repl text).isSome = text.any hit := by
  induction text with
  | nil => rfl
  | cons line lines ih =>
    rw [subOnce, List.any_cons]
    cases hit line with
    | true => rfl
    | false => simpa using ih

/-- A line of the rewritten text is the replacing one, or stood there before. -/
theorem mem_of_subOnce {hit : Line → Bool} {repl line : Line} {old new : Text}
    (h : subOnce hit repl old = some new) (mem : line ∈ new) : line = repl ∨ line ∈ old := by
  induction old generalizing new with
  | nil => cases h
  | cons first lines ih =>
    rw [subOnce] at h
    split at h
    · obtain rfl := Option.some.inj h
      rcases List.mem_cons.mp mem with rfl | mem
      · exact .inl rfl
      · exact .inr (List.mem_cons_of_mem _ mem)
    · obtain ⟨rest, set, rfl⟩ := Option.map_eq_some_iff.mp h
      rcases List.mem_cons.mp mem with rfl | mem
      · exact .inr List.mem_cons_self
      · exact (ih set mem).imp_right (List.mem_cons_of_mem _)

/-- The replacing line is there. -/
theorem repl_mem_of_subOnce {hit : Line → Bool} {repl : Line} {old new : Text}
    (h : subOnce hit repl old = some new) : repl ∈ new := by
  induction old generalizing new with
  | nil => cases h
  | cons first lines ih =>
    rw [subOnce] at h
    split at h
    · obtain rfl := Option.some.inj h
      exact List.mem_cons_self
    · obtain ⟨rest, set, rfl⟩ := Option.map_eq_some_iff.mp h
      exact List.mem_cons_of_mem _ (ih set)

namespace Setting

variable {s t : Setting} {value : Line} {text text' : Text}

/-- Set `value` on the first line of the setting. -/
def subOnce (s : Setting) (value : Line) (text : Text) : Option Text :=
  Base.subOnce (fun line => (s.value? line).isSome) (s.render value) text

/-- A value that can stand between quotes. -/
def Quotable (value : Line) : Prop := value ≠ [] ∧ '"' ∉ value

/-- No line is of both settings. -/
def Apart (s t : Setting) : Prop := ∀ line, (s.value? line).isSome → t.value? line = none

theorem value?_render (quotable : Quotable value) : s.value? (s.render value) = some value := by
  have whole : ∀ c ∈ value, (c != '"') = true := by
    intro c mem
    have differs : c ≠ '"' := fun eq => quotable.2 (eq ▸ mem)
    simpa using differs
  have taken : (value ++ ['"']).takeWhile (· != '"') = value := by
    rw [List.takeWhile_append_of_pos whole]
    simp
  have rest : (s.render value).dropPrefix? s.opening = some (value ++ ['"']) := by
    rw [render, List.append_assoc]
    exact List.dropPrefix?_append_of_beq _ BEq.rfl
  simp only [value?, rest, taken, List.drop_left]
  exact if_pos ⟨quotable.1, trivial⟩

theorem apart_of_opening (left : ¬ s.opening <+: t.opening) (right : ¬ t.opening <+: s.opening) :
    s.Apart t := by
  intro line some
  have opens : ∀ {u : Setting}, u.value? line ≠ none → u.opening <+: line := by
    intro u read
    rw [value?] at read
    split at read
    · next rest eq =>
      obtain ⟨opening, rfl, same⟩ := List.dropPrefix?_eq_some_iff.mp eq
      exact ⟨rest, by rw [eq_of_beq same]⟩
    · exact absurd rfl read
  by_contra both
  have ours : s.opening <+: line := opens (Option.isSome_iff_ne_none.mp some)
  rcases List.prefix_or_prefix_of_prefix ours (opens both) with h | h
  · exact left h
  · exact right h

/-- **A setting reads back as it was set.** -/
theorem search_subOnce (quotable : Quotable value) (h : s.subOnce value text = some text') :
    s.search text' = some value := by
  induction text generalizing text' with
  | nil => cases h
  | cons line lines ih =>
    simp only [subOnce, Base.subOnce] at h
    split at h
    · obtain rfl := Option.some.inj h
      simp [search, value?_render quotable]
    · next other =>
      obtain ⟨rest, set, rfl⟩ := Option.map_eq_some_iff.mp h
      have none : s.value? line = none := by simpa using other
      rw [search, List.findSome?_cons, none]
      exact ih set

/-- Setting one leaves the other. -/
theorem search_subOnce_of_apart (apart : s.Apart t) (quotable : Quotable value)
    (h : s.subOnce value text = some text') : t.search text' = t.search text := by
  induction text generalizing text' with
  | nil => cases h
  | cons line lines ih =>
    simp only [subOnce, Base.subOnce] at h
    split at h
    · next ours =>
      obtain rfl := Option.some.inj h
      have new : t.value? (s.render value) = none := apart _ (by rw [value?_render quotable]; rfl)
      simp [search, new, apart line ours]
    · obtain ⟨rest, set, rfl⟩ := Option.map_eq_some_iff.mp h
      simp only [search, List.findSome?_cons]
      split
      · rfl
      · exact ih set

theorem isSome_subOnce : (s.subOnce value text).isSome = (s.search text).isSome := by
  rw [subOnce, Base.isSome_subOnce, search, List.isSome_findSome?]

end Setting

end LibOsdp.Base
