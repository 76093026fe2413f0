import LibOsdp.Base.Text
import Mathlib.Data.Prod.Lex

/-!
# Crate versions

The two crates of the workspace and their versions `X.Y.Z[-dev]`, as the release tool prints and
parses them. A printed version parses back to itself.
-/

set_option autoImplicit false

namespace LibOsdp.Release

open LibOsdp.Base

inductive Crate where
  | libosdpSys
  | libosdp
  deriving DecidableEq, Repr

structure Version where
  major : Nat
  minor : Nat
  patch : Nat
  prerelease : Bool := false
  deriving DecidableEq, Repr

/-- The flags `--major`, `--minor` and `--patch`. -/
inductive Bump where
  | major
  | minor
  | patch
  deriving DecidableEq, Repr

namespace Version

variable {v w : Version}

def core (v : Version) : Nat ×ₗ Nat ×ₗ Nat := toLex (v.major, toLex (v.minor, v.patch))

def bumped (v : Version) : Bump → Version
  | .major => ⟨v.major + 1, 0, 0, false⟩
  | .minor => ⟨v.major, v.minor + 1, 0, false⟩
  | .patch => ⟨v.major, v.minor, v.patch + 1, false⟩

def released (v : Version) : Version := { v with prerelease := false }

/-- The only pre-release marker. -/
def marker : Line := "-dev".toList

def base (v : Version) : Line :=
  ['.'].intercalate [Nat.toDigits 10 v.major, Nat.toDigits 10 v.minor, Nat.toDigits 10 v.patch]

def str (v : Version) : Line := if v.prerelease then v.base ++ marker else v.base

/-- The expression `(\d+)\.(\d+)\.(\d+)`. -/
def base? (s : Line) : Option Version :=
  match s.splitOn '.' with
  | [major, minor, patch] => do
    return ⟨← number? major, ← number? minor, ← number? patch, false⟩
  | _ => none

/-- A full match of `VERSION_RE`. -/
def match? (s : Line) : Option Version :=
  if marker <:+ s then
    (base? (s.take (s.length - marker.length))).map fun v => { v with prerelease := true }
  else base? s

/-- `parse_version`, `none` where it dies. -/
def parse? (raw : Line) : Option Version := match? (strip raw)

theorem mem_base {c : Char} (mem : c ∈ v.base) : c.isDigit = true ∨ c = '.' := by
  simp only [base, List.intercalate_cons_cons, List.intercalate_singleton, List.mem_append,
    List.mem_singleton] at mem
  rcases mem with ((digit | rfl) | (digit | rfl) | digit)
  · exact .inl (Nat.isDigit_of_mem_toDigits (by decide) (by decide) digit)
  · exact .inr rfl
  · exact .inl (Nat.isDigit_of_mem_toDigits (by decide) (by decide) digit)
  · exact .inr rfl
  · exact .inl (Nat.isDigit_of_mem_toDigits (by decide) (by decide) digit)

theorem mem_str {c : Char} (mem : c ∈ v.str) : c.isDigit = true ∨ c = '.' ∨ c ∈ marker := by
  rw [str] at mem
  split at mem
  · rcases List.mem_append.mp mem with mem | mem
    · exact (mem_base mem).imp_right .inl
    · exact .inr (.inr mem)
  · exact (mem_base mem).imp_right .inl

theorem isSpace_of_isDigit {c : Char} (digit : c.isDigit = true) : isSpace c = false := by
  simp only [Char.isDigit, Bool.and_eq_true, decide_eq_true_eq] at digit
  have low : 48 ≤ c.toNat := digit.1
  have high : c.toNat ≤ 57 := digit.2
  simp only [isSpace, Bool.or_eq_false_iff, Bool.and_eq_false_iff, decide_eq_false_iff_not,
    beq_eq_false_iff_ne]
  omega

theorem strip_str : strip v.str = v.str := by
  have none : ∀ c ∈ v.str, isSpace c = false := by
    intro c mem
    rcases mem_str mem with digit | rfl | mem
    · exact isSpace_of_isDigit digit
    · rfl
    · have plain : marker.all fun c => !isSpace c := rfl
      simpa using List.all_eq_true.mp plain c mem
  have front : v.str.dropWhile isSpace = v.str := by
    rw [List.dropWhile_eq_self_iff]
    intro pos
    rw [none _ (List.getElem_mem pos)]
    exact Bool.false_ne_true
  rw [strip, front, List.rdropWhile_eq_self_iff]
  intro nonempty
  rw [none _ (List.getLast_mem nonempty)]
  exact Bool.false_ne_true

theorem base?_base : base? v.base = some v.released := by
  have split : v.base.splitOn '.' =
      [Nat.toDigits 10 v.major, Nat.toDigits 10 v.minor, Nat.toDigits 10 v.patch] := by
    apply List.splitOn_intercalate
    · intro digits mem dot
      simp only [List.mem_cons, List.not_mem_nil, or_false] at mem
      rcases mem with rfl | rfl | rfl
      all_goals exact absurd (Nat.isDigit_of_mem_toDigits (by decide) (by decide) dot) (by decide)
    · exact List.cons_ne_nil _ _
  simp [base?, split, number?_toDigits, released]

/-- **A printed version parses back to itself.** -/
theorem parse?_str : parse? v.str = some v := by
  rw [parse?, strip_str, match?, str]
  split
  · next dev =>
    have marked : marker <:+ v.base ++ marker := List.suffix_append ..
    rw [if_pos marked, List.length_append, Nat.add_sub_cancel, List.take_left, base?_base]
    simp [released, ← dev]
  · next plain =>
    have unmarked : ¬ marker <:+ v.base := by
      intro suffix
      have mem : 'v' ∈ v.base := suffix.subset (by decide)
      exact absurd (mem_base mem) (by decide)
    rw [if_neg unmarked, base?_base]
    simp [released, ← Bool.eq_false_iff.mpr plain]

theorem str_inj (h : v.str = w.str) : v = w := by
  have parsed : parse? v.str = parse? w.str := congrArg parse? h
  rw [parse?_str, parse?_str] at parsed
  exact Option.some.inj parsed

/-- A printed version can stand between quotes, also after an `=`. -/
theorem quotable_str (before : Line) (plain : '"' ∉ before) :
    Setting.Quotable (before ++ v.str) := by
  constructor
  · intro empty
    have none : v.str = [] := (List.append_eq_nil_iff.mp empty).2
    have parsed := @parse?_str v
    rw [none] at parsed
    cases parsed
  · intro mem
    rcases List.mem_append.mp mem with mem | mem
    · exact plain mem
    · rcases mem_str mem with digit | dot | mem
      · exact absurd digit (by decide)
      · cases dot
      · exact absurd mem (by decide)

end Version

end LibOsdp.Release
