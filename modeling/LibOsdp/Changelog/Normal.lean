import LibOsdp.Base.Lines
import LibOsdp.Changelog.Parser
import Mathlib.Algebra.Group.Nat.Defs

/-!
# Versions and dates as they are read

Whatever way a release file writes its version and its date, they are read as one form: a version
in lower case without spaces or repeated dashes, and an ISO date. In that form both are read as
themselves.
-/

set_option autoImplicit false

namespace LibOsdp.Changelog

open LibOsdp.Base

variable {line raw version date : Line} {c : Char}

/-! ## Versions -/

theorem isGap_lowerChar (other : isGap c = false) : isGap (lowerChar c) = false := by
  rcases isLower_or_eq c with lower | same
  · rw [isLower_iff] at lower
    generalize lowerChar c = d at lower ⊢
    have dash : d ≠ '-' := by
      rintro rfl
      exact absurd lower (by decide)
    rw [isGap, decide_eq_false dash, Bool.or_false]
    simp only [isSpace, Bool.or_eq_false_iff, Bool.and_eq_false_iff, decide_eq_false_iff_not,
      beq_eq_false_iff_ne]
    omega
  · rwa [same]

/-- The substitutions of `normalize_version` find nothing more to do. -/
theorem dashed_lower_dashed : dashed (lower (dashed line)) = lower (dashed line) := by
  induction line with
  | nil => rfl
  | cons c rest ih =>
    rw [dashed]
    split
    · next other =>
      have other : isGap c = false := by simpa using other
      rw [lower, List.map_cons, dashed, isGap_lowerChar other]
      exact congrArg (lowerChar c :: ·) ih
    · split
      · exact ih
      · next last =>
        have first : ((lower (dashed rest)).head?.any isGap) = false := by
          cases rest with
          | nil => rfl
          | cons d rest =>
            have other : isGap d = false := by simpa using last
            rw [dashed, other]
            simpa [lower] using isGap_lowerChar other
        have dash : lower ('-' :: dashed rest) = '-' :: lower (dashed rest) := rfl
        rw [dash, dashed, first, ih]
        rfl

theorem code_of_isVersion (valid : isVersion version = true) (mem : c ∈ version) :
    43 ≤ c.toNat ∧ c.toNat ≤ 122 := by
  have part : c.isAlphanum = true ∨ c = '.' ∨ c = '+' ∨ c = '-' := by
    cases version with
    | nil => cases mem
    | cons d rest =>
      simp only [isVersion, Bool.and_eq_true, List.all_eq_true, Bool.or_eq_true] at valid
      rcases List.mem_cons.mp mem with rfl | mem
      · exact .inl valid.1
      · simpa using valid.2 c mem
  rcases part with letter | rfl | rfl | rfl
  · rw [Char.isAlphanum, Bool.or_eq_true, isAlpha_iff, Char.isDigit_iff_toNat] at letter
    have digits : '0'.toNat = 48 ∧ '9'.toNat = 57 := ⟨rfl, rfl⟩
    omega
  all_goals decide

theorem isSpace_of_code (low : 43 ≤ c.toNat) (high : c.toNat ≤ 122) : isSpace c = false := by
  simp only [isSpace, Bool.or_eq_false_iff, Bool.and_eq_false_iff, decide_eq_false_iff_not,
    beq_eq_false_iff_ne]
  omega

/-- A version as the tool writes it. -/
structure Normal (version : Line) : Prop where
  reads : normalizeVersion version = .ok version
  codes : ∀ c ∈ version, 43 ≤ c.toNat ∧ c.toNat ≤ 122
  marked : ∃ rest, version = 'v' :: rest ∧ isVersion rest = true

/-- **A normal version is normalized already.** -/
theorem normal_of_normalizeVersion (h : normalizeVersion raw = .ok version) : Normal version := by
  simp only [normalizeVersion] at h
  generalize (if (strip raw).head? = some 'v' then (strip raw).tail else strip raw) = x at h
  by_cases valid : isVersion (lower (dashed x)) = true
  swap
  · rw [if_neg valid] at h
    cases h
  rw [if_pos valid] at h
  obtain rfl := Except.ok.inj h
  have codes : ∀ c ∈ 'v' :: lower (dashed x), 43 ≤ c.toNat ∧ c.toNat ≤ 122 := by
    intro c mem
    rcases List.mem_cons.mp mem with rfl | mem
    · decide
    · exact code_of_isVersion valid mem
  refine ⟨?_, codes, _, rfl, valid⟩
  have stripped : strip ('v' :: lower (dashed x)) = 'v' :: lower (dashed x) := by
    rw [strip_eq_self]
    constructor
    · rintro c ⟨⟩
      rfl
    · intro c last
      obtain ⟨low, high⟩ := codes c (List.mem_of_getLast? last)
      exact isSpace_of_code low high
  simp only [normalizeVersion, stripped, List.head?_cons, if_true, List.tail_cons,
    dashed_lower_dashed, lower_lower, valid]

/-! ## Dates -/

/-- A decimal digit is neither a space nor a quote nor a hash. -/
theorem plain_of_digit (digit : (digit? c).isSome) : isSpace c = false ∧ c ≠ '"' ∧ c ≠ '#' := by
  obtain ⟨n, found⟩ := Option.isSome_iff_exists.mp digit
  obtain ⟨z, found, -⟩ := Option.map_eq_some_iff.mp found
  have apart : ∀ z ∈ decimalZeros, 0x30 ≤ z ∧
      (z + 10 ≤ 0x85 ∨ 0xa1 ≤ z) ∧ (z + 10 ≤ 0x1680 ∨ 0x1681 ≤ z) ∧
      (z + 10 ≤ 0x2000 ∨ 0x3001 ≤ z) := by decide
  obtain ⟨above, one, two, three⟩ := apart z (List.mem_of_find?_eq_some found)
  have range := List.find?_some found
  simp only [Bool.and_eq_true, decide_eq_true_eq] at range
  refine ⟨?_, ?_, ?_⟩
  · simp only [isSpace, Bool.or_eq_false_iff, Bool.and_eq_false_iff, decide_eq_false_iff_not,
      beq_eq_false_iff_ne]
    omega
  · rintro rfl
    have code : '"'.toNat = 34 := rfl
    omega
  · rintro rfl
    have code : '#'.toNat = 35 := rfl
    omega

theorem plain_of_isIsoDate (iso : isIsoDate date = true) (mem : c ∈ date) :
    isSpace c = false ∧ c ≠ '"' ∧ c ≠ '#' := by
  simp only [isIsoDate, Bool.and_eq_true, List.all_eq_true] at iso
  obtain ⟨i, bound, rfl⟩ := List.mem_iff_getElem.mp mem
  have place := iso.2 (date[i], i) (List.mem_zipIdx_iff_getElem?.mpr (List.getElem?_eq_getElem bound))
  split at place
  · have dash : date[i] = '-' := by simpa using place
    rw [dash]
    decide
  · exact plain_of_digit place

/-- A date that is written as it is and read as it is written. -/
def Bare (date : Line) : Prop := ∀ c ∈ date, isSpace c = false ∧ c ≠ '"' ∧ c ≠ '#'

theorem bare_toDigits (n : Nat) : Bare (Nat.toDigits 10 n) := by
  intro c mem
  apply plain_of_digit
  rw [digit?_of_isDigit (Nat.isDigit_of_mem_toDigits (by decide) (by decide) mem)]
  rfl

theorem bare_dash : Bare ['-'] := by
  intro c mem
  rw [List.mem_singleton.mp mem]
  decide

theorem Bare.append {more : Line} (bare : Bare date) (bare' : Bare more) : Bare (date ++ more) :=
  List.forall_mem_append.mpr ⟨bare, bare'⟩

theorem bare_padded (width n : Nat) : Bare (padded width n) := by
  refine Bare.append (fun c mem => ?_) (bare_toDigits n)
  rw [List.eq_of_mem_replicate mem]
  decide

theorem bare_of_strptime {names : List Line} (read : strptime? names line = some date) :
    Bare date := by
  unfold strptime? at read
  split at read
  · simp only [bind, Option.bind_eq_some_iff] at read
    obtain ⟨index, -, y, -, d, -, read⟩ := read
    split at read
    · obtain rfl := Option.some.inj read
      have month := ((bare_toDigits y).append bare_dash).append (bare_padded 2 (index + 1))
      exact (month.append bare_dash).append (bare_padded 2 d)
    · cases read
  · cases read

theorem bare_of_humanDateToIso (h : humanDateToIso raw = .ok date) : Bare date := by
  rw [humanDateToIso] at h
  by_cases empty : strip raw = []
  · rw [if_pos empty] at h
    cases h
  rw [if_neg empty] at h
  by_cases iso : isIsoDate (strip raw) = true
  · rw [if_pos iso] at h
    obtain rfl := Except.ok.inj h
    exact fun c mem => plain_of_isIsoDate iso mem
  · rw [if_neg iso, okOr_eq_ok, Option.orElse_eq_some] at h
    rcases h with long | ⟨-, short⟩
    · exact bare_of_strptime long
    · exact bare_of_strptime short

theorem Bare.strip (bare : Bare date) : Base.strip date = date := by
  rw [strip_eq_self]
  constructor
  · intro c first
    exact (bare c (List.mem_of_head? first)).1
  · intro c last
    exact (bare c (List.mem_of_getLast? last)).1

/-- A date written out is not read as it is: its parts stand apart. -/
theorem strptime?_of_bare {names : List Line} (bare : Bare line) : strptime? names line = none := by
  have whole : line.splitOnP isSpace = [line] :=
    List.splitOnP_eq_singleton fun c mem => (bare c mem).1
  unfold strptime?
  rw [whole]
  split
  · next eq =>
    have short := List.length_filter_le (· ≠ []) [line]
    rw [eq] at short
    simp at short
  · rfl

/-- Of the dates that were read, those in ISO form are read as themselves. -/
theorem isIsoDate_of_read (bare : Bare date) (h : humanDateToIso date = .ok date) :
    isIsoDate date = true := by
  rw [humanDateToIso, bare.strip] at h
  by_cases iso : isIsoDate date = true
  · exact iso
  · rw [if_neg iso, strptime?_of_bare bare, strptime?_of_bare bare] at h
    split at h
    · cases h
    · cases h

theorem strip_of_isIsoDate (iso : isIsoDate date = true) : strip date = date := by
  rw [strip_eq_self]
  constructor
  · intro c first
    exact (plain_of_isIsoDate iso (List.mem_of_head? first)).1
  · intro c last
    exact (plain_of_isIsoDate iso (List.mem_of_getLast? last)).1

theorem humanDateToIso_of_isIsoDate (iso : isIsoDate date = true) : humanDateToIso date = .ok date := by
  have some : date ≠ [] := by
    rintro rfl
    cases iso
  rw [humanDateToIso, strip_of_isIsoDate iso, if_neg some, if_pos iso]

end LibOsdp.Changelog
