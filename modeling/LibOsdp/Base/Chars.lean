import LibOsdp.Base.Text

/-!
# Text by characters

The string functions of a script that works on a whole text: where its lines end, the text before
and after a separator, and the characters in lower case. Splitting a text into lines loses nothing
but the line ends, and cutting it loses nothing but the separator.
-/

set_option autoImplicit false

namespace LibOsdp.Base

variable {s t before after sep : Line} {lines : List Line}

/-- The characters that end a line, by `str.splitlines`. -/
def isLineEnd (c : Char) : Bool :=
  let n := c.toNat
  (10 ≤ n && n ≤ 13) || (0x1c ≤ n && n ≤ 0x1e) || n == 0x85 || n == 0x2028 || n == 0x2029

/-- The lines of what is left, `line` being the line so far from its end. -/
def splitlinesFrom : Line → Line → List Line
  | line, [] => if line = [] then [] else [line.reverse]
  | line, '\r' :: '\n' :: rest => line.reverse :: splitlinesFrom [] rest
  | line, c :: rest =>
    if isLineEnd c then line.reverse :: splitlinesFrom [] rest else splitlinesFrom (c :: line) rest

/-- `str.splitlines`. -/
def splitlines (s : Line) : List Line := splitlinesFrom [] s

/-- `"\n".join`. -/
def joinLines (lines : List Line) : Line := ['\n'].intercalate lines

/-- What stands before and after the first `sep`. -/
def cut? (sep : Line) : Line → Option (Line × Line)
  | [] => if sep = [] then some ([], []) else none
  | c :: rest =>
    if sep.isPrefixOf (c :: rest) then some ([], (c :: rest).drop sep.length)
    else (cut? sep rest).map fun (before, after) => (c :: before, after)

/-- `str.strip` of the characters in `drop`. -/
def stripOf (drop : Char → Bool) (s : Line) : Line := (s.dropWhile drop).rdropWhile drop

/-- `str.lower` of a character, where it gives an ASCII letter. -/
def lowerChar (c : Char) : Char := if c.toNat = 0x212a then 'k' else c.toLower

/-- `str.lower`, as far as expressions in ASCII can tell. -/
def lower (s : Line) : Line := s.map lowerChar

theorem strip_eq_nil : strip s = [] ↔ ∀ c ∈ s, isSpace c = true := by
  rw [strip, List.rdropWhile_eq_nil_iff]
  constructor
  · intro spaces
    rw [← List.dropWhile_eq_nil_iff]
    by_contra left
    have opens : isSpace ((s.dropWhile isSpace).head left) = false := by
      simpa using List.head_dropWhile_not isSpace left
    rw [spaces _ (List.head_mem left)] at opens
    cases opens
  · intro spaces c mem
    exact spaces c ((List.dropWhile_suffix _).subset mem)

/-- A text is blank only if each of its lines is. -/
theorem strip_joinLines_ne_nil {line : Line} (mem : line ∈ lines) (words : strip line ≠ []) :
    strip (joinLines lines) ≠ [] := by
  rw [Ne, strip_eq_nil] at words ⊢
  intro spaces
  refine words fun c inside => spaces c ?_
  induction lines with
  | nil => cases mem
  | cons first rest ih =>
    have joins : ∀ d ∈ joinLines rest, d ∈ joinLines (first :: rest) := by
      intro d inside
      cases rest with
      | nil => cases inside
      | cons second rest =>
        rw [joinLines, List.intercalate_cons_cons]
        exact List.mem_append_right _ inside
    rcases List.mem_cons.mp mem with rfl | mem
    · cases rest with
      | nil => simpa [joinLines] using inside
      | cons second rest =>
        rw [joinLines, List.intercalate_cons_cons]
        exact List.mem_append_left _ (List.mem_append_left _ inside)
    · exact joins c (ih mem fun d inside => spaces d (joins d inside))

/-- **Splitting into lines loses only the line ends.** -/
theorem flatten_splitlines : (splitlines s).flatten = s.filter fun c => !isLineEnd c := by
  have from' : ∀ line, (splitlinesFrom line s).flatten =
      line.reverse ++ s.filter fun c => !isLineEnd c := by
    intro line
    fun_induction splitlinesFrom line s with
    | case1 => rfl
    | case2 line words => simp
    | case3 line rest ih =>
      have ends : isLineEnd '\r' = true ∧ isLineEnd '\n' = true := by decide
      simp [ih, ends.1, ends.2]
    | case4 line c rest other ends ih => simp [ih, ends]
    | case5 line c rest other inner ih => simp [ih, inner]
  exact from' []

/-- **Cutting loses only the separator.** -/
theorem eq_of_cut? (h : cut? sep s = some (before, after)) : s = before ++ sep ++ after := by
  induction s generalizing before with
  | nil =>
    rw [cut?] at h
    split at h
    · next empty =>
      cases h
      simp [empty]
    · cases h
  | cons c rest ih =>
    rw [cut?] at h
    split at h
    · next opens =>
      obtain ⟨left, eq⟩ := List.isPrefixOf_iff_prefix.mp opens
      cases h
      rw [← eq, List.drop_left, List.nil_append]
    · obtain ⟨⟨front, back⟩, found, same⟩ := Option.map_eq_some_iff.mp h
      cases same
      rw [ih found]
      rfl

end LibOsdp.Base
