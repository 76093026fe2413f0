import LibOsdp.Base.Chars
import Mathlib.Data.List.Infix
import Mathlib.Data.List.ModifyLast

/-!
# Lines and the text they make

What stripping a text does to its lines, and which texts have given lines. Stripping only takes
away blank lines at the ends and spaces at the ends of the first and the last line left; lines
that are joined, or ended one by one, are split into the same lines again.
-/

set_option autoImplicit false

namespace LibOsdp.Base

variable {s t line acc : Line} {lines more : List Line} {c : Char}

/-! ## Spaces at the ends of a line -/

theorem isSpace_of_isLineEnd (ends : isLineEnd c = true) : isSpace c = true := by
  simp only [isLineEnd, isSpace, Bool.or_eq_true, Bool.and_eq_true, decide_eq_true_eq,
    beq_iff_eq] at ends ⊢
  omega

theorem strip_dropWhile : strip (s.dropWhile isSpace) = strip s := by
  rw [strip, List.dropWhile_idempotent]
  rfl

/-- A line is stripped already exactly if it has no space at either end. -/
theorem strip_eq_self : strip s = s ↔
    (∀ c ∈ s.head?, isSpace c = false) ∧ ∀ c ∈ s.getLast?, isSpace c = false := by
  constructor
  · intro same
    have front : s.dropWhile isSpace = s := by
      apply (List.dropWhile_suffix isSpace).eq_of_length_le
      have shorter := (List.rdropWhile_prefix isSpace (l := s.dropWhile isSpace)).length_le
      rwa [← strip, same] at shorter
    rw [strip, front] at same
    constructor
    · intro c first
      cases s with
      | nil => cases first
      | cons d rest =>
        obtain rfl := Option.some.inj first
        by_contra space
        rw [List.dropWhile_cons_of_pos (by simpa using space)] at front
        have longer := (List.dropWhile_suffix (l := rest) isSpace).length_le
        rw [front] at longer
        exact absurd longer (by simp)
    · intro c last
      obtain ⟨nonempty, rfl⟩ := List.mem_getLast?_eq_getLast last
      simpa using List.rdropWhile_eq_self_iff.mp same nonempty
  · rintro ⟨first, last⟩
    have front : s.dropWhile isSpace = s := by
      cases s with
      | nil => rfl
      | cons c rest => exact List.dropWhile_cons_of_neg (by simp [first c rfl])
    rw [strip, front, List.rdropWhile_eq_self_iff]
    intro nonempty
    simp [last _ (List.getLast_mem_getLast? nonempty)]

/-- What is left of a stripped line when its spaces are taken away again. -/
theorem strip_strip : strip (strip s) = strip s := by
  rw [strip_eq_self]
  constructor
  · intro c first
    obtain ⟨rest, front⟩ := List.rdropWhile_prefix isSpace (l := s.dropWhile isSpace)
    have first : (s.dropWhile isSpace).head? = some c := by
      rw [← front, List.head?_append, show (s.dropWhile isSpace).rdropWhile isSpace = strip s from rfl,
        Option.mem_def.mp first]
      rfl
    simpa [first] using List.head?_dropWhile_not isSpace s
  · intro c last
    obtain ⟨nonempty, rfl⟩ := List.mem_getLast?_eq_getLast last
    exact Bool.eq_false_iff.mpr (List.rdropWhile_last_not _ _ nonempty)

theorem strip_append_spaces (spaces : ∀ c ∈ t, isSpace c = true) : strip (s ++ t) = strip s := by
  induction t using List.reverseRecOn with
  | nil => rw [List.append_nil]
  | append_singleton t c ih =>
    have last : isSpace c = true := spaces c (by simp)
    rw [← List.append_assoc, ← ih fun d mem => spaces d (List.mem_append_left _ mem), strip, strip,
      List.dropWhile_append]
    split
    · next empty =>
      rw [List.isEmpty_iff.mp empty, List.dropWhile_cons_of_pos last]
      rfl
    · exact List.rdropWhile_concat_pos _ _ _ last

theorem strip_cons (space : isSpace c = true) : strip (c :: s) = strip s := by
  rw [strip, List.dropWhile_cons_of_pos space]
  rfl

/-- Words before a stripped line. -/
theorem strip_append (opens : ∀ c ∈ s.head?, isSpace c = false) (some : s ≠ []) (some' : t ≠ [])
    (stripped : strip t = t) : strip (s ++ t) = s ++ t := by
  rw [strip_eq_self] at stripped ⊢
  constructor
  · rwa [List.head?_append_of_ne_nil _ some]
  · rw [List.getLast?_append_of_ne_nil _ some']
    exact stripped.2

theorem mem_of_mem_strip (mem : c ∈ strip s) : c ∈ s :=
  (List.dropWhile_suffix isSpace).subset ((List.rdropWhile_prefix isSpace _).subset mem)

theorem strip_rdropWhile : strip (s.rdropWhile isSpace) = strip s := by
  conv_rhs => rw [← @List.rdropWhile_append_rtakeWhile _ isSpace s]
  exact (strip_append_spaces fun c mem => List.mem_rtakeWhile_imp mem).symm

/-- Words at the end of a text keep what stands before them. -/
theorem rdropWhile_append (words : strip t ≠ []) :
    (s ++ t).rdropWhile isSpace = s ++ t.rdropWhile isSpace := by
  have some : t.reverse.dropWhile isSpace ≠ [] := by
    intro empty
    rw [List.dropWhile_eq_nil_iff] at empty
    exact words (strip_eq_nil.mpr fun c mem => empty c (List.mem_reverse.mpr mem))
  rw [List.rdropWhile, List.rdropWhile, List.reverse_append, List.dropWhile_append,
    if_neg (by simpa using some), List.reverse_append, List.reverse_reverse]

/-! ## Stripping a text, line by line -/

/-- No line end is in the line. -/
def Plain (line : Line) : Prop := ∀ c ∈ line, isLineEnd c = false

/-- The lines of a text without the spaces that it begins with. -/
def trimStart (lines : List Line) : List Line :=
  (lines.dropWhile fun line => strip line = []).modifyHead (·.dropWhile isSpace)

/-- The lines of a text without the spaces that it ends with. -/
def trimEnd (lines : List Line) : List Line :=
  (lines.rdropWhile fun line => strip line = []).modifyLast (·.rdropWhile isSpace)

/-- All lines are blank, or there is a last line with words. -/
theorem blanks_or_words (lines : List Line) : (∀ line ∈ lines, strip line = []) ∨
    ∃ init last blanks, lines = init ++ [last] ++ blanks ∧ strip last ≠ [] ∧
      ∀ line ∈ blanks, strip line = [] := by
  induction lines using List.reverseRecOn with
  | nil => exact .inl (by simp)
  | append_singleton lines line ih =>
    by_cases blank : strip line = []
    · rcases ih with all | ⟨init, last, blanks, rfl, words, rest⟩
      · exact .inl (by simpa [or_imp, forall_and, blank] using all)
      · refine .inr ⟨init, last, blanks ++ [line], by simp, words, ?_⟩
        simpa [or_imp, forall_and, blank] using rest
    · exact .inr ⟨lines, line, [], by simp, blank, by simp⟩

theorem trimEnd_blanks (blank : ∀ line ∈ lines, strip line = []) : trimEnd lines = [] := by
  have none : (lines.rdropWhile fun line => strip line = []) = [] := by
    rw [List.rdropWhile_eq_nil_iff]
    simpa using blank
  rw [trimEnd, none]
  rfl

theorem trimEnd_concat_blank (blank : strip line = []) : trimEnd (lines ++ [line]) = trimEnd lines := by
  rw [trimEnd, List.rdropWhile_concat_pos _ _ _ (by simpa using blank)]
  rfl

theorem trimEnd_concat (words : strip line ≠ []) :
    trimEnd (lines ++ [line]) = lines ++ [line.rdropWhile isSpace] := by
  rw [trimEnd, List.rdropWhile_concat_neg _ _ _ (by simpa using words), List.modifyLast_concat]

theorem trimEnd_append_blanks (blank : ∀ line ∈ more, strip line = []) :
    trimEnd (lines ++ more) = trimEnd lines := by
  induction more using List.reverseRecOn with
  | nil => rw [List.append_nil]
  | append_singleton more line ih =>
    rw [← List.append_assoc, trimEnd_concat_blank (blank line (by simp))]
    exact ih fun other mem => blank other (List.mem_append_left _ mem)

/-- Only the lines after the last words are taken away. -/
theorem trimEnd_append (words : trimEnd more ≠ []) :
    trimEnd (lines ++ more) = lines ++ trimEnd more := by
  rcases blanks_or_words more with blank | ⟨init, last, blanks, rfl, some, blank⟩
  · exact absurd (trimEnd_blanks blank) words
  · rw [← List.append_assoc, trimEnd_append_blanks blank, trimEnd_append_blanks blank,
      ← List.append_assoc, trimEnd_concat some, trimEnd_concat some, List.append_assoc]

theorem trimStart_cons_blank (blank : strip line = []) :
    trimStart (line :: lines) = trimStart lines := by
  rw [trimStart, List.dropWhile_cons_of_pos (by simpa using blank)]
  rfl

theorem trimStart_cons (words : strip line ≠ []) :
    trimStart (line :: lines) = line.dropWhile isSpace :: lines := by
  rw [trimStart, List.dropWhile_cons_of_neg (by simpa using words)]
  rfl

/-- A line that ends in words stays as it is. -/
theorem mem_trimEnd (mem : line ∈ lines) (words : strip line ≠ [])
    (ends : line.rdropWhile isSpace = line) : line ∈ trimEnd lines := by
  rcases blanks_or_words lines with blank | ⟨init, last, blanks, rfl, some, blank⟩
  · exact absurd (blank line mem) words
  · rw [trimEnd_append_blanks blank, trimEnd_concat some]
    rcases List.mem_append.mp mem with mem | mem
    · rcases List.mem_append.mp mem with mem | mem
      · exact List.mem_append_left _ mem
      · obtain rfl := List.mem_singleton.mp mem
        exact List.mem_append_right _ (by simp [ends])
    · exact absurd (blank line mem) words

theorem exists_prefix_of_mem_trimEnd (mem : line ∈ trimEnd lines) : ∃ other ∈ lines, line <+: other := by
  rcases blanks_or_words lines with blank | ⟨init, last, blanks, rfl, words, blank⟩
  · rw [trimEnd_blanks blank] at mem
    cases mem
  · rw [trimEnd_append_blanks blank, trimEnd_concat words] at mem
    rcases List.mem_append.mp mem with mem | mem
    · exact ⟨line, by simp [mem], List.prefix_refl _⟩
    · obtain rfl := List.mem_singleton.mp mem
      exact ⟨last, by simp, List.rdropWhile_prefix _ _⟩

theorem trimEnd_eq_nil : trimEnd lines = [] ↔ ∀ line ∈ lines, strip line = [] := by
  refine ⟨fun empty => ?_, trimEnd_blanks⟩
  rcases blanks_or_words lines with blank | ⟨init, last, blanks, rfl, some, blank⟩
  · exact blank
  · rw [trimEnd_append_blanks blank, trimEnd_concat some] at empty
    simp at empty

/-- A line more in front makes no difference to what is taken away at the end. -/
theorem trimEnd_cons_congr (same : trimEnd lines = trimEnd more) :
    trimEnd (line :: lines) = trimEnd (line :: more) := by
  by_cases empty : trimEnd lines = []
  · have blank := trimEnd_eq_nil.mp empty
    have blank' := trimEnd_eq_nil.mp (same ▸ empty)
    exact (@trimEnd_append_blanks [line] lines blank).trans (trimEnd_append_blanks blank').symm
  · have here := @trimEnd_append [line] lines empty
    have there := @trimEnd_append [line] more (same ▸ empty)
    exact here.trans (same ▸ there.symm)

theorem splitlinesFrom_cons (inner : isLineEnd c = false) :
    splitlinesFrom acc (c :: s) = splitlinesFrom (c :: acc) s := by
  have plain : c ≠ '\r' := by
    rintro rfl
    cases inner
  rw [splitlinesFrom, if_neg (by simp [inner])]
  exact fun _ first _ => plain first

theorem splitlinesFrom_cons_end (ends : isLineEnd c = true)
    (apart : ¬ (c = '\r' ∧ s.head? = some '\n')) :
    splitlinesFrom acc (c :: s) = acc.reverse :: splitlinesFrom [] s := by
  rw [splitlinesFrom, if_pos ends]
  rintro rest rfl rfl
  exact apart ⟨rfl, rfl⟩

/-- A line that is read on from `acc` begins with what was read. -/
theorem splitlinesFrom_append (some : acc ≠ []) : splitlinesFrom (acc ++ t) s =
    (splitlinesFrom acc s).modifyHead (t.reverse ++ ·) := by
  fun_induction splitlinesFrom acc s with
  | case1 => exact absurd rfl some
  | case2 acc words => simp [splitlinesFrom, words]
  | case3 acc rest ih => simp [splitlinesFrom]
  | case4 acc c rest other ends ih => simp [splitlinesFrom, ends]
  | case5 acc c rest other inner ih =>
    rw [splitlinesFrom_cons (Bool.eq_false_iff.mpr inner), ← ih (List.cons_ne_nil _ _)]
    rfl

theorem strip_reverse (spaces : ∀ c ∈ acc, isSpace c = true) : strip acc.reverse = [] :=
  strip_eq_nil.mpr fun c mem => spaces c (List.mem_reverse.mp mem)

/-- What has been read of a line matters to that line only. -/
theorem tail_splitlinesFrom : (splitlinesFrom acc s).tail = (splitlines s).tail := by
  have apart : ∀ acc', (splitlinesFrom acc s).tail = (splitlinesFrom acc' s).tail := by
    fun_induction splitlinesFrom acc s with
    | case1 =>
      intro acc'
      rw [splitlinesFrom]
      split <;> rfl
    | case2 acc words =>
      intro acc'
      rw [splitlinesFrom]
      split <;> rfl
    | case3 acc rest ih => exact fun acc' => rfl
    | case4 acc c rest other ends ih =>
      intro acc'
      rw [splitlinesFrom, if_pos ends]
      · rfl
      · exact other
    | case5 acc c rest other inner ih =>
      intro acc'
      rw [splitlinesFrom_cons (Bool.eq_false_iff.mpr inner), ih]
  exact apart []

/-- The line that is being read goes on with what is ahead. -/
theorem exists_splitlinesFrom (some : acc ≠ []) :
    ∃ ahead lines, splitlinesFrom acc s = (acc.reverse ++ ahead) :: lines := by
  fun_induction splitlinesFrom acc s with
  | case1 => exact absurd rfl some
  | case2 acc words => exact ⟨[], [], by simp⟩
  | case3 acc rest ih => exact ⟨[], _, by rw [List.append_nil]⟩
  | case4 acc c rest other ends ih => exact ⟨[], _, by rw [List.append_nil]⟩
  | case5 acc c rest other inner ih =>
    obtain ⟨ahead, lines, eq⟩ := ih (List.cons_ne_nil _ _)
    exact ⟨c :: ahead, lines, by simp [eq]⟩

theorem trimStart_from (spaces : ∀ c ∈ acc, isSpace c = true) :
    trimStart (splitlinesFrom acc s) = splitlines (s.dropWhile isSpace) := by
  fun_induction splitlinesFrom acc s with
  | case1 => rfl
  | case2 acc words => exact trimStart_cons_blank (strip_reverse spaces)
  | case3 acc rest ih =>
    rw [trimStart_cons_blank (strip_reverse spaces), ih (by simp)]
    rfl
  | case4 acc c rest other ends ih =>
    rw [trimStart_cons_blank (strip_reverse spaces), ih (by simp),
      List.dropWhile_cons_of_pos (isSpace_of_isLineEnd ends)]
  | case5 acc c rest other inner ih =>
    by_cases space : isSpace c = true
    · rw [ih (List.forall_mem_cons.mpr ⟨space, spaces⟩), List.dropWhile_cons_of_pos space]
    · have begins : splitlines (c :: rest) = splitlinesFrom [c] rest := by
        rw [splitlines, splitlinesFrom_cons (Bool.eq_false_iff.mpr inner)]
      obtain ⟨ahead, lines, eq⟩ := @exists_splitlinesFrom rest [c] (List.cons_ne_nil _ _)
      have front : (acc.reverse ++ ([c].reverse ++ ahead)).dropWhile isSpace = c :: ahead := by
        rw [List.dropWhile_append_of_pos fun d mem => spaces d (List.mem_reverse.mp mem)]
        exact List.dropWhile_cons_of_neg space
      rw [List.dropWhile_cons_of_neg space, begins,
        show c :: acc = [c] ++ acc from rfl, splitlinesFrom_append (List.cons_ne_nil _ _), eq,
        List.modifyHead_cons, trimStart_cons, front]
      · rfl
      · rw [Ne, strip_eq_nil]
        intro all
        exact space (all c (by simp))

/-- **Stripping the start of a text**, line by line. -/
theorem splitlines_dropWhile : splitlines (s.dropWhile isSpace) = trimStart (splitlines s) :=
  (trimStart_from (by simp)).symm

theorem trimEnd_singleton_concat (space : isSpace c = true) : trimEnd [line ++ [c]] = trimEnd [line] := by
  have same : strip (line ++ [c]) = strip line := strip_append_spaces (by simpa using space)
  by_cases blank : strip line = []
  · rw [trimEnd_blanks (by simpa [same] using blank), trimEnd_blanks (by simpa using blank)]
  · have here := @trimEnd_concat line [] blank
    have there := @trimEnd_concat (line ++ [c]) [] (same ▸ blank)
    rw [List.rdropWhile_concat_pos _ _ _ space] at there
    exact there.trans here.symm

theorem splitlinesFrom_singleton : splitlinesFrom acc [c] =
    if isLineEnd c then [acc.reverse] else [acc.reverse ++ [c]] := by
  simp [splitlinesFrom]

/-- A space more at the end of a text is taken away with the others. -/
theorem trimEnd_from_concat (space : isSpace c = true) :
    trimEnd (splitlinesFrom acc (s ++ [c])) = trimEnd (splitlinesFrom acc s) := by
  fun_induction splitlinesFrom acc s with
  | case1 =>
    rw [List.nil_append, splitlinesFrom_singleton]
    split
    · rfl
    · exact trimEnd_singleton_concat space
  | case2 acc words =>
    rw [List.nil_append, splitlinesFrom_singleton]
    split
    · rfl
    · exact trimEnd_singleton_concat space
  | case3 acc rest ih => exact trimEnd_cons_congr ih
  | case4 acc d rest other ends ih =>
    by_cases joins : d = '\r' ∧ rest ++ [c] = ['\n']
    · obtain ⟨rfl, only⟩ := joins
      obtain rfl : rest = [] := by
        cases rest with
        | nil => rfl
        | cons e rest => simp at only
      obtain rfl : c = '\n' := by simpa using only
      rfl
    · have apart : ¬ (d = '\r' ∧ (rest ++ [c]).head? = some '\n') := by
        rintro ⟨rfl, first⟩
        cases rest with
        | nil => exact joins ⟨rfl, by simpa using first⟩
        | cons e rest =>
          obtain rfl : e = '\n' := by simpa using first
          exact other rest rfl rfl
      rw [List.cons_append, splitlinesFrom_cons_end ends apart]
      exact trimEnd_cons_congr ih
  | case5 acc d rest other inner ih =>
    rw [List.cons_append, splitlinesFrom_cons (Bool.eq_false_iff.mpr inner), ih]

/-- The last character of a text ends its last line, unless it is a line end. -/
theorem splitlinesFrom_concat (inner : isLineEnd c = false) :
    ∃ lines line, splitlinesFrom acc (s ++ [c]) = lines ++ [line ++ [c]] := by
  fun_induction splitlinesFrom acc s with
  | case1 => exact ⟨[], [], by simp [splitlinesFrom_singleton, inner]⟩
  | case2 acc words => exact ⟨[], acc.reverse, by simp [splitlinesFrom_singleton, inner]⟩
  | case3 acc rest ih =>
    obtain ⟨lines, line, eq⟩ := ih
    exact ⟨acc.reverse :: lines, line, congrArg (acc.reverse :: ·) eq⟩
  | case4 acc d rest other ends ih =>
    have apart : ¬ (d = '\r' ∧ (rest ++ [c]).head? = some '\n') := by
      rintro ⟨rfl, first⟩
      cases rest with
      | nil =>
        obtain rfl : c = '\n' := by simpa using first
        cases inner
      | cons e rest =>
        obtain rfl : e = '\n' := by simpa using first
        exact other rest rfl rfl
    obtain ⟨lines, line, eq⟩ := ih
    refine ⟨acc.reverse :: lines, line, ?_⟩
    rw [List.cons_append, splitlinesFrom_cons_end ends apart, eq]
    rfl
  | case5 acc d rest other inner' ih =>
    rwa [List.cons_append, splitlinesFrom_cons (Bool.eq_false_iff.mpr inner')]

/-- **Stripping the end of a text**, line by line. -/
theorem splitlines_rdropWhile : splitlines (s.rdropWhile isSpace) = trimEnd (splitlines s) := by
  induction s using List.reverseRecOn with
  | nil => rfl
  | append_singleton s c ih =>
    by_cases space : isSpace c = true
    · rw [List.rdropWhile_concat_pos _ _ _ space, ih]
      exact (trimEnd_from_concat space).symm
    · have inner : isLineEnd c = false := by
        by_contra ends
        exact space (isSpace_of_isLineEnd (by simpa using ends))
      obtain ⟨lines, line, eq⟩ := @splitlinesFrom_concat s [] c inner
      have words : strip (line ++ [c]) ≠ [] := by
        rw [Ne, strip_eq_nil]
        intro all
        exact space (all c (by simp))
      rw [List.rdropWhile_concat_neg _ _ _ space, splitlines, eq, trimEnd_concat words,
        List.rdropWhile_concat_neg _ _ _ space]

/-- **Stripping a text**, line by line. -/
theorem splitlines_strip : splitlines (strip s) = trimEnd (trimStart (splitlines s)) := by
  rw [strip, splitlines_rdropWhile, splitlines_dropWhile]

theorem exists_mem_of_mem_trimStart (mem : line ∈ trimStart lines) :
    ∃ other ∈ lines, strip other = strip line := by
  induction lines with
  | nil => cases mem
  | cons first lines ih =>
    by_cases blank : strip first = []
    · rw [trimStart_cons_blank blank] at mem
      obtain ⟨other, there, same⟩ := ih mem
      exact ⟨other, List.mem_cons_of_mem _ there, same⟩
    · rw [trimStart_cons blank] at mem
      rcases List.mem_cons.mp mem with rfl | mem
      · exact ⟨first, List.mem_cons_self, strip_dropWhile.symm⟩
      · exact ⟨line, List.mem_cons_of_mem _ mem, rfl⟩

theorem exists_mem_of_mem_trimEnd (mem : line ∈ trimEnd lines) :
    ∃ other ∈ lines, strip other = strip line := by
  rcases blanks_or_words lines with blank | ⟨init, last, blanks, rfl, words, blank⟩
  · rw [trimEnd_blanks blank] at mem
    cases mem
  · rw [trimEnd_append_blanks blank, trimEnd_concat words] at mem
    rcases List.mem_append.mp mem with mem | mem
    · exact ⟨line, by simp [mem], rfl⟩
    · obtain rfl := List.mem_singleton.mp mem
      exact ⟨last, by simp, strip_rdropWhile.symm⟩

/-- Each line of a stripped text is a line of the text, but for the spaces at its ends. -/
theorem exists_mem_of_mem_splitlines_strip (mem : line ∈ splitlines (strip s)) :
    ∃ other ∈ splitlines s, strip other = strip line := by
  rw [splitlines_strip] at mem
  obtain ⟨middle, there, same⟩ := exists_mem_of_mem_trimEnd mem
  obtain ⟨other, there, same'⟩ := exists_mem_of_mem_trimStart there
  exact ⟨other, there, same'.trans same⟩

/-! ## Joining lines, and splitting them again -/

theorem plain_of_mem_splitlinesFrom (plain : Plain acc.reverse)
    (mem : line ∈ splitlinesFrom acc s) : Plain line := by
  fun_induction splitlinesFrom acc s with
  | case1 => cases mem
  | case2 acc words =>
    obtain rfl := List.mem_singleton.mp mem
    exact plain
  | case3 acc rest ih =>
    rcases List.mem_cons.mp mem with rfl | mem
    · exact plain
    · exact ih (by simp [Plain]) mem
  | case4 acc c rest other ends ih =>
    rcases List.mem_cons.mp mem with rfl | mem
    · exact plain
    · exact ih (by simp [Plain]) mem
  | case5 acc c rest other inner ih =>
    refine ih ?_ mem
    intro d mem
    rcases List.mem_cons.mp (List.mem_reverse.mp mem) with rfl | mem
    · exact Bool.eq_false_iff.mpr inner
    · exact plain d (List.mem_reverse.mpr mem)

/-- A line of a text has no line end in it. -/
theorem plain_of_mem_splitlines (mem : line ∈ splitlines s) : Plain line :=
  plain_of_mem_splitlinesFrom (by simp [Plain]) mem

theorem splitlinesFrom_line (plain : Plain line) :
    splitlinesFrom acc (line ++ '\n' :: s) = (acc.reverse ++ line) :: splitlines s := by
  induction line generalizing acc with
  | nil =>
    rw [List.nil_append, splitlinesFrom_cons_end rfl (by simp), List.append_nil]
    rfl
  | cons c line ih =>
    have inner : isLineEnd c = false := plain c List.mem_cons_self
    rw [List.cons_append, splitlinesFrom_cons inner, ih fun d mem => plain d (List.mem_cons_of_mem _ mem)]
    simp

/-- A line that is ended is split off. -/
theorem splitlines_line (plain : Plain line) :
    splitlines (line ++ '\n' :: s) = line :: splitlines s := splitlinesFrom_line plain

theorem joinLines_cons (some : lines ≠ []) :
    joinLines (line :: lines) = line ++ '\n' :: joinLines lines := by
  obtain ⟨first, rest, rfl⟩ := List.exists_cons_of_ne_nil some
  rw [joinLines, List.intercalate_cons_cons]
  simp [joinLines]

theorem joinLines_append (some : lines ≠ []) (some' : more ≠ []) :
    joinLines (lines ++ more) = joinLines lines ++ '\n' :: joinLines more := by
  induction lines with
  | nil => exact absurd rfl some
  | cons line lines ih =>
    cases lines with
    | nil => simpa [joinLines] using joinLines_cons some'
    | cons second lines =>
      rw [List.cons_append, joinLines_cons (by simp), ih (by simp),
        @joinLines_cons line (second :: lines) (by simp), List.append_assoc, List.cons_append]

theorem infix_joinLines (mem : line ∈ lines) : line <:+: joinLines lines := by
  obtain ⟨before, after, rfl⟩ := List.append_of_mem mem
  have here : line <:+: joinLines (line :: after) := by
    cases after with
    | nil =>
      rw [joinLines, List.intercalate_singleton]
    | cons second after =>
      rw [joinLines_cons (by simp)]
      exact (List.prefix_append _ _).isInfix
  cases before with
  | nil => exact here
  | cons first before =>
    rw [joinLines_append (by simp) (by simp)]
    exact here.trans ((List.suffix_cons _ _).isInfix.trans (List.suffix_append _ _).isInfix)

/-- The first lines of equal texts are equal. -/
theorem append_newline_inj {more : Line} (own : '\n' ∉ s) (other : '\n' ∉ line)
    (eq : s ++ '\n' :: t = line ++ '\n' :: more) : s = line ∧ t = more := by
  rcases List.append_eq_append_iff.mp eq with ⟨gap, rfl, rest⟩ | ⟨gap, rfl, rest⟩
  · cases gap with
    | nil => exact ⟨by simp, (List.cons.inj rest).2⟩
    | cons c gap =>
      obtain ⟨rfl, -⟩ := List.cons.inj rest
      exact absurd (by simp) other
  · cases gap with
    | nil => exact ⟨by simp, (List.cons.inj rest).2.symm⟩
    | cons c gap =>
      obtain ⟨rfl, -⟩ := List.cons.inj rest
      exact absurd (by simp) own

/-- Where joined lines have a newline, the lines are parted. -/
theorem split_of_joinLines (plain : ∀ line ∈ lines, '\n' ∉ line)
    (eq : joinLines lines = s ++ '\n' :: t) : ∃ before after, lines = before ++ after ∧
      before ≠ [] ∧ after ≠ [] ∧ joinLines before = s ∧ joinLines after = t := by
  induction lines generalizing s with
  | nil => simp [joinLines] at eq
  | cons line lines ih =>
    have own : '\n' ∉ line := plain line List.mem_cons_self
    cases lines with
    | nil =>
      rw [joinLines, List.intercalate_singleton] at eq
      exact absurd (by simp [eq]) own
    | cons second lines =>
      rw [joinLines_cons (by simp)] at eq
      rcases List.append_eq_append_iff.mp eq with ⟨gap, rfl, rest⟩ | ⟨gap, rfl, rest⟩
      · cases gap with
        | nil =>
          obtain ⟨-, rfl⟩ := List.cons.inj rest
          exact ⟨[line], second :: lines, rfl, by simp, by simp, by simp [joinLines], rfl⟩
        | cons c gap =>
          obtain ⟨rfl, later⟩ := List.cons.inj rest
          obtain ⟨before, after, eq, some, some', first, last⟩ :=
            ih (fun other mem => plain other (List.mem_cons_of_mem _ mem)) later
          refine ⟨line :: before, after, by rw [eq]; rfl, by simp, some', ?_, last⟩
          rw [joinLines_cons some, first]
      · cases gap with
        | nil =>
          obtain ⟨-, rfl⟩ := List.cons.inj rest
          exact ⟨[s], second :: lines, by simp, by simp, by simp, by simp [joinLines], rfl⟩
        | cons c gap =>
          obtain ⟨rfl, -⟩ := List.cons.inj rest
          exact absurd (by simp) own

theorem mem_joinLines (mem : c ∈ joinLines lines) : c = '\n' ∨ ∃ line ∈ lines, c ∈ line := by
  induction lines with
  | nil => cases mem
  | cons line lines ih =>
    cases lines with
    | nil => exact .inr ⟨line, List.mem_cons_self, by simpa [joinLines] using mem⟩
    | cons second lines =>
      rw [joinLines_cons (by simp), List.mem_append, List.mem_cons] at mem
      rcases mem with mem | rfl | mem
      · exact .inr ⟨line, List.mem_cons_self, mem⟩
      · exact .inl rfl
      · rcases ih mem with newline | ⟨other, there, mem⟩
        · exact .inl newline
        · exact .inr ⟨other, List.mem_cons_of_mem _ there, mem⟩

/-- **Joined lines are split again**, whatever comes after them. -/
theorem splitlines_joinLines_append (some : lines ≠ []) (plain : ∀ line ∈ lines, Plain line) :
    splitlines (joinLines lines ++ '\n' :: s) = lines ++ splitlines s := by
  induction lines with
  | nil => exact absurd rfl some
  | cons line lines ih =>
    have first : Plain line := plain line List.mem_cons_self
    cases lines with
    | nil =>
      rw [joinLines, List.intercalate_singleton]
      exact splitlines_line first
    | cons second lines =>
      rw [joinLines_cons (by simp), List.append_assoc, List.cons_append, splitlines_line first,
        ih (by simp) fun other mem => plain other (List.mem_cons_of_mem _ mem)]
      rfl

theorem splitlines_joinLines (some : lines ≠ []) (plain : ∀ line ∈ lines, Plain line) :
    splitlines (joinLines lines ++ ['\n']) = lines := by
  rw [splitlines_joinLines_append some plain]
  exact List.append_nil lines

theorem splitlinesFrom_concat_newline (inner : ∀ c ∈ s.getLast?, isLineEnd c = false)
    (some : s = [] → acc ≠ []) : splitlinesFrom acc (s ++ ['\n']) = splitlinesFrom acc s := by
  fun_induction splitlinesFrom acc s with
  | case1 => exact absurd rfl (some rfl)
  | case2 acc words =>
    rw [List.nil_append, splitlinesFrom_singleton]
    exact if_pos rfl
  | case3 acc rest ih =>
    cases rest with
    | nil => cases inner '\n' rfl
    | cons d rest =>
      have rest' := ih (by simpa [List.getLast?_cons_cons] using inner) (by simp)
      exact congrArg (acc.reverse :: ·) rest'
  | case4 acc c rest other ends ih =>
    cases rest with
    | nil => cases ends.symm.trans (inner c rfl)
    | cons d rest =>
      have apart : ¬ (c = '\r' ∧ (d :: rest ++ ['\n']).head? = Option.some '\n') := by
        rintro ⟨rfl, first⟩
        obtain rfl : d = '\n' := by simpa using first
        exact other rest rfl rfl
      rw [List.cons_append, splitlinesFrom_cons_end ends apart,
        ih (by simpa [List.getLast?_cons_cons] using inner) (by simp)]
  | case5 acc c rest other inner' ih =>
    rw [List.cons_append, splitlinesFrom_cons (Bool.eq_false_iff.mpr inner')]
    apply ih
    · intro d last
      cases rest with
      | nil => cases last
      | cons e rest => exact inner d (by rwa [List.getLast?_cons_cons])
    · simp

theorem splitlinesFrom_plain (plain : Plain line) (some : acc ++ line ≠ []) :
    splitlinesFrom acc line = [acc.reverse ++ line] := by
  induction line generalizing acc with
  | nil =>
    rw [List.append_nil] at some ⊢
    rw [splitlinesFrom, if_neg some]
  | cons c line ih =>
    rw [splitlinesFrom_cons (plain c List.mem_cons_self),
      ih (fun d mem => plain d (List.mem_cons_of_mem _ mem)) (by simp)]
    simp

theorem splitlinesFrom_opening (plain : Plain line) :
    splitlinesFrom acc (line ++ s) = splitlinesFrom (line.reverse ++ acc) s := by
  induction line generalizing acc with
  | nil => rfl
  | cons c line ih =>
    rw [List.cons_append, splitlinesFrom_cons (plain c List.mem_cons_self),
      ih fun d mem => plain d (List.mem_cons_of_mem _ mem)]
    simp

/-- Joined lines are split again also if the last is not ended, unless there is nothing in it. -/
theorem splitlines_joinLines_open (plain : ∀ line ∈ lines, Plain line)
    (last : ∀ line ∈ lines.getLast?, line ≠ []) : splitlines (joinLines lines) = lines := by
  induction lines with
  | nil => rfl
  | cons line lines ih =>
    have first : Plain line := plain line List.mem_cons_self
    cases lines with
    | nil =>
      rw [joinLines, List.intercalate_singleton]
      exact splitlinesFrom_plain first (by simpa using last)
    | cons second lines =>
      rw [joinLines_cons (by simp), splitlines_line first,
        ih (fun other mem => plain other (List.mem_cons_of_mem _ mem))
          (by simpa [List.getLast?_cons_cons] using last)]

/-- A line end before other text is one of its own, unless a newline was put behind it. -/
theorem apart_of_other (other : ∀ rest, c = '\r' → s = '\n' :: rest → False)
    (last : ¬ (c = '\r' ∧ s = [])) : ¬ (c = '\r' ∧ (s ++ t).head? = some '\n') := by
  rintro ⟨rfl, first⟩
  cases s with
  | nil => exact last ⟨rfl, rfl⟩
  | cons d s =>
    obtain rfl : d = '\n' := by simpa using first
    exact other s rfl rfl

theorem splitlinesFrom_newline :
    splitlinesFrom acc (s ++ '\n' :: t) = splitlinesFrom acc (s ++ ['\n']) ++ splitlines t := by
  have ended : ∀ acc more, splitlinesFrom acc ('\n' :: more) = acc.reverse :: splitlines more :=
    fun acc more => splitlinesFrom_cons_end rfl (by simp)
  fun_induction splitlinesFrom acc s with
  | case1 => rw [List.nil_append, List.nil_append, ended, ended]; rfl
  | case2 acc words => rw [List.nil_append, List.nil_append, ended, ended]; rfl
  | case3 acc rest ih => exact congrArg (acc.reverse :: ·) ih
  | case4 acc c rest other ends ih =>
    by_cases last : c = '\r' ∧ rest = []
    · obtain ⟨rfl, rfl⟩ := last
      rfl
    · rw [List.cons_append, List.cons_append, splitlinesFrom_cons_end ends (apart_of_other other last),
        splitlinesFrom_cons_end ends (apart_of_other other last), ih]
      rfl
  | case5 acc c rest other inner ih =>
    rw [List.cons_append, List.cons_append, splitlinesFrom_cons (Bool.eq_false_iff.mpr inner),
      splitlinesFrom_cons (Bool.eq_false_iff.mpr inner), ih]

/-- **A newline parts the lines**, whatever stands before it. -/
theorem splitlines_newline :
    splitlines (s ++ '\n' :: t) = splitlines (s ++ ['\n']) ++ splitlines t := splitlinesFrom_newline

theorem rdropWhile_append_spaces (spaces : ∀ c ∈ t, isSpace c = true) :
    (s ++ t).rdropWhile isSpace = s.rdropWhile isSpace := by
  rw [List.rdropWhile, List.reverse_append, List.dropWhile_append_of_pos, List.rdropWhile]
  exact fun c mem => spaces c (List.mem_reverse.mp mem)

/-- The spaces at the end of joined lines, line by line. -/
theorem joinLines_trimEnd : joinLines (trimEnd lines) = (joinLines lines).rdropWhile isSpace := by
  induction lines using List.reverseRecOn with
  | nil => rfl
  | append_singleton lines last ih =>
    have single : ∀ line : Line, joinLines [line] = line := fun _ => List.intercalate_singleton
    by_cases blank : strip last = []
    · rw [trimEnd_concat_blank blank, ih]
      have spaces := strip_eq_nil.mp blank
      cases lines with
      | nil =>
        rw [List.nil_append, single, joinLines]
        exact (List.rdropWhile_eq_nil_iff.mpr spaces).symm
      | cons first lines =>
        rw [joinLines_append (by simp) (by simp), single]
        exact (rdropWhile_append_spaces (List.forall_mem_cons.mpr ⟨rfl, spaces⟩)).symm
    · rw [trimEnd_concat blank]
      cases lines with
      | nil =>
        rw [List.nil_append, List.nil_append, single, single]
      | cons first lines =>
        have ended : joinLines (first :: lines) ++ '\n' :: last =
            (joinLines (first :: lines) ++ ['\n']) ++ last := by simp
        rw [joinLines_append (by simp) (by simp), joinLines_append (by simp) (by simp), single, single,
          ended, rdropWhile_append blank]
        simp

/-- A first line that lost its spaces is as blank as it was. -/
theorem rdropWhile_modifyHead :
    (lines.modifyHead (·.dropWhile isSpace)).rdropWhile (fun line => strip line = []) =
      (lines.rdropWhile fun line => strip line = []).modifyHead (·.dropWhile isSpace) := by
  cases lines with
  | nil => rfl
  | cons first rest =>
    rw [List.modifyHead_cons]
    induction rest using List.reverseRecOn with
    | nil =>
      by_cases blank : strip first = []
      · rw [List.rdropWhile_singleton, List.rdropWhile_singleton, if_pos (by simpa [strip_dropWhile]),
          if_pos (by simpa)]
        rfl
      · rw [List.rdropWhile_singleton, List.rdropWhile_singleton,
          if_neg (by simpa [strip_dropWhile]), if_neg (by simpa)]
        rfl
    | append_singleton rest last ih =>
      rw [← List.cons_append, ← List.cons_append]
      by_cases blank : strip last = []
      · rw [List.rdropWhile_concat_pos _ _ _ (by simpa), List.rdropWhile_concat_pos _ _ _ (by simpa)]
        exact ih
      · rw [List.rdropWhile_concat_neg _ _ _ (by simpa), List.rdropWhile_concat_neg _ _ _ (by simpa)]
        rfl

theorem stripText_eq : stripText lines = trimEnd (trimStart lines) := by
  rw [stripText, trimEnd, trimStart, rdropWhile_modifyHead]

theorem joinLines_trimStart : joinLines (trimStart lines) = (joinLines lines).dropWhile isSpace := by
  induction lines with
  | nil => rfl
  | cons line lines ih =>
    have single : ∀ line : Line, joinLines [line] = line := fun _ => List.intercalate_singleton
    by_cases blank : strip line = []
    · rw [trimStart_cons_blank blank, ih]
      have spaces := strip_eq_nil.mp blank
      cases lines with
      | nil =>
        rw [single, joinLines]
        exact (List.dropWhile_eq_nil_iff.mpr spaces).symm
      | cons first lines =>
        rw [@joinLines_cons line (first :: lines) (by simp), List.dropWhile_append_of_pos spaces,
          List.dropWhile_cons_of_pos rfl]
    · rw [trimStart_cons blank]
      cases lines with
      | nil => rw [single, single]
      | cons first lines =>
        have words : line.dropWhile isSpace ≠ [] := by
          intro empty
          exact blank (strip_eq_nil.mpr (List.dropWhile_eq_nil_iff.mp empty))
        rw [@joinLines_cons _ (first :: lines) (by simp), @joinLines_cons _ (first :: lines) (by simp),
          List.dropWhile_append,
          if_neg (by simpa using words)]

/-- **Stripping a text line by line** is stripping it. -/
theorem joinLines_stripText : joinLines (stripText lines) = strip (joinLines lines) := by
  rw [stripText_eq, joinLines_trimEnd, joinLines_trimStart, strip]

/-- A line end at the end of a text makes no line more, unless there is one already. -/
theorem splitlines_concat_newline (inner : ∀ c ∈ s.getLast?, isLineEnd c = false) (some : s ≠ []) :
    splitlines (s ++ ['\n']) = splitlines s :=
  splitlinesFrom_concat_newline inner fun none => absurd none some

theorem splitlinesFrom_concat_newline_cases :
    splitlinesFrom acc (s ++ ['\n']) = splitlinesFrom acc s ∨
      splitlinesFrom acc (s ++ ['\n']) = splitlinesFrom acc s ++ [[]] := by
  fun_induction splitlinesFrom acc s with
  | case1 => exact .inr rfl
  | case2 acc words => exact .inl (splitlinesFrom_cons_end rfl (by simp))
  | case3 acc rest ih => exact ih.imp (congrArg (acc.reverse :: ·)) (congrArg (acc.reverse :: ·))
  | case4 acc c rest other ends ih =>
    by_cases last : c = '\r' ∧ rest = []
    · obtain ⟨rfl, rfl⟩ := last
      exact .inl rfl
    · rw [List.cons_append, splitlinesFrom_cons_end ends (apart_of_other other last)]
      exact ih.imp (congrArg (acc.reverse :: ·)) (congrArg (acc.reverse :: ·))
  | case5 acc c rest other inner ih =>
    rwa [List.cons_append, splitlinesFrom_cons (Bool.eq_false_iff.mpr inner)]

/-- A newline at the end of a text makes one empty line more, or none. -/
theorem splitlines_concat_newline_cases : splitlines (s ++ ['\n']) = splitlines s ∨
    splitlines (s ++ ['\n']) = splitlines s ++ [[]] := splitlinesFrom_concat_newline_cases

/-- A text that is ended anew has its lines, up to the last with words. -/
theorem splitlines_ended (words : strip s ≠ []) :
    splitlines (s.rdropWhile isSpace ++ ['\n']) = trimEnd (splitlines s) := by
  have some : s.rdropWhile isSpace ≠ [] := by
    rw [Ne, List.rdropWhile_eq_nil_iff]
    exact fun spaces => words (strip_eq_nil.mpr spaces)
  have inner : ∀ c ∈ (s.rdropWhile isSpace).getLast?, isLineEnd c = false := by
    intro c last
    obtain ⟨nonempty, rfl⟩ := List.mem_getLast?_eq_getLast last
    by_contra ends
    exact List.rdropWhile_last_not _ _ nonempty (isSpace_of_isLineEnd (by simpa using ends))
  rw [splitlines_concat_newline inner some, splitlines_rdropWhile]

theorem joinLines_splitlinesFrom (ends : ∀ c ∈ s, isLineEnd c = true → c = '\n')
    (closes : ∀ c ∈ s.getLast?, c ≠ '\n') :
    joinLines (splitlinesFrom acc s) = acc.reverse ++ s := by
  fun_induction splitlinesFrom acc s with
  | case1 => rfl
  | case2 acc words => simp [joinLines]
  | case3 acc rest ih => cases ends '\r' List.mem_cons_self rfl
  | case4 acc c rest other ends' ih =>
    obtain rfl := ends c List.mem_cons_self ends'
    cases rest with
    | nil => exact absurd rfl (closes '\n' rfl)
    | cons d rest =>
      have joined := ih (fun e mem => ends e (List.mem_cons_of_mem _ mem))
        (by simpa [List.getLast?_cons_cons] using closes)
      have some : splitlinesFrom [] (d :: rest) ≠ [] := by
        intro none
        rw [none] at joined
        cases joined
      rw [joinLines_cons some, joined]
      rfl
  | case5 acc c rest other inner ih =>
    rw [ih fun e mem => ends e (List.mem_cons_of_mem _ mem)]
    · simp
    · intro d last
      cases rest with
      | nil => cases last
      | cons e rest => exact closes d (by rwa [List.getLast?_cons_cons])

/-- **Split lines are joined again**, where no line ends otherwise. -/
theorem joinLines_splitlines (ends : ∀ c ∈ s, isLineEnd c = true → c = '\n')
    (closes : ∀ c ∈ s.getLast?, c ≠ '\n') : joinLines (splitlines s) = s :=
  joinLines_splitlinesFrom ends closes

/-- What has no line end in it is found on one line. -/
theorem infix_append_cons {word : Line} (other : c ∉ word) (h : word <:+: s ++ c :: t) :
    word <:+: s ∨ word <:+: t := by
  obtain ⟨before, after, whole⟩ := h
  rcases List.append_eq_append_iff.mp whole with ⟨rest, rfl, -⟩ | ⟨rest, eq, eq'⟩
  · exact .inl ⟨before, rest, rfl⟩
  · cases rest with
    | nil => exact .inl ⟨before, [], by simpa using eq⟩
    | cons d rest =>
      clear whole
      obtain ⟨rfl, rfl⟩ := List.cons.inj eq'
      rcases List.append_eq_append_iff.mp eq with ⟨more, rfl, rfl⟩ | ⟨more, rfl, split⟩
      · simp at other
      · clear eq
        cases more with
        | nil =>
          obtain rfl : word = c :: rest := by simpa using split.symm
          simp at other
        | cons e more =>
          obtain ⟨rfl, rfl⟩ := List.cons.inj split
          exact .inr ⟨more, after, rfl⟩

/-- What has no newline in it is found in one of the joined lines. -/
theorem exists_of_infix_joinLines {word : Line} (plain : '\n' ∉ word) (some : word ≠ [])
    (h : word <:+: joinLines lines) : ∃ line ∈ lines, word <:+: line := by
  induction lines with
  | nil => exact absurd (List.infix_nil.mp h) some
  | cons line lines ih =>
    cases lines with
    | nil =>
      rw [joinLines, List.intercalate_singleton] at h
      exact ⟨line, List.mem_cons_self, h⟩
    | cons second lines =>
      rw [joinLines_cons (by simp)] at h
      rcases infix_append_cons plain h with here | later
      · exact ⟨line, List.mem_cons_self, here⟩
      · obtain ⟨other, mem, inside⟩ := ih later
        exact ⟨other, List.mem_cons_of_mem _ mem, inside⟩

theorem exists_line_of_infix_from {word : Line} (plain : Plain word) (some : word ≠ [])
    (h : word <:+: acc.reverse ++ s) : ∃ line ∈ splitlinesFrom acc s, word <:+: line := by
  have apart : ∀ c, isLineEnd c = true → c ∉ word := fun c ends mem => by
    rw [plain c mem] at ends
    cases ends
  fun_induction splitlinesFrom acc s with
  | case1 => exact absurd (List.eq_nil_of_infix_nil h) some
  | case2 acc words => exact ⟨_, List.mem_singleton_self _, by simpa using h⟩
  | case3 acc rest ih =>
    rcases infix_append_cons (apart '\r' rfl) h with here | h
    · exact ⟨_, List.mem_cons_self, here⟩
    · rcases @infix_append_cons [] rest '\n' word (apart '\n' rfl) h with none | h
      · exact absurd (List.eq_nil_of_infix_nil none) some
      · obtain ⟨line, mem, inside⟩ := ih h
        exact ⟨line, List.mem_cons_of_mem _ mem, inside⟩
  | case4 acc c rest other ends ih =>
    rcases infix_append_cons (apart c ends) h with here | h
    · exact ⟨_, List.mem_cons_self, here⟩
    · obtain ⟨line, mem, inside⟩ := ih h
      exact ⟨line, List.mem_cons_of_mem _ mem, inside⟩
  | case5 acc c rest other inner ih => exact ih (by simpa using h)

theorem exists_line_of_infix {word : Line} (plain : Plain word) (some : word ≠ [])
    (h : word <:+: s) : ∃ line ∈ splitlines s, word <:+: line :=
  exists_line_of_infix_from plain some h

theorem infix_of_mem_splitlinesFrom (mem : line ∈ splitlinesFrom acc s) :
    line <:+: acc.reverse ++ s := by
  fun_induction splitlinesFrom acc s with
  | case1 => cases mem
  | case2 acc words =>
    obtain rfl := List.mem_singleton.mp mem
    exact ⟨[], [], by simp⟩
  | case3 acc rest ih =>
    rcases List.mem_cons.mp mem with rfl | mem
    · exact ⟨[], _, by rw [List.nil_append]⟩
    · obtain ⟨before, after, eq⟩ := ih mem
      have eq : before ++ line ++ after = rest := eq
      exact ⟨acc.reverse ++ '\r' :: '\n' :: before, after, by simp [← eq]⟩
  | case4 acc c rest other ends ih =>
    rcases List.mem_cons.mp mem with rfl | mem
    · exact ⟨[], _, by rw [List.nil_append]⟩
    · obtain ⟨before, after, eq⟩ := ih mem
      have eq : before ++ line ++ after = rest := eq
      exact ⟨acc.reverse ++ c :: before, after, by simp [← eq]⟩
  | case5 acc c rest other inner ih => simpa using ih mem

theorem infix_of_mem_splitlines (mem : line ∈ splitlines s) : line <:+: s :=
  infix_of_mem_splitlinesFrom mem

/-- What one rewriting of a line does: the line is the first of its kind. -/
theorem eq_of_subOnce {hit : Line → Bool} {repl : Line} {old new : Text}
    (h : subOnce hit repl old = some new) : ∃ before line after,
      old = before ++ line :: after ∧ hit line = true ∧ new = before ++ repl :: after ∧
        ∀ other ∈ before, hit other = false := by
  induction old generalizing new with
  | nil => cases h
  | cons first lines ih =>
    rw [subOnce] at h
    split at h
    · next hit =>
      obtain rfl := Option.some.inj h
      exact ⟨[], first, lines, rfl, hit, rfl, by simp⟩
    · next other =>
      obtain ⟨rest, set, rfl⟩ := Option.map_eq_some_iff.mp h
      obtain ⟨before, line, after, rfl, hit, rfl, none⟩ := ih set
      refine ⟨first :: before, line, after, rfl, hit, rfl, ?_⟩
      exact List.forall_mem_cons.mpr ⟨by simpa using other, none⟩

/-- Nothing is cut on a line where the separator cannot begin. -/
theorem cut?_skip {sep rest before after : Line} {d : Char} (opens : sep.head? = some d)
    (line : Line) (plain : d ∉ line) (found : cut? sep rest = some (before, after)) :
    cut? sep (line ++ rest) = some (line ++ before, after) := by
  induction line with
  | nil => exact found
  | cons c line ih =>
    have other : sep.isPrefixOf (c :: (line ++ rest)) = false := by
      cases sep with
      | nil => cases opens
      | cons e sep =>
        obtain rfl := Option.some.inj opens
        have differs : e ≠ c := fun eq => plain (eq ▸ List.mem_cons_self)
        simp [List.isPrefixOf, differs]
    rw [List.cons_append, cut?, other, ih fun mem => plain (List.mem_cons_of_mem _ mem)]
    rfl

/-- What stands after the first separator does not matter for where it stands. -/
theorem cut?_congr {sep before after : Line} (later : Line)
    (h : cut? sep (before ++ (sep ++ after)) = some (before, after)) :
    cut? sep (before ++ (sep ++ later)) = some (before, later) := by
  induction before with
  | nil =>
    cases sep with
    | nil => cases later <;> rfl
    | cons d sep =>
      have here : (d :: sep).isPrefixOf (d :: (sep ++ later)) = true :=
        List.isPrefixOf_iff_prefix.mpr (List.prefix_append (d :: sep) later)
      rw [List.nil_append, List.cons_append, cut?, here]
      simp
  | cons c before ih =>
    have local' : ∀ rest, sep.isPrefixOf (c :: (before ++ (sep ++ rest))) =
        sep.isPrefixOf (c :: (before ++ sep)) := by
      intro rest
      have front : c :: (before ++ (sep ++ rest)) = (c :: (before ++ sep)) ++ rest := by simp
      rw [front, Bool.eq_iff_iff, List.isPrefixOf_iff_prefix, List.isPrefixOf_iff_prefix]
      exact List.isPrefix_append_of_length (by simp; omega)
    rw [List.cons_append, cut?, local'] at h ⊢
    split at h
    · cases h
    · next other =>
      rw [if_neg other]
      obtain ⟨pair, found, eq⟩ := Option.map_eq_some_iff.mp h
      obtain ⟨front, back⟩ := pair
      obtain ⟨same, rfl⟩ := Prod.mk.inj eq
      obtain rfl := (List.cons.inj same).2
      rw [ih found]
      rfl

theorem stripOf_eq_self {drop : Char → Bool} (none : ∀ c ∈ s, drop c = false) : stripOf drop s = s := by
  have front : s.dropWhile drop = s := by
    rw [List.dropWhile_eq_self_iff]
    intro pos
    simp [none _ (List.getElem_mem pos)]
  rw [stripOf, front, List.rdropWhile_eq_self_iff]
  intro nonempty
  simp [none _ (List.getLast_mem nonempty)]

/-! ## Letters -/

theorem isLower_iff : c.isLower = true ↔ 97 ≤ c.toNat ∧ c.toNat ≤ 122 := by
  show (decide (c.val ≥ 'a'.val) && decide (c.val ≤ 'z'.val)) = true ↔ _
  rw [Bool.and_eq_true, decide_eq_true_iff, decide_eq_true_iff]
  exact Iff.rfl

theorem isUpper_iff : c.isUpper = true ↔ 65 ≤ c.toNat ∧ c.toNat ≤ 90 := decide_eq_true_iff

theorem isAlpha_iff :
    c.isAlpha = true ↔ 65 ≤ c.toNat ∧ c.toNat ≤ 90 ∨ 97 ≤ c.toNat ∧ c.toNat ≤ 122 := by
  show (c.isUpper || c.isLower) = true ↔ _
  rw [Bool.or_eq_true, isUpper_iff, isLower_iff]

theorem toNat_toLower (upper : 65 ≤ c.toNat ∧ c.toNat ≤ 90) : c.toLower.toNat = c.toNat + 32 := by
  have moved : c.toLower.val = c.val + 32 := congrArg Char.val (dif_pos upper)
  have code : c.val.toNat = c.toNat := rfl
  show c.toLower.val.toNat = _
  rw [moved, UInt32.toNat_add, code]
  exact Nat.mod_eq_of_lt (show c.toNat + 32 < 2 ^ 32 by omega)

theorem toLower_eq_self (other : ¬ (65 ≤ c.toNat ∧ c.toNat ≤ 90)) : c.toLower = c := dif_neg other

/-! ## Lower case -/

theorem isLower_or_eq (c : Char) : (lowerChar c).isLower = true ∨ lowerChar c = c := by
  unfold lowerChar
  split
  · exact .inl rfl
  · by_cases upper : 65 ≤ c.toNat ∧ c.toNat ≤ 90
    · left
      rw [isLower_iff, toNat_toLower upper]
      omega
    · exact .inr (toLower_eq_self upper)

theorem lowerChar_eq_self (other : c.toNat ≠ 0x212a) (apart : c.toNat < 65 ∨ 90 < c.toNat) :
    lowerChar c = c := by
  rw [lowerChar, if_neg other, toLower_eq_self]
  omega

theorem lowerChar_of_isLower (lower : c.isLower = true) : lowerChar c = c := by
  rw [isLower_iff] at lower
  exact lowerChar_eq_self (by omega) (by omega)

theorem lowerChar_lowerChar : lowerChar (lowerChar c) = lowerChar c := by
  rcases isLower_or_eq c with lower | same
  · exact lowerChar_of_isLower lower
  · rw [same, same]

theorem lower_lower : lower (lower s) = lower s := by
  simp [lower, lowerChar_lowerChar]

end LibOsdp.Base
