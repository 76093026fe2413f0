import LibOsdp.Base.Lines

/-!
# Records in text

What one program prints for another to read: lines that are ended, of words between blanks or of
fields between separators. What was printed is read back, line by line and word by word, and a
record that is looked for by its first field is found.
-/

set_option autoImplicit false

namespace LibOsdp.Base

variable {s t word : Line} {ws fields lines : List Line} {c sep : Char}

/-- `str.split`: the words between blanks. -/
def words (s : Line) : List Line := (s.splitOnP isSpace).filter (· ≠ [])

/-- `" ".join`. -/
def joinWords (ws : List Line) : Line := [' '].intercalate ws

/-- A word has characters, and none of them is a blank. -/
def Word (word : Line) : Prop := word ≠ [] ∧ ∀ c ∈ word, isSpace c = false

/-- `sep.join`. -/
def joinFields (sep : Char) (fields : List Line) : Line := [sep].intercalate fields

/-- The lines, each with its end. -/
def endLines (lines : List Line) : Line := lines.flatMap (· ++ ['\n'])

/-! ## Words -/

theorem forall_false_of_all {p : Char → Bool} (all : s.all (! p ·) = true) :
    ∀ c ∈ s, p c = false := by
  simpa using all

theorem Word.of_all (some : word ≠ []) (all : word.all (! isSpace ·) = true) : Word word :=
  ⟨some, forall_false_of_all all⟩

theorem Word.plain (h : Word word) : Plain word := by
  intro c mem
  by_contra ends
  have space := isSpace_of_isLineEnd (eq_true_of_ne_false ends)
  rw [h.2 c mem] at space
  cases space

/-- A blank is between the words before it and those after it. -/
theorem words_append_cons (blank : isSpace c = true) : words (s ++ c :: t) = words s ++ words t := by
  rw [words, List.splitOnP_append_cons s t blank, List.filter_append]
  rfl

theorem joinWords_cons (some : ws ≠ []) : joinWords (word :: ws) = word ++ ' ' :: joinWords ws := by
  rw [joinWords, List.intercalate_cons_of_ne_nil some, List.append_assoc]
  rfl

theorem words_of_word (h : Word word) : words word = [word] := by
  rw [words, List.splitOnP_eq_singleton h.2, List.filter_cons_of_pos (by simpa using h.1)]
  rfl

/-- **The words that were joined are split again.** -/
theorem words_joinWords (all : ∀ word ∈ ws, Word word) : words (joinWords ws) = ws := by
  induction ws with
  | nil => rfl
  | cons word ws ih =>
    have first := words_of_word (all word List.mem_cons_self)
    cases ws with
    | nil => rwa [joinWords, List.intercalate_singleton]
    | cons second ws =>
      have rest := ih fun other mem => all other (List.mem_cons_of_mem _ mem)
      rw [joinWords_cons (by simp), words_append_cons rfl, first, rest]
      rfl

/-- What is true of all characters that are joined, and of that between them. -/
theorem forall_mem_intercalate {P : Char → Prop} (own : P sep)
    (all : ∀ line ∈ lines, ∀ c ∈ line, P c) : ∀ c ∈ [sep].intercalate lines, P c := by
  induction lines with
  | nil => exact fun c mem => nomatch mem
  | cons line lines ih =>
    have first := all line List.mem_cons_self
    cases lines with
    | nil => rwa [List.intercalate_singleton]
    | cons second lines =>
      have rest := ih fun other mem => all other (List.mem_cons_of_mem _ mem)
      intro c mem
      rw [List.intercalate_cons_cons, List.append_assoc, List.singleton_append] at mem
      rcases List.mem_append.mp mem with mem | mem
      · exact first c mem
      · rcases List.mem_cons.mp mem with rfl | mem
        · exact own
        · exact rest c mem

/-! ## Fields -/

/-- **The fields that were joined are split again.** -/
theorem splitOn_joinFields (some : fields ≠ []) (apart : ∀ field ∈ fields, sep ∉ field) :
    (joinFields sep fields).splitOn sep = fields :=
  List.splitOn_intercalate sep apart some

/-- A record of two fields or more opens with a field and its separator exactly if it is the first. -/
theorem opens_joinFields {field first second : Line} {rest : List Line} (own : sep ∉ field)
    (apart : sep ∉ first) :
    field ++ [sep] <+: joinFields sep (first :: second :: rest) ↔ first = field := by
  rw [joinFields, List.intercalate_cons_cons, List.append_assoc, List.singleton_append]
  constructor
  · rintro ⟨t, same⟩
    have heads := congrArg (fun line => (List.splitOn sep line).head?) same
    simp only [List.append_assoc, List.singleton_append] at heads
    rw [List.splitOn_append_cons_of_beq _ _ BEq.rfl, List.splitOn_append_cons_of_beq _ _ BEq.rfl,
      List.splitOn_eq_singleton own, List.splitOn_eq_singleton apart] at heads
    exact (Option.some.inj heads).symm
  · rintro rfl
    exact ⟨_, by rw [List.append_assoc, List.singleton_append]⟩

/-! ## Openings -/

theorem not_prefix_append {opening other : Line} (apart : ¬ other <+: opening)
    (apart' : ¬ opening <+: other) : ¬ other <+: opening ++ s := by
  intro opens
  rcases List.prefix_or_prefix_of_prefix opens (List.prefix_append opening s) with within | within
  · exact apart within
  · exact apart' within

/-- What a line does not open with, and its first character does not come again before `s`, is
    in `s`. -/
theorem infix_of_opening {tail : Line} (once : c ∉ tail) (other : ¬ c :: word <+: c :: tail ++ s)
    (h : c :: word <:+: c :: tail ++ s) : c :: word <:+: s := by
  rcases List.infix_cons_iff.mp h with opens | ⟨front, back, whole⟩
  · exact absurd opens other
  · rw [List.append_assoc] at whole
    rcases List.append_eq_append_iff.mp whole with ⟨more, rfl, same⟩ | ⟨more, rfl, same⟩
    · cases more with
      | nil => exact ⟨[], back, by simpa using same⟩
      | cons d more =>
        obtain ⟨rfl, -⟩ := List.cons.inj same
        simp at once
    · exact ⟨more, back, by rw [List.append_assoc]; exact same.symm⟩

/-! ## Lines -/

theorem endLines_cons {line : Line} : endLines (line :: lines) = line ++ '\n' :: endLines lines := by
  rw [endLines, List.flatMap_cons, List.append_assoc]
  rfl

/-- **The lines that were ended are split again**, each for itself: there may be ends in it. -/
theorem splitlines_endLines :
    splitlines (endLines lines) = lines.flatMap fun line => splitlines (line ++ ['\n']) := by
  induction lines with
  | nil => rfl
  | cons line lines ih => rw [endLines_cons, splitlines_newline, ih, List.flatMap_cons]

theorem splitlines_ended_line {line : Line} (plain : Plain line) :
    splitlines (line ++ ['\n']) = [line] := splitlines_line plain

/-- What an empty line is not is found in the same lines, whether the text is ended or not. -/
theorem filter_ended {p : Line → Bool} {line : Line} (empty : p [] = false) :
    (splitlines (line ++ ['\n'])).filter p = (splitlines line).filter p := by
  rcases @splitlines_concat_newline_cases line with same | more
  · rw [same]
  · rw [more, List.filter_append, List.filter_cons_of_neg (by simp [empty]), List.filter_nil,
      List.append_nil]

theorem filter_tail_ended {p : Line → Bool} {line : Line} (empty : p [] = false) :
    (splitlines (line ++ ['\n'])).tail.filter p = (splitlines line).tail.filter p := by
  rcases @splitlines_concat_newline_cases line with same | more
  · rw [same]
  · rw [more]
    cases splitlines line with
    | nil => rfl
    | cons first rest =>
      rw [List.cons_append, List.tail_cons, List.tail_cons, List.filter_append,
        List.filter_cons_of_neg (by simp [empty]), List.filter_nil, List.append_nil]

/-- What has no newline in it is found on a line. -/
theorem infix_endLines (own : '\n' ∉ word) (some : word ≠ []) :
    word <:+: endLines lines ↔ ∃ line ∈ lines, word <:+: line := by
  induction lines with
  | nil => exact iff_of_false (fun h => some (List.eq_nil_of_infix_nil h)) (by simp)
  | cons line lines ih =>
    rw [endLines_cons, List.exists_mem_cons_iff, ← ih]
    constructor
    · exact infix_append_cons own
    · rintro (here | later)
      · exact here.trans (List.prefix_append _ _).isInfix
      · exact later.trans (List.suffix_cons _ _ |>.trans (List.suffix_append _ _)).isInfix

end LibOsdp.Base
