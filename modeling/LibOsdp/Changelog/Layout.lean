import LibOsdp.Changelog.Parser
import Mathlib.Data.List.ModifyLast

/-!
# What a release file may look like

The lines of a body in the order they stand: blank lines, the subject, then sections, each a
heading, blank lines, items of a bullet and the lines that continue it, and blank lines up to the
next heading or the end. A body is accepted exactly if its lines are laid out so, and what is read
from it is what the layout says: every line has its one place.
-/

set_option autoImplicit false

namespace LibOsdp.Changelog

open LibOsdp.Base

/-- A bullet with the indented lines that continue it. -/
structure ItemLines where
  bullet : Line
  text : Line
  wrapped : List Line
  reads : bullet? bullet = some text
  continues : ∀ line ∈ wrapped, isBlank line = false ∧ heading? line = none ∧
    bullet? line = none ∧ isIndented line = true

namespace ItemLines

def lines (item : ItemLines) : List Line := item.bullet :: item.wrapped

/-- The item that the lines are read as. -/
def item (item : ItemLines) : Line :=
  item.wrapped.foldl (fun text line => text ++ ' ' :: strip line) item.text

/-- One more line that continues the item. -/
def wrap (item : ItemLines) (line : Line) (continues : isBlank line = false ∧
    heading? line = none ∧ bullet? line = none ∧ isIndented line = true) : ItemLines :=
  { item with
    wrapped := item.wrapped ++ [line]
    continues := List.forall_mem_append.mpr
      ⟨item.continues, List.forall_mem_singleton.mpr continues⟩ }

end ItemLines

/-- A heading, the blank lines under it, its items, and the blank lines after them. -/
structure SectionLines where
  heading : Line
  title : Line
  gap : List Line
  items : List ItemLines
  trail : List Line
  reads : heading? heading = some title
  gap_blank : ∀ line ∈ gap, isBlank line = true
  items_ne : items ≠ []
  trail_blank : ∀ line ∈ trail, isBlank line = true

namespace SectionLines

def lines (s : SectionLines) : List Line :=
  s.heading :: (s.gap ++ s.items.flatMap ItemLines.lines ++ s.trail)

/-- The section that the lines are read as. -/
def read (s : SectionLines) : Section := ⟨s.title, s.items.map ItemLines.item⟩

/-- One more blank line after the items. -/
def extend (s : SectionLines) (line : Line) (blank : isBlank line = true) : SectionLines :=
  { s with
    trail := s.trail ++ [line]
    trail_blank := List.forall_mem_append.mpr
      ⟨s.trail_blank, List.forall_mem_singleton.mpr blank⟩ }

end SectionLines

/-- Blank lines, then the subject from its first words to the first heading. -/
structure Opening where
  lead : List Line
  first : Line
  more : List Line
  lead_blank : ∀ line ∈ lead, isBlank line = true
  first_words : isBlank first = false
  plain : ∀ line ∈ first :: more, heading? line = none

namespace Opening

def lines (o : Opening) : List Line := o.lead ++ o.first :: o.more

def subject (o : Opening) : Line := strip (joinLines (o.first :: o.more))

/-- One more line of the subject. -/
def add (o : Opening) (line : Line) (plain : heading? line = none) : Opening :=
  { o with
    more := o.more ++ [line]
    plain := by
      rw [← List.cons_append]
      exact List.forall_mem_append.mpr ⟨o.plain, List.forall_mem_singleton.mpr plain⟩ }

theorem subject_ne (o : Opening) : o.subject ≠ [] := by
  apply strip_joinLines_ne_nil List.mem_cons_self
  simpa [isBlank] using o.first_words

end Opening

/-- **The layout of a body**: an opening, and sections of different titles. -/
structure Layout where
  opening : Opening
  sections : List SectionLines
  sections_ne : sections ≠ []
  titles : (sections.map SectionLines.title).Nodup

def Layout.lines (l : Layout) : List Line :=
  l.opening.lines ++ l.sections.flatMap SectionLines.lines

def Layout.read (l : Layout) : Line × List Section :=
  (l.opening.subject, l.sections.map SectionLines.read)

/-! ## What is read is laid out -/

/-- **What the loops have passed** of `lines`, by the loop that is running. -/
inductive Passed (lines : List Line) : Scan → Prop where
  | lead {before ahead} (blank : ∀ line ∈ before, isBlank line = true)
      (eq : before ++ ahead = lines) : Passed lines ⟨ahead, .lead⟩
  | start {before ahead} (blank : ∀ line ∈ before, isBlank line = true)
      (words : ∀ line ∈ ahead.head?, isBlank line = false) (eq : before ++ ahead = lines) :
      Passed lines ⟨ahead, .subject []⟩
  | subject {ahead taken} (o : Opening) (reads : o.first :: o.more = taken)
      (eq : o.lines ++ ahead = lines) : Passed lines ⟨ahead, .subject taken⟩
  | sections {ahead subject done} (o : Opening) (subject_eq : o.subject = subject)
      (passed : List SectionLines) (reads : passed.map SectionLines.read = done)
      (titles : (passed.map SectionLines.title).Nodup)
      (first : passed = [] → ∀ line ∈ ahead.head?, (heading? line).isSome)
      (eq : o.lines ++ passed.flatMap SectionLines.lines ++ ahead = lines) :
      Passed lines ⟨ahead, .sections subject done⟩
  | items {ahead subject done title items} (o : Opening) (subject_eq : o.subject = subject)
      (passed : List SectionLines) (reads : passed.map SectionLines.read = done)
      (titles : (title :: passed.map SectionLines.title).Nodup)
      (heading : Line) (titled : heading? heading = some title)
      (gap : List Line) (blank : ∀ line ∈ gap, isBlank line = true)
      (here : List ItemLines) (itemized : here.map ItemLines.item = items)
      (eq : o.lines ++ passed.flatMap SectionLines.lines ++
        heading :: (gap ++ here.flatMap ItemLines.lines) ++ ahead = lines) :
      Passed lines ⟨ahead, .items subject done title items⟩

variable {release : Identity} {ahead lines taken rest : List Line} {line title subject : Line}
  {done : List Section} {items : List Line} {s t : Scan}

theorem isBlank_of_heading (reads : heading? line = some title) : isBlank line = false := by
  by_contra blank
  have empty : strip line = [] := by simpa [isBlank] using blank
  rw [heading?, empty] at reads
  cases reads

theorem isBlank_of_bullet (reads : bullet? line = some title) : isBlank line = false := by
  by_contra blank
  have empty : strip line = [] := by simpa [isBlank] using blank
  rw [bullet?, empty] at reads
  cases reads

theorem heading?_of_bullet (reads : bullet? line = some title) : heading? line = none := by
  rw [heading?]
  unfold bullet? at reads
  split at reads
  · next c rest dash =>
    rw [dash]
    rfl
  · cases reads

theorem section_titles (passed : List SectionLines) :
    (passed.map SectionLines.read).map (·.title) = passed.map SectionLines.title := by
  rw [List.map_map]
  rfl

theorem item_wrap (item : ItemLines) {continues} :
    (item.wrap line continues).item = item.item ++ ' ' :: strip line := by
  rw [ItemLines.item, ItemLines.wrap, List.foldl_append]
  rfl

/-- The section that ends here, followed by `trail`. -/
theorem passed_of_items {o : Opening} {passed : List SectionLines} {heading : Line}
    {gap : List Line} {here : List ItemLines} (trail : List Line) (titled : heading? heading = some title)
    (blank : ∀ line ∈ gap, isBlank line = true) (trail_blank : ∀ line ∈ trail, isBlank line = true)
    (some : here ≠ []) (titles : (title :: passed.map SectionLines.title).Nodup)
    (eq : o.lines ++ passed.flatMap SectionLines.lines ++
      heading :: (gap ++ here.flatMap ItemLines.lines) ++ (trail ++ ahead) = lines) :
    Passed lines ⟨ahead, .sections o.subject
      (passed.map SectionLines.read ++ [⟨title, here.map ItemLines.item⟩])⟩ := by
  let last : SectionLines := ⟨heading, title, gap, here, trail, titled, blank, some, trail_blank⟩
  refine .sections o rfl (passed ++ [last]) (by simp [last, SectionLines.read]) ?_ (by simp) ?_
  · rw [List.map_append]
    exact List.nodup_append_comm.mp titles
  · rw [← eq]
    simp [SectionLines.lines, last]

/-- The lines of the last section, with one more blank line. -/
theorem lines_extend {passed : List SectionLines} {last : SectionLines}
    {blank : isBlank line = true} :
    (passed ++ [last.extend line blank]).flatMap SectionLines.lines =
      (passed ++ [last]).flatMap SectionLines.lines ++ [line] := by
  simp [SectionLines.lines, SectionLines.extend]

theorem lines_wrap {here : List ItemLines} {last : ItemLines} {continues} :
    (here ++ [last.wrap line continues]).flatMap ItemLines.lines =
      (here ++ [last]).flatMap ItemLines.lines ++ [line] := by
  simp [ItemLines.lines, ItemLines.wrap]

theorem passed_sectionsBlank (blank : isBlank line = true)
    (passed : Passed lines ⟨line :: rest, .sections subject done⟩) :
    Passed lines ⟨rest, .sections subject done⟩ := by
  cases passed with
  | sections o subject_eq passed reads titles first eq =>
    have some : passed ≠ [] := by
      intro none
      obtain ⟨title, heads⟩ := Option.isSome_iff_exists.mp (first none line rfl)
      cases blank.symm.trans (isBlank_of_heading heads)
    obtain ⟨init, last, rfl⟩ := List.eq_nil_or_concat' passed |>.resolve_left some
    refine .sections o subject_eq (init ++ [last.extend line blank]) ?_ ?_ (by simp) ?_
    · rw [← reads]
      simp [SectionLines.read, SectionLines.extend]
    · simpa [SectionLines.extend] using titles
    · rw [lines_extend, ← eq]
      simp

theorem passed_wrapped (words : isBlank line = false) (plain : heading? line = none)
    (text : bullet? line = none) (some : items ≠ []) (indented : isIndented line = true)
    (passed : Passed lines ⟨line :: rest, .items subject done title items⟩) :
    Passed lines ⟨rest, .items subject done title (items.modifyLast (· ++ ' ' :: strip line))⟩ := by
  cases passed with
  | items o subject_eq passed reads titles heading titled gap blanks here itemized eq =>
    subst itemized
    have some : here ≠ [] := by simpa using some
    obtain ⟨init, last, rfl⟩ := List.eq_nil_or_concat' here |>.resolve_left some
    refine .items o subject_eq passed reads titles heading titled gap blanks
      (init ++ [last.wrap line ⟨words, plain, text, indented⟩]) ?_ ?_
    · rw [List.map_append, List.map_append, List.map_singleton, List.map_singleton, item_wrap,
        List.modifyLast_concat]
    · rw [lines_wrap, ← eq]
      simp

/-- **Every turn keeps the account.** -/
theorem passed_of_moves (passed : Passed lines s) (moves : Moves s t) : Passed lines t := by
  cases moves with
  | @leadBlank line rest blank =>
    cases passed with
    | @lead before _ blanks eq =>
      exact @Passed.lead lines (before ++ [line]) rest
        (List.forall_mem_append.mpr ⟨blanks, List.forall_mem_singleton.mpr blank⟩)
        (by simpa using eq)
  | leadEnd words =>
    cases passed with
    | lead blanks eq => exact .start blanks words eq
  | @subjectLine line rest taken plain =>
    cases passed with
    | @start before _ blanks words eq =>
      let o : Opening := ⟨before, line, [], blanks, words line rfl, by simpa using plain⟩
      exact .subject o rfl (by simpa [o, Opening.lines] using eq)
    | subject o reads eq =>
      refine .subject (o.add line plain) (by simp [Opening.add, ← reads]) ?_
      rw [← eq]
      simp [Opening.lines, Opening.add]
  | subjectEnd ends words =>
    cases passed with
    | start blanks words' eq => exact absurd rfl words
    | subject o reads eq =>
      exact .sections o (by rw [Opening.subject, reads]) [] rfl List.nodup_nil (fun _ => ends)
        (by simpa using eq)
  | sectionsBlank blank => exact passed_sectionsBlank blank passed
  | @heading line rest subject done title words reads new =>
    cases passed with
    | sections o subject_eq passed reads' titles first eq =>
      subst reads'
      rw [section_titles] at new
      exact .items o subject_eq passed rfl (List.nodup_cons.mpr ⟨new, titles⟩) line reads []
        (by simp) [] rfl (by simpa using eq)
  | @itemsBlank line rest subject done title blank =>
    cases passed with
    | items o subject_eq passed reads titles heading titled gap blanks here itemized eq =>
      obtain rfl : here = [] := by simpa using itemized
      exact .items o subject_eq passed reads titles heading titled (gap ++ [line])
        (List.forall_mem_append.mpr ⟨blanks, List.forall_mem_singleton.mpr blank⟩) [] rfl
        (by simpa using eq)
  | @bullet line rest subject done title items item words plain reads =>
    cases passed with
    | items o subject_eq passed reads' titles heading titled gap blanks here itemized eq =>
      let new : ItemLines := ⟨line, item, [], reads, by simp⟩
      refine .items o subject_eq passed reads' titles heading titled gap blanks (here ++ [new]) ?_ ?_
      · simp [← itemized, new, ItemLines.item]
      · rw [← eq]
        simp [ItemLines.lines, new]
  | wrapped words plain text some indented =>
    exact passed_wrapped words plain text some indented passed
  | @sectionBlank line rest subject done title items blank some =>
    cases passed with
    | items o subject_eq passed reads titles heading titled gap blanks here itemized eq =>
      subst subject_eq reads itemized
      exact passed_of_items [line] titled blanks (by simpa using blank)
        (by simpa using some) titles (by simpa using eq)
  | sectionEnd ends some =>
    cases passed with
    | items o subject_eq passed reads titles heading titled gap blanks here itemized eq =>
      subst subject_eq reads itemized
      exact passed_of_items [] titled blanks (by simp) (by simpa using some) titles
        (by simpa using eq)

theorem of_leave_ok {read : Line × List Section} (h : bodyTurn release s = .leave (.ok read)) :
    s = ⟨[], .sections read.1 read.2⟩ ∧ read.2 ≠ [] := by
  have subject : ∀ ahead taken, closeSubject release ahead taken ≠ .leave (.ok read) := by
    intro ahead taken h
    simp only [closeSubject] at h
    split at h <;> cases h
  have closed : ∀ ahead subject done title items,
      closeSection release ahead subject done title items ≠ .leave (.ok read) := by
    intro ahead subject done title items h
    unfold closeSection at h
    split at h <;> cases h
  obtain ⟨ahead, phase⟩ := s
  cases phase with
  | lead =>
    cases ahead with
    | nil => cases h
    | cons line rest =>
      rw [bodyTurn] at h
      split at h <;> cases h
  | subject taken =>
    cases ahead with
    | nil => exact absurd h (subject _ _)
    | cons line rest =>
      rw [bodyTurn] at h
      split at h
      · exact absurd h (subject _ _)
      · cases h
  | sections text done =>
    cases ahead with
    | nil =>
      rw [bodyTurn] at h
      split at h
      · cases h
      · next some =>
        cases h
        exact ⟨rfl, some⟩
    | cons line rest =>
      rw [bodyTurn] at h
      split at h
      · cases h
      · unfold headingLine at h
        split at h
        · cases h
        · split at h <;> cases h
  | items text done title items =>
    cases ahead with
    | nil => exact absurd h (closed _ _ _ _ _)
    | cons line rest =>
      rw [bodyTurn] at h
      split at h
      · split at h
        · cases h
        · exact absurd h (closed _ _ _ _ _)
      · split at h
        · exact absurd h (closed _ _ _ _ _)
        · unfold itemLine at h
          split at h
          · cases h
          · split at h <;> cases h

/-- **What is read from a body is laid out in its lines.** -/
theorem layout_of_readBody {read : Line × List Section} (h : readBody release lines = .ok read) :
    ∃ l : Layout, l.lines = lines ∧ l.read = read := by
  have account := @Loop.run_of_invariant _ _ (bodyLoop release) (Passed lines)
    (fun result => ∀ read, result = .ok read → ∃ l : Layout, l.lines = lines ∧ l.read = read)
    (fun s t passed again => passed_of_moves passed (moves_of_again again)) ?_
  · exact account _ (@Passed.lead lines [] lines (by simp) rfl) read h
  · rintro s _ passed left read rfl
    obtain ⟨rfl, some⟩ := of_leave_ok left
    obtain ⟨subject, done⟩ := read
    cases passed with
    | sections o subject_eq passed reads titles first eq =>
      have ne : passed ≠ [] := by
        rintro rfl
        exact some reads.symm
      refine ⟨⟨o, passed, ne, titles⟩, by simpa [Layout.lines] using eq, ?_⟩
      rw [Layout.read, subject_eq, reads]

/-! ## What is laid out is read -/

theorem run_of_moves (h : Moves s t) : (bodyLoop release).run s = (bodyLoop release).run t :=
  Loop.run_again (again_of_moves h)

theorem run_lead (blank : ∀ line ∈ taken, isBlank line = true) :
    (bodyLoop release).run ⟨taken ++ ahead, .lead⟩ = (bodyLoop release).run ⟨ahead, .lead⟩ := by
  induction taken with
  | nil => rfl
  | cons line taken ih =>
    obtain ⟨here, later⟩ := List.forall_mem_cons.mp blank
    exact (run_of_moves (.leadBlank here)).trans (ih later)

theorem run_subject {more : List Line} (plain : ∀ line ∈ more, heading? line = none) :
    (bodyLoop release).run ⟨more ++ ahead, .subject taken⟩ =
      (bodyLoop release).run ⟨ahead, .subject (taken ++ more)⟩ := by
  induction more generalizing taken with
  | nil => rw [List.append_nil, List.nil_append]
  | cons line more ih =>
    obtain ⟨here, later⟩ := List.forall_mem_cons.mp plain
    rw [List.cons_append, run_of_moves (.subjectLine here), ih later, List.append_assoc]
    rfl

theorem run_sectionsBlank {trail : List Line} (blank : ∀ line ∈ trail, isBlank line = true) :
    (bodyLoop release).run ⟨trail ++ ahead, .sections subject done⟩ =
      (bodyLoop release).run ⟨ahead, .sections subject done⟩ := by
  induction trail with
  | nil => rfl
  | cons line trail ih =>
    obtain ⟨here, later⟩ := List.forall_mem_cons.mp blank
    exact (run_of_moves (.sectionsBlank here)).trans (ih later)

theorem run_gap {gap : List Line} (blank : ∀ line ∈ gap, isBlank line = true) :
    (bodyLoop release).run ⟨gap ++ ahead, .items subject done title []⟩ =
      (bodyLoop release).run ⟨ahead, .items subject done title []⟩ := by
  induction gap with
  | nil => rfl
  | cons line gap ih =>
    obtain ⟨here, later⟩ := List.forall_mem_cons.mp blank
    exact (run_of_moves (.itemsBlank here)).trans (ih later)

theorem run_wrapped {wrapped : List Line} {text : Line}
    (continues : ∀ line ∈ wrapped, isBlank line = false ∧ heading? line = none ∧
      bullet? line = none ∧ isIndented line = true) :
    (bodyLoop release).run ⟨wrapped ++ ahead, .items subject done title (items ++ [text])⟩ =
      (bodyLoop release).run ⟨ahead, .items subject done title
        (items ++ [wrapped.foldl (fun text line => text ++ ' ' :: strip line) text])⟩ := by
  induction wrapped generalizing text with
  | nil => rfl
  | cons line wrapped ih =>
    obtain ⟨⟨words, plain, bullet, indented⟩, later⟩ := List.forall_mem_cons.mp continues
    rw [List.cons_append, run_of_moves (.wrapped words plain bullet (by simp) indented),
      List.modifyLast_concat, ih later]
    rfl

theorem run_item (item : ItemLines) :
    (bodyLoop release).run ⟨item.lines ++ ahead, .items subject done title items⟩ =
      (bodyLoop release).run ⟨ahead, .items subject done title (items ++ [item.item])⟩ := by
  have bullet : Moves ⟨item.lines ++ ahead, .items subject done title items⟩
      ⟨item.wrapped ++ ahead, .items subject done title (items ++ [item.text])⟩ :=
    .bullet (isBlank_of_bullet item.reads) (heading?_of_bullet item.reads) item.reads
  rw [run_of_moves bullet, run_wrapped item.continues]
  rfl

theorem run_items (here : List ItemLines) :
    (bodyLoop release).run ⟨here.flatMap ItemLines.lines ++ ahead,
        .items subject done title items⟩ =
      (bodyLoop release).run ⟨ahead,
        .items subject done title (items ++ here.map ItemLines.item)⟩ := by
  induction here generalizing items with
  | nil => rw [List.map_nil, List.append_nil, List.flatMap_nil, List.nil_append]
  | cons item here ih =>
    rw [List.flatMap_cons, List.append_assoc, run_item, ih, List.map_cons, List.append_assoc]
    rfl

theorem run_section (sec : SectionLines) (new : sec.title ∉ done.map (·.title))
    (next : ∀ line ∈ ahead.head?, (heading? line).isSome) :
    (bodyLoop release).run ⟨sec.lines ++ ahead, .sections subject done⟩ =
      (bodyLoop release).run ⟨ahead, .sections subject (done ++ [sec.read])⟩ := by
  have lines : sec.lines ++ ahead = sec.heading :: (sec.gap ++ (sec.items.flatMap ItemLines.lines ++
      (sec.trail ++ ahead))) := by simp [SectionLines.lines]
  have some : sec.items.map ItemLines.item ≠ [] := by simpa using sec.items_ne
  rw [lines, run_of_moves (.heading (isBlank_of_heading sec.reads) sec.reads new),
    run_gap sec.gap_blank, run_items, List.nil_append]
  have trail := sec.trail_blank
  cases rest : sec.trail with
  | nil =>
    refine run_of_moves (.sectionEnd (fun line mem => ?_) some)
    have heads : (heading? line).isSome := next line mem
    obtain ⟨title, reads⟩ := Option.isSome_iff_exists.mp heads
    exact ⟨isBlank_of_heading reads, heads⟩
  | cons line rest' =>
    rw [rest] at trail
    obtain ⟨here, later⟩ := List.forall_mem_cons.mp trail
    exact (run_of_moves (.sectionBlank here some)).trans (run_sectionsBlank later)

/-- Sections begin with a heading. -/
theorem heading_of_head? {sections : List SectionLines} :
    ∀ line ∈ (sections.flatMap SectionLines.lines).head?, (heading? line).isSome := by
  cases sections with
  | nil => rintro _ ⟨⟩
  | cons sec sections =>
    rintro _ ⟨⟩
    rw [sec.reads]
    rfl

theorem run_sections (sections : List SectionLines)
    (titles : (done.map (·.title) ++ sections.map SectionLines.title).Nodup)
    (some : done ++ sections.map SectionLines.read ≠ []) :
    (bodyLoop release).run ⟨sections.flatMap SectionLines.lines, .sections subject done⟩ =
      .ok (subject, done ++ sections.map SectionLines.read) := by
  induction sections generalizing done with
  | nil =>
    rw [List.map_nil, List.append_nil] at some ⊢
    exact Loop.run_leave (congrArg Turn.leave (if_neg some))
  | cons sec sections ih =>
    rw [List.map_cons] at titles some ⊢
    have new : sec.title ∉ done.map (·.title) := fun mem =>
      List.disjoint_of_nodup_append titles mem List.mem_cons_self
    rw [List.flatMap_cons, run_section sec new heading_of_head?, ih]
    · simp
    · simpa [SectionLines.read] using titles
    · simp

/-- **What is laid out is read so.** -/
theorem readBody_of_layout (l : Layout) : readBody release l.lines = .ok l.read := by
  obtain ⟨o, sections, some, titles⟩ := l
  have lines : (Layout.mk o sections some titles).lines = o.lead ++ (o.first :: o.more ++
      sections.flatMap SectionLines.lines) := by
    simp [Layout.lines, Opening.lines]
  have start : Moves ⟨o.first :: o.more ++ sections.flatMap SectionLines.lines, .lead⟩
      ⟨o.first :: o.more ++ sections.flatMap SectionLines.lines, .subject []⟩ := by
    refine .leadEnd ?_
    rintro _ ⟨⟩
    exact o.first_words
  rw [readBody, lines, run_lead o.lead_blank, run_of_moves start, run_subject o.plain,
    List.nil_append, run_of_moves (.subjectEnd heading_of_head? o.subject_ne)]
  exact run_sections sections titles (by simpa using some)

/-- **A body is accepted exactly if it is laid out as one.** -/
theorem readBody_eq_ok {read : Line × List Section} :
    readBody release lines = .ok read ↔ ∃ l : Layout, l.lines = lines ∧ l.read = read := by
  constructor
  · exact layout_of_readBody
  · rintro ⟨l, rfl, rfl⟩
    exact readBody_of_layout l

/-! ## The whole file -/

/-- The words of a body: each line that is not blank, in its place. -/
def Layout.words (l : Layout) : List Line :=
  (l.opening.first :: l.opening.more).filter (fun line => !isBlank line) ++
    l.sections.flatMap fun s => s.heading :: s.items.flatMap ItemLines.lines

theorem filter_of_blank {blanks : List Line} (blank : ∀ line ∈ blanks, isBlank line = true) :
    blanks.filter (fun line => !isBlank line) = [] := by
  rw [List.filter_eq_nil_iff]
  intro line mem
  simp [blank line mem]

theorem SectionLines.filter_lines (s : SectionLines) :
    s.lines.filter (fun line => !isBlank line) = s.heading :: s.items.flatMap ItemLines.lines := by
  have items : (s.items.flatMap ItemLines.lines).filter (fun line => !isBlank line) =
      s.items.flatMap ItemLines.lines := by
    rw [List.filter_eq_self]
    intro line mem
    obtain ⟨item, -, mem⟩ := List.mem_flatMap.mp mem
    rcases List.mem_cons.mp mem with rfl | mem
    · rw [isBlank_of_bullet item.reads]
      rfl
    · rw [(item.continues line mem).1]
      rfl
  rw [SectionLines.lines, List.filter_cons, isBlank_of_heading s.reads, List.filter_append,
    List.filter_append, filter_of_blank s.gap_blank, filter_of_blank s.trail_blank, items,
    List.append_nil, List.nil_append]
  rfl

/-- **No line is lost**: the words of a body are the words of its subject, its headings and its
    items, in order. -/
theorem Layout.filter_lines (l : Layout) :
    l.lines.filter (fun line => !isBlank line) = l.words := by
  rw [Layout.lines, Opening.lines, List.filter_append, List.filter_append,
    filter_of_blank l.opening.lead_blank, List.nil_append, List.filter_flatMap, Layout.words]
  simp only [SectionLines.filter_lines]

/-- What the parser makes of a text, line by line. -/
structure Accounts (text : Line) (expected : Option Line) (entry : ReleaseEntry) : Prop where
  noTodo : ¬ todoMarker <:+: text
  body : ∃ data body, splitFrontMatter text = .ok (data, body) ∧
    readFront data expected = .ok (entry.identity, entry.date) ∧
    ∃ l : Layout, l.lines = splitlines body ∧
      l.words = (splitlines body).filter (fun line => !isBlank line) ∧
      l.read = (entry.subject, entry.sections)

theorem parseMarkdownRelease_eq_ok {text : Line} {expected : Option Line} {entry : ReleaseEntry} :
    parseMarkdownRelease text expected = .ok entry ↔ Accounts text expected entry := by
  rw [parseMarkdownRelease]
  by_cases todo : todoMarker <:+: text
  · rw [if_pos todo]
    exact iff_of_false (by rintro ⟨⟩) fun accounts => accounts.noTodo todo
  · rw [if_neg todo]
    simp only [bind_eq_ok, Prod.exists, readBody_eq_ok, pure_eq_ok, Except.ok.injEq]
    constructor
    · rintro ⟨data, body, split, release, date, front, subject, sections, ⟨l, lines, read⟩, rfl⟩
      refine ⟨todo, data, body, split, front, l, lines, ?_, read⟩
      rw [← lines, l.filter_lines]
    · rintro ⟨-, data, body, split, front, l, lines, -, read⟩
      exact ⟨data, body, split, entry.identity, entry.date, front, entry.subject, entry.sections,
        ⟨l, lines, read⟩, rfl⟩

/-- Of the text around the front matter, the body begins at its first line. -/
theorem eq_of_splitFrontMatter {text body : Line} {data : Meta}
    (h : splitFrontMatter text = .ok (data, body)) : ∃ front gap,
      text = frontOpening ++ (front ++ frontClosing ++ (gap ++ body)) ∧ ∀ c ∈ gap, c = '\n' := by
  simp only [splitFrontMatter, bind_eq_ok, okOr_eq_ok, Prod.exists, pure_eq_ok,
    Except.ok.injEq, Prod.mk.injEq] at h
  obtain ⟨rest, opens, front, after, closed, _, -, rfl, rfl⟩ := h
  obtain ⟨opening, same, equal⟩ := List.dropPrefix?_eq_some_iff.mp opens
  refine ⟨front, after.takeWhile (· = '\n'), ?_, fun c mem => ?_⟩
  · rw [List.takeWhile_append_dropWhile, ← eq_of_cut? closed, same, eq_of_beq equal]
  · simpa using List.mem_takeWhile_imp mem

/-- **Down to the characters**: what an accepted text has after its front matter stands in the
    layout, all but the line ends. -/
theorem chars_of_parse {text : Line} {expected : Option Line} {entry : ReleaseEntry}
    (h : parseMarkdownRelease text expected = .ok entry) : ∃ front gap body, ∃ l : Layout,
      text = frontOpening ++ (front ++ frontClosing ++ (gap ++ body)) ∧ (∀ c ∈ gap, c = '\n') ∧
      l.lines.flatten = (body.filter fun c => !isLineEnd c) ∧
      l.read = (entry.subject, entry.sections) := by
  obtain ⟨-, data, body, split, -, l, lines, -, read⟩ := parseMarkdownRelease_eq_ok.mp h
  obtain ⟨front, gap, text, ends⟩ := eq_of_splitFrontMatter split
  refine ⟨front, gap, body, l, text, ends, ?_, read⟩
  rw [lines, flatten_splitlines]

/-- A laid-out release has a subject and sections with items, under different titles. -/
structure Filled (entry : ReleaseEntry) : Prop where
  subject : entry.subject ≠ []
  sections : entry.sections ≠ []
  items : ∀ s ∈ entry.sections, s.items ≠ []
  titles : (entry.sections.map (·.title)).Nodup

theorem filled_of_layout {entry : ReleaseEntry} {l : Layout}
    (read : l.read = (entry.subject, entry.sections)) : Filled entry := by
  obtain ⟨subject, sections⟩ := Prod.mk.inj read
  constructor
  · rw [← subject]
    exact l.opening.subject_ne
  · rw [← sections]
    simpa using l.sections_ne
  · rw [← sections]
    intro s mem
    obtain ⟨s, -, rfl⟩ := List.mem_map.mp mem
    simpa [SectionLines.read] using s.items_ne
  · rw [← sections, section_titles]
    exact l.titles

/-- **The parser loses no line**: it accepts exactly the texts that are laid out as a release, it
    reads of them what the layout says, and its loops end on every body. -/
theorem parse_markdown_release_exact (text : Line) (expected : Option Line) :
    (∀ entry, parseMarkdownRelease text expected = .ok entry ↔ Accounts text expected entry) ∧
    (∀ entry, parseMarkdownRelease text expected = .ok entry → Filled entry) ∧
    ∀ (release : Identity) (lines : List Line),
      turns (bodyTurn release) (2 * lines.length + 3) ⟨lines, .lead⟩ =
        some (readBody release lines) := by
  refine ⟨fun entry => parseMarkdownRelease_eq_ok, fun entry h => ?_, fun release lines => ?_⟩
  · obtain ⟨-, _, _, -, -, l, -, -, read⟩ := parseMarkdownRelease_eq_ok.mp h
    exact filled_of_layout read
  · exact @Loop.turns_eq_run _ _ (bodyLoop release) _ _ (Nat.lt_succ_self _)

end LibOsdp.Changelog
