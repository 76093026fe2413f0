import LibOsdp.Changelog.Layout
import LibOsdp.Changelog.Normal

/-!
# A release file written from its entry

`render_release` writes an entry in one form: the front matter, the subject, and each section as a
heading, a blank line, its items one a line and a blank line. What the parser makes of any text,
it makes of the text written from that again, unless an item that was wrapped over two lines shows
the marker of unfinished work once it is one.
-/

set_option autoImplicit false

namespace LibOsdp.Changelog

open LibOsdp.Base

/-! ## A body without the spaces it ends with -/

variable {line text : Line} {lines : List Line}

theorem isBlank_eq_false : isBlank line = false ↔ strip line ≠ [] := by
  rw [isBlank, decide_eq_false_iff_not]

theorem heading?_congr {other : Line} (same : strip other = strip line) :
    heading? other = heading? line := by
  rw [heading?, heading?, same]

theorem bullet?_congr {other : Line} (same : strip other = strip line) :
    bullet? other = bullet? line := by
  rw [bullet?, bullet?, same]

theorem isIndented_rdropWhile (words : strip line ≠ []) :
    isIndented (line.rdropWhile isSpace) = isIndented line := by
  obtain ⟨rest, eq⟩ := List.rdropWhile_prefix isSpace (l := line)
  have some : line.rdropWhile isSpace ≠ [] := by
    intro empty
    rw [List.rdropWhile_eq_nil_iff] at empty
    exact words (strip_eq_nil.mpr empty)
  obtain ⟨c, front, cons⟩ := List.exists_cons_of_ne_nil some
  rw [cons] at eq ⊢
  rw [← eq]
  rfl

namespace ItemLines

theorem trimEnd_ne (item : ItemLines) : trimEnd item.lines ≠ [] := by
  rw [Ne, trimEnd_eq_nil]
  intro blank
  exact isBlank_eq_false.mp (isBlank_of_bullet item.reads) (blank _ List.mem_cons_self)

theorem exists_trimmed (item : ItemLines) :
    ∃ item' : ItemLines, item'.lines = trimEnd item.lines ∧ item'.item = item.item := by
  obtain ⟨bullet, text, wrapped, reads, continues⟩ := item
  rcases List.eq_nil_or_concat' wrapped with rfl | ⟨init, last, rfl⟩
  · have words : strip bullet ≠ [] := isBlank_eq_false.mp (isBlank_of_bullet reads)
    refine ⟨⟨bullet.rdropWhile isSpace, text, [], ?_, by simp⟩, ?_, rfl⟩
    · rw [bullet?_congr strip_rdropWhile, reads]
    · exact (@trimEnd_concat bullet [] words).symm
  · obtain ⟨words, plain, unread, indented⟩ := continues last (by simp)
    have words : strip last ≠ [] := isBlank_eq_false.mp words
    refine ⟨⟨bullet, text, init ++ [last.rdropWhile isSpace], reads, ?_⟩, ?_, ?_⟩
    · refine List.forall_mem_append.mpr ⟨fun line mem => continues line (by simp [mem]), ?_⟩
      refine List.forall_mem_singleton.mpr ⟨?_, ?_, ?_, ?_⟩
      · rwa [isBlank_eq_false, strip_rdropWhile]
      · rw [heading?_congr strip_rdropWhile, plain]
      · rw [bullet?_congr strip_rdropWhile, unread]
      · rw [isIndented_rdropWhile words, indented]
    · exact (@trimEnd_concat last (bullet :: init) words).symm
    · simp only [item, List.foldl_append, List.foldl_cons, List.foldl_nil, strip_rdropWhile]

end ItemLines

theorem SectionLines.trimEnd_ne (s : SectionLines) : trimEnd s.lines ≠ [] := by
  rw [Ne, trimEnd_eq_nil]
  intro blank
  exact isBlank_eq_false.mp (isBlank_of_heading s.reads) (blank _ List.mem_cons_self)

theorem SectionLines.exists_trimmed (s : SectionLines) :
    ∃ s' : SectionLines, s'.lines = trimEnd s.lines ∧ s'.read = s.read := by
  obtain ⟨heading, title, gap, items, trail, reads, gap_blank, items_ne, trail_blank⟩ := s
  obtain ⟨init, last, rfl⟩ := List.eq_nil_or_concat' items |>.resolve_left items_ne
  obtain ⟨last', lines, item⟩ := last.exists_trimmed
  refine ⟨⟨heading, title, gap, init ++ [last'], [], reads, gap_blank, by simp, by simp⟩, ?_, ?_⟩
  · have blank : ∀ line ∈ trail, strip line = [] := fun line mem => by
      simpa [isBlank] using trail_blank line mem
    have here := @trimEnd_append (heading :: (gap ++ init.flatMap ItemLines.lines)) last.lines
      last.trimEnd_ne
    have there := @trimEnd_append_blanks
      (heading :: (gap ++ init.flatMap ItemLines.lines) ++ last.lines) trail blank
    rw [here, ← lines] at there
    simpa [SectionLines.lines] using there.symm
  · simp [SectionLines.read, item]

theorem Layout.exists_trimmed (l : Layout) :
    ∃ l' : Layout, l'.lines = trimEnd l.lines ∧ l'.read = l.read := by
  obtain ⟨opening, sections, sections_ne, titles⟩ := l
  obtain ⟨init, last, rfl⟩ := List.eq_nil_or_concat' sections |>.resolve_left sections_ne
  obtain ⟨last', lines, read⟩ := last.exists_trimmed
  have title : last'.title = last.title := (Section.mk.inj read).1
  refine ⟨⟨opening, init ++ [last'], by simp, ?_⟩, ?_, ?_⟩
  · simpa [title] using titles
  · have here := @trimEnd_append (opening.lines ++ init.flatMap SectionLines.lines) last.lines
      last.trimEnd_ne
    rw [← lines] at here
    simpa [Layout.lines] using here.symm
  · simp [Layout.read, read]

/-- **A body is read alike without the spaces it ends with.** -/
theorem readBody_trimEnd {release : Identity} {read : Line × List Section}
    (h : readBody release lines = .ok read) : readBody release (trimEnd lines) = .ok read := by
  obtain ⟨l, rfl, rfl⟩ := readBody_eq_ok.mp h
  obtain ⟨l', lines, read⟩ := l.exists_trimmed
  exact readBody_eq_ok.mpr ⟨l', lines, read⟩

/-! ## Writing an entry -/

/-- The release tag that an entry is of. -/
def Identity.tag (release : Identity) : Line := crateName release.crate ++ '-' :: release.version

def headingOf (title : Line) : Line := "## ".toList ++ title

def bulletOf (item : Line) : Line := "- ".toList ++ item

def renderSection (s : Section) : List Line :=
  headingOf s.title :: [] :: (s.items.map bulletOf ++ [[]])

/-- The lines of the front matter, between those of dashes. -/
def renderFront (entry : ReleaseEntry) : List Line :=
  ["release_crate: ".toList ++ crateName entry.identity.crate,
    "release_date: ".toList ++ entry.date, "release_version: ".toList ++ entry.identity.version]

def renderBody (entry : ReleaseEntry) : List Line :=
  strip entry.subject :: [] :: entry.sections.flatMap renderSection

def renderRelease (entry : ReleaseEntry) : Line :=
  (joinLines ("---".toList :: renderFront entry ++ "---".toList :: [] :: renderBody entry)).rdropWhile
    isSpace ++ ['\n']

/-! ## The entries that are read -/

structure ReadableItem (item : Line) : Prop where
  some : item ≠ []
  stripped : strip item = item
  plain : Plain item

structure ReadableSection (s : Section) : Prop where
  titled : heading? (headingOf s.title) = Option.some s.title
  some : s.items ≠ []
  items : ∀ item ∈ s.items, ReadableItem item

/-- **An entry that can have been read from a text.** -/
structure Readable (entry : ReleaseEntry) : Prop where
  version : Normal entry.identity.version
  date : Bare entry.date
  subject : entry.subject ≠ []
  stripped : strip entry.subject = entry.subject
  ends : ∀ c ∈ entry.subject, isLineEnd c = true → c = '\n'
  plain : ∀ line ∈ splitlines entry.subject, heading? line = none
  some : entry.sections ≠ []
  sections : ∀ s ∈ entry.sections, ReadableSection s
  titles : (entry.sections.map (·.title)).Nodup

variable {entry : ReleaseEntry} {s : Section} {title item : Line}

theorem heading?_eq_some : heading? line = some title → strip line = headingOf title := by
  intro reads
  simp only [heading?, bind, Option.bind_eq_some_iff] at reads
  obtain ⟨rest, opens, reads⟩ := reads
  split at reads
  · obtain rfl := Option.some.inj reads
    obtain ⟨opening, same, equal⟩ := List.dropPrefix?_eq_some_iff.mp opens
    rw [same, headingOf, eq_of_beq equal]
  · cases reads

theorem isLineEnd_of_code {c : Char} (low : 32 ≤ c.toNat) (high : c.toNat ≤ 122) :
    isLineEnd c = false := by
  simp only [isLineEnd, Bool.or_eq_false_iff, Bool.and_eq_false_iff, decide_eq_false_iff_not,
    beq_eq_false_iff_ne]
  omega

/-- The letters and spaces of a title. -/
theorem code_of_title (reads : heading? line = some title) {c : Char} (mem : c ∈ title) :
    32 ≤ c.toNat ∧ c.toNat ≤ 122 := by
  simp only [heading?, bind, Option.bind_eq_some_iff] at reads
  obtain ⟨rest, -, reads⟩ := reads
  split at reads
  swap
  · cases reads
  next letters =>
  obtain rfl := Option.some.inj reads
  simp only [Bool.and_eq_true, List.all_eq_true, Bool.or_eq_true, decide_eq_true_eq] at letters
  obtain ⟨⟨upper, -⟩, others⟩ := letters
  have letter : c.isAlpha = true ∨ c = ' ' := by
    cases rest with
    | nil => cases mem
    | cons d rest =>
      rcases List.mem_cons.mp mem with rfl | mem
      · exact .inl (Bool.or_eq_true_iff.mpr (.inl (by simpa using upper)))
      · exact others c mem
  rcases letter with letter | rfl
  · rw [isAlpha_iff] at letter
    omega
  · decide

theorem plain_heading (titled : heading? line = some title) : Plain (headingOf title) := by
  intro c mem
  rcases List.mem_append.mp mem with mem | mem
  · have plain : "## ".toList.all (fun c => !isLineEnd c) = true := by decide
    simpa using List.all_eq_true.mp plain c mem
  · obtain ⟨low, high⟩ := code_of_title titled mem
    exact isLineEnd_of_code low high

/-- A title is read from the heading that is written for it. -/
theorem heading?_headingOf (reads : heading? line = some title) :
    heading? (headingOf title) = some title := by
  rw [← heading?_eq_some reads, heading?_congr strip_strip, reads]

theorem bullet?_bulletOf (readable : ReadableItem item) : bullet? (bulletOf item) = some item := by
  have stripped : strip (bulletOf item) = bulletOf item :=
    strip_append (by rintro c ⟨⟩; rfl) (by decide) readable.some readable.stripped
  have bullet : bulletOf item = '-' :: ' ' :: item := rfl
  have space : isSpace ' ' = true := rfl
  rw [bullet?, stripped, bullet]
  show (if isSpace ' ' = true then some (strip item) else none) = some item
  rw [if_pos space, readable.stripped]

theorem plain_bulletOf (readable : ReadableItem item) : Plain (bulletOf item) := by
  intro c mem
  rcases List.mem_append.mp mem with mem | mem
  · have plain : "- ".toList.all (fun c => !isLineEnd c) = true := by decide
    simpa using List.all_eq_true.mp plain c mem
  · exact readable.plain c mem

/-! ## The body of a written entry -/

theorem exists_itemLines (readable : ReadableItem item) :
    ∃ lines : ItemLines, lines.lines = [bulletOf item] ∧ lines.item = item :=
  ⟨⟨bulletOf item, item, [], bullet?_bulletOf readable, by simp⟩, rfl, rfl⟩

theorem exists_itemsLines {items : List Line} (readable : ∀ item ∈ items, ReadableItem item) :
    ∃ lines : List ItemLines, lines.flatMap ItemLines.lines = items.map bulletOf ∧
      lines.map ItemLines.item = items := by
  induction items with
  | nil => exact ⟨[], rfl, rfl⟩
  | cons item items ih =>
    obtain ⟨here, later⟩ := List.forall_mem_cons.mp readable
    obtain ⟨first, lines, reads⟩ := exists_itemLines here
    obtain ⟨rest, lines', reads'⟩ := ih later
    exact ⟨first :: rest, by simp [lines, lines'], by simp [reads, reads']⟩

theorem exists_sectionLines (readable : ReadableSection s) :
    ∃ lines : SectionLines, lines.lines = renderSection s ∧ lines.read = s := by
  obtain ⟨items, lines, reads⟩ := exists_itemsLines readable.items
  have some : items ≠ [] := by
    rintro rfl
    exact readable.some reads.symm
  have blank : ∀ line ∈ [([] : Line)], isBlank line = true := List.forall_mem_singleton.mpr rfl
  refine ⟨⟨headingOf s.title, s.title, [[]], items, [[]], readable.titled, blank, some, blank⟩, ?_, ?_⟩
  · simp [SectionLines.lines, renderSection, lines]
  · rw [SectionLines.read, reads]

theorem exists_sectionsLines {sections : List Section}
    (readable : ∀ s ∈ sections, ReadableSection s) :
    ∃ lines : List SectionLines, lines.flatMap SectionLines.lines = sections.flatMap renderSection ∧
      lines.map SectionLines.read = sections := by
  induction sections with
  | nil => exact ⟨[], rfl, rfl⟩
  | cons s sections ih =>
    obtain ⟨here, later⟩ := List.forall_mem_cons.mp readable
    obtain ⟨first, lines, reads⟩ := exists_sectionLines here
    obtain ⟨rest, lines', reads'⟩ := ih later
    exact ⟨first :: rest, by simp [lines, lines'], by simp [reads, reads']⟩

namespace Readable

theorem getLast_subject (readable : Readable entry) :
    ∀ c ∈ entry.subject.getLast?, isSpace c = false :=
  (strip_eq_self.mp readable.stripped).2

theorem joinLines_subject (readable : Readable entry) :
    joinLines (splitlines entry.subject) = entry.subject := by
  apply joinLines_splitlines readable.ends
  rintro c last rfl
  cases readable.getLast_subject _ last

theorem first_words {first : Line} {more : List Line} (readable : Readable entry)
    (joined : joinLines (first :: more) = entry.subject) : isBlank first = false := by
  have opens := (strip_eq_self.mp readable.stripped).1
  rw [← joined] at opens
  cases first with
  | nil =>
    cases more with
    | nil => exact absurd joined.symm readable.subject
    | cons second more =>
      rw [joinLines_cons (by simp)] at opens
      cases opens '\n' rfl
  | cons c rest =>
    rw [isBlank_eq_false, Ne, strip_eq_nil]
    intro spaces
    have space := spaces c List.mem_cons_self
    have first : (joinLines ((c :: rest) :: more)).head? = Option.some c := by
      cases more with
      | nil => simp [joinLines]
      | cons second more =>
        rw [joinLines_cons (by simp)]
        rfl
    rw [opens c first] at space
    cases space

/-- The lines that are written for the body. -/
theorem exists_layout (readable : Readable entry) : ∃ l : Layout,
    l.lines = splitlines entry.subject ++ [] :: entry.sections.flatMap renderSection ∧
      l.read = (entry.subject, entry.sections) := by
  obtain ⟨sections, lines, reads⟩ := exists_sectionsLines readable.sections
  have joined := readable.joinLines_subject
  cases subject : splitlines entry.subject with
  | nil =>
    rw [subject] at joined
    exact absurd joined.symm readable.subject
  | cons first more =>
    rw [subject] at joined
    have plain := readable.plain
    rw [subject] at plain
    have words := readable.first_words joined
    have some : sections ≠ [] := by
      rintro rfl
      exact readable.some reads.symm
    have titles : (sections.map SectionLines.title).Nodup := by
      rw [← section_titles, reads]
      exact readable.titles
    let opening : Opening := ⟨[], first, more ++ [[]], by simp, words, by
      rw [← List.cons_append]
      exact List.forall_mem_append.mpr ⟨plain, List.forall_mem_singleton.mpr rfl⟩⟩
    refine ⟨⟨opening, sections, some, titles⟩, ?_, ?_⟩
    · simp [Layout.lines, Opening.lines, opening, lines]
    · have subject_eq : opening.subject = entry.subject := by
        have spaces : ∀ c ∈ '\n' :: joinLines [[]], isSpace c = true :=
          List.forall_mem_singleton.mpr rfl
        rw [Opening.subject, ← List.cons_append, joinLines_append (by simp) (by simp), joined,
          strip_append_spaces spaces, readable.stripped]
      rw [Layout.read, subject_eq, reads]

theorem plain_renderSection (readable : ReadableSection s) :
    ∀ line ∈ renderSection s, Plain line := by
  intro line mem
  simp only [renderSection, List.mem_cons, List.mem_append, List.mem_map, List.not_mem_nil,
    or_false] at mem
  rcases mem with rfl | rfl | ⟨item, mem, rfl⟩ | rfl
  · exact plain_heading readable.titled
  · simp [Plain]
  · exact plain_bulletOf (readable.items item mem)
  · simp [Plain]

theorem words_renderBody (readable : Readable entry) : strip (joinLines (renderBody entry)) ≠ [] := by
  apply strip_joinLines_ne_nil List.mem_cons_self
  rw [strip_strip, readable.stripped]
  exact readable.subject

theorem rendered_ne (readable : Readable entry) :
    (joinLines (renderBody entry)).rdropWhile isSpace ≠ [] := by
  rw [Ne, List.rdropWhile_eq_nil_iff]
  exact fun spaces => readable.words_renderBody (strip_eq_nil.mpr spaces)

/-- The written body begins with words. -/
theorem exists_first (readable : Readable entry) : ∃ c rest,
    (joinLines (renderBody entry)).rdropWhile isSpace = c :: rest ∧ isSpace c = false := by
  obtain ⟨c, rest, cons⟩ := List.exists_cons_of_ne_nil readable.rendered_ne
  obtain ⟨more, eq⟩ := List.rdropWhile_prefix isSpace (l := joinLines (renderBody entry))
  obtain ⟨d, subject, first⟩ := List.exists_cons_of_ne_nil readable.subject
  have opens := (strip_eq_self.mp readable.stripped).1 d (by rw [first]; rfl)
  rw [cons, renderBody, readable.stripped, joinLines_cons (by simp), first] at eq
  obtain rfl : c = d := (List.cons.inj eq).1
  exact ⟨c, rest, cons, opens⟩

/-- What the written body is, line by line. -/
theorem splitlines_body (readable : Readable entry) :
    splitlines ((joinLines (renderBody entry)).rdropWhile isSpace ++ ['\n']) =
      trimEnd (splitlines entry.subject ++ [] :: entry.sections.flatMap renderSection) := by
  let lines := splitlines entry.subject ++ [] :: entry.sections.flatMap renderSection
  have same : joinLines (renderBody entry) = joinLines lines := by
    have some : splitlines entry.subject ≠ [] := by
      intro none
      have joined := readable.joinLines_subject
      rw [none] at joined
      exact readable.subject joined.symm
    rw [renderBody, readable.stripped, joinLines_cons (by simp), joinLines_append some (by simp),
      readable.joinLines_subject]
  have plain : ∀ line ∈ lines, Plain line := by
    intro line mem
    rcases List.mem_append.mp mem with mem | mem
    · exact plain_of_mem_splitlines mem
    · rcases List.mem_cons.mp mem with rfl | mem
      · simp [Plain]
      · obtain ⟨s, there, mem⟩ := List.mem_flatMap.mp mem
        exact plain_renderSection (readable.sections s there) line mem
  have more : (joinLines lines ++ ['\n']).rdropWhile isSpace = (joinLines lines).rdropWhile isSpace :=
    List.rdropWhile_concat_pos _ _ _ rfl
  have words : strip (joinLines lines ++ ['\n']) ≠ [] := by
    rw [strip_append_spaces (List.forall_mem_singleton.mpr rfl), ← same]
    exact readable.words_renderBody
  rw [same, ← more, splitlines_ended words, splitlines_joinLines (by simp [lines]) plain]

end Readable

/-- **The body of a written entry is read as it was written.** -/
theorem readBody_rendered (readable : Readable entry) (release : Identity) :
    readBody release (splitlines ((joinLines (renderBody entry)).rdropWhile isSpace ++ ['\n'])) =
      .ok (entry.subject, entry.sections) := by
  rw [readable.splitlines_body]
  obtain ⟨l, lines, reads⟩ := readable.exists_layout
  exact readBody_trimEnd (readBody_eq_ok.mpr ⟨l, lines, reads⟩)

/-! ## The front matter of a written entry -/

/-- The text between the lines of dashes. -/
def frontText (entry : ReleaseEntry) : Line := joinLines (renderFront entry)

/-- The front matter of an entry as it is written, with the empty line after it. -/
def writtenFront (entry : ReleaseEntry) : Line :=
  frontOpening ++ (frontText entry ++ frontClosing ++ ['\n'])

theorem renderRelease_eq (words : strip (joinLines (renderBody entry)) ≠ []) : renderRelease entry =
    writtenFront entry ++ ((joinLines (renderBody entry)).rdropWhile isSpace ++ ['\n']) := by
  have joined : joinLines ("---".toList :: renderFront entry ++ "---".toList :: [] :: renderBody entry) =
      writtenFront entry ++ joinLines (renderBody entry) := by
    rw [joinLines_append (by simp) (by simp), joinLines_cons (by simp [renderFront]),
      joinLines_cons (by simp), joinLines_cons (by simp [renderBody])]
    simp [writtenFront, frontOpening, frontClosing, frontText]
  rw [renderRelease, joined, rdropWhile_append words, List.append_assoc]

/-- The lines that the front matter stands between. -/
def dashes : Line := "---".toList

/-- The front matter ends at the first line of dashes after its first line. -/
theorem cut?_frontClosing {after : Line} (some : lines ≠ []) (plain : ∀ line ∈ lines, '\n' ∉ line)
    (first : dashes ∉ lines.tail) : cut? frontClosing (joinLines lines ++ (frontClosing ++ after)) =
      Option.some (joinLines lines, after) := by
  have here : cut? frontClosing (frontClosing ++ after) = Option.some ([], after) := rfl
  have next : ∀ line : Line, '\n' ∉ line → line ≠ dashes → ∀ more,
      frontClosing.isPrefixOf ('\n' :: (line ++ '\n' :: more)) = false := by
    intro line plain other more
    by_contra opens
    obtain ⟨rest, eq⟩ := List.isPrefixOf_iff_prefix.mp (Bool.not_eq_false _ ▸ opens)
    have same : dashes ++ '\n' :: rest = line ++ '\n' :: more := (List.cons.inj eq).2
    exact other (append_newline_inj (by decide) plain same).1.symm
  induction lines with
  | nil => exact absurd rfl some
  | cons line lines ih =>
    cases lines with
    | nil =>
      rw [joinLines, List.intercalate_singleton]
      simpa using cut?_skip rfl line (plain line List.mem_cons_self) here
    | cons second lines =>
      have differs : second ≠ dashes := fun eq => first (eq ▸ List.mem_cons_self)
      have found := ih (by simp) (fun other mem => plain other (List.mem_cons_of_mem _ mem))
        fun mem => first (List.mem_cons_of_mem _ mem)
      have ended : ∃ more, joinLines (second :: lines) ++ (frontClosing ++ after) =
          second ++ '\n' :: more := by
        cases lines with
        | nil => exact ⟨_, by simp [joinLines, frontClosing]; rfl⟩
        | cons third lines =>
          rw [joinLines_cons (by simp), List.append_assoc]
          exact ⟨_, rfl⟩
      have other : frontClosing.isPrefixOf ('\n' :: (joinLines (second :: lines) ++
          (frontClosing ++ after))) = false := by
        obtain ⟨more, eq⟩ := ended
        rw [eq]
        exact next second (plain second (by simp)) differs more
      have step : cut? frontClosing ('\n' :: (joinLines (second :: lines) ++ (frontClosing ++ after))) =
          Option.some ('\n' :: joinLines (second :: lines), after) := by
        rw [cut?, other, found]
        rfl
      rw [joinLines_cons (by simp), List.append_assoc]
      exact cut?_skip rfl line (plain line List.mem_cons_self) step

/-- A line of the front matter, read under its key. -/
theorem readMeta_line {data : Meta} {key value : Line}
    (named : strip key = key ∧ ':' ∉ key ∧ key ≠ []) :
    readMeta data ((key ++ ": ".toList ++ value) :: lines) =
      readMeta ((key, stripOf (· = '"') (strip value)) :: data.filter (·.1 ≠ key)) lines := by
  obtain ⟨strips, plain, some⟩ := named
  have cut : cut? [':'] (key ++ ": ".toList ++ value) = Option.some (key, ' ' :: value) := by
    have colon : cut? [':'] (": ".toList ++ value) = Option.some ([], ' ' :: value) := rfl
    rw [List.append_assoc]
    simpa using cut?_skip rfl key plain colon
  have words : strip (key ++ ": ".toList ++ value) ≠ [] := by
    rw [Ne, strip_eq_nil]
    intro spaces
    cases spaces ':' (by simp)
  rw [readMeta, if_neg words, cut]
  show readMeta ((strip key, stripOf (· = '"') (strip (' ' :: value))) ::
    data.filter (·.1 ≠ strip key)) lines = _
  rw [strips, strip_cons rfl]

/-- A value that is read as it stands. -/
theorem stripOf_value {value : Line} (stripped : strip value = value) (unquoted : '"' ∉ value) :
    stripOf (· = '"') (strip value) = value := by
  rw [stripped]
  apply stripOf_eq_self
  intro c mem
  have differs : c ≠ '"' := fun eq => unquoted (eq ▸ mem)
  simpa using differs

/-- The data of the front matter that is written, the last line first. -/
def frontData (entry : ReleaseEntry) : Meta :=
  [("release_version".toList, entry.identity.version), ("release_date".toList, entry.date),
    ("release_crate".toList, crateName entry.identity.crate)]

theorem isLineEnd_of_not_isSpace {c : Char} (word : isSpace c = false) : isLineEnd c = false := by
  by_contra ends
  rw [isSpace_of_isLineEnd (by simpa using ends)] at word
  cases word

theorem plain_renderFront (readable : Readable entry) : ∀ line ∈ renderFront entry, Plain line := by
  have plain : ∀ {key value : Line}, key.all (fun c => !isLineEnd c) = true →
      (∀ c ∈ value, isSpace c = false) → Plain (key ++ value) := by
    intro key value keyed words c mem
    rcases List.mem_append.mp mem with mem | mem
    · simpa using List.all_eq_true.mp keyed c mem
    · exact isLineEnd_of_not_isSpace (words c mem)
  have crate : ∀ c ∈ crateName entry.identity.crate, isSpace c = false := by
    have all : ∀ crate, (crateName crate).all (fun c => !isSpace c) = true := by
      rintro (_ | _) <;> rfl
    intro c mem
    simpa using List.all_eq_true.mp (all entry.identity.crate) c mem
  simp only [renderFront, List.forall_mem_cons, List.not_mem_nil, false_implies, implies_true, and_true]
  refine ⟨plain rfl crate, plain rfl ?_, plain rfl ?_⟩
  · exact fun c mem => (readable.date c mem).1
  · intro c mem
    obtain ⟨low, high⟩ := readable.version.codes c mem
    exact isSpace_of_code low high

theorem readMeta_rendered (readable : Readable entry) :
    readMeta [] (splitlines (frontText entry)) = .ok (frontData entry) := by
  have crate : strip (crateName entry.identity.crate) = crateName entry.identity.crate ∧
      '"' ∉ crateName entry.identity.crate := by
    cases entry.identity.crate <;> decide
  have date : strip entry.date = entry.date ∧ '"' ∉ entry.date :=
    ⟨readable.date.strip, fun mem => (readable.date _ mem).2.1 rfl⟩
  have version : strip entry.identity.version = entry.identity.version ∧
      '"' ∉ entry.identity.version := by
    have word : ∀ c ∈ entry.identity.version, isSpace c = false := fun c mem =>
      isSpace_of_code (readable.version.codes c mem).1 (readable.version.codes c mem).2
    refine ⟨strip_eq_self.mpr ⟨fun c first => word c (List.mem_of_head? first),
      fun c last => word c (List.mem_of_getLast? last)⟩, fun mem => ?_⟩
    exact absurd (readable.version.codes _ mem).1 (by decide)
  have split : splitlines (frontText entry) = renderFront entry :=
    splitlines_joinLines_open (plain_renderFront readable) (by simp [renderFront])
  have keyed : renderFront entry =
      ["release_crate".toList ++ ": ".toList ++ crateName entry.identity.crate,
        "release_date".toList ++ ": ".toList ++ entry.date,
        "release_version".toList ++ ": ".toList ++ entry.identity.version] := rfl
  rw [split, keyed, readMeta_line (by decide), stripOf_value crate.1 crate.2,
    readMeta_line (by decide), stripOf_value date.1 date.2, readMeta_line (by decide),
    stripOf_value version.1 version.2]
  rfl

/-- What is read of the front matter of an entry, whatever comes after it. -/
theorem splitFrontMatter_front (readable : Readable entry) (body : Line) :
    splitFrontMatter (writtenFront entry ++ body) =
      .ok (frontData entry, body.dropWhile (· = '\n')) := by
  have whole : writtenFront entry ++ body =
      frontOpening ++ (frontText entry ++ (frontClosing ++ ('\n' :: body))) := by
    simp [writtenFront]
  have opens : (writtenFront entry ++ body).dropPrefix? frontOpening =
      some (frontText entry ++ (frontClosing ++ ('\n' :: body))) := by
    rw [whole]
    exact List.dropPrefix?_append_of_beq _ BEq.rfl
  have cut := @cut?_frontClosing (renderFront entry) ('\n' :: body) (by simp [renderFront])
    (fun line mem newline => by cases plain_renderFront readable line mem '\n' newline)
    (by simp [renderFront, dashes])
  rw [splitFrontMatter, opens, okOr_some, ok_bind, frontText, cut, okOr_some, ok_bind]
  show (readMeta [] (splitlines (frontText entry)) >>= fun data => _) = _
  rw [readMeta_rendered readable, ok_bind, List.dropWhile_cons_of_pos rfl]
  rfl

/-- What the front matter of a written entry is read as. -/
theorem readFront_rendered (readable : Readable entry) (iso : isIsoDate entry.date = true)
    {expected : Option Line} (expects : checkExpected entry.identity expected = .ok ()) :
    readFront (frontData entry) expected = .ok (entry.identity, entry.date) := by
  have crate : strip (crateName entry.identity.crate) = crateName entry.identity.crate := by
    cases entry.identity.crate <;> decide
  have found : crates.find? (crateName · = crateName entry.identity.crate) =
      some entry.identity.crate := by
    cases entry.identity.crate <;> decide
  have keys : checkKeys (frontData entry) = .ok () := rfl
  have crate' : (frontData entry).get "release_crate".toList = crateName entry.identity.crate := rfl
  have version : (frontData entry).get "release_version".toList = entry.identity.version := rfl
  have date : (frontData entry).get "release_date".toList = entry.date := rfl
  simp only [readFront, keys, ok_bind, crate', version, date, crate, found, okOr_some,
    readable.version.reads, expects, humanDateToIso_of_isIsoDate iso, pure_eq_ok]

/-- An entry is read back from behind its front matter only if its date is in ISO form. -/
theorem isIsoDate_of_parse (readable : Readable entry) {body : Line} {expected : Option Line}
    (h : parseMarkdownRelease (writtenFront entry ++ body) expected = .ok entry) :
    isIsoDate entry.date = true := by
  obtain ⟨-, data, _, split, front, -⟩ := parseMarkdownRelease_eq_ok.mp h
  rw [splitFrontMatter_front readable, Except.ok.injEq, Prod.mk.injEq] at split
  obtain ⟨rfl, -⟩ := split
  simp only [readFront, bind_eq_ok, pure_eq_ok, Except.ok.injEq, Prod.mk.injEq] at front
  obtain ⟨_, -, _, -, _, -, _, -, date, read, -, rfl⟩ := front
  exact isIsoDate_of_read readable.date read

theorem splitTag_tag {release : Identity} (normal : Normal release.version) :
    splitTag release.tag = .ok release := by
  obtain ⟨crate, version⟩ := release
  obtain ⟨rest, rfl, -⟩ := normal.marked
  have own : (crateName crate ++ '-' :: 'v' :: rest).dropPrefix? (crateName crate ++ "-v".toList) =
      some rest := by
    have eq : crateName crate ++ '-' :: 'v' :: rest = (crateName crate ++ "-v".toList) ++ rest := by
      simp
    rw [eq]
    exact List.dropPrefix?_append_of_beq _ BEq.rfl
  have found : (crates.findSome? fun c =>
      ((crateName crate ++ '-' :: 'v' :: rest).dropPrefix? (crateName c ++ "-v".toList)).map (c, ·)) =
      some (crate, rest) := by
    cases crate with
    | libosdpSys =>
      rw [crates, List.findSome?_cons, own]
      rfl
    | libosdp =>
      have other : (crateName .libosdp ++ '-' :: 'v' :: rest).dropPrefix?
          (crateName .libosdpSys ++ "-v".toList) = none := rfl
      rw [crates, List.findSome?_cons, other, Option.map_none, List.findSome?_cons, own]
      rfl
  rw [splitTag, Identity.tag, found, okOr_some, ok_bind]
  show (normalizeVersion ('v' :: rest) >>= fun version => _) = _
  rw [normal.reads]
  rfl

theorem checkExpected_tag {release : Identity} (normal : Normal release.version) :
    checkExpected release (some release.tag) = .ok () := by
  have some : release.tag ≠ [] := by simp [Identity.tag]
  have kept : (Option.some release.tag).filter (· ≠ []) = Option.some release.tag := by
    simp [some]
  rw [checkExpected, kept]
  simp only [splitTag_tag normal, ok_bind, if_true]

/-- What is read behind the front matter of an entry. -/
theorem parse_front (readable : Readable entry) (iso : isIsoDate entry.date = true) {body : Line}
    {expected : Option Line}
    (unmarked : ¬ todoMarker <:+: writtenFront entry ++ body) (opens : ∀ c ∈ body.head?, c ≠ '\n')
    (expects : checkExpected entry.identity expected = .ok ())
    (read : readBody entry.identity (splitlines body) = .ok (entry.subject, entry.sections)) :
    parseMarkdownRelease (writtenFront entry ++ body) expected = .ok entry := by
  have kept : body.dropWhile (· = '\n') = body := by
    cases body with
    | nil => rfl
    | cons c body => exact List.dropWhile_cons_of_neg (by simpa using opens c rfl)
  simp only [parseMarkdownRelease, if_neg unmarked, splitFrontMatter_front readable, kept, ok_bind,
    readFront_rendered readable iso expects, read, pure_eq_ok]

/-- What is written for an entry is read as the entry, where it does not show the marker. -/
theorem parse_rendered (readable : Readable entry) (iso : isIsoDate entry.date = true)
    (unmarked : ¬ todoMarker <:+: renderRelease entry) {expected : Option Line}
    (expects : checkExpected entry.identity expected = .ok ()) :
    parseMarkdownRelease (renderRelease entry) expected = .ok entry := by
  rw [renderRelease_eq readable.words_renderBody] at unmarked ⊢
  obtain ⟨c, rest, first, word⟩ := readable.exists_first
  refine parse_front readable iso unmarked ?_ expects (readBody_rendered readable _)
  rw [first]
  rintro d ⟨⟩ rfl
  cases word

/-! ## What is read can be written -/

theorem readable_of_bullet (reads : bullet? line = some item) (plain : Plain line) :
    ReadableItem item := by
  unfold bullet? at reads
  split at reads
  swap
  · cases reads
  next c rest dash =>
  split at reads
  swap
  · cases reads
  next space =>
  obtain rfl := Option.some.inj reads
  have last := (strip_eq_self.mp (@strip_strip line)).2
  rw [dash] at last
  refine ⟨?_, strip_strip, fun d mem => plain d (mem_of_mem_strip ?_)⟩
  · intro empty
    rw [strip_eq_nil] at empty
    have spaces : ∀ d ∈ c :: rest, isSpace d = true := List.forall_mem_cons.mpr ⟨space, empty⟩
    have ends := List.getLast?_eq_some_getLast (List.cons_ne_nil c rest)
    have word := last _ (by rwa [List.getLast?_cons_cons])
    rw [spaces _ (List.getLast_mem _)] at word
    cases word
  · rw [dash]
    exact List.mem_cons_of_mem _ (List.mem_cons_of_mem _ (mem_of_mem_strip mem))

theorem readable_wrap (readable : ReadableItem item) (words : strip line ≠ []) (plain : Plain line) :
    ReadableItem (item ++ ' ' :: strip line) := by
  have front : item ++ ' ' :: strip line = (item ++ [' ']) ++ strip line := by simp
  refine ⟨by simp, ?_, ?_⟩
  · rw [front]
    apply strip_append _ (by simp) words strip_strip
    rw [List.head?_append_of_ne_nil _ readable.some]
    exact (strip_eq_self.mp readable.stripped).1
  · intro c mem
    rcases List.mem_append.mp mem with mem | mem
    · exact readable.plain c mem
    · rcases List.mem_cons.mp mem with rfl | mem
      · rfl
      · exact plain c (mem_of_mem_strip mem)

theorem readable_item (item : ItemLines) (plain : ∀ line ∈ item.lines, Plain line) :
    ReadableItem item.item := by
  have first : ReadableItem item.text := readable_of_bullet item.reads (plain _ List.mem_cons_self)
  have rest : ∀ line ∈ item.wrapped, strip line ≠ [] ∧ Plain line := fun line mem =>
    ⟨isBlank_eq_false.mp (item.continues line mem).1, plain line (List.mem_cons_of_mem _ mem)⟩
  rw [ItemLines.item]
  generalize item.text = text at first ⊢
  generalize item.wrapped = wrapped at rest ⊢
  induction wrapped generalizing text with
  | nil => exact first
  | cons line wrapped ih =>
    obtain ⟨⟨words, plain⟩, rest⟩ := List.forall_mem_cons.mp rest
    exact ih _ (readable_wrap first words plain) rest

theorem readable_section (s : SectionLines) (plain : ∀ line ∈ s.lines, Plain line) :
    ReadableSection s.read := by
  refine ⟨heading?_headingOf s.reads, by simpa [SectionLines.read] using s.items_ne, ?_⟩
  intro item mem
  obtain ⟨lines, there, rfl⟩ := List.mem_map.mp mem
  apply readable_item
  intro line mem
  have inside : line ∈ s.items.flatMap ItemLines.lines := List.mem_flatMap.mpr ⟨lines, there, mem⟩
  exact plain line (List.mem_cons_of_mem _ (List.mem_append_left _ (List.mem_append_right _ inside)))

/-- **What is read from a text is readable.** -/
theorem readable_of_parse {expected : Option Line}
    (h : parseMarkdownRelease text expected = .ok entry) : Readable entry := by
  obtain ⟨-, data, body, -, front, l, lines, -, read⟩ := parseMarkdownRelease_eq_ok.mp h
  obtain ⟨subject, sections⟩ := Prod.mk.inj read
  have plain : ∀ line ∈ l.lines, Plain line := by
    rw [lines]
    exact fun line => plain_of_mem_splitlines
  have filled := filled_of_layout read
  simp only [readFront, bind_eq_ok, pure_eq_ok, Except.ok.injEq, Prod.mk.injEq] at front
  obtain ⟨_, -, crate, -, version, normalized, _, -, date, read, identity, rfl⟩ := front
  have inside : ∀ line ∈ l.opening.first :: l.opening.more, line ∈ l.lines := fun line mem =>
    List.mem_append_left _ (List.mem_append_right _ mem)
  constructor
  · rw [← identity]
    exact normal_of_normalizeVersion normalized
  · exact bare_of_humanDateToIso read
  · exact filled.subject
  · rw [← subject]
    exact strip_strip
  · intro c mem ends
    rw [← subject] at mem
    rcases mem_joinLines (mem_of_mem_strip mem) with newline | ⟨line, there, mem⟩
    · exact newline
    · rw [plain line (inside line there) c mem] at ends
      cases ends
  · intro line mem
    have same : strip (joinLines (l.opening.first :: l.opening.more) ++ ['\n']) = entry.subject := by
      rw [← subject]
      exact strip_append_spaces (List.forall_mem_singleton.mpr rfl)
    rw [← same] at mem
    obtain ⟨other, there, strips⟩ := exists_mem_of_mem_splitlines_strip mem
    rw [splitlines_joinLines (by simp) fun line mem => plain line (inside line mem)] at there
    rw [← heading?_congr strips]
    exact l.opening.plain other there
  · exact filled.sections
  · intro s mem
    rw [← sections] at mem
    obtain ⟨here, there, rfl⟩ := List.mem_map.mp mem
    apply readable_section
    intro line mem
    exact plain line (List.mem_append_right _ (List.mem_flatMap.mpr ⟨here, there, mem⟩))
  · exact filled.titles

/-! ## The marker of unfinished work -/

theorem plain_todoMarker : Plain todoMarker := by
  have plain : todoMarker.all (fun c => !isLineEnd c) = true := by decide
  intro c mem
  simpa using List.all_eq_true.mp plain c mem

theorem not_infix_of_hash (none : '#' ∉ line) : ¬ todoMarker <:+: line :=
  fun inside => none (inside.subset (by decide))

/-- The marker is in a bullet only if it is in its item. -/
theorem infix_item (h : todoMarker <:+: bulletOf item) : todoMarker <:+: item := by
  have bullet : bulletOf item = [] ++ '-' :: ' ' :: item := rfl
  rw [bullet] at h
  rcases infix_append_cons (by decide) h with none | h
  · cases List.eq_nil_of_infix_nil none
  · rcases List.infix_cons_iff.mp h with opens | inside
    · cases (List.cons_prefix_cons.mp opens).1
    · exact inside

theorem not_shows_frontText (readable : Readable entry) : ¬ todoMarker <:+: frontText entry := by
  intro h
  obtain ⟨line, mem, inside⟩ := exists_line_of_infix plain_todoMarker (by decide) h
  rw [frontText, splitlines_joinLines_open (plain_renderFront readable) (by simp [renderFront])] at mem
  have crate : '#' ∉ crateName entry.identity.crate := by
    cases entry.identity.crate <;> decide
  have date : '#' ∉ entry.date := fun mem => (readable.date _ mem).2.2 rfl
  have version : '#' ∉ entry.identity.version := fun mem =>
    absurd (readable.version.codes _ mem).1 (by decide)
  refine not_infix_of_hash ?_ inside
  simp only [renderFront, List.mem_cons, List.not_mem_nil, or_false] at mem
  rcases mem with rfl | rfl | rfl
  · exact List.not_mem_append (by decide) crate
  · exact List.not_mem_append (by decide) date
  · exact List.not_mem_append (by decide) version

/-- The front matter does not show the marker. -/
theorem shows_behind_front (readable : Readable entry) {body : Line}
    (h : todoMarker <:+: writtenFront entry ++ body) : todoMarker <:+: body := by
  have whole : writtenFront entry ++ body =
      "---".toList ++ '\n' :: (frontText entry ++ '\n' ::
        ("---".toList ++ '\n' :: ([] ++ '\n' :: body))) := by
    simp [writtenFront, frontOpening, frontClosing]
  have newline : '\n' ∉ todoMarker := by decide
  rw [whole] at h
  rcases infix_append_cons newline h with opening | h
  · exact absurd opening (not_infix_of_hash (by decide))
  rcases infix_append_cons newline h with front | h
  · exact absurd front (not_shows_frontText readable)
  rcases infix_append_cons newline h with closing | h
  · exact absurd closing (not_infix_of_hash (by decide))
  rcases infix_append_cons newline h with empty | h
  · cases List.eq_nil_of_infix_nil empty
  · exact h

/-- Where a written entry shows the marker. -/
theorem shows_of_rendered (readable : Readable entry) (h : todoMarker <:+: renderRelease entry) :
    todoMarker <:+: entry.subject ∨ ∃ s ∈ entry.sections,
      todoMarker <:+: headingOf s.title ∨ ∃ item ∈ s.items, todoMarker <:+: item := by
  rw [renderRelease_eq readable.words_renderBody] at h
  have h := shows_behind_front readable h
  obtain ⟨line, mem, inside⟩ := exists_line_of_infix plain_todoMarker (by decide) h
  rw [readable.splitlines_body] at mem
  obtain ⟨other, mem, opens⟩ := exists_prefix_of_mem_trimEnd mem
  have inside : todoMarker <:+: other := inside.trans opens.isInfix
  rcases List.mem_append.mp mem with mem | mem
  · exact .inl (inside.trans (infix_of_mem_splitlines mem))
  rcases List.mem_cons.mp mem with rfl | mem
  · cases List.eq_nil_of_infix_nil inside
  obtain ⟨s, there, within⟩ := List.mem_flatMap.mp mem
  refine .inr ⟨s, there, ?_⟩
  simp only [renderSection, List.mem_cons, List.mem_append, List.mem_map, List.not_mem_nil,
    or_false] at within
  rcases within with rfl | rfl | ⟨item, mem', rfl⟩ | rfl
  · exact .inl inside
  · cases List.eq_nil_of_infix_nil inside
  · exact .inr ⟨item, mem', infix_item inside⟩
  · cases List.eq_nil_of_infix_nil inside

theorem rendered_of_item (readable : Readable entry) (mem : s ∈ entry.sections)
    (mem' : item ∈ s.items) (h : todoMarker <:+: item) : todoMarker <:+: renderRelease entry := by
  have readable' := (readable.sections s mem).items item mem'
  have stripped : strip (bulletOf item) = bulletOf item :=
    strip_append (by rintro c ⟨⟩; rfl) (by decide) readable'.some readable'.stripped
  have ends : (bulletOf item).rdropWhile isSpace = bulletOf item := by
    rw [List.rdropWhile_eq_self_iff]
    intro nonempty
    have last := (strip_eq_self.mp stripped).2 _ (List.getLast?_eq_some_getLast nonempty)
    simp [last]
  have bullet : bulletOf item ∈ renderSection s := by
    rw [renderSection]
    simp only [List.mem_cons, List.mem_append, List.mem_map]
    exact .inr (.inr (.inl ⟨item, mem', rfl⟩))
  have here : bulletOf item ∈ splitlines entry.subject ++ [] :: entry.sections.flatMap renderSection :=
    List.mem_append_right _ (List.mem_cons_of_mem _ (List.mem_flatMap.mpr ⟨s, mem, bullet⟩))
  have kept := mem_trimEnd here (by rw [stripped]; exact List.cons_ne_nil _ _) ends
  rw [← readable.splitlines_body] at kept
  have item_inside : item <:+: bulletOf item := (List.suffix_append _ _).isInfix
  have tail : (joinLines (renderBody entry)).rdropWhile isSpace ++ ['\n'] <:+: renderRelease entry := by
    rw [renderRelease_eq readable.words_renderBody]
    exact (List.suffix_append _ _).isInfix
  exact h.trans (item_inside.trans ((infix_of_mem_splitlines kept).trans tail))

theorem isIsoDate_of_rendered (readable : Readable entry) {expected : Option Line}
    (h : parseMarkdownRelease (renderRelease entry) expected = .ok entry) :
    isIsoDate entry.date = true := by
  rw [renderRelease_eq readable.words_renderBody] at h
  exact isIsoDate_of_parse readable h

theorem checkExpected_of_parse {expected : Option Line}
    (h : parseMarkdownRelease text expected = .ok entry) :
    checkExpected entry.identity expected = .ok () := by
  obtain ⟨-, data, body, -, front, -⟩ := parseMarkdownRelease_eq_ok.mp h
  simp only [readFront, bind_eq_ok, pure_eq_ok, Except.ok.injEq, Prod.mk.injEq] at front
  obtain ⟨_, -, crate, -, version, -, _, expects, date, -, identity, -⟩ := front
  rw [← identity]
  exact expects

/-- A text without the marker shows it in no line that is read as it stands. -/
theorem not_shows_of_parse {expected : Option Line}
    (h : parseMarkdownRelease text expected = .ok entry) :
    ¬ todoMarker <:+: entry.subject ∧ ∀ s ∈ entry.sections, ¬ todoMarker <:+: headingOf s.title := by
  obtain ⟨none, data, body, split, -, l, lines, -, read⟩ := parseMarkdownRelease_eq_ok.mp h
  obtain ⟨front, gap, whole, -⟩ := eq_of_splitFrontMatter split
  obtain ⟨subject, sections⟩ := Prod.mk.inj read
  have unmarked : ∀ line ∈ l.lines, ¬ todoMarker <:+: line := by
    intro line mem inside
    rw [lines] at mem
    have body_infix : body <:+: text := ⟨frontOpening ++ (front ++ frontClosing ++ gap), [], by
      simp [whole]⟩
    exact none (inside.trans ((infix_of_mem_splitlines mem).trans body_infix))
  have plain : ∀ line ∈ l.lines, Plain line := by
    rw [lines]
    exact fun line => plain_of_mem_splitlines
  constructor
  · intro inside
    have stripped : strip (joinLines (l.opening.first :: l.opening.more)) <:+:
        joinLines (l.opening.first :: l.opening.more) ++ ['\n'] :=
      ((List.rdropWhile_prefix _ _).isInfix.trans (List.dropWhile_suffix _).isInfix).trans
        (List.prefix_append _ _).isInfix
    rw [← subject] at inside
    have mine : ∀ line ∈ l.opening.first :: l.opening.more, line ∈ l.lines := fun line mem =>
      List.mem_append_left _ (List.mem_append_right _ mem)
    obtain ⟨line, mem, inside⟩ := exists_line_of_infix plain_todoMarker (by decide)
      (inside.trans stripped)
    rw [splitlines_joinLines (by simp) fun line mem => plain line (mine line mem)] at mem
    exact unmarked line (mine line mem) inside
  · intro s mem inside
    rw [← sections] at mem
    obtain ⟨here, there, rfl⟩ := List.mem_map.mp mem
    have heading : here.heading ∈ l.lines :=
      List.mem_append_right _ (List.mem_flatMap.mpr ⟨here, there, List.mem_cons_self⟩)
    have stripped : strip here.heading <:+: here.heading :=
      (List.rdropWhile_prefix _ _).isInfix.trans (List.dropWhile_suffix _).isInfix
    have same : headingOf here.read.title = strip here.heading := (heading?_eq_some here.reads).symm
    rw [same] at inside
    exact unmarked _ heading (inside.trans stripped)

/-- **What is read of a release file is read of the file written from it**, exactly if its date is
    in ISO form and no item, as one line, shows the marker. -/
theorem render_round_trip {expected : Option Line}
    (h : parseMarkdownRelease text expected = .ok entry) :
    (parseMarkdownRelease (renderRelease entry) expected = .ok entry ∧
      parseMarkdownRelease (renderRelease entry) (some entry.identity.tag) = .ok entry) ↔
    isIsoDate entry.date = true ∧
      ∀ s ∈ entry.sections, ∀ item ∈ s.items, ¬ todoMarker <:+: item := by
  have readable := readable_of_parse h
  constructor
  · rintro ⟨reads, -⟩
    refine ⟨isIsoDate_of_rendered readable reads, fun s mem item mem' inside => ?_⟩
    exact (parseMarkdownRelease_eq_ok.mp reads).noTodo (rendered_of_item readable mem mem' inside)
  · rintro ⟨iso, unmarked⟩
    have none : ¬ todoMarker <:+: renderRelease entry := by
      intro inside
      obtain ⟨subject, headings⟩ := not_shows_of_parse h
      rcases shows_of_rendered readable inside with here | ⟨s, mem, heading | ⟨item, mem', here⟩⟩
      · exact subject here
      · exact headings s mem heading
      · exact unmarked s mem item mem' here
    exact ⟨parse_rendered readable iso none (checkExpected_of_parse h),
      parse_rendered readable iso none (checkExpected_tag readable.version)⟩

/-- A year before 1000 is printed as it is: the date is not in ISO form. -/
example : humanDateToIso "5 May 0999".toList = .ok "999-05-05".toList := by decide +kernel

/-- A file whose sections are wrapped and spaced in other ways than they are written. -/
def looseRelease : Line :=
  ("---\nrelease_version: v1.0.0 - RC1\nrelease_crate: libosdp\nrelease_date: 9 October 2026\n---\n\n" ++
    "First release.\n\n## Fixes\n- One\n  two\n\n\n## Enhancements\n\n-  Three  \n").toList

theorem render_round_trip_loose : ∃ entry, parseMarkdownRelease looseRelease none = .ok entry ∧
    parseMarkdownRelease (renderRelease entry) none = .ok entry := by
  let entry : ReleaseEntry :=
    ⟨⟨.libosdp, "v1.0.0-rc1".toList⟩, "2026-10-09".toList, "First release.".toList,
      [⟨"Fixes".toList, ["One two".toList]⟩, ⟨"Enhancements".toList, ["Three".toList]⟩]⟩
  have reads : parseMarkdownRelease looseRelease none = .ok entry := by decide +kernel
  exact ⟨entry, reads, ((render_round_trip reads).mpr (by decide +kernel)).1⟩

end LibOsdp.Changelog
