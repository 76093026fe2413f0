import LibOsdp.Base.Chars
import LibOsdp.Base.Loop
import LibOsdp.Base.Result
import LibOsdp.Release.Version
import Mathlib.Data.Char
import Mathlib.Data.List.Infix
import Mathlib.Data.List.Lex
import Mathlib.Data.List.Sort

/-!
# The changelog parser

A release file is front matter between two lines of dashes, then a subject and sections of
bullets. The front matter is read line by line. The body is read by loops that share one index,
inside one another; here they are one loop whose state says which of them is running, and the
index is the lines that are still ahead. It ends, since in every turn a line is passed or the next
inner loop begins.
-/

set_option autoImplicit false

namespace LibOsdp.Changelog

open LibOsdp.Base
open LibOsdp.Release (Crate)

/-- What a release file says which release it is of. -/
structure Identity where
  crate : Crate
  version : Line
  deriving DecidableEq, Repr

structure Section where
  title : Line
  items : List Line
  deriving DecidableEq, Repr

structure ReleaseEntry where
  identity : Identity
  date : Line
  subject : Line
  sections : List Section
  deriving DecidableEq, Repr

/-- The ways the tool dies, with what its message names. -/
inductive Die where
  | todoMarkers
  | noFrontMatter
  | notTerminated
  | badLine (line : Line)
  | missingKeys (keys : List Line)
  | extraKeys (keys : List Line)
  | unknownCrate (raw : Line)
  | badVersion (raw : Line)
  | notReleaseTag (tag : Line)
  | mismatch (expected found : Identity)
  | noDate
  | badDate (raw : Line)
  | noSubject (release : Identity)
  | badHeading (release : Identity) (line : Line)
  | repeated (release : Identity) (title : Line)
  | nonBullet (release : Identity) (title line : Line)
  | noItems (release : Identity) (title : Line)
  | noSections (release : Identity)
  deriving DecidableEq, Repr

/-! ## Names and versions -/

def crateName : Crate → Line
  | .libosdpSys => "libosdp-sys".toList
  | .libosdp => "libosdp".toList

/-- Longest first: `libosdp-sys` must win over `libosdp`. -/
def crates : List Crate := [.libosdpSys, .libosdp]

/-- A full match of `VERSION_RE`. -/
def isVersion : Line → Bool
  | [] => false
  | c :: rest => c.isAlphanum && rest.all fun c => c.isAlphanum || c ∈ ['.', '+', '-']

def isGap (c : Char) : Bool := isSpace c || c = '-'

/-- The three substitutions of `normalize_version`: a run of spaces and dashes is one dash. -/
def dashed : Line → Line
  | [] => []
  | c :: rest =>
    if !isGap c then c :: dashed rest
    else if rest.head?.any isGap then dashed rest
    else '-' :: dashed rest

def normalizeVersion (raw : Line) : Except Die Line :=
  let version := strip raw
  let version := if version.head? = some 'v' then version.tail else version
  let version := lower (dashed version)
  if isVersion version then .ok ('v' :: version) else .error (.badVersion raw)

def splitTag (tag : Line) : Except Die Identity := do
  let (crate, rest) ← okOr (crates.findSome? fun crate =>
    (tag.dropPrefix? (crateName crate ++ "-v".toList)).map (crate, ·)) (.notReleaseTag tag)
  let version ← normalizeVersion ('v' :: rest)
  return ⟨crate, version⟩

/-! ## Dates -/

/-- A full match of `\d{4}-\d{2}-\d{2}`. -/
def isIsoDate (value : Line) : Bool :=
  value.length = 10 && value.zipIdx.all fun (c, i) =>
    if i = 4 || i = 7 then c = '-' else (digit? c).isSome

def months : List Line :=
  ["january".toList, "february".toList, "march".toList, "april".toList, "may".toList,
    "june".toList, "july".toList, "august".toList, "september".toList, "october".toList,
    "november".toList, "december".toList]

/-- The directive `%d`. -/
def isDay : Line → Bool
  | [c] => '1' ≤ c && c ≤ '9'
  | ['0', c] => '1' ≤ c && c ≤ '9'
  | ['3', c] => c = '0' || c = '1'
  | [a, c] => (a = '1' || a = '2') && (digit? c).isSome
  | _ => false

def daysIn (year month : Nat) : Nat :=
  if month = 2 then if year % 4 = 0 ∧ (year % 100 ≠ 0 ∨ year % 400 = 0) then 29 else 28
  else if month ∈ [4, 6, 9, 11] then 30
  else 31

/-- A number in decimal, with zeros up to `width`. -/
def padded (width n : Nat) : Line :=
  let digits := Nat.toDigits 10 n
  List.replicate (width - digits.length) '0' ++ digits

/-- `datetime.strptime` with a day, a month of `names` and a year, as `strftime` prints it: `%Y`
    does not pad a year before 1000. -/
def strptime? (names : List Line) (value : Line) : Option Line :=
  match (value.splitOnP isSpace).filter (· ≠ []) with
  | [day, month, year] => do
    let index ← names.findIdx? (· = lower month)
    let y ← number? year
    let d ← number? day
    if isDay day ∧ year.length = 4 ∧ 0 < y ∧ d ≤ daysIn y (index + 1) then
      some (Nat.toDigits 10 y ++ ['-'] ++ padded 2 (index + 1) ++ ['-'] ++ padded 2 d)
    else none
  | _ => none

def humanDateToIso (value : Line) : Except Die Line :=
  let value := strip value
  if value = [] then .error .noDate
  else if isIsoDate value then .ok value
  else okOr (strptime? months value <|> strptime? (months.map (·.take 3)) value) (.badDate value)

/-! ## The front matter -/

/-- The keys with their values. -/
abbrev Meta := List (Line × Line)

def Meta.get (data : Meta) (key : Line) : Line := (data.lookup key).getD []

def readMeta : Meta → List Line → Except Die Meta
  | data, [] => .ok data
  | data, line :: lines =>
    if strip line = [] then readMeta data lines
    else
      match cut? [':'] line with
      | none => .error (.badLine line)
      | some (key, value) =>
        let value := stripOf (· = '"') (strip value)
        readMeta ((strip key, value) :: data.filter (·.1 ≠ strip key)) lines

def frontOpening : Line := "---\n".toList

def frontClosing : Line := "\n---\n".toList

def splitFrontMatter (text : Line) : Except Die (Meta × Line) := do
  let rest ← okOr (text.dropPrefix? frontOpening) .noFrontMatter
  let (front, body) ← okOr (cut? frontClosing rest) .notTerminated
  let data ← readMeta [] (splitlines front)
  return (data, body.dropWhile (· = '\n'))

def frontMatterKeys : List Line :=
  ["release_crate".toList, "release_date".toList, "release_version".toList]

def checkKeys (data : Meta) : Except Die Unit :=
  let missing := frontMatterKeys.filter (· ∉ data.map Prod.fst)
  let extra := ((data.map Prod.fst).filter (· ∉ frontMatterKeys)).insertionSort (· ≤ ·)
  if missing ≠ [] then .error (.missingKeys missing)
  else if extra ≠ [] then .error (.extraKeys extra)
  else .ok ()

/-- An expected tag that is absent or empty is not checked. -/
def checkExpected (found : Identity) (expected : Option Line) : Except Die Unit :=
  match expected.filter (· ≠ []) with
  | none => .ok ()
  | some tag => do
    let want ← splitTag tag
    if found = want then .ok () else .error (.mismatch want found)

def readFront (data : Meta) (expected : Option Line) : Except Die (Identity × Line) := do
  checkKeys data
  let raw := strip (data.get "release_crate".toList)
  let crate ← okOr (crates.find? (crateName · = raw)) (.unknownCrate raw)
  let version ← normalizeVersion (data.get "release_version".toList)
  checkExpected ⟨crate, version⟩ expected
  let date ← humanDateToIso (data.get "release_date".toList)
  return (⟨crate, version⟩, date)

/-! ## The body -/

def isBlank (line : Line) : Bool := strip line = []

/-- A full match of `MARKDOWN_HEADING_RE` on a stripped line: its title. -/
def heading? (line : Line) : Option Line := do
  let title ← (strip line).dropPrefix? "## ".toList
  if (title.head?.any (·.isUpper)) && 2 ≤ title.length && title.tail.all fun c => c.isAlpha || c = ' '
    then some title else none

/-- A full match of `-\s+(.+)` on a stripped line: its item. -/
def bullet? (line : Line) : Option Line :=
  match strip line with
  | '-' :: c :: rest => if isSpace c then some (strip rest) else none
  | _ => none

def isIndented (line : Line) : Bool := line.head?.any isSpace

/-- The loop that is running. -/
inductive Phase where
  /-- The blank lines before the subject. -/
  | lead
  | subject (taken : List Line)
  /-- The blank lines before a section. -/
  | sections (subject : Line) (done : List Section)
  | items (subject : Line) (done : List Section) (title : Line) (items : List Line)

structure Scan where
  /-- The lines from the index on. -/
  ahead : List Line
  phase : Phase

abbrev BodyTurn := Turn Scan (Except Die (Line × List Section))

variable (release : Identity)

/-- After the loop over the lines of the subject. -/
def closeSubject (ahead taken : List Line) : BodyTurn :=
  let subject := strip (joinLines taken)
  if subject = [] then .leave (.error (.noSubject release)) else .again ⟨ahead, .sections subject []⟩

/-- After the loop over the lines of a section. -/
def closeSection (ahead : List Line) (subject : Line) (done : List Section) (title : Line)
    (items : List Line) : BodyTurn :=
  if items = [] then .leave (.error (.noItems release title))
  else .again ⟨ahead, .sections subject (done ++ [⟨title, items⟩])⟩

/-- A line of a section that is neither blank nor a heading. -/
def itemLine (line : Line) (ahead : List Line) (subject : Line) (done : List Section) (title : Line)
    (items : List Line) : BodyTurn :=
  match bullet? line with
  | some item => .again ⟨ahead, .items subject done title (items ++ [item])⟩
  | none =>
    -- a wrapped bullet: an indented line continuing the one above
    if items ≠ [] ∧ isIndented line then
      .again ⟨ahead, .items subject done title (items.modifyLast (· ++ ' ' :: strip line))⟩
    else .leave (.error (.nonBullet release title line))

def headingLine (line : Line) (ahead : List Line) (subject : Line) (done : List Section) : BodyTurn :=
  match heading? line with
  | none => .leave (.error (.badHeading release line))
  | some title =>
    if title ∈ done.map (·.title) then .leave (.error (.repeated release title))
    else .again ⟨ahead, .items subject done title []⟩

/-- One turn of the loop that is running. -/
def bodyTurn : Scan → BodyTurn
  | ⟨line :: rest, .lead⟩ =>
    if isBlank line then .again ⟨rest, .lead⟩ else .again ⟨line :: rest, .subject []⟩
  | ⟨[], .lead⟩ => .again ⟨[], .subject []⟩
  | ⟨line :: rest, .subject taken⟩ =>
    if (heading? line).isSome then closeSubject release (line :: rest) taken
    else .again ⟨rest, .subject (taken ++ [line])⟩
  | ⟨[], .subject taken⟩ => closeSubject release [] taken
  | ⟨line :: rest, .sections subject done⟩ =>
    if isBlank line then .again ⟨rest, .sections subject done⟩
    else headingLine release line rest subject done
  | ⟨[], .sections subject done⟩ =>
    .leave (if done = [] then .error (.noSections release) else .ok (subject, done))
  | ⟨line :: rest, .items subject done title items⟩ =>
    if isBlank line then
      if items = [] then .again ⟨rest, .items subject done title items⟩
      else closeSection release rest subject done title items
    else if (heading? line).isSome then closeSection release (line :: rest) subject done title items
    else itemLine release line rest subject done title items
  | ⟨[], .items subject done title items⟩ => closeSection release [] subject done title items

/-- Two for each line ahead, and the loops that can begin before another is passed. -/
def Scan.left : Scan → Nat
  | ⟨ahead, .lead⟩ => 2 * ahead.length + 2
  | ⟨ahead, .subject _⟩ => 2 * ahead.length + 1
  | ⟨ahead, .sections _ _⟩ => 2 * ahead.length
  | ⟨ahead, .items _ _ _ _⟩ => 2 * ahead.length + 1

/-- **What a turn that goes on can do.** -/
inductive Moves : Scan → Scan → Prop where
  | leadBlank {line rest} (blank : isBlank line = true) : Moves ⟨line :: rest, .lead⟩ ⟨rest, .lead⟩
  | leadEnd {ahead} (words : ∀ line ∈ ahead.head?, isBlank line = false) :
      Moves ⟨ahead, .lead⟩ ⟨ahead, .subject []⟩
  | subjectLine {line rest taken} (plain : heading? line = none) :
      Moves ⟨line :: rest, .subject taken⟩ ⟨rest, .subject (taken ++ [line])⟩
  | subjectEnd {ahead taken} (ends : ∀ line ∈ ahead.head?, (heading? line).isSome)
      (words : strip (joinLines taken) ≠ []) :
      Moves ⟨ahead, .subject taken⟩ ⟨ahead, .sections (strip (joinLines taken)) []⟩
  | sectionsBlank {line rest subject done} (blank : isBlank line = true) :
      Moves ⟨line :: rest, .sections subject done⟩ ⟨rest, .sections subject done⟩
  | heading {line rest subject done title} (words : isBlank line = false)
      (reads : heading? line = some title) (new : title ∉ done.map (·.title)) :
      Moves ⟨line :: rest, .sections subject done⟩ ⟨rest, .items subject done title []⟩
  | itemsBlank {line rest subject done title} (blank : isBlank line = true) :
      Moves ⟨line :: rest, .items subject done title []⟩ ⟨rest, .items subject done title []⟩
  | bullet {line rest subject done title items item} (words : isBlank line = false)
      (plain : heading? line = none) (reads : bullet? line = some item) :
      Moves ⟨line :: rest, .items subject done title items⟩
        ⟨rest, .items subject done title (items ++ [item])⟩
  | wrapped {line rest subject done title items} (words : isBlank line = false)
      (plain : heading? line = none) (text : bullet? line = none) (some : items ≠ [])
      (indented : isIndented line = true) :
      Moves ⟨line :: rest, .items subject done title items⟩
        ⟨rest, .items subject done title (items.modifyLast (· ++ ' ' :: strip line))⟩
  | sectionBlank {line rest subject done title items} (blank : isBlank line = true)
      (some : items ≠ []) :
      Moves ⟨line :: rest, .items subject done title items⟩
        ⟨rest, .sections subject (done ++ [⟨title, items⟩])⟩
  | sectionEnd {ahead subject done title items}
      (ends : ∀ line ∈ ahead.head?, isBlank line = false ∧ (heading? line).isSome)
      (some : items ≠ []) :
      Moves ⟨ahead, .items subject done title items⟩
        ⟨ahead, .sections subject (done ++ [⟨title, items⟩])⟩

variable {release} {s t : Scan} {ahead taken : List Line} {line title subject : Line}
  {done sections : List Section} {items : List Line}

theorem closeSubject_eq_again : closeSubject release ahead taken = .again t ↔
    strip (joinLines taken) ≠ [] ∧ t = ⟨ahead, .sections (strip (joinLines taken)) []⟩ := by
  simp only [closeSubject]
  split
  · next empty => exact iff_of_false (by rintro ⟨⟩) fun h => h.1 empty
  · next words =>
    rw [Turn.again.injEq]
    exact ⟨fun h => ⟨words, h.symm⟩, fun h => h.2.symm⟩

theorem closeSection_eq_again : closeSection release ahead subject done title items = .again t ↔
    items ≠ [] ∧ t = ⟨ahead, .sections subject (done ++ [⟨title, items⟩])⟩ := by
  unfold closeSection
  split
  · next empty => exact iff_of_false (by rintro ⟨⟩) fun h => h.1 empty
  · next some =>
    rw [Turn.again.injEq]
    exact ⟨fun h => ⟨some, h.symm⟩, fun h => h.2.symm⟩

theorem moves_of_itemLine (words : isBlank line = false) (plain : heading? line = none)
    (h : itemLine release line ahead subject done title items = .again t) :
    Moves ⟨line :: ahead, .items subject done title items⟩ t := by
  unfold itemLine at h
  split at h
  · next item reads =>
    cases h
    exact .bullet words plain reads
  · next text =>
    split at h
    · next wraps =>
      cases h
      exact .wrapped words plain text wraps.1 wraps.2
    · cases h

theorem moves_of_headingLine (words : isBlank line = false)
    (h : headingLine release line ahead subject done = .again t) :
    Moves ⟨line :: ahead, .sections subject done⟩ t := by
  unfold headingLine at h
  split at h
  · cases h
  · next title reads =>
    split at h
    · cases h
    · next new =>
      cases h
      exact .heading words reads new

theorem moves_of_again (h : bodyTurn release s = .again t) : Moves s t := by
  obtain ⟨ahead, phase⟩ := s
  cases phase with
  | lead =>
    cases ahead with
    | nil =>
      cases h
      exact .leadEnd (by rintro _ ⟨⟩)
    | cons line rest =>
      rw [bodyTurn] at h
      split at h
      · next blank =>
        cases h
        exact .leadBlank blank
      · next words =>
        cases h
        exact .leadEnd (by simpa using words)
  | subject taken =>
    cases ahead with
    | nil =>
      obtain ⟨words, rfl⟩ := closeSubject_eq_again.mp h
      exact .subjectEnd (by rintro _ ⟨⟩) words
    | cons line rest =>
      rw [bodyTurn] at h
      split at h
      · next heads =>
        obtain ⟨words, rfl⟩ := closeSubject_eq_again.mp h
        exact .subjectEnd (by simpa using heads) words
      · next plain =>
        cases h
        exact .subjectLine (by simpa using plain)
  | sections subject done =>
    cases ahead with
    | nil => cases h
    | cons line rest =>
      rw [bodyTurn] at h
      split at h
      · next blank =>
        cases h
        exact .sectionsBlank blank
      · next words => exact moves_of_headingLine (by simpa using words) h
  | items subject done title items =>
    cases ahead with
    | nil =>
      obtain ⟨some, rfl⟩ := closeSection_eq_again.mp h
      exact .sectionEnd (by rintro _ ⟨⟩) some
    | cons line rest =>
      rw [bodyTurn] at h
      split at h
      · next blank =>
        split at h
        · next none =>
          cases h
          subst none
          exact .itemsBlank blank
        · obtain ⟨some, rfl⟩ := closeSection_eq_again.mp h
          exact .sectionBlank blank some
      · next words =>
        have words : isBlank line = false := by simpa using words
        split at h
        · next heads =>
          obtain ⟨some, rfl⟩ := closeSection_eq_again.mp h
          exact .sectionEnd (by simpa using ⟨words, heads⟩) some
        · next plain => exact moves_of_itemLine words (by simpa using plain) h

theorem again_of_moves (h : Moves s t) : bodyTurn release s = .again t := by
  cases h with
  | leadBlank blank => rw [bodyTurn, if_pos blank]
  | @leadEnd ahead words =>
    cases ahead with
    | nil => rfl
    | cons line rest => rw [bodyTurn, if_neg (by simpa using words line rfl)]
  | subjectLine plain => rw [bodyTurn, if_neg (by simp [plain])]
  | @subjectEnd ahead taken ends words =>
    cases ahead with
    | nil => exact closeSubject_eq_again.mpr ⟨words, rfl⟩
    | cons line rest =>
      rw [bodyTurn, if_pos (ends line rfl)]
      exact closeSubject_eq_again.mpr ⟨words, rfl⟩
  | sectionsBlank blank => rw [bodyTurn, if_pos blank]
  | heading words reads new =>
    rw [bodyTurn, if_neg (by simp [words]), headingLine, reads]
    exact if_neg new
  | itemsBlank blank => rw [bodyTurn, if_pos blank, if_pos rfl]
  | bullet words plain reads =>
    rw [bodyTurn, if_neg (by simp [words]), if_neg (by simp [plain]), itemLine, reads]
  | wrapped words plain text some indented =>
    rw [bodyTurn, if_neg (by simp [words]), if_neg (by simp [plain]), itemLine, text]
    exact if_pos ⟨some, indented⟩
  | sectionBlank blank some =>
    rw [bodyTurn, if_pos blank, if_neg some]
    exact closeSection_eq_again.mpr ⟨some, rfl⟩
  | @sectionEnd ahead subject done title items ends some =>
    cases ahead with
    | nil => exact closeSection_eq_again.mpr ⟨some, rfl⟩
    | cons line rest =>
      obtain ⟨words, heads⟩ := ends line rfl
      rw [bodyTurn, if_neg (by simp [words]), if_pos heads]
      exact closeSection_eq_again.mpr ⟨some, rfl⟩

theorem left_lt_of_moves (h : Moves s t) : t.left < s.left := by
  cases h <;> simp only [Scan.left, List.length_cons] <;> omega

/-- The loops over the lines of a body. -/
def bodyLoop (release : Identity) : Loop Scan (Except Die (Line × List Section)) where
  body := bodyTurn release
  measure := Scan.left
  falls h := left_lt_of_moves (moves_of_again h)

def readBody (release : Identity) (lines : List Line) : Except Die (Line × List Section) :=
  (bodyLoop release).run ⟨lines, .lead⟩

def todoMarker : Line := "## TODO".toList

def parseMarkdownRelease (text : Line) (expected : Option Line) : Except Die ReleaseEntry :=
  if todoMarker <:+: text then .error .todoMarkers
  else do
    let (data, body) ← splitFrontMatter text
    let (release, date) ← readFront data expected
    let (subject, sections) ← readBody release (splitlines body)
    return ⟨release, date, subject, sections⟩

end LibOsdp.Changelog
