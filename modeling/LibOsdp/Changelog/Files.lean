import LibOsdp.Changelog.Render

/-!
# Release files under their names

The commands of the changelog tool work on the files of one directory, each named after its
release: `init` writes an unfinished file for a tag, `validate` holds a file to its name, and
`notes` takes the body of a file as it stands. A file is valid under the names of its release and
no other, and its notes are read as the release again, however its items were wrapped.
-/

set_option autoImplicit false

namespace LibOsdp.Changelog

open LibOsdp.Base
open LibOsdp.Release (Crate)

/-- The ways a command dies, with what its message names. -/
inductive FileDie where
  | release (e : Die)
  | badName (name : Line)
  | otherName (name : Line)
  | exists (name : Line)
  | noFile (name : Line)
  | noFiles
  deriving DecidableEq, Repr

/-- The files of the changelog directory, with their texts. -/
abbrev Dir := List (Line × Line)

def extension : Line := ".md".toList

/-- The group of `RELEASE_FILE_RE` for the version, before the extension. -/
def spelt? (rest : Line) : Option Line :=
  let version := rest.take (rest.length - extension.length)
  if extension <:+ rest ∧ version.head? = some 'v' ∧ isVersion version.tail then some version else none

/-- A full match of `RELEASE_FILE_RE`: the crate, and the version as it is spelt. -/
def releaseFile? (name : Line) : Option (Crate × Line) :=
  crates.findSome? fun crate =>
    ((name.dropPrefix? (crateName crate ++ ['-'])).bind spelt?).map (crate, ·)

/-- The file name of a release, `path_name`. -/
def Identity.pathName (release : Identity) : Line := release.tag ++ extension

def validateReleaseFile (name text : Line) (expected : Option Line) : Except FileDie ReleaseEntry := do
  let (crate, raw) ← okOr (releaseFile? name) (.badName name)
  let version ← (normalizeVersion raw).mapError .release
  let fileTag := Identity.tag ⟨crate, version⟩
  let expected := (expected.filter (· ≠ [])).getD fileTag
  let entry ← (parseMarkdownRelease text (some expected)).mapError .release
  if entry.identity.tag = fileTag then .ok entry else .error (.otherName name)

/-- The entry of a release file that is still to be written. -/
def unfinished (release : Identity) (date : Line) : ReleaseEntry :=
  ⟨release, date, "Release subject ## TODO".toList,
    [⟨"Enhancements".toList, [todoMarker]⟩, ⟨"Fixes".toList, [todoMarker]⟩]⟩

def scaffold (crate : Crate) (version date : Line) : Except Die Line := do
  let version ← normalizeVersion version
  return renderRelease (unfinished ⟨crate, version⟩ date)

/-- `init`: the date is today's where none is given. -/
def commandInit (today : Line) (dir : Dir) (tag : Line) (date : Option Line) : Except FileDie Dir := do
  let release ← (splitTag tag).mapError .release
  if (dir.lookup release.pathName).isSome then .error (.exists release.pathName)
  else do
    let date := (date.filter (· ≠ [])).getD today
    let text ← (scaffold release.crate release.version date).mapError .release
    return (release.pathName, text) :: dir

/-- `release_files_in_dir`. -/
def releaseFiles (dir : Dir) : Dir :=
  (dir.filter fun file => (releaseFile? file.1).isSome).insertionSort fun a b => b.1 ≤ a.1

/-- `validate --dir`. -/
def commandValidate (dir : Dir) : Except FileDie (List ReleaseEntry) :=
  if releaseFiles dir = [] then .error .noFiles
  else (releaseFiles dir).mapM fun file => validateReleaseFile file.1 file.2 none

/-- The body of a text as it stands, and one newline. -/
def notesOf (text : Line) : Except Die Line := do
  let (_, body) ← splitFrontMatter text
  return body.rdropWhile isSpace ++ ['\n']

/-- `notes --stdin`. -/
def commandNotes (text : Line) : Except Die Line := do
  let _ ← parseMarkdownRelease text none
  notesOf text

/-- `notes --file`. -/
def commandNotesOf (dir : Dir) (name : Line) : Except FileDie Line := do
  let text ← okOr (dir.lookup name) (.noFile name)
  let _ ← validateReleaseFile name text none
  (notesOf text).mapError .release

variable {text name raw notes : Line} {entry : ReleaseEntry} {release : Identity} {crate : Crate}
  {expected : Option Line} {dir dir' : Dir}

/-! ## Names -/

/-- The file is named after the release, in some spelling of its version. -/
def Named (name : Line) (release : Identity) : Prop :=
  ∃ raw, releaseFile? name = some (release.crate, raw) ∧ normalizeVersion raw = .ok release.version

theorem Identity.eq_of_parts {other : Identity} (crate : release.crate = other.crate)
    (version : release.version = other.version) : release = other := by
  cases release
  cases other
  exact congrArg₂ Identity.mk crate version

theorem Identity.tag_inj {other : Identity} (normal : Normal release.version)
    (normal' : Normal other.version) (same : release.tag = other.tag) : release = other := by
  have split := splitTag_tag normal
  rw [same, splitTag_tag normal'] at split
  exact (Except.ok.inj split).symm

theorem named_pathName (normal : Normal release.version) : Named release.pathName release := by
  refine ⟨release.version, ?_, normal.reads⟩
  obtain ⟨crate, version⟩ := release
  obtain ⟨rest, rfl, valid⟩ := normal.marked
  have own : ((crateName crate ++ '-' :: 'v' :: rest) ++ extension).dropPrefix?
      (crateName crate ++ ['-']) = some (('v' :: rest) ++ extension) := by
    have eq : (crateName crate ++ '-' :: 'v' :: rest) ++ extension =
        (crateName crate ++ ['-']) ++ (('v' :: rest) ++ extension) := by simp
    rw [eq]
    exact List.dropPrefix?_append_of_beq _ BEq.rfl
  have spelt : spelt? (('v' :: rest) ++ extension) = some ('v' :: rest) := by
    have front : (('v' :: rest) ++ extension).take ((('v' :: rest) ++ extension).length -
        extension.length) = 'v' :: rest := by
      rw [List.length_append, Nat.add_sub_cancel, List.take_left]
    simp only [spelt?, front]
    exact if_pos ⟨List.suffix_append _ _, rfl, valid⟩
  rw [releaseFile?, Identity.pathName, Identity.tag]
  cases crate with
  | libosdpSys =>
    rw [crates, List.findSome?_cons, own, Option.bind_some, spelt]
    rfl
  | libosdp =>
    have other : ((crateName .libosdp ++ '-' :: 'v' :: rest) ++ extension).dropPrefix?
        (crateName .libosdpSys ++ ['-']) = none := rfl
    rw [crates, List.findSome?_cons, other, Option.bind_none, Option.map_none,
      List.findSome?_cons, own, Option.bind_some, spelt]
    rfl

/-! ## Validation -/

/-- An expected tag is asked of what the text says by itself, and of nothing else. -/
theorem parse_expected : parseMarkdownRelease text expected = .ok entry ↔
    parseMarkdownRelease text none = .ok entry ∧ checkExpected entry.identity expected = .ok () := by
  constructor
  · intro h
    refine ⟨?_, checkExpected_of_parse h⟩
    obtain ⟨noTodo, data, body, split, front, rest⟩ := parseMarkdownRelease_eq_ok.mp h
    refine parseMarkdownRelease_eq_ok.mpr ⟨noTodo, data, body, split, ?_, rest⟩
    simp only [readFront, bind_eq_ok] at front ⊢
    obtain ⟨_, keys, crate, named, version, normalized, _, -, rest⟩ := front
    exact ⟨_, keys, crate, named, version, normalized, (), rfl, rest⟩
  · rintro ⟨h, expects⟩
    obtain ⟨noTodo, data, body, split, front, rest⟩ := parseMarkdownRelease_eq_ok.mp h
    refine parseMarkdownRelease_eq_ok.mpr ⟨noTodo, data, body, split, ?_, rest⟩
    simp only [readFront, bind_eq_ok, pure_eq_ok, Except.ok.injEq, Prod.mk.injEq] at front ⊢
    obtain ⟨_, keys, crate, named, version, normalized, _, -, date, iso, identity, same⟩ := front
    refine ⟨_, keys, crate, named, version, normalized, (), ?_, date, iso, identity, same⟩
    rw [identity]
    exact expects

theorem checkExpected_some (some : raw ≠ []) :
    checkExpected release (Option.some raw) = .ok () ↔ splitTag raw = .ok release := by
  have kept : (Option.some raw).filter (· ≠ []) = Option.some raw := by simp [some]
  rw [checkExpected, kept]
  simp only [bind_eq_ok]
  constructor
  · rintro ⟨want, split, same⟩
    by_cases eq : release = want
    · rw [eq, split]
    · rw [if_neg eq] at same
      cases same
  · intro split
    exact ⟨release, split, if_pos rfl⟩

/-- **When a release file is valid**: its text is a release, which is the one it is named after and
    the expected one. -/
theorem validate_eq_ok (name text : Line) (expected : Option Line) (entry : ReleaseEntry) :
    validateReleaseFile name text expected = .ok entry ↔
      parseMarkdownRelease text none = .ok entry ∧ Named name entry.identity ∧
        checkExpected entry.identity expected = .ok () := by
  have asked : ∀ {tag : Line}, tag ≠ [] → (parseMarkdownRelease text (some tag) = .ok entry ↔
      parseMarkdownRelease text none = .ok entry ∧ splitTag tag = .ok entry.identity) := by
    intro tag some
    rw [parse_expected, checkExpected_some some]
  have tagged : ∀ release : Identity, release.tag ≠ [] := by
    intro release
    simp [Identity.tag]
  simp only [validateReleaseFile, bind_eq_ok, okOr_eq_ok, mapError_eq_ok, Prod.exists]
  constructor
  · rintro ⟨crate, raw, file, version, normalized, found, parsed, same⟩
    have normal := normal_of_normalizeVersion normalized
    by_cases eq : found.identity.tag = Identity.tag ⟨crate, version⟩
    swap
    · rw [if_neg eq] at same
      cases same
    rw [if_pos eq] at same
    obtain rfl := Except.ok.inj same
    have identity : found.identity = ⟨crate, version⟩ :=
      Identity.tag_inj (readable_of_parse parsed).version normal eq
    have named : Named name found.identity := ⟨raw, by rw [identity]; exact file, by
      rw [identity]; exact normalized⟩
    cases given : expected.filter (· ≠ []) with
    | none =>
      rw [given] at parsed
      refine ⟨(parse_expected.mp parsed).1, named, ?_⟩
      rw [checkExpected, given]
    | some tag =>
      rw [given] at parsed
      obtain ⟨same, some⟩ := Option.filter_eq_some_iff.mp given
      have some : tag ≠ [] := by simpa using some
      obtain ⟨parsed, split⟩ := (asked some).mp parsed
      refine ⟨parsed, named, ?_⟩
      rw [same]
      exact (checkExpected_some some).mpr split
  · rintro ⟨parsed, ⟨raw, file, normalized⟩, expects⟩
    refine ⟨entry.identity.crate, raw, file, entry.identity.version, normalized, entry, ?_, if_pos rfl⟩
    cases given : expected.filter (· ≠ []) with
    | none => exact (asked (tagged _)).mpr ⟨parsed, splitTag_tag (readable_of_parse parsed).version⟩
    | some tag =>
      obtain ⟨same, some⟩ := Option.filter_eq_some_iff.mp given
      have some : tag ≠ [] := by simpa using some
      rw [same] at expects
      exact (asked some).mpr ⟨parsed, (checkExpected_some some).mp expects⟩

/-! ## New files -/

/-- The text of a new file shows the marker, whatever its date. -/
theorem shows_unfinished (release : Identity) (date : Line) :
    todoMarker <:+: renderRelease (unfinished release date) := by
  have words : strip (joinLines (renderBody (unfinished release date))) ≠ [] := by
    have same : renderBody (unfinished release date) = renderBody (unfinished ⟨.libosdp, []⟩ []) := rfl
    rw [same]
    decide +kernel
  have inside : todoMarker <:+: (joinLines (renderBody (unfinished release date))).rdropWhile isSpace := by
    have same : renderBody (unfinished release date) = renderBody (unfinished ⟨.libosdp, []⟩ []) := rfl
    rw [same]
    decide +kernel
  rw [renderRelease_eq words]
  exact inside.trans ((List.prefix_append _ _).isInfix.trans (List.suffix_append _ _).isInfix)

theorem mem_releaseFiles {file : Line × Line} :
    file ∈ releaseFiles dir ↔ file ∈ dir ∧ (releaseFile? file.1).isSome := by
  rw [releaseFiles, List.mem_insertionSort, List.mem_filter]

/-- **When a directory is valid**: there are release files in it, and each of them is. -/
theorem commandValidate_eq_ok : (∃ entries, commandValidate dir = .ok entries) ↔
    releaseFiles dir ≠ [] ∧
      ∀ file ∈ releaseFiles dir, ∃ entry, validateReleaseFile file.1 file.2 none = .ok entry := by
  rw [commandValidate]
  by_cases none : releaseFiles dir = []
  · rw [if_pos none]
    exact iff_of_false (by rintro ⟨_, ⟨⟩⟩) fun some => some.1 none
  · rw [if_neg none, mapM_eq_ok]
    exact (and_iff_right none).symm

/-- A directory with one release file more. -/
theorem commandValidate_cons (named : Named name release) :
    (∃ entries, commandValidate ((name, text) :: dir) = .ok entries) ↔
      (∃ entry, parseMarkdownRelease text none = .ok entry ∧ entry.identity = release) ∧
      ∀ file ∈ releaseFiles dir, ∃ entry, validateReleaseFile file.1 file.2 none = .ok entry := by
  obtain ⟨raw, file, normalized⟩ := named
  have here : (name, text) ∈ releaseFiles ((name, text) :: dir) :=
    mem_releaseFiles.mpr ⟨List.mem_cons_self, Option.isSome_of_eq_some file⟩
  have own : (∃ entry, validateReleaseFile name text none = .ok entry) ↔
      ∃ entry, parseMarkdownRelease text none = .ok entry ∧ entry.identity = release := by
    apply exists_congr
    intro entry
    rw [validate_eq_ok]
    apply and_congr_right
    intro parsed
    constructor
    · rintro ⟨⟨raw', file', normalized'⟩, -⟩
      obtain ⟨crate, rfl⟩ := Prod.mk.inj (Option.some.inj (file'.symm.trans file))
      exact Identity.eq_of_parts crate (Except.ok.inj (normalized'.symm.trans normalized))
    · rintro rfl
      exact ⟨⟨raw, file, normalized⟩, rfl⟩
  rw [commandValidate_eq_ok, and_iff_right (List.ne_nil_of_mem here), ← own]
  constructor
  · intro valid
    refine ⟨valid _ here, fun other mem => valid other (mem_releaseFiles.mpr ?_)⟩
    exact (mem_releaseFiles.mp mem).imp_left (List.mem_cons_of_mem _)
  · rintro ⟨first, rest⟩ other mem
    obtain ⟨mem, some⟩ := mem_releaseFiles.mp mem
    rcases List.mem_cons.mp mem with rfl | mem
    · exact first
    · exact rest other (mem_releaseFiles.mpr ⟨mem, some⟩)

/-- **A new file is held to its tag**: it is written under the name of its release, the directory is
    refused until it is finished, and then is valid exactly if it was finished as that release and
    the directory was valid without it. -/
theorem init_then_finish {today tag : Line} {date : Option Line}
    (h : commandInit today dir tag date = .ok dir') : ∃ release, splitTag tag = .ok release ∧
      dir.lookup release.pathName = none ∧ (∃ text, dir' = (release.pathName, text) :: dir) ∧
      (∀ entries, commandValidate dir' ≠ .ok entries) ∧
      ∀ text, (∃ entries, commandValidate ((release.pathName, text) :: dir) = .ok entries) ↔
        (∃ entry, parseMarkdownRelease text none = .ok entry ∧ entry.identity = release) ∧
        ∀ file ∈ releaseFiles dir, ∃ entry, validateReleaseFile file.1 file.2 none = .ok entry := by
  simp only [commandInit, bind_eq_ok, mapError_eq_ok] at h
  obtain ⟨release, split, h⟩ := h
  by_cases found : (dir.lookup release.pathName).isSome
  · rw [if_pos found] at h
    cases h
  rw [if_neg found] at h
  simp only [bind_eq_ok, mapError_eq_ok, scaffold, pure_eq_ok, Except.ok.injEq] at h
  obtain ⟨text, ⟨version, normalized, rfl⟩, rfl⟩ := h
  have normal : Normal release.version := by
    simp only [splitTag, bind_eq_ok, Prod.exists, pure_eq_ok, Except.ok.injEq] at split
    obtain ⟨_, _, _, _, read, rfl⟩ := split
    exact normal_of_normalizeVersion read
  have named := named_pathName normal
  refine ⟨release, split, Option.not_isSome_iff_eq_none.mp found, ⟨_, rfl⟩, ?_,
    fun text => commandValidate_cons named⟩
  intro entries valid
  obtain ⟨⟨entry, parsed, -⟩, -⟩ := (commandValidate_cons named).mp ⟨entries, valid⟩
  exact (parseMarkdownRelease_eq_ok.mp parsed).noTodo (shows_unfinished _ _)

/-- The release file of an earlier release. -/
def earlierRelease : Line × Line :=
  ("libosdp-v0.9.0.md".toList, ("---\nrelease_crate: libosdp\nrelease_date: 2026-01-05\n" ++
    "release_version: v0.9.0\n---\n\nEarlier.\n\n## Fixes\n\n- One\n").toList)

/-- A file for a tag whose version is spelt in its own way, beside that of another release. -/
theorem init_then_finish_spelt : ∃ dir release,
    commandInit "2026-10-09".toList [earlierRelease] "libosdp-v1.0.0-RC1".toList none = .ok dir ∧
    splitTag "libosdp-v1.0.0-RC1".toList = .ok release ∧
    release.pathName = "libosdp-v1.0.0-rc1.md".toList ∧
    (∀ entries, commandValidate dir ≠ .ok entries) ∧
    ∃ entries, commandValidate [(release.pathName, looseRelease), earlierRelease] = .ok entries := by
  let release : Identity := ⟨.libosdp, "v1.0.0-rc1".toList⟩
  let unfinishedText := renderRelease (unfinished release "2026-10-09".toList)
  let finished : ReleaseEntry :=
    ⟨release, "2026-10-09".toList, "First release.".toList,
      [⟨"Fixes".toList, ["One two".toList]⟩, ⟨"Enhancements".toList, ["Three".toList]⟩]⟩
  let earlier : ReleaseEntry :=
    ⟨⟨.libosdp, "v0.9.0".toList⟩, "2026-01-05".toList, "Earlier.".toList,
      [⟨"Fixes".toList, ["One".toList]⟩]⟩
  have made : commandInit "2026-10-09".toList [earlierRelease] "libosdp-v1.0.0-RC1".toList none =
      .ok [(release.pathName, unfinishedText), earlierRelease] := by
    decide +kernel
  obtain ⟨release', split, -, -, refused, finishes⟩ := init_then_finish made
  have split' : splitTag "libosdp-v1.0.0-RC1".toList = .ok release := by decide +kernel
  obtain rfl := Except.ok.inj (split.symm.trans split')
  have read : parseMarkdownRelease looseRelease none = .ok finished := by decide +kernel
  have other : releaseFiles [earlierRelease] = [earlierRelease] := by decide +kernel
  have valid : validateReleaseFile earlierRelease.1 earlierRelease.2 none = .ok earlier := by
    decide +kernel
  refine ⟨_, release, made, split', by decide +kernel, refused, ?_⟩
  refine (finishes looseRelease).mpr ⟨⟨finished, read, rfl⟩, ?_⟩
  rw [other]
  exact List.forall_mem_singleton.mpr ⟨earlier, valid⟩

/-! ## Notes -/

/-- What a text has after its front matter does not begin with a newline. -/
theorem opens_of_splitFrontMatter {data : Meta} {body : Line}
    (split : splitFrontMatter text = .ok (data, body)) : ∀ c ∈ body.head?, c ≠ '\n' := by
  simp only [splitFrontMatter, bind_eq_ok, Prod.exists, pure_eq_ok, Except.ok.injEq,
    Prod.mk.injEq] at split
  obtain ⟨_, _, _, after, _, _, _, _, rfl⟩ := split
  intro c first
  have word := List.head?_dropWhile_not (fun c => decide (c = '\n')) after
  rw [first] at word
  simpa using word

theorem words_of_read {read : Line × List Section} {lines : Line}
    (h : readBody release (splitlines lines) = .ok read) : strip lines ≠ [] := by
  intro blank
  have gone : lines.rdropWhile isSpace = [] := by
    rw [List.rdropWhile_eq_nil_iff]
    exact strip_eq_nil.mp blank
  have empty := readBody_trimEnd h
  rw [← splitlines_rdropWhile, gone] at empty
  cases empty

/-- A text opens alike without the spaces it ends with. -/
theorem head?_rdropWhile (words : strip text ≠ []) :
    text.rdropWhile isSpace ≠ [] ∧ (text.rdropWhile isSpace).head? = text.head? := by
  have some : text.rdropWhile isSpace ≠ [] := by
    rw [Ne, List.rdropWhile_eq_nil_iff]
    exact fun spaces => words (strip_eq_nil.mpr spaces)
  obtain ⟨gap, eq⟩ := List.rdropWhile_prefix isSpace (l := text)
  refine ⟨some, ?_⟩
  conv => rhs; rw [← eq]
  exact (List.head?_append_of_ne_nil _ some).symm

/-- **A text is read alike without the spaces it ends with.** -/
theorem parse_rdropWhile (h : parseMarkdownRelease text expected = .ok entry) :
    parseMarkdownRelease (text.rdropWhile isSpace) expected = .ok entry := by
  obtain ⟨noTodo, data, body, split, front, l, lines, -, read⟩ := parseMarkdownRelease_eq_ok.mp h
  have read : readBody entry.identity (splitlines body) = .ok (entry.subject, entry.sections) :=
    readBody_eq_ok.mpr ⟨l, lines, read⟩
  have words := words_of_read read
  have opens' := opens_of_splitFrontMatter split
  simp only [splitFrontMatter, bind_eq_ok, okOr_eq_ok, Prod.exists, pure_eq_ok, Except.ok.injEq,
    Prod.mk.injEq] at split
  obtain ⟨rest, opens, here, after, cut, read₀, found, rfl, rfl⟩ := split
  obtain ⟨opening, whole, equal⟩ := List.dropPrefix?_eq_some_iff.mp opens
  have parted := eq_of_cut? cut
  -- the spaces are those at the end of the body
  have prose : after.rdropWhile isSpace = after.takeWhile (· = '\n') ++
      (after.dropWhile (· = '\n')).rdropWhile isSpace := by
    conv => lhs; rw [← List.takeWhile_append_dropWhile (p := (· = '\n')) (l := after)]
    exact rdropWhile_append words
  have ends : strip after ≠ [] := by
    intro blank
    refine words (strip_eq_nil.mpr fun c mem => strip_eq_nil.mp blank c ?_)
    exact (List.dropWhile_suffix _).subset mem
  have text' : text.rdropWhile isSpace =
      frontOpening ++ (here ++ (frontClosing ++ after.rdropWhile isSpace)) := by
    have grouped : text = (frontOpening ++ (here ++ frontClosing)) ++ after := by
      rw [whole, eq_of_beq equal, parted]
      simp
    rw [grouped, rdropWhile_append ends]
    simp
  have cut' : cut? frontClosing (here ++ (frontClosing ++ after.rdropWhile isSpace)) =
      some (here, after.rdropWhile isSpace) := by
    rw [parted, List.append_assoc] at cut
    exact cut?_congr _ cut
  have kept : (after.rdropWhile isSpace).dropWhile (· = '\n') =
      (after.dropWhile (· = '\n')).rdropWhile isSpace := by
    have newlines : ∀ c ∈ after.takeWhile (· = '\n'), decide (c = '\n') = true := fun c mem =>
      @List.mem_takeWhile_imp _ (fun c => decide (c = '\n')) _ _ mem
    rw [prose, List.dropWhile_append_of_pos newlines]
    obtain ⟨some, same⟩ := head?_rdropWhile words
    obtain ⟨c, more, first⟩ := List.exists_cons_of_ne_nil some
    rw [first] at same ⊢
    exact List.dropWhile_cons_of_neg (by simpa using opens' c same.symm)
  have split' : splitFrontMatter (text.rdropWhile isSpace) =
      .ok (read₀, (after.dropWhile (· = '\n')).rdropWhile isSpace) := by
    rw [text', splitFrontMatter, List.dropPrefix?_append_of_beq _ BEq.rfl, okOr_some, ok_bind, cut',
      okOr_some, ok_bind]
    show (readMeta [] (splitlines here) >>= fun data => _) = _
    rw [found, ok_bind, kept]
    rfl
  have unmarked : ¬ todoMarker <:+: text.rdropWhile isSpace := fun inside =>
    noTodo (inside.trans (List.rdropWhile_prefix _ _).isInfix)
  have read' := readBody_trimEnd read
  rw [← splitlines_rdropWhile] at read'
  rw [parseMarkdownRelease, if_neg unmarked, split', ok_bind]
  simp only [front, ok_bind, read', pure_eq_ok]

theorem parse_strip (h : parseMarkdownRelease text expected = .ok entry) :
    parseMarkdownRelease (strip text) expected = .ok entry := by
  obtain ⟨-, data, body, split, -⟩ := parseMarkdownRelease_eq_ok.mp h
  obtain ⟨front, gap, whole, -⟩ := eq_of_splitFrontMatter split
  have opens : text.dropWhile isSpace = text := by
    rw [whole]
    rfl
  rw [strip, opens]
  exact parse_rdropWhile h

/-- **The notes of a release are its body as it stands, and are read as the release again** behind
    its front matter if the date there is in ISO form, with no exception for wrapped items. -/
theorem notes_read_back (h : parseMarkdownRelease text none = .ok entry) : ∃ notes,
    commandNotes text = .ok notes ∧
    (∃ front body tail, text = front ++ (body ++ tail) ∧ strip tail = [] ∧ notes = body ++ ['\n']) ∧
    (parseMarkdownRelease (writtenFront entry ++ notes) (some entry.identity.tag) = .ok entry ↔
      isIsoDate entry.date = true) := by
  have readable := readable_of_parse h
  obtain ⟨noTodo, data, body, split, -, l, lines, -, read⟩ := parseMarkdownRelease_eq_ok.mp h
  obtain ⟨front, gap, whole, -⟩ := eq_of_splitFrontMatter split
  have read : readBody entry.identity (splitlines body) = .ok (entry.subject, entry.sections) :=
    readBody_eq_ok.mpr ⟨l, lines, read⟩
  have prose : body.rdropWhile isSpace ++ body.rtakeWhile isSpace = body := by
    rw [List.rdropWhile, List.rtakeWhile, ← List.reverse_append, List.takeWhile_append_dropWhile,
      List.reverse_reverse]
  have unmarked : ¬ todoMarker <:+: writtenFront entry ++ (body.rdropWhile isSpace ++ ['\n']) := by
    intro shown
    rcases infix_append_cons (by decide) (shows_behind_front readable shown) with inside | empty
    · have body_infix : body <:+: text := ⟨frontOpening ++ (front ++ frontClosing ++ gap), [], by
        simp [whole]⟩
      exact noTodo (inside.trans ((List.rdropWhile_prefix _ _).isInfix.trans body_infix))
    · cases List.eq_nil_of_infix_nil empty
  have opens : ∀ c ∈ (body.rdropWhile isSpace ++ ['\n']).head?, c ≠ '\n' := by
    obtain ⟨some, same⟩ := head?_rdropWhile (words_of_read read)
    rw [List.head?_append_of_ne_nil _ some, same]
    exact opens_of_splitFrontMatter split
  refine ⟨body.rdropWhile isSpace ++ ['\n'], ?_, ?_, ?_⟩
  · rw [commandNotes, h, ok_bind, notesOf, split]
    rfl
  · refine ⟨frontOpening ++ (front ++ frontClosing ++ gap), body.rdropWhile isSpace,
      body.rtakeWhile isSpace, ?_, strip_eq_nil.mpr fun c => List.mem_rtakeWhile_imp, rfl⟩
    rw [prose, whole]
    simp
  · refine ⟨isIsoDate_of_parse readable, fun iso => ?_⟩
    refine parse_front readable iso unmarked opens (checkExpected_tag readable.version) ?_
    rw [splitlines_ended (words_of_read read)]
    exact readBody_trimEnd read

/-- The notes of a file are those of its text, if the file is valid. -/
theorem commandNotesOf_eq_ok : commandNotesOf dir name = .ok notes ↔
    ∃ text entry, dir.lookup name = some text ∧ validateReleaseFile name text none = .ok entry ∧
      commandNotes text = .ok notes := by
  simp only [commandNotesOf, bind_eq_ok, okOr_eq_ok, mapError_eq_ok]
  constructor
  · rintro ⟨text, found, entry, valid, made⟩
    have parsed := ((validate_eq_ok name text none entry).mp valid).1
    refine ⟨text, entry, found, valid, ?_⟩
    rw [commandNotes, parsed, ok_bind, made]
  · rintro ⟨text, entry, found, valid, made⟩
    have parsed := ((validate_eq_ok name text none entry).mp valid).1
    rw [commandNotes, parsed, ok_bind] at made
    exact ⟨text, found, entry, valid, made⟩

/-- An item wrapped over two lines, which is one item of the notes. -/
theorem notes_read_back_wrapped : ∃ notes, commandNotes looseRelease = .ok notes ∧
    "- One\n  two\n".toList <:+: notes := by
  let entry : ReleaseEntry :=
    ⟨⟨.libosdp, "v1.0.0-rc1".toList⟩, "2026-10-09".toList, "First release.".toList,
      [⟨"Fixes".toList, ["One two".toList]⟩, ⟨"Enhancements".toList, ["Three".toList]⟩]⟩
  have reads : parseMarkdownRelease looseRelease none = .ok entry := by decide +kernel
  obtain ⟨notes, made, -, -⟩ := notes_read_back reads
  have same : commandNotes looseRelease = .ok ("First release.\n\n## Fixes\n- One\n  two\n\n\n" ++
      "## Enhancements\n\n-  Three\n").toList := by decide +kernel
  obtain rfl := Except.ok.inj (same.symm.trans made)
  exact ⟨_, made, by decide +kernel⟩

end LibOsdp.Changelog
