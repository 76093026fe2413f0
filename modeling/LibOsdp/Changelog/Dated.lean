import LibOsdp.Changelog.Render

/-!
# A release file with another date

`publish` dates a release file by rewriting one line of it, wherever that line stands: in the front
matter, or in the subject, where a line can look the same. A line of the file may have line ends of
its own in it, which the parser sees and `publish` does not, and the line that is rewritten loses
what stood behind them.
-/

set_option autoImplicit false

namespace LibOsdp.Changelog

open LibOsdp.Base

variable {lines before after front rest first last : List Line} {line body old today key : Line}
  {data data' read : Meta} {entry : ReleaseEntry} {release : Identity} {expected : Option Line}

/-! ## The front matter, line by line -/

theorem readMeta_append : readMeta data (before ++ after) =
    readMeta data before >>= fun data => readMeta data after := by
  induction before generalizing data with
  | nil => rfl
  | cons line before ih =>
    rw [List.cons_append, readMeta, readMeta]
    split
    · exact ih
    · split
      · rfl
      · exact ih

/-- A newline at the end of the front matter says nothing. -/
theorem readMeta_newline :
    readMeta data (splitlines (line ++ ['\n'])) = readMeta data (splitlines line) := by
  rcases @splitlines_concat_newline_cases line with same | more
  · rw [same]
  · rw [more, readMeta_append]
    cases readMeta data (splitlines line) <;> rfl

/-- **The front matter is read part by part**, where the parts are lines of the file. -/
theorem readMeta_joinLines : readMeta data (splitlines (joinLines (before ++ after))) =
    readMeta data (splitlines (joinLines before)) >>= fun data =>
      readMeta data (splitlines (joinLines after)) := by
  by_cases none : before = []
  · rw [none]
    rfl
  by_cases none' : after = []
  · rw [none', List.append_nil]
    cases readMeta data (splitlines (joinLines before)) <;> rfl
  · rw [joinLines_append none none', splitlines_newline, readMeta_append, readMeta_newline]

/-- Data under what was read after it. -/
def overlay (data read : Meta) : Meta :=
  read ++ data.filter fun pair => !(read.map Prod.fst).contains pair.1

theorem overlay_eq : overlay data read = read ++ data.filter (·.1 ∉ read.map Prod.fst) := by
  simp only [overlay, List.contains_eq_mem, decide_not]

theorem readMeta_overlay (acc : Meta) :
    readMeta (overlay data acc) lines = (readMeta acc lines).map (overlay data) := by
  induction lines generalizing acc with
  | nil => rfl
  | cons line lines ih =>
    have set : ∀ key value, (key, value) :: (overlay data acc).filter (·.1 ≠ key) =
        overlay data ((key, value) :: acc.filter (·.1 ≠ key)) := by
      intro key value
      rw [overlay_eq, overlay_eq, List.filter_append, List.filter_filter, List.cons_append]
      refine congrArg _ (congrArg _ (List.filter_congr fun pair _ => ?_))
      by_cases same : pair.1 = key <;> simp [same]
    rw [readMeta, readMeta]
    by_cases blank : strip line = []
    · rw [if_pos blank, if_pos blank, ih]
    · rw [if_neg blank, if_neg blank]
      cases cut? [':'] line with
      | none => rfl
      | some pair =>
        show readMeta (_ :: (overlay data acc).filter _) lines = _
        rw [set, ih]

/-- **What is read does not depend on what was read before.** -/
theorem readMeta_over : readMeta data lines = .ok read ↔
    ∃ later, readMeta [] lines = .ok later ∧ read = overlay data later := by
  have none : overlay data [] = data := by simp [overlay]
  have laid := @readMeta_overlay lines data []
  rw [none] at laid
  rw [laid]
  cases readMeta [] lines with
  | error e => exact iff_of_false (by rintro ⟨⟩) (by rintro ⟨_, ⟨⟩, -⟩)
  | ok later => simp [Except.map, eq_comm]

theorem lookup_unread {keys : List Line} :
    (data.filter (·.1 ∉ keys)).lookup key = if key ∈ keys then none else data.lookup key := by
  induction data with
  | nil => simp
  | cons pair data ih =>
    by_cases skip : pair.1 ∈ keys
    · rw [List.filter_cons_of_neg (by simpa using skip), ih]
      split
      · rfl
      · next new =>
        have other : key ≠ pair.1 := fun eq => new (eq ▸ skip)
        rw [List.lookup_cons, beq_false_of_ne other]
    · rw [List.filter_cons_of_pos (by simpa using skip), List.lookup_cons, List.lookup_cons, ih]
      by_cases here : key = pair.1
      · simp [here, skip]
      · rw [beq_false_of_ne here]

theorem lookup_eq_none (absent : key ∉ data.map Prod.fst) : data.lookup key = none := by
  rw [List.lookup_eq_none_iff]
  intro pair mem
  have differs : key ≠ pair.1 := by
    rintro rfl
    exact absent (List.mem_map_of_mem mem)
  simpa using differs

/-- What was read last of a key counts. -/
theorem get_overlay : (overlay data read).get key =
    if key ∈ read.map Prod.fst then read.get key else data.get key := by
  rw [Meta.get, overlay_eq, List.lookup_append, lookup_unread]
  split
  · next mem =>
    obtain ⟨value, found⟩ : ∃ value, read.lookup key = some value := by
      cases found : read.lookup key with
      | none =>
        obtain ⟨pair, there, rfl⟩ := List.mem_map.mp mem
        simpa using List.lookup_eq_none_iff.mp found pair there
      | some value => exact ⟨value, rfl⟩
    rw [Meta.get, found]
    rfl
  · next new =>
    rw [lookup_eq_none new]
    rfl

theorem mem_keys_overlay : key ∈ (overlay data read).map Prod.fst ↔
    key ∈ read.map Prod.fst ∨ key ∈ data.map Prod.fst := by
  simp only [overlay_eq, List.map_append, List.mem_append, List.mem_map, List.mem_filter,
    decide_eq_true_eq]
  constructor
  · rintro (here | ⟨pair, ⟨mem, -⟩, eq⟩)
    · exact .inl here
    · exact .inr ⟨pair, mem, eq⟩
  · rintro (here | ⟨pair, mem, rfl⟩)
    · exact .inl here
    · by_cases there : ∃ a ∈ read, a.1 = pair.1
      · exact .inl there
      · exact .inr ⟨pair, ⟨mem, by simpa using there⟩, rfl⟩

/-! ## What the front matter says -/

def dateKey : Line := "release_date".toList

def dateLine (date : Line) : Line := dateKey ++ ": ".toList ++ date

/-- The front matter names the release. -/
structure Names (data : Meta) (release : Identity) : Prop where
  crate : crates.find? (crateName · = strip (data.get "release_crate".toList)) = some release.crate
  version : normalizeVersion (data.get "release_version".toList) = .ok release.version

theorem checkKeys_eq_ok : checkKeys data = .ok () ↔
    ∀ key, key ∈ data.map Prod.fst ↔ key ∈ frontMatterKeys := by
  have missing : frontMatterKeys.filter (· ∉ data.map Prod.fst) = [] ↔
      ∀ key ∈ frontMatterKeys, key ∈ data.map Prod.fst := by
    simp [List.filter_eq_nil_iff]
  have extra : ((data.map Prod.fst).filter (· ∉ frontMatterKeys)).insertionSort (· ≤ ·) = [] ↔
      ∀ key ∈ data.map Prod.fst, key ∈ frontMatterKeys := by
    rw [← List.length_eq_zero_iff, List.length_insertionSort, List.length_eq_zero_iff,
      List.filter_eq_nil_iff]
    simp
  rw [checkKeys]
  by_cases none : frontMatterKeys.filter (· ∉ data.map Prod.fst) = []
  · rw [if_neg (not_not.mpr none)]
    by_cases none' : ((data.map Prod.fst).filter (· ∉ frontMatterKeys)).insertionSort (· ≤ ·) = []
    · rw [if_neg (not_not.mpr none')]
      exact iff_of_true rfl fun key => ⟨extra.mp none' key, missing.mp none key⟩
    · rw [if_pos none']
      exact iff_of_false (by rintro ⟨⟩) fun same => none' (extra.mpr fun key => (same key).mp)
  · rw [if_pos none]
    exact iff_of_false (by rintro ⟨⟩) fun same => none (missing.mpr fun key => (same key).mpr)

theorem readFront_eq_ok {date : Line} : readFront data none = .ok (release, date) ↔
    checkKeys data = .ok () ∧ Names data release ∧ humanDateToIso (data.get dateKey) = .ok date := by
  simp only [readFront, bind_eq_ok, okOr_eq_ok, pure_eq_ok, Except.ok.injEq, Prod.mk.injEq]
  constructor
  · rintro ⟨_, keys, crate, found, version, read, _, -, date, dated, rfl, rfl⟩
    exact ⟨keys, ⟨found, read⟩, dated⟩
  · rintro ⟨keys, ⟨found, read⟩, dated⟩
    exact ⟨(), keys, release.crate, found, release.version, read, (), rfl, date, dated, rfl, rfl⟩

theorem Names.congr (names : Names data release) (same : ∀ key ≠ dateKey, data'.get key = data.get key) :
    Names data' release := by
  obtain ⟨crate, version⟩ := names
  constructor
  · rwa [same "release_crate".toList (by decide)]
  · rwa [same "release_version".toList (by decide)]

theorem Names.mem_keys (names : Names data release) (mem : key ∈ frontMatterKeys)
    (other : key ≠ dateKey) : key ∈ data.map Prod.fst := by
  by_contra absent
  have empty : data.get key = [] := by
    rw [Meta.get, lookup_eq_none absent]
    rfl
  simp only [frontMatterKeys, List.mem_cons, List.not_mem_nil, or_false] at mem
  rcases mem with rfl | rfl | rfl
  · have crate := names.crate
    rw [empty] at crate
    have nobody : crates.find? (crateName · = strip []) = none := by decide
    cases nobody.symm.trans crate
  · exact other rfl
  · have version := names.version
    rw [empty] at version
    cases version

theorem eq_singleton_of_joinLines (some : lines ≠ []) (plain : '\n' ∉ line)
    (eq : joinLines lines = line) : lines = [line] := by
  cases lines with
  | nil => exact absurd rfl some
  | cons first lines =>
    cases lines with
    | nil => simpa [joinLines] using eq
    | cons second lines =>
      rw [joinLines_cons (by simp)] at eq
      exact absurd (by simp [← eq]) plain

/-- The lines of a text up to its body. -/
structure Fronted (lines front rest : List Line) : Prop where
  eq : lines = dashes :: (front ++ dashes :: rest)
  front_ne : front ≠ []
  rest_ne : rest ≠ []
  first : dashes ∉ front.tail

theorem Fronted.mem (fronted : Fronted lines front rest) (mem : line ∈ front) : line ∈ lines := by
  rw [fronted.eq]
  simp [mem]

/-- Of the lines of dashes, the first after the opening and one line more closes. -/
theorem exists_fronted (some : front ≠ []) (some' : rest ≠ []) :
    ∃ front' rest', Fronted (dashes :: (front ++ dashes :: rest)) front' rest' := by
  obtain ⟨first, front, rfl⟩ := List.exists_cons_of_ne_nil some
  by_cases more : dashes ∈ front
  · obtain ⟨before, after, rfl, none⟩ := List.eq_append_cons_of_mem more
    exact ⟨first :: before, after ++ dashes :: rest, by simp, by simp, by simp, none⟩
  · exact ⟨first :: front, rest, rfl, some, some', more⟩

theorem cut_of_fronted (plain : ∀ line ∈ lines, '\n' ∉ line) (fronted : Fronted lines front rest) :
    (joinLines lines).dropPrefix? frontOpening =
        some (joinLines front ++ (frontClosing ++ joinLines rest)) ∧
      cut? frontClosing (joinLines front ++ (frontClosing ++ joinLines rest)) =
        some (joinLines front, joinLines rest) := by
  obtain ⟨rfl, some, some', first⟩ := fronted
  constructor
  · have whole : joinLines (dashes :: (front ++ dashes :: rest)) =
        frontOpening ++ (joinLines front ++ (frontClosing ++ joinLines rest)) := by
      rw [joinLines_cons (by simp), joinLines_append some (by simp), joinLines_cons some']
      simp [frontOpening, frontClosing, dashes]
    rw [whole]
    exact List.dropPrefix?_append_of_beq _ BEq.rfl
  · exact cut?_frontClosing some (fun line mem => plain line (by simp [mem])) first

/-- A text with front matter is split at it. -/
theorem splitFrontMatter_fronted (newline : ∀ line ∈ lines, '\n' ∉ line)
    (fronted : Fronted lines front rest) : splitFrontMatter (joinLines lines) =
      readMeta [] (splitlines (joinLines front)) >>= fun data =>
        .ok (data, (joinLines rest).dropWhile (· = '\n')) := by
  obtain ⟨opens, cut⟩ := cut_of_fronted newline fronted
  rw [splitFrontMatter, opens, okOr_some, ok_bind, cut, okOr_some, ok_bind]
  rfl

/-- Only a text with front matter is split. -/
theorem fronted_of_split (newline : ∀ line ∈ lines, '\n' ∉ line)
    (split : splitFrontMatter (joinLines lines) = .ok (data, body)) :
    ∃ front rest, Fronted lines front rest := by
  simp only [splitFrontMatter, bind_eq_ok, okOr_eq_ok, Prod.exists] at split
  obtain ⟨text, opens, here, later, cut, -⟩ := split
  obtain ⟨opening, same, equal⟩ := List.dropPrefix?_eq_some_iff.mp opens
  have whole : joinLines lines = dashes ++ '\n' :: (here ++ '\n' :: (dashes ++ '\n' :: later)) := by
    rw [same, eq_of_beq equal, eq_of_cut? cut]
    simp [frontOpening, frontClosing, dashes]
  obtain ⟨one, more, rfl, some, -, eq, inner⟩ := split_of_joinLines newline whole
  obtain rfl := eq_singleton_of_joinLines some (by decide) eq
  obtain ⟨front, ending, rfl, front_ne, -, -, closed⟩ :=
    split_of_joinLines (fun line mem => newline line (by simp [mem])) inner
  obtain ⟨one, rest, rfl, some', rest_ne, eq', -⟩ :=
    split_of_joinLines (fun line mem => newline line (by simp [mem])) closed
  obtain rfl := eq_singleton_of_joinLines some' (by decide) eq'
  exact exists_fronted front_ne rest_ne

/-- **When a text with front matter is a release.** -/
theorem parse_fronted (newline : ∀ line ∈ lines, '\n' ∉ line)
    (fronted : Fronted lines front rest) : parseMarkdownRelease (joinLines lines) none = .ok entry ↔
      ¬ todoMarker <:+: joinLines lines ∧
      (∃ data, readMeta [] (splitlines (joinLines front)) = .ok data ∧
        readFront data none = .ok (entry.identity, entry.date)) ∧
      readBody entry.identity (splitlines ((joinLines rest).dropWhile (· = '\n'))) =
        .ok (entry.subject, entry.sections) := by
  rw [parseMarkdownRelease]
  by_cases shown : todoMarker <:+: joinLines lines
  · rw [if_pos shown]
    exact iff_of_false (by rintro ⟨⟩) fun valid => valid.1 shown
  · rw [if_neg shown, and_iff_right shown, splitFrontMatter_fronted newline fronted]
    simp only [bind_eq_ok, Prod.exists, pure_eq_ok, Except.ok.injEq, Prod.mk.injEq]
    constructor
    · rintro ⟨data, _, ⟨data', read, rfl, rfl⟩, release, date, front, subject, sections, body, rfl⟩
      exact ⟨⟨data', read, front⟩, body⟩
    · rintro ⟨⟨data, read, front⟩, body⟩
      exact ⟨data, _, ⟨data, read, rfl, rfl⟩, _, _, front, _, _, body, rfl⟩

/-- Which release a body is of matters only to its errors. -/
theorem readBody_release {other : Identity} {x : Line × List Section}
    (h : readBody release lines = .ok x) : readBody other lines = .ok x :=
  readBody_eq_ok.mpr (readBody_eq_ok.mp h)

/-! ## Another date in the front matter -/

theorem readMeta_dateLine {date : Line} (plain : Plain (dateLine date)) :
    readMeta data (splitlines (dateLine date)) =
      .ok (overlay data [(dateKey, stripOf (· = '"') (strip date))]) := by
  have whole : splitlines (dateLine date) = [dateLine date] :=
    splitlinesFrom_plain plain (List.cons_ne_nil _ _)
  rw [whole, dateLine, readMeta_line (by decide)]
  simp [readMeta, overlay]

theorem stripOf_today (iso : isIsoDate today = true) : stripOf (· = '"') (strip today) = today :=
  stripOf_value (strip_of_isIsoDate iso) fun mem => (plain_of_isIsoDate iso mem).2.1 rfl

theorem plain_dateLine (iso : isIsoDate today = true) : Plain (dateLine today) := by
  have fixed : (dateKey ++ ": ".toList).all (fun c => !isLineEnd c) = true := by decide
  intro c mem
  rcases List.mem_append.mp mem with mem | mem
  · simpa using List.all_eq_true.mp fixed c mem
  · exact isLineEnd_of_not_isSpace (plain_of_isIsoDate iso mem).1

/-- The front matter around one of its lines. -/
theorem readMeta_around : readMeta [] (splitlines (joinLines (first ++ line :: last))) = .ok data ↔
    ∃ before here after, readMeta [] (splitlines (joinLines first)) = .ok before ∧
      readMeta before (splitlines line) = .ok (overlay before here) ∧
      readMeta [] (splitlines (joinLines last)) = .ok after ∧
      data = overlay (overlay before here) after := by
  have parts : first ++ line :: last = first ++ ([line] ++ last) := rfl
  have single : joinLines [line] = line := List.intercalate_singleton
  rw [parts, readMeta_joinLines]
  simp only [bind_eq_ok, readMeta_joinLines, single]
  constructor
  · rintro ⟨before, read, mid, read', read''⟩
    obtain ⟨here, own, rfl⟩ := readMeta_over.mp read'
    obtain ⟨after, later, rfl⟩ := readMeta_over.mp read''
    exact ⟨before, here, after, read, readMeta_over.mpr ⟨here, own, rfl⟩, later, rfl⟩
  · rintro ⟨before, here, after, read, own, later, rfl⟩
    exact ⟨before, read, _, own, readMeta_over.mpr ⟨after, later, rfl⟩⟩

/-- The front matter without one of its lines. -/
theorem readMeta_without (read : readMeta [] (splitlines (joinLines first)) = .ok data)
    (later : readMeta [] (splitlines (joinLines last)) = .ok data') :
    readMeta [] (splitlines (joinLines (first ++ last))) = .ok (overlay data data') := by
  rw [readMeta_joinLines, read, ok_bind]
  exact readMeta_over.mpr ⟨data', later, rfl⟩

/-- **With today's date, the front matter names what it names without a date line.** -/
theorem readFront_dated {before here after : Meta} {found : Identity × Line}
    (iso : isIsoDate today = true)
    (valid : readFront (overlay (overlay before here) after) none = .ok found) :
    (∃ date, readFront (overlay (overlay before [(dateKey, today)]) after) none =
        .ok (release, date)) ↔ Names (overlay before after) release := by
  obtain ⟨keys, -, dated⟩ := readFront_eq_ok.mp valid
  rw [checkKeys_eq_ok] at keys
  have same : ∀ key ≠ dateKey, (overlay (overlay before [(dateKey, today)]) after).get key =
      (overlay before after).get key := by
    intro key other
    have apart : key ∉ [(dateKey, today)].map Prod.fst := by simpa using other
    rw [get_overlay, get_overlay, get_overlay, if_neg apart]
  have date : ∃ date, humanDateToIso
      ((overlay (overlay before [(dateKey, today)]) after).get dateKey) = .ok date := by
    rw [get_overlay] at dated ⊢
    split
    · next later =>
      rw [if_pos later] at dated
      exact ⟨_, dated⟩
    · rw [get_overlay, if_pos (by simp)]
      exact ⟨today, humanDateToIso_of_isIsoDate iso⟩
  constructor
  · rintro ⟨date, front⟩
    obtain ⟨-, names, -⟩ := readFront_eq_ok.mp front
    exact names.congr fun key other => (same key other).symm
  · intro names
    obtain ⟨date, dated⟩ := date
    refine ⟨date, readFront_eq_ok.mpr ⟨checkKeys_eq_ok.mpr fun key => ?_, ?_, dated⟩⟩
    · simp only [mem_keys_overlay] at keys ⊢
      constructor
      · rintro (later | now | earlier)
        · exact (keys key).mp (.inl later)
        · obtain rfl : key = dateKey := by simpa using now
          decide
        · exact (keys key).mp (.inr (.inr earlier))
      · intro mem
        by_cases other : key = dateKey
        · exact .inr (.inl (by simp [other]))
        · exact (mem_keys_overlay.mp (names.mem_keys mem other)).imp_right .inr
    · exact names.congr same

/-! ## Another date in the subject -/

/-- A line that can stand only in the subject of a body. -/
structure Prose (line : Line) : Prop where
  words : isBlank line = false
  heading : heading? line = none
  bullet : bullet? line = none
  flush : isIndented line = false

theorem prose_dateLine (date : Line) : Prose (dateLine date) := by
  have opens : ∃ rest, strip (dateLine date) = 'r' :: rest := by
    have front : (dateLine date).dropWhile isSpace = dateLine date := rfl
    obtain ⟨gap, eq⟩ := List.rdropWhile_prefix isSpace (l := dateLine date)
    have some : (dateLine date).rdropWhile isSpace ≠ [] := by
      rw [Ne, List.rdropWhile_eq_nil_iff]
      intro spaces
      cases spaces 'r' List.mem_cons_self
    obtain ⟨c, rest, cons⟩ := List.exists_cons_of_ne_nil some
    rw [cons] at eq
    obtain rfl : c = 'r' := (List.cons.inj eq).1
    exact ⟨rest, by rw [strip, front, cons]⟩
  obtain ⟨rest, opens⟩ := opens
  refine ⟨?_, ?_, ?_, rfl⟩
  · simp [isBlank, opens]
  · rw [heading?, opens]
    rfl
  · rw [bullet?, opens]
    cases rest <;> rfl

theorem not_mem_sections {sections : List SectionLines} (prose : Prose line) :
    line ∉ sections.flatMap SectionLines.lines := by
  intro mem
  obtain ⟨s, -, mem⟩ := List.mem_flatMap.mp mem
  rcases List.mem_cons.mp mem with rfl | mem
  · cases prose.heading.symm.trans s.reads
  rcases List.mem_append.mp mem with mem | mem
  · rcases List.mem_append.mp mem with mem | mem
    · cases prose.words.symm.trans (s.gap_blank line mem)
    · obtain ⟨item, -, mem⟩ := List.mem_flatMap.mp mem
      rcases List.mem_cons.mp mem with rfl | mem
      · cases prose.bullet.symm.trans item.reads
      · cases prose.flush.symm.trans (item.continues line mem).2.2.2
  · cases prose.words.symm.trans (s.trail_blank line mem)

/-- An opening with another line of prose. -/
theorem Opening.exists_prose {now : Line} (prose : Prose line) (prose' : Prose now) (o : Opening)
    (eq : o.lines = before ++ line :: after) :
    ∃ o' : Opening, o'.lines = before ++ now :: after := by
  obtain ⟨lead, first, more, blank, words, plain⟩ := o
  have eq : lead ++ first :: more = before ++ line :: after := eq
  rcases List.append_eq_append_iff.mp eq with ⟨gap, rfl, rest⟩ | ⟨gap, rfl, rest⟩
  · cases gap with
    | nil =>
      obtain ⟨rfl, rfl⟩ := List.cons.inj rest
      refine ⟨⟨lead, now, more, blank, prose'.words, ?_⟩, by simp [Opening.lines]⟩
      exact List.forall_mem_cons.mpr ⟨prose'.heading, (List.forall_mem_cons.mp plain).2⟩
    | cons c gap =>
      obtain ⟨rfl, rfl⟩ := List.cons.inj rest
      obtain ⟨here, there⟩ := List.forall_mem_cons.mp plain
      obtain ⟨there, after'⟩ := List.forall_mem_append.mp there
      refine ⟨⟨lead, first, gap ++ now :: after, blank, words, ?_⟩, by simp [Opening.lines]⟩
      refine List.forall_mem_cons.mpr ⟨here, List.forall_mem_append.mpr ⟨there, ?_⟩⟩
      exact List.forall_mem_cons.mpr ⟨prose'.heading, (List.forall_mem_cons.mp after').2⟩
  · -- a line of prose is not blank, so it does not stand before the subject
    cases gap with
    | nil =>
      obtain ⟨rfl, rfl⟩ := List.cons.inj rest
      refine ⟨⟨before, now, after, by simpa using blank, prose'.words, ?_⟩, by simp [Opening.lines]⟩
      exact List.forall_mem_cons.mpr ⟨prose'.heading, (List.forall_mem_cons.mp plain).2⟩
    | cons c gap =>
      obtain ⟨rfl, -⟩ := List.cons.inj rest
      have mem : line ∈ before ++ line :: gap := by simp
      cases prose.words.symm.trans (blank line mem)

/-- **Another line of prose** in a body changes its subject and nothing else. -/
theorem readBody_prose {now subject : Line} {sections : List Section} (prose : Prose line)
    (prose' : Prose now)
    (h : readBody release (before ++ line :: after) = .ok (subject, sections)) :
    ∃ subject', readBody release (before ++ now :: after) = .ok (subject', sections) := by
  obtain ⟨l, lines, read⟩ := readBody_eq_ok.mp h
  obtain ⟨rfl, rfl⟩ := Prod.mk.inj read
  -- the line stands in the opening, after the blank lines
  have opening : ∃ more, l.opening.lines = before ++ line :: more ∧
      after = more ++ l.sections.flatMap SectionLines.lines := by
    rcases List.append_eq_append_iff.mp lines with ⟨gap, eq, rest⟩ | ⟨gap, eq, rest⟩
    · have mem : line ∈ l.sections.flatMap SectionLines.lines := by simp [rest]
      exact absurd mem (not_mem_sections prose)
    · cases gap with
      | nil =>
        have mem : line ∈ l.sections.flatMap SectionLines.lines := by
          rw [List.nil_append] at rest
          simp [← rest]
        exact absurd mem (not_mem_sections prose)
      | cons first gap =>
        obtain ⟨rfl, rfl⟩ := List.cons.inj rest
        exact ⟨gap, eq, rfl⟩
  obtain ⟨more, eq, rfl⟩ := opening
  obtain ⟨o, eq'⟩ := l.opening.exists_prose prose prose' eq
  refine ⟨o.subject, readBody_eq_ok.mpr ⟨⟨o, l.sections, l.sections_ne, l.titles⟩, ?_, rfl⟩⟩
  rw [Layout.lines, eq']
  simp

/-- The newlines before a body are lines of it, up to one that has something in it. -/
theorem dropWhile_joinLines {c : Char} (some : line.head? = Option.some c) (plain : c ≠ '\n')
    (newline : ∀ other ∈ before, '\n' ∉ other) :
    (joinLines (before ++ line :: after)).dropWhile (· = '\n') =
      joinLines (before.dropWhile (· = []) ++ line :: after) := by
  have stops : ∀ {d : Char} {first : Line} {more : List Line}, first.head? = Option.some d → d ≠ '\n' →
      (joinLines (first :: more)).dropWhile (· = '\n') = joinLines (first :: more) := by
    rintro d first more opens differs
    obtain ⟨rest, rfl⟩ := List.head?_eq_some_iff.mp opens
    cases more with
    | nil =>
      rw [joinLines, List.intercalate_singleton]
      exact List.dropWhile_cons_of_neg (by simpa using differs)
    | cons second more =>
      rw [joinLines_cons (by simp)]
      exact List.dropWhile_cons_of_neg (by simpa using differs)
  induction before with
  | nil => exact stops some plain
  | cons other before ih =>
    cases other with
    | nil =>
      rw [List.cons_append, joinLines_cons (by simp), List.nil_append,
        List.dropWhile_cons_of_pos rfl, List.dropWhile_cons_of_pos rfl]
      exact ih fun other mem => newline other (List.mem_cons_of_mem _ mem)
    | cons d other =>
      have differs : d ≠ '\n' := by
        rintro rfl
        exact newline ('\n' :: other) List.mem_cons_self List.mem_cons_self
      rw [List.cons_append, List.dropWhile_cons_of_neg (by simp), List.cons_append]
      exact stops rfl differs

/-! ## A file with another date -/

theorem dateLine_ne : dateLine today ≠ dashes := by
  intro eq
  cases (List.cons.inj eq).1

/-- Where the date is written: between the lines of dashes, or after them. -/
theorem Fronted.place (fronted : Fronted (before ++ dateLine old :: after) front rest) :
    (∃ first last, front = first ++ dateLine old :: last ∧ before = dashes :: first ∧
      after = last ++ dashes :: rest) ∨
    ∃ first, rest = first ++ dateLine old :: after ∧ before = dashes :: (front ++ dashes :: first) := by
  obtain ⟨eq, -, -, -⟩ := fronted
  cases before with
  | nil => exact absurd (List.cons.inj eq).1 dateLine_ne
  | cons opening before =>
    obtain ⟨rfl, inner⟩ := List.cons.inj eq
    rcases List.append_eq_append_iff.mp inner with ⟨gap, rfl, more⟩ | ⟨gap, rfl, more⟩
    · cases gap with
      | nil => exact absurd (List.cons.inj more).1 dateLine_ne
      | cons d gap =>
        obtain ⟨rfl, rfl⟩ := List.cons.inj more
        exact .inl ⟨before, gap, rfl, rfl, rfl⟩
    · cases gap with
      | nil => exact absurd (List.cons.inj more).1.symm dateLine_ne
      | cons d gap =>
        obtain ⟨rfl, rfl⟩ := List.cons.inj more
        exact .inr ⟨gap, rfl, rfl⟩

/-- The front matter ends where it did. -/
theorem Fronted.redate {first last : List Line}
    (fronted : Fronted lines (first ++ dateLine old :: last) rest) (today : Line) :
    Fronted (dashes :: (first ++ dateLine today :: last ++ dashes :: rest))
      (first ++ dateLine today :: last) rest := by
  refine ⟨rfl, by simp, fronted.rest_ne, fun mem => fronted.first ?_⟩
  cases first with
  | nil => exact mem
  | cons line first =>
    rcases List.mem_append.mp mem with mem | mem
    · exact List.mem_append_left _ mem
    · rcases List.mem_cons.mp mem with eq | mem
      · exact absurd eq.symm dateLine_ne
      · exact List.mem_append_right _ (List.mem_cons_of_mem _ mem)

/-- Behind the front matter a date changes nothing of it. -/
theorem Fronted.redate_rest
    (fronted : Fronted lines front (first ++ dateLine old :: after)) (today : Line) :
    Fronted (dashes :: (front ++ dashes :: first) ++ dateLine today :: after) front
      (first ++ dateLine today :: after) :=
  ⟨by simp, fronted.front_ne, by simp, fronted.first⟩

/-- A file around a line of its front matter. -/
theorem around_dateLine : dashes :: (first ++ dateLine old :: last ++ dashes :: rest) =
    (dashes :: first) ++ dateLine old :: (last ++ dashes :: rest) := by simp

theorem newline_dateLine (iso : isIsoDate today = true) : '\n' ∉ dateLine today := by
  intro mem
  cases plain_dateLine iso '\n' mem

theorem newline_redated (iso : isIsoDate today = true)
    (newline : ∀ other ∈ before ++ line :: after, '\n' ∉ other) :
    ∀ other ∈ before ++ dateLine today :: after, '\n' ∉ other := by
  obtain ⟨front, rest⟩ := List.forall_mem_append.mp newline
  exact List.forall_mem_append.mpr ⟨front, List.forall_mem_cons.mpr
    ⟨newline_dateLine iso, (List.forall_mem_cons.mp rest).2⟩⟩

/-- The marker is not in a line for the date. -/
theorem not_shows_redated (iso : isIsoDate today = true)
    (none : ¬ todoMarker <:+: joinLines (before ++ line :: after)) :
    ¬ todoMarker <:+: joinLines (before ++ dateLine today :: after) := by
  intro shown
  obtain ⟨other, mem, inside⟩ := exists_of_infix_joinLines (by decide) (by decide) shown
  rw [List.mem_append, List.mem_cons] at mem
  rcases mem with mem | rfl | mem
  · exact none (inside.trans (infix_joinLines (by simp [mem])))
  · refine absurd inside (not_infix_of_hash (List.not_mem_append (by decide) fun mem => ?_))
    exact (plain_of_isIsoDate iso mem).2.2 rfl
  · exact none (inside.trans (infix_joinLines (by simp [mem])))

/-- **A date in the front matter.** With today's, the file is read as the release that the front
    matter names without the line for the date, if it names one there. -/
theorem parse_dated_front (newline : ∀ line ∈ lines, '\n' ∉ line) (iso : isIsoDate today = true)
    (fronted : Fronted lines (first ++ dateLine old :: last) rest)
    (h : parseMarkdownRelease (joinLines lines) none = .ok entry) :
    (∃ entry', parseMarkdownRelease
        (joinLines (dashes :: (first ++ dateLine today :: last ++ dashes :: rest))) none = .ok entry' ∧
      entry'.identity = release) ↔
    ∃ data, readMeta [] (splitlines (joinLines (first ++ last))) = .ok data ∧ Names data release := by
  obtain ⟨unmarked, ⟨data, read, valid⟩, body⟩ := (parse_fronted newline fronted).mp h
  obtain ⟨before, here, after, earlier, -, later, rfl⟩ := readMeta_around.mp read
  have own : readMeta before (splitlines (dateLine today)) =
      .ok (overlay before [(dateKey, today)]) := by
    rw [readMeta_dateLine (plain_dateLine iso), stripOf_today iso]
  have read' := readMeta_around.mpr ⟨before, _, after, earlier, own, later, rfl⟩
  have without := readMeta_without earlier later
  have whole := fronted.eq
  rw [around_dateLine] at whole
  rw [whole] at newline unmarked
  have newline' := newline_redated iso newline
  rw [← around_dateLine] at newline'
  have parsed := fun entry => @parse_fronted _ _ rest entry newline' (fronted.redate today)
  constructor
  · rintro ⟨entry', valid', rfl⟩
    obtain ⟨-, ⟨data', again, valid'⟩, -⟩ := (parsed entry').mp valid'
    obtain rfl := Except.ok.inj (again.symm.trans read')
    exact ⟨_, without, (readFront_dated iso valid).mp ⟨_, valid'⟩⟩
  · rintro ⟨data', again, names⟩
    obtain rfl := Except.ok.inj (without.symm.trans again)
    obtain ⟨date, valid'⟩ := (readFront_dated iso valid).mpr names
    refine ⟨⟨release, date, entry.subject, entry.sections⟩, (parsed _).mpr ⟨?_, ?_, ?_⟩, rfl⟩
    · rw [around_dateLine]
      exact not_shows_redated iso unmarked
    · exact ⟨_, read', valid'⟩
    · exact readBody_release body

/-- A line for the date that is one line to the parser too names nothing but the date. -/
theorem names_of_plain (newline : ∀ line ∈ lines, '\n' ∉ line)
    (fronted : Fronted lines (first ++ dateLine old :: last) rest) (plain : Plain (dateLine old))
    (h : parseMarkdownRelease (joinLines lines) none = .ok entry) :
    ∃ data, readMeta [] (splitlines (joinLines (first ++ last))) = .ok data ∧
      Names data entry.identity := by
  obtain ⟨-, ⟨data, read, valid⟩, -⟩ := (parse_fronted newline fronted).mp h
  obtain ⟨before, here, after, earlier, own, later, rfl⟩ := readMeta_around.mp read
  rw [readMeta_dateLine plain, Except.ok.injEq] at own
  obtain ⟨-, names, -⟩ := readFront_eq_ok.mp valid
  refine ⟨_, readMeta_without earlier later, names.congr fun key other => ?_⟩
  have apart : key ∉ [(dateKey, stripOf (· = '"') (strip old))].map Prod.fst := by simpa using other
  rw [← own, get_overlay, get_overlay, get_overlay, if_neg apart]

/-- The lines of a text around the one for the date. -/
theorem exists_splitlines_around : ∃ front, ∀ {date : Line}, Plain (dateLine date) →
    splitlines (joinLines (before ++ dateLine date :: after)) =
      front ++ dateLine date :: splitlines (joinLines after) := by
  have opens : ∀ {date : Line}, Plain (dateLine date) →
      splitlines (joinLines (dateLine date :: after)) =
        dateLine date :: splitlines (joinLines after) := by
    intro date plain
    by_cases none : after = []
    · rw [none, joinLines, List.intercalate_singleton]
      exact splitlinesFrom_plain plain (List.cons_ne_nil _ _)
    · rw [joinLines_cons none, splitlines_line plain]
  by_cases none : before = []
  · exact ⟨[], fun plain => by rw [none, List.nil_append, List.nil_append, opens plain]⟩
  · refine ⟨splitlines (joinLines before ++ ['\n']), fun plain => ?_⟩
    rw [joinLines_append none (List.cons_ne_nil _ _), splitlines_newline, opens plain]

/-- A body whose line of that form is dated is read as it was, but for its subject. -/
theorem readBody_redated {subject : Line} {sections : List Section}
    (newline : ∀ line ∈ first, '\n' ∉ line) (plain : Plain (dateLine old))
    (iso : isIsoDate today = true)
    (h : readBody release (splitlines ((joinLines (first ++ dateLine old :: after)).dropWhile
      (· = '\n'))) = .ok (subject, sections)) :
    ∃ subject', readBody release (splitlines ((joinLines (first ++ dateLine today :: after)).dropWhile
      (· = '\n'))) = .ok (subject', sections) := by
  obtain ⟨front, split⟩ := @exists_splitlines_around (first.dropWhile (· = [])) after
  have drops : ∀ date, (joinLines (first ++ dateLine date :: after)).dropWhile (· = '\n') =
      joinLines (first.dropWhile (· = []) ++ dateLine date :: after) := fun date =>
    @dropWhile_joinLines first after (dateLine date) 'r' rfl (by decide) newline
  rw [drops, split plain] at h
  rw [drops, split (plain_dateLine iso)]
  exact readBody_prose (prose_dateLine old) (prose_dateLine today) h

/-- **A release file with another date is read as the same release**, whichever of its lines the
    date was written on, if that is one line to the parser too. -/
theorem parse_redated (newline : ∀ line ∈ before ++ dateLine old :: after, '\n' ∉ line)
    (plain : Plain (dateLine old)) (iso : isIsoDate today = true)
    (h : parseMarkdownRelease (joinLines (before ++ dateLine old :: after)) none = .ok entry) :
    ∃ entry', parseMarkdownRelease (joinLines (before ++ dateLine today :: after)) none = .ok entry' ∧
      entry'.identity = entry.identity := by
  obtain ⟨noTodo, data, body, split, -⟩ := parseMarkdownRelease_eq_ok.mp h
  obtain ⟨front', rest, fronted⟩ := fronted_of_split newline split
  rcases fronted.place with ⟨first, last, rfl, rfl, rfl⟩ | ⟨first, rfl, rfl⟩
  · have named := names_of_plain newline fronted plain h
    rw [← around_dateLine]
    exact (parse_dated_front newline iso fronted h).mpr named
  · have newlineFirst : ∀ line ∈ first, '\n' ∉ line := fun line mem => newline line (by simp [mem])
    obtain ⟨-, front, read⟩ := (parse_fronted newline fronted).mp h
    obtain ⟨subject', read⟩ := readBody_redated newlineFirst plain iso read
    refine ⟨⟨entry.identity, entry.date, subject', entry.sections⟩, ?_, rfl⟩
    exact (parse_fronted (newline_redated iso newline) (fronted.redate_rest today)).mpr
      ⟨not_shows_redated iso noTodo, front, read⟩

end LibOsdp.Changelog
