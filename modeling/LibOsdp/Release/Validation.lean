import LibOsdp.Changelog.Dated
import LibOsdp.Changelog.Files
import LibOsdp.Release.Commands

/-!
# The release file of a tag

`publish` asks the changelog tool whether the release file is the one of its tag, and then dates
it. The changelog tool reads the file once more where a publish that failed is run again, and in
the gates: whether it still takes the file for that release is decided by the line that was dated.
-/

set_option autoImplicit false

namespace LibOsdp.Release

open LibOsdp.Base
open LibOsdp.Changelog (Identity Normal crateName crates extension isGap isVersion dashed splitTag
  normalizeVersion parseMarkdownRelease validateReleaseFile Named Names Fronted dateLine readMeta
  frontOpening frontClosing)

def Tag.name (tag : Tag) : Line := crateName tag.crate ++ "-v".toList ++ tag.version.str

/-- `changelog_tool.py validate --file` on the release file of the tag. -/
def validates (text : Text) (tag : Line) : Bool :=
  (validateReleaseFile (tag ++ extension) (joinLines text) (some tag)).isOk

/-- The text of a release file behind its front matter. -/
def prose (text : Text) : Line :=
  match ((joinLines text).dropPrefix? frontOpening).bind (cut? frontClosing) with
  | some (_, body) => body
  | none => joinLines text

variable {v : Version} {tag : Tag} {text text' : Text} {today line : Line} {before after : List Line}

/-! ## The names of tags -/

theorem dashed_append {word rest : Line} (plain : ∀ c ∈ word, isGap c = false) :
    dashed (word ++ rest) = word ++ dashed rest := by
  induction word with
  | nil => rfl
  | cons c word ih =>
    have first : isGap c = false := plain c List.mem_cons_self
    rw [List.cons_append, dashed, first, ih fun d mem => plain d (List.mem_cons_of_mem _ mem)]
    rfl

/-- A digit or a dot: neither a gap nor a capital. -/
theorem plain_of_mem_base : ∀ c ∈ v.base, isGap c = false ∧ lowerChar c = c ∧
    (c.isAlphanum || c ∈ ['.', '+', '-']) = true := by
  intro c mem
  rcases Version.mem_base mem with digit | rfl
  · have space := Version.isSpace_of_isDigit digit
    have alphanum : c.isAlphanum = true := by rw [Char.isAlphanum, digit, Bool.or_true]
    simp only [Char.isDigit, Bool.and_eq_true, decide_eq_true_eq] at digit
    have low : 48 ≤ c.toNat := digit.1
    have high : c.toNat ≤ 57 := digit.2
    have dash : c ≠ '-' := by
      rintro rfl
      exact absurd low (by decide)
    exact ⟨by simp [isGap, space, dash], lowerChar_eq_self (by omega) (by omega), by simp [alphanum]⟩
  · decide

theorem exists_digit (v : Version) : ∃ c rest, v.base = c :: rest ∧ c.isDigit = true := by
  have some : Nat.toDigits 10 v.major ≠ [] := Nat.toDigits_ne_nil
  obtain ⟨c, rest, eq⟩ := List.exists_cons_of_ne_nil some
  refine ⟨c, rest ++ ('.' :: (Nat.toDigits 10 v.minor ++ '.' :: Nat.toDigits 10 v.patch)), ?_, ?_⟩
  · simp [Version.base, List.intercalate_cons_cons, eq]
  · exact @Nat.isDigit_of_mem_toDigits 10 v.major c (by decide) (by decide) (eq ▸ List.mem_cons_self)

/-- A version is spelt as the changelog tool spells it. -/
theorem normal_str (v : Version) : Normal ('v' :: v.str) := by
  obtain ⟨tail, str, kept, lowered, valid⟩ : ∃ tail, v.str = v.base ++ tail ∧ dashed tail = tail ∧
      Base.lower tail = tail ∧ (tail.all fun c => c.isAlphanum || c ∈ ['.', '+', '-']) = true := by
    rw [Version.str]
    split
    · exact ⟨Version.marker, rfl, by decide, by decide, by decide⟩
    · exact ⟨[], (List.append_nil _).symm, rfl, rfl, rfl⟩
  have dashed : dashed v.str = v.str := by
    rw [str, dashed_append fun c mem => (plain_of_mem_base c mem).1, kept]
  have lower : Base.lower v.str = v.str := by
    have base : Base.lower v.base = v.base := by
      rw [Base.lower, List.map_congr_left fun c mem => (plain_of_mem_base c mem).2.1, List.map_id']
    rw [str, Base.lower, List.map_append]
    exact congrArg₂ _ base lowered
  have version : isVersion v.str = true := by
    obtain ⟨c, rest, eq, digit⟩ := exists_digit v
    have all := fun d mem => (@plain_of_mem_base v d mem).2.2
    rw [eq] at all
    rw [str, eq, List.cons_append, isVersion, Char.isAlphanum, digit, Bool.or_true, Bool.true_and,
      List.all_append, valid, Bool.and_true, List.all_eq_true]
    exact fun d mem => all d (List.mem_cons_of_mem _ mem)
  have some : v.str ≠ [] := by
    obtain ⟨c, rest, eq, -⟩ := exists_digit v
    simp [str, eq]
  have stripped : strip ('v' :: v.str) = 'v' :: v.str :=
    @strip_append ['v'] v.str (by rintro c ⟨⟩; rfl) (by simp) some Version.strip_str
  have reads : normalizeVersion ('v' :: v.str) = .ok ('v' :: v.str) := by
    simp only [normalizeVersion, stripped, List.head?_cons, if_true, List.tail_cons, dashed, lower,
      version]
  exact Changelog.normal_of_normalizeVersion reads

/-- The release that the changelog tool reads from the name of a tag. -/
def Tag.identity (tag : Tag) : Identity := ⟨tag.crate, 'v' :: tag.version.str⟩

theorem tag_identity : tag.identity.tag = tag.name := by
  simp [Tag.identity, Identity.tag, Tag.name]

theorem splitTag_name : splitTag tag.name = .ok tag.identity := by
  rw [← tag_identity]
  exact Changelog.splitTag_tag (normal_str tag.version)

theorem named_name : Named (tag.name ++ extension) tag.identity := by
  rw [← tag_identity]
  exact Changelog.named_pathName (normal_str tag.version)

/-! ## The tool's own validation -/

theorem checkExpected_name {release : Identity} :
    Changelog.checkExpected release (some tag.name) = .ok () ↔ release = tag.identity := by
  have some : tag.name ≠ [] := by
    obtain ⟨crate, version⟩ := tag
    cases crate <;> exact List.cons_ne_nil _ _
  rw [Changelog.checkExpected_some some, splitTag_name]
  exact ⟨fun eq => (Except.ok.inj eq).symm, fun eq => congrArg _ eq.symm⟩

/-- A release file passes validation for its tag if it is read as that release. -/
theorem validates_iff : validates text tag.name = true ↔ ∃ entry,
    parseMarkdownRelease (joinLines text) none = .ok entry ∧ entry.identity = tag.identity := by
  have isOk : ∀ {x : Except Changelog.FileDie Changelog.ReleaseEntry},
      x.isOk = true ↔ ∃ entry, x = .ok entry := by
    intro x
    cases x with
    | error e => exact iff_of_false Bool.false_ne_true (by rintro ⟨_, ⟨⟩⟩)
    | ok entry => exact iff_of_true rfl ⟨entry, rfl⟩
  rw [validates, isOk]
  simp only [Changelog.validate_eq_ok, checkExpected_name]
  constructor
  · rintro ⟨entry, parsed, -, same⟩
    exact ⟨entry, parsed, same⟩
  · rintro ⟨entry, parsed, same⟩
    exact ⟨entry, parsed, same ▸ named_name, same⟩

/-- The release that a tag names is in the front matter, also without the line that is dated. -/
def FrontDated (text : Text) (release : Identity) : Prop :=
  ∃ first old last rest, Fronted text (first ++ dateLine old :: last) rest ∧
    (∀ line ∈ first, dateOpening.isPrefixOf line = false) ∧
    ∃ data, readMeta [] (splitlines (joinLines (first ++ last))) = .ok data ∧ Names data release

/-- **A release file that stays what it is when it is dated**: the line for the date has today's
    already, or is one of the front matter that names nothing but the date. -/
def Redatable (today : Line) (text : Text) (tag : Tag) : Prop :=
  text.find? (dateOpening.isPrefixOf ·) = some (dateOpening ++ today) ∨
    FrontDated text tag.identity

/-- A text by its newlines, whose line for the date is one line to the changelog tool too. -/
structure DatesPlainly (text : Text) : Prop where
  newline : ∀ line ∈ text, '\n' ∉ line
  dated : ∀ line, text.find? (dateOpening.isPrefixOf ·) = some line → Plain line

/-- The release file that a `publish` of the crate dates is such a text. -/
def Repo.PlainlyDated (r : Repo) (crate : Crate) : Prop :=
  ∀ v, r.worktree.version? crate = some v → ∀ text,
    r.worktree.get (.changelog ⟨crate, v.released⟩) = some text → DatesPlainly text

/-- The first line of its kind is the one that is rewritten. -/
theorem subOnce_of_first {hit : Line → Bool} {repl : Line} (here : hit line = true)
    (none : ∀ other ∈ before, hit other = false) :
    subOnce hit repl (before ++ line :: after) = some (before ++ repl :: after) := by
  induction before with
  | nil => rw [List.nil_append, subOnce, if_pos here]; rfl
  | cons first before ih =>
    obtain ⟨other, none⟩ := List.forall_mem_cons.mp none
    rw [List.cons_append, subOnce, if_neg (by simp [other]), ih none]
    rfl

theorem find?_of_first {hit : Line → Bool} (here : hit line = true)
    (none : ∀ other ∈ before, hit other = false) :
    (before ++ line :: after).find? hit = some line := by
  have skipped : before.find? hit = .none := List.find?_eq_none.mpr fun other mem => by
    simp [none other mem]
  rw [List.find?_append, skipped, Option.none_or, List.find?_cons_of_pos here]

theorem dated_line (date : Line) : dateOpening.isPrefixOf (dateOpening ++ date) = true := by
  rw [List.isPrefixOf_iff_prefix]
  exact List.prefix_append _ _

theorem prose_of_fronted {front rest : List Line} (newline : ∀ line ∈ text, '\n' ∉ line)
    (fronted : Fronted text front rest) : prose text = joinLines rest := by
  obtain ⟨opens, cut⟩ := Changelog.cut_of_fronted newline fronted
  rw [prose, opens, Option.bind_some, cut]

theorem eq_of_joinLines {other : Line}
    (same : joinLines (before ++ line :: after) = joinLines (before ++ other :: after)) :
    line = other := by
  induction before with
  | nil =>
    by_cases none : after = []
    · simpa [none, joinLines] using same
    · rw [List.nil_append, List.nil_append, joinLines_cons none, joinLines_cons none] at same
      exact List.append_cancel_right same
  | cons first before ih =>
    rw [List.cons_append, List.cons_append, joinLines_cons (by simp), joinLines_cons (by simp)] at same
    exact ih (List.cons.inj (List.append_cancel_left same)).2

section Dating

variable (iso : Changelog.isIsoDate today = true)
  (set : subOnce (dateOpening.isPrefixOf ·) (dateOpening ++ today) text = some text')
  (valid : validates text tag.name = true)

include iso set valid

/-- **Dating a release file keeps it valid**, if the line that is dated is one line to the tool. -/
theorem validates_dated (plain : DatesPlainly text) : validates text' tag.name = true := by
  obtain ⟨newline, dated⟩ := plain
  obtain ⟨before, line, after, rfl, hit, rfl, none⟩ := eq_of_subOnce set
  have plain := dated line (find?_of_first hit none)
  obtain ⟨old, rfl⟩ := List.isPrefixOf_iff_prefix.mp hit
  obtain ⟨entry, parsed, same⟩ := validates_iff.mp valid
  obtain ⟨entry', parsed', identity⟩ := Changelog.parse_redated newline plain iso parsed
  exact validates_iff.mpr ⟨entry', parsed', identity.trans same⟩

/-- **When a release file stays what it is**: what is behind its front matter is left as it was, and
    the tool takes it for the same release. -/
theorem redatable_iff (newline : ∀ line ∈ text, '\n' ∉ line) :
    prose text' = prose text ∧ validates text' tag.name = true ↔ Redatable today text tag := by
  obtain ⟨entry, parsed, same⟩ := validates_iff.mp valid
  constructor
  · rintro ⟨kept, valid'⟩
    obtain ⟨before, line, after, rfl, hit, rfl, none⟩ := eq_of_subOnce set
    obtain ⟨old, rfl⟩ := List.isPrefixOf_iff_prefix.mp hit
    obtain ⟨-, data, body, split, -⟩ := Changelog.parseMarkdownRelease_eq_ok.mp parsed
    obtain ⟨front, rest, fronted⟩ := Changelog.fronted_of_split newline split
    rcases fronted.place with ⟨first, last, rfl, rfl, rfl⟩ | ⟨first, rfl, rfl⟩
    · obtain ⟨-, none⟩ := List.forall_mem_cons.mp none
      refine .inr ⟨first, old, last, rest, fronted, none, ?_⟩
      refine (Changelog.parse_dated_front newline iso fronted parsed).mp ?_
      rw [Changelog.around_dateLine]
      exact validates_iff.mp valid'
    · have text_eq := prose_of_fronted newline fronted
      have text_eq' :=
        prose_of_fronted (Changelog.newline_redated iso newline) (fronted.redate_rest today)
      have line_eq := eq_of_joinLines (text_eq'.symm.trans (kept.trans text_eq))
      exact .inl ((find?_of_first hit none).trans (congrArg some line_eq.symm))
  · rintro (now | ⟨first, old, last, rest, fronted, none, named⟩)
    · obtain ⟨before, line, after, rfl, hit, rfl, none⟩ := eq_of_subOnce set
      rw [find?_of_first hit none, Option.some.injEq] at now
      rw [← now]
      exact ⟨rfl, valid⟩
    · have whole := fronted.eq
      rw [Changelog.around_dateLine] at whole
      have stamped : subOnce (dateOpening.isPrefixOf ·) (dateOpening ++ today) text =
          some ((Changelog.dashes :: first) ++ dateLine today ::
            (last ++ Changelog.dashes :: rest)) := by
        rw [whole]
        exact subOnce_of_first (dated_line old) (List.forall_mem_cons.mpr ⟨rfl, none⟩)
      obtain rfl := Option.some.inj (stamped.symm.trans set)
      rw [← Changelog.around_dateLine]
      have newline' : ∀ line ∈ Changelog.dashes :: (first ++ dateLine today :: last ++
          Changelog.dashes :: rest), '\n' ∉ line := by
        rw [Changelog.around_dateLine]
        exact Changelog.newline_redated iso (whole ▸ newline)
      constructor
      · rw [prose_of_fronted newline fronted, prose_of_fronted newline' (fronted.redate today)]
      · exact validates_iff.mpr
          ((Changelog.parse_dated_front newline iso fronted parsed).mpr named)

end Dating

end LibOsdp.Release
