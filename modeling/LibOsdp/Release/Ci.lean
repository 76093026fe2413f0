import LibOsdp.Changelog.Dated
import LibOsdp.Changelog.Files
import LibOsdp.Release.Gate
import LibOsdp.Release.Published

/-!
# The gates of the CI

`check-release` is run on the commit of a pushed tag, `check-changelog` on every commit: both read
a clean checkout. A release that `publish` made passes the first, and does not turn the second from
passing to failing.
-/

set_option autoImplicit false

namespace LibOsdp.Release

open LibOsdp.Base
open LibOsdp.Changelog (Identity Normal crateName crates extension isGap isVersion dashed splitTag
  normalizeVersion parseMarkdownRelease validateReleaseFile Named)

/-- What the gate of a release finds amiss. -/
inductive CiProblem where
  | mismatch (tag : Line) (declared : Version)
  | release (problem : Problem)
  | noFile (tag : Line)
  | badFile (tag : Line)
  deriving DecidableEq, Repr

/-- The ways the gates die, with what their messages name. -/
inductive CiDie where
  | notTag (e : Changelog.Die)
  | otherCrate (tag : Line) (crate : Crate)
  | tool (e : Die)
  | problems (problems : List CiProblem)
  | noFile (path : Path)
  | unfolded (tag : Line)
  | invalid (tag : Line)
  deriving DecidableEq, Repr

/-- A step of the tool that only reads the checkout. -/
def view {α : Type} (r : Repo) (m : Tool α) : Except CiDie α :=
  match m r with
  | .ok a _ => .ok a
  | .error e _ => .error (.tool e)

def dieIf (c : Bool) (e : CiDie) : Except CiDie Unit := if c then .error e else .ok ()

/-- The tag of that name, if it is one of a version. -/
def Tag.ofName? (name : Line) : Option Tag :=
  crates.findSome? fun crate =>
    ((name.dropPrefix? (crateName crate ++ "-v".toList)).bind fun rest =>
      (Version.match? rest).filter (·.str = rest)).map (⟨crate, ·⟩)

def changelogDir : Line := "changelog/".toList

/-- `release_file`. -/
def releaseFile (tag : Line) : Path :=
  match Tag.ofName? tag with
  | some tag => .changelog tag
  | none => .other (changelogDir ++ tag ++ extension)

/-- The gate of a pushed tag. -/
def cmdCheckRelease (env : Env) (r : Repo) (crate : Option Crate) (tag : Line) (registry : Bool) :
    Except CiDie Unit := do
  let release ← (splitTag tag).mapError .notTag
  dieIf (crate.any (· ≠ release.crate)) (.otherCrate tag release.crate)
  let tagged ← (parseVersion (release.version.dropWhile (· = 'v'))).mapError .tool
  let declared ← view r (readState release.crate)
  let mismatch := if declared ≠ tagged then [CiProblem.mismatch tag declared] else []
  let found ← view r (releaseInvariants env release.crate declared)
  let missing ← view r (registryInvariants env ⟨release.crate, !registry⟩)
  let file :=
    match r.worktree.get (releaseFile tag) with
    | none => [.noFile tag]
    | some text => if validates text tag then [] else [.badFile tag]
  let problems := mismatch ++ (found ++ missing).map .release ++ file
  dieIf (problems ≠ []) (.problems problems)

/-- The tag in the name of a release file. -/
def stem? (file : Line) : Option Line :=
  if '/' ∉ file ∧ (Changelog.releaseFile? file).isSome then
    some (file.take (file.length - extension.length))
  else none

/-- The tag in the name of a file of the changelog directory. -/
def childTag? (path : Line) : Option Line := (path.dropPrefix? changelogDir).bind stem?

/-- `release_files_in_dir`, with their tags. -/
def changelogFiles (t : Tree) : List (Path × Line) :=
  ((t.map Prod.fst).dedup.filterMap fun p => (childTag? p.name).map (p, ·)).insertionSort
    fun a b => b.1.name ≤ a.1.name

/-- The tag of the crate's cycle, if it is in one. -/
def flight (r : Repo) (crate : Crate) : Except CiDie (List Line) := do
  let state ← view r (readState crate)
  return if state.prerelease then [Tag.name ⟨crate, state.released⟩] else []

/-- The tags of the cycles in progress. -/
def inFlight (r : Repo) : Except CiDie (List Line) := do
  let tags ← crates.mapM (flight r)
  return tags.flatten

/-- `validate_changelog`, on a file that is there. -/
def checkPublished (r : Repo) (file : Path × Line) : Except CiDie Unit := do
  let text ← okOr (r.worktree.get file.1) (.noFile file.1)
  dieIf (text.any fun line => "## Changes".toList <:+: line) (.unfolded file.2)
  dieIf (!validates text file.2) (.invalid file.2)

/-- The gate over the changelog directory. -/
def cmdCheckChangelog (r : Repo) : Except CiDie Unit := do
  let tags ← inFlight r
  (changelogFiles r.worktree).forM fun file =>
    if tags.contains file.2 then .ok () else checkPublished r file

variable {env env' : Env} {r r' s : Repo} {crate : Crate} {p : Path} {tag : Tag} {v : Version}
  {text text' : Text} {plan : Plan} {args : PublishArgs} {today : Line}

/-! ## The names of tags -/

theorem ofName?_name : Tag.ofName? tag.name = some tag := by
  obtain ⟨crate, version⟩ := tag
  have own : (Tag.name ⟨crate, version⟩).dropPrefix? (crateName crate ++ "-v".toList) =
      some version.str := List.dropPrefix?_append_of_beq _ BEq.rfl
  have read : (Version.match? version.str).filter (·.str = version.str) = some version := by
    have parsed := @Version.parse?_str version
    rw [Version.parse?, Version.strip_str] at parsed
    rw [parsed, Option.filter_some, if_pos (by simp)]
  cases crate with
  | libosdpSys =>
    rw [Tag.ofName?, crates, List.findSome?_cons, own, Option.bind_some, read]
    rfl
  | libosdp =>
    have other : (Tag.name ⟨.libosdp, version⟩).dropPrefix? (crateName .libosdpSys ++ "-v".toList) =
        none := rfl
    rw [Tag.ofName?, crates, List.findSome?_cons, other, Option.bind_none, Option.map_none,
      List.findSome?_cons, own, Option.bind_some, read]
    rfl

theorem releaseFile_name : releaseFile tag.name = .changelog tag := by
  rw [releaseFile, ofName?_name]

/-! ## The gate of a tag -/

theorem view_eq_ok {α : Type} {m : Tool α} {a : α} (reads : Reads m) :
    view r m = .ok a ↔ m r = .ok a r := by
  rw [view]
  cases ran : m r with
  | ok b t =>
    obtain rfl := reads.eq_of_ok ran
    simp
  | error e t => simp

theorem dieIf_eq_ok {c : Bool} {e : CiDie} {u : Unit} : dieIf c e = .ok u ↔ c = false := by
  cases c with
  | true => exact iff_of_false (by rintro ⟨⟩) (by rintro ⟨⟩)
  | false => exact iff_of_true rfl rfl

/-- **What the gate of a release tag asks.** -/
structure Fit (env : Env) (r : Repo) (tag : Tag) (registry : Bool) : Prop where
  declared : r.worktree.version? tag.crate = some tag.version
  release : releaseInvariants env tag.crate tag.version r = .ok [] r
  registry : registryInvariants env ⟨tag.crate, !registry⟩ r = .ok [] r
  file : ∃ text, r.worktree.get (.changelog tag) = some text ∧ validates text tag.name = true

theorem checkRelease_of_fit {registry : Bool} (fit : Fit env r tag registry) :
    cmdCheckRelease env r (some tag.crate) tag.name registry = .ok () := by
  obtain ⟨text, found, valid⟩ := fit.file
  have version : tag.identity.version.dropWhile (· = 'v') = tag.version.str := by
    obtain ⟨c, rest, eq, digit⟩ := exists_digit tag.version
    have opens : ∃ more, tag.version.str = c :: more := by
      rw [Version.str]
      split
      · exact ⟨rest ++ Version.marker, by rw [eq]; rfl⟩
      · exact ⟨rest, eq⟩
    obtain ⟨more, str⟩ := opens
    have other : c ≠ 'v' := by
      rintro rfl
      cases digit
    rw [Tag.identity, List.dropWhile_cons_of_pos rfl, str,
      List.dropWhile_cons_of_neg (by simpa using other)]
  have tagged : parseVersion tag.version.str = .ok tag.version := by
    rw [parseVersion, Version.parse?_str, okOr_some]
  have declared : view r (readState tag.crate) = .ok tag.version :=
    (view_eq_ok reads_readState).mpr (readState_eq fit.declared)
  have release := (view_eq_ok (reads_releaseInvariants _ _)).mpr fit.release
  have registered := (view_eq_ok reads_registryInvariants).mpr fit.registry
  rw [cmdCheckRelease, splitTag_name]
  refine bind_eq_ok.mpr ⟨tag.identity, rfl, bind_eq_ok.mpr ⟨(), dieIf_eq_ok.mpr ?_, ?_⟩⟩
  · simp [Tag.identity]
  refine bind_eq_ok.mpr ⟨tag.version, mapError_eq_ok.mpr (by rw [version, tagged]), ?_⟩
  refine bind_eq_ok.mpr ⟨tag.version, declared, bind_eq_ok.mpr ⟨[], release, ?_⟩⟩
  refine bind_eq_ok.mpr ⟨[], registered, dieIf_eq_ok.mpr ?_⟩
  simp [releaseFile_name, found, valid]

/-- **A release that was published passes the gate of its tag**, in a clean checkout of it. -/
theorem publish_passes_check_release (h : cmdPublish env args r = .ok () r')
    (tool : ∀ text tag, env.validates text tag = validates text tag.name)
    (plain : r.PlainlyDated args.crate)
    (iso : Changelog.isIsoDate env.today = true)
    (manifests : ∀ crate, (r.index.get (.manifest crate)).isSome)
    (vendor : (r.index.get .vendor).isSome)
    (sources : env'.cmakeLists = env.cmakeLists) (registry : env'.onCratesIo = env.onCratesIo)
    (lookUp : env'.succeeds .lookUpRelease = true) : ∃ tag, r'.tags = tag :: r.tags ∧
      cmdCheckRelease env' r'.checkout (some args.crate) tag.name (!args.noRegistry) = .ok () := by
  obtain ⟨plan, s, published⟩ := published_of_ok h
  obtain ⟨-, releasable, crate, -, -⟩ := publishChecks_eq_ok.mp published.checks
  have same := published.sources manifests vendor
  have file := releasable.file
  have found := releasable.found
  have missing := registryInvariants_congr same lookUp registry releasable.missing
  have version := published.version
  rw [crate] at same version
  refine ⟨plan.tag, published.tags, ?_⟩
  have own : plan.tag.crate = args.crate := crate
  have tag : (⟨args.crate, plan.state.released⟩ : Tag) = plan.tag := by rw [Plan.tag, crate]
  rw [← own]
  refine checkRelease_of_fit ⟨by rw [own]; exact version, ?_, ?_, ?_⟩
  · rw [own]
    exact releaseInvariants_congr same sources found
  · rw [own, Bool.not_not]
    exact missing
  · obtain ⟨text, valid⟩ := file
    obtain ⟨old, new, before, after, set⟩ := published.file
    rw [tag] at valid
    obtain rfl := Option.some.inj (before.symm.trans valid.found)
    refine ⟨new, after, validates_dated iso set ?_ (published.plain plain before)⟩
    rw [← tool]
    exact valid.valid

/-- What publishing `libosdp` leaves there. -/
def publishedCycle : Repo := left (cmdPublish (toolEnv []) { crate := .libosdp }) finishedCycle

theorem cmdPublish_finishedCycle :
    cmdPublish (toolEnv []) { crate := .libosdp } finishedCycle = .ok () publishedCycle := by
  have checks := @checks_finishedCycle [] (by simp)
  obtain ⟨s, -, eq⟩ := publish_written checks (by decide +kernel)
  have all : ∀ c, (toolEnv []).succeeds c = true := by
    intro c
    exact decide_eq_true (@List.not_mem_nil _ c)
  have made := eq.trans (callsOf_succeeds all)
  rw [publishedCycle, left_of_ok made, made]

/-- The release of a cycle, checked with the tools that released it. -/
theorem publish_passes_check_release_finished : ∃ tag, publishedCycle.tags = [tag] ∧
    cmdCheckRelease (toolEnv []) publishedCycle.checkout (some .libosdp) tag.name true = .ok () :=
  publish_passes_check_release cmdPublish_finishedCycle (fun _ _ => rfl)
    plainlyDated_finishedCycle (by decide +kernel) (by rintro (_ | _) <;> rfl) rfl rfl rfl rfl

/-! ## The gate of the directory -/

/-- The file is that of a cycle in progress. -/
def Flying (r : Repo) (name : Line) : Prop := ∃ crate state,
  r.worktree.version? crate = some state ∧ state.prerelease = true ∧
    name = Tag.name ⟨crate, state.released⟩

/-- The file is fit to have been published. -/
def Fine (text : Text) (name : Line) : Prop :=
  (text.any fun line => "## Changes".toList <:+: line) = false ∧ validates text name = true

theorem isSome_get_iff {t : Tree} : (t.get p).isSome ↔ p ∈ t.map Prod.fst := by
  refine ⟨Repo.mem_paths, fun mem => ?_⟩
  obtain ⟨file, there, rfl⟩ := List.mem_map.mp mem
  exact List.lookup_isSome_iff.mpr ⟨file, there, BEq.rfl⟩

theorem mem_changelogFiles {t : Tree} {name : Line} :
    (p, name) ∈ changelogFiles t ↔ (t.get p).isSome ∧ childTag? p.name = some name := by
  rw [changelogFiles, List.mem_insertionSort, List.mem_filterMap, isSome_get_iff]
  constructor
  · rintro ⟨q, mem, named⟩
    obtain ⟨_, named, same⟩ := Option.map_eq_some_iff.mp named
    cases same
    exact ⟨List.mem_dedup.mp mem, named⟩
  · rintro ⟨mem, named⟩
    exact ⟨p, List.mem_dedup.mpr mem, by rw [named]; rfl⟩

theorem flight_eq_ok {tags : List Line} : flight r crate = .ok tags ↔ ∃ state,
    r.worktree.version? crate = some state ∧
      tags = if state.prerelease then [Tag.name ⟨crate, state.released⟩] else [] := by
  rw [flight, bind_eq_ok]
  simp only [view_eq_ok reads_readState, readState_eq_ok, and_true, pure_eq_ok, Except.ok.injEq]
  exact exists_congr fun state => and_congr_right fun _ => eq_comm

theorem mem_crates (crate : Crate) : crate ∈ crates := by
  cases crate <;> decide

theorem isSome_inFlight : (∃ tags, inFlight r = .ok tags) ↔
    ∀ crate, (r.worktree.version? crate).isSome := by
  constructor
  · rintro ⟨_, made⟩ crate
    obtain ⟨lists, mapped, -⟩ := bind_eq_ok.mp made
    obtain ⟨list, made⟩ := mapM_eq_ok.mp ⟨lists, mapped⟩ crate (mem_crates crate)
    obtain ⟨state, read, -⟩ := flight_eq_ok.mp made
    exact Option.isSome_of_eq_some read
  · intro all
    obtain ⟨lists, mapped⟩ : ∃ lists, crates.mapM (flight r) = .ok lists := by
      rw [mapM_eq_ok]
      intro crate _
      obtain ⟨state, read⟩ := Option.isSome_iff_exists.mp (all crate)
      exact ⟨_, flight_eq_ok.mpr ⟨state, read, rfl⟩⟩
    exact ⟨lists.flatten, bind_eq_ok.mpr ⟨lists, mapped, rfl⟩⟩

theorem mem_inFlight {tags : List Line} {name : Line} (h : inFlight r = .ok tags) :
    name ∈ tags ↔ Flying r name := by
  obtain ⟨lists, mapped, same⟩ := bind_eq_ok.mp h
  obtain rfl := Except.ok.inj same
  simp only [List.mem_flatten, mem_of_mapM mapped, flight_eq_ok]
  constructor
  · rintro ⟨_, ⟨crate, -, state, read, rfl⟩, mem⟩
    split at mem
    · next dev => exact ⟨crate, state, read, dev, List.mem_singleton.mp mem⟩
    · cases mem
  · rintro ⟨crate, state, read, dev, rfl⟩
    refine ⟨_, ⟨crate, mem_crates crate, state, read, rfl⟩, ?_⟩
    rw [if_pos dev]
    exact List.mem_singleton_self _

theorem checkPublished_eq_ok {u : Unit} {name : Line} : checkPublished r (p, name) = .ok u ↔
    ∃ text, r.worktree.get p = some text ∧ Fine text name := by
  simp only [checkPublished, bind_eq_ok, okOr_eq_ok, dieIf_eq_ok, Bool.not_eq_false']
  constructor
  · rintro ⟨text, found, -, folded, valid⟩
    exact ⟨text, found, folded, valid⟩
  · rintro ⟨text, found, folded, valid⟩
    exact ⟨text, found, u, folded, valid⟩

/-- **When the gate over the directory passes.** -/
theorem cmdCheckChangelog_eq_ok : cmdCheckChangelog r = .ok () ↔
    (∀ crate, (r.worktree.version? crate).isSome) ∧
      ∀ p name text, r.worktree.get p = some text → childTag? p.name = some name →
        Flying r name ∨ Fine text name := by
  have files : ∀ tags, inFlight r = .ok tags →
      (((changelogFiles r.worktree).forM fun file =>
        if tags.contains file.2 then .ok () else checkPublished r file) = .ok () ↔
      ∀ p name text, r.worktree.get p = some text → childTag? p.name = some name →
        Flying r name ∨ Fine text name) := by
    intro tags made
    rw [forM_eq_ok]
    constructor
    · intro all p name text found named
      have mem : (p, name) ∈ changelogFiles r.worktree :=
        mem_changelogFiles.mpr ⟨Option.isSome_of_eq_some found, named⟩
      have passes := all (p, name) mem
      split at passes
      · next flying => exact .inl ((mem_inFlight made).mp (List.contains_iff_mem.mp flying))
      · obtain ⟨text', found', fine⟩ := checkPublished_eq_ok.mp passes
        obtain rfl := Option.some.inj (found.symm.trans found')
        exact .inr fine
    · rintro all ⟨p, name⟩ mem
      obtain ⟨some, named⟩ := mem_changelogFiles.mp mem
      obtain ⟨text, found⟩ := Option.isSome_iff_exists.mp some
      by_cases flying : tags.contains name = true
      · rw [if_pos flying]
      · rw [if_neg flying]
        rw [List.contains_iff_mem] at flying
        refine checkPublished_eq_ok.mpr ⟨text, found, ?_⟩
        exact (all p name text found named).resolve_left fun h => flying ((mem_inFlight made).mpr h)
  rw [cmdCheckChangelog, bind_eq_ok, ← isSome_inFlight]
  constructor
  · rintro ⟨tags, made, passes⟩
    exact ⟨⟨tags, made⟩, (files tags made).mp passes⟩
  · rintro ⟨⟨tags, made⟩, passes⟩
    exact ⟨tags, made, (files tags made).mpr passes⟩

theorem stem?_name : stem? (tag.name ++ extension) = some tag.name := by
  have flat : '/' ∉ tag.name ++ extension := by
    have crate : '/' ∉ crateName tag.crate ++ "-v".toList := by
      cases tag.crate <;> decide
    have version : '/' ∉ tag.version.str := by
      intro mem
      rcases Version.mem_str mem with digit | dot | mem
      · cases digit
      · cases dot
      · exact absurd mem (by decide)
    exact List.not_mem_append (List.not_mem_append crate version) (by decide)
  have some : (Changelog.releaseFile? (tag.name ++ extension)).isSome := by
    obtain ⟨raw, file, -⟩ := @named_name tag
    exact Option.isSome_of_eq_some file
  rw [stem?, if_pos ⟨flat, some⟩, List.length_append, Nat.add_sub_cancel, List.take_left]

theorem childTag?_name : childTag? (Path.changelog tag).name = some tag.name := by
  have whole : (Path.changelog tag).name = changelogDir ++ (tag.name ++ extension) := by
    show changelogDir ++ tag.name ++ extension = _
    exact List.append_assoc _ _ _
  have front : (changelogDir ++ (tag.name ++ extension)).dropPrefix? changelogDir =
      some (tag.name ++ extension) := List.dropPrefix?_append_of_beq _ BEq.rfl
  rw [childTag?, whole, front, Option.bind_some, stem?_name]

/-- The other files of a release are not in the directory. -/
theorem childTag?_of_mem_versionFiles (mem : p ∈ versionFiles crate) : childTag? p.name = none := by
  cases crate with
  | libosdpSys =>
    simp only [versionFiles, List.mem_cons, List.not_mem_nil, or_false] at mem
    rcases mem with rfl | rfl | rfl <;> rfl
  | libosdp =>
    obtain rfl := List.mem_singleton.mp mem
    rfl

/-- **A release that was published does not fail the gate over the directory**: a checkout that
    passed it passes it after. -/
theorem publish_keeps_check_changelog (h : cmdPublish env args r = .ok () r')
    (tool : ∀ text tag, env.validates text tag = validates text tag.name)
    (plain : r.PlainlyDated args.crate)
    (iso : Changelog.isIsoDate env.today = true)
    (manifests : ∀ crate, (r.index.get (.manifest crate)).isSome)
    (headed' : r.headVersion? args.crate = r.head.version? args.crate)
    (own : ∀ p tag, (r.index.get p).isSome → childTag? p.name = some tag.name → p = .changelog tag)
    (passes : cmdCheckChangelog r.checkout = .ok ()) : cmdCheckChangelog r'.checkout = .ok () := by
  obtain ⟨plan, s, published⟩ := published_of_ok h
  obtain ⟨⟨head, past⟩, releasable, crate, -, -⟩ := publishChecks_eq_ok.mp published.checks
  obtain ⟨legible, files⟩ := cmdCheckChangelog_eq_ok.mp passes
  have released := published.version
  rw [crate] at released
  -- the manifest of the other crate is as it was at HEAD
  have other : ∀ c ≠ args.crate, r'.head.version? c = r.head.version? c := by
    intro c differs
    have unstaged : .manifest c ∉ plan.staged := by
      intro mem
      exact differs ((crate_of_mem_staged mem).trans crate)
    have clean := (Repo.dirty_eq_false.mp (published.not_dirty unstaged (manifests c))).1
    rw [Tree.version?, Tree.version?, published.head, if_neg unstaged, clean]
  refine cmdCheckChangelog_eq_ok.mpr ⟨fun c => ?_, fun p name text found named => ?_⟩
  · by_cases same : c = args.crate
    · rw [same]
      exact Option.isSome_of_eq_some released
    · show (r'.head.version? c).isSome
      rw [other c same]
      exact legible c
  by_cases here : p = .changelog plan.tag
  · subst here
    obtain rfl := Option.some.inj (childTag?_name.symm.trans named)
    obtain ⟨old, new, before, after, set⟩ := published.file
    obtain rfl := Option.some.inj (after.symm.trans found)
    obtain ⟨_, valid⟩ := releasable.file
    have tag : (⟨args.crate, plan.state.released⟩ : Tag) = plan.tag := by rw [Plan.tag, crate]
    rw [tag] at valid
    obtain rfl := Option.some.inj (before.symm.trans valid.found)
    have hash : '#' ∉ env.today := fun mem => (Changelog.plain_of_isIsoDate iso mem).2.2 rfl
    refine .inr ⟨folded_of_subOnce hash set valid.folded,
      validates_dated iso set ?_ (published.plain plain before)⟩
    rw [← tool]
    exact valid.valid
  · have unstaged : p ∉ plan.staged := by
      intro mem
      rcases List.mem_append.mp mem with mem | mem
      · cases named.symm.trans (childTag?_of_mem_versionFiles mem)
      · exact here (List.mem_singleton.mp mem)
    have index : r.index.get p = some text := by
      have found : r'.head.get p = some text := found
      rwa [published.head, if_neg unstaged] at found
    have tracked : (r.index.get p).isSome := Option.isSome_of_eq_some index
    have clean := (Repo.dirty_eq_false.mp (published.not_dirty unstaged tracked)).1
    rcases files p name text (clean.trans index) named with ⟨c, state, read, dev, rfl⟩ | fine
    · refine .inl ⟨c, state, ?_, dev, rfl⟩
      have read : r.head.version? c = some state := read
      by_cases same : c = args.crate
      · -- HEAD is not in a cycle of its own before a quick release, and a cycle is this release's
        subst same
        cases quick : plan.quick with
        | true =>
          have headed := past.headed
          rw [headed', read, Option.some.injEq] at headed
          have released := past.reconciled quick
          rw [← headed, dev] at released
          cases released
        | false =>
          have dirt := published.dirt
          rw [quick] at dirt
          have clean := Repo.dirty_eq_false.mp
            (Repo.not_dirty_of_porcelainNames dirt : r.dirty (.manifest args.crate) = false)
          have current : r.head.version? args.crate = some plan.state := by
            rw [Tree.version?, clean.1, clean.2 (manifests _)]
            exact past.read
          obtain rfl := Option.some.inj (read.symm.trans current)
          refine absurd (own p plan.tag tracked ?_) here
          rw [named, Plan.tag, crate]
      · exact (other c same).trans read
    · exact .inr fine

theorem publish_keeps_check_changelog_finished :
    cmdCheckChangelog publishedCycle.checkout = .ok () := by
  refine publish_keeps_check_changelog cmdPublish_finishedCycle (fun _ _ => rfl)
    plainlyDated_finishedCycle (by decide +kernel) (by rintro (_ | _) <;> rfl)
    (by decide +kernel) ?_ (by decide +kernel)
  intro p tag tracked named
  have mem := Repo.mem_paths tracked
  simp only [finishedCycle, sample, List.cons_append, List.nil_append, List.map_cons, List.map_nil,
    List.mem_cons, List.not_mem_nil, or_false] at mem
  rcases mem with rfl | rfl | rfl | rfl | rfl
  · cases named
  · cases named
  · cases named
  · cases named
  · rw [childTag?_name, Option.some.injEq] at named
    have same := congrArg Tag.ofName? named
    rw [ofName?_name, ofName?_name] at same
    rw [Option.some.inj same]

end LibOsdp.Release
