import LibOsdp.Release.Staging
import LibOsdp.Release.Validation

/-!
# The gate before a commit

`check-staged` judges the commit about to be made: the manifests and the release files that differ
between HEAD and the index, by their text in the index. One of its questions it asks elsewhere:
whether a release file is that of a cycle in progress it reads from the manifest in the working
tree. What the working tree can make of its verdict, and when it cannot make anything of it, is
`gate_blind_exact`.
-/

set_option autoImplicit false

namespace LibOsdp.Release

open LibOsdp.Base
open LibOsdp.Changelog (Identity crateName crates isVersion splitTag parseMarkdownRelease)

/-- What the gate asks outside the checkout. -/
structure GateEnv where
  /-- Does `git diff --cached` succeed? -/
  lists : Bool
  /-- Does `git show` succeed on a path of the index? -/
  shows : Path → Bool
  /-- Pairs of paths that git takes for renames. -/
  renames : List (Path × Path)
  /-- `LIBOSDP_RS_RELEASE`. -/
  release : Option Line

/-- The ways the gate refuses a commit, with what its message names. -/
inductive Refusal where
  | notListed
  | notShown (path : Path)
  | manifest (e : Die)
  | releaseName (e : Changelog.Die)
  | foldsRelease (tag : Tag)
  | notExactPin (pin : Line)
  | unfolded (path : Path)
  | invalid (path : Path)
  deriving DecidableEq, Repr

/-- The path as git prints it. -/
def Path.name : Path → Line
  | .manifest crate => crateName crate ++ "/Cargo.toml".toList
  | .vendor => "libosdp-sys/vendor".toList
  | .bindings => "libosdp-sys/src/bindings.rs".toList
  | .changelog tag => "changelog/".toList ++ tag.name ++ ".md".toList
  | .other name => name

/-- The tag in the name of a release file: a full match of `RELEASE_FILE_RE` on the last part of a
path under `changelog/`. -/
def releaseTag? (path : Line) : Option Line := do
  let file := ((path.splitOn '/').getLast?).getD []
  let tag := file.take (file.length - ".md".toList.length)
  if "changelog/".toList <+: path ∧ ".md".toList <:+ file ∧ crates.any fun crate =>
      (tag.dropPrefix? (crateName crate ++ "-v".toList)).any isVersion
    then some tag else none

/-- `git diff --cached --name-only`, which lists a rename by its new name. -/
def Repo.staged (renames : List (Path × Path)) (r : Repo) : List Path :=
  (((r.head ++ r.index).map Prod.fst).dedup.filter fun p => r.head.get p ≠ r.index.get p).filter
    fun p => !(renames.any fun (old, new) => old = p && r.renamed old new)

/-- The staged release files, by name, with their tags. -/
def releaseFiles (staged : List Path) : List (Path × Line) :=
  (staged.filterMap fun p => (releaseTag? p.name).map (p, ·)).insertionSort
    fun a b => a.1.name ≤ b.1.name

variable (env : GateEnv) (r : Repo)

def listStaged : Except Refusal (List Path) :=
  if env.lists then .ok (r.staged env.renames) else .error .notListed

/-- `git show :path`, stripped. -/
def indexText (p : Path) : Except Refusal Text :=
  okOr (if env.shows p then (r.index.get p).map stripText else none) (.notShown p)

/-- A step of the tool that only reads the checkout. -/
def ask {α : Type} (m : Tool α) : Except Refusal α :=
  match m r with
  | .ok a _ => .ok a
  | .error e _ => .error (.manifest e)

def refuseIf (c : Bool) (e : Refusal) : Except Refusal Unit := if c then .error e else .ok ()

/-- A finalized bump staged with the release file of its version is for `publish` alone. -/
def checkBump (files : List (Path × Line)) (crate : Crate) : Except Refusal Unit := do
  let text ← indexText env r (.manifest crate)
  let version ← (parseManifestVersion crate text).mapError .manifest
  let tag : Tag := ⟨crate, version⟩
  let isRelease := !version.prerelease && files.any fun file => file.1.name = (Path.changelog tag).name
  refuseIf (isRelease && env.release ≠ some tag.name) (.foldsRelease tag)

def checkPin : Except Refusal Unit := do
  let text ← indexText env r (.manifest .libosdp)
  let pin := sysDep.search text
  refuseIf (pin.any fun pin => pin.head? ≠ some '=') (.notExactPin (pin.getD []))

/-- A release file in the index: finished, unless it is that of the cycle in progress. -/
def checkFile (file : Path × Line) : Except Refusal Unit := do
  let release ← (splitTag file.2).mapError .releaseName
  let content := joinLines (← indexText env r file.1)
  let current ← ask r (readState release.crate)
  if current.prerelease ∧ 'v' :: current.released.str = release.version then .ok ()
  else do
    refuseIf ("## Changes".toList <:+: content) (.unfolded file.1)
    let valid := parseMarkdownRelease content
      (some (crateName release.crate ++ '-' :: release.version))
    refuseIf (!valid.isOk) (.invalid file.1)

/-- The checks of the staged manifests. -/
def checkManifests (staged : List Path) : Except Refusal Unit := do
  (crates.filter fun crate => .manifest crate ∈ staged).forM
    (checkBump env r (releaseFiles staged))
  if .manifest .libosdp ∈ staged then checkPin env r else .ok ()

/-- With neither a manifest nor a release file staged, both checks are over at once. -/
def cmdCheckStaged : Except Refusal Unit := do
  let staged ← listStaged env r
  checkManifests env r staged
  (releaseFiles staged).forM (checkFile env r)

variable {env r} {s t : Repo} {file : Path × Line} {release : Identity} {text : Text}
  {crate : Crate}

theorem refuseIf_eq_ok {c : Bool} {e : Refusal} {u : Unit} : refuseIf c e = .ok u ↔ c = false := by
  cases c with
  | true => exact iff_of_false (by rintro ⟨⟩) (by rintro ⟨⟩)
  | false => exact iff_of_true rfl rfl

theorem ask_readState {current : Version} :
    ask r (readState crate) = .ok current ↔ r.worktree.version? crate = some current := by
  have reads := @reads_readState crate
  rw [ask]
  cases read : readState crate r with
  | ok v s =>
    obtain ⟨found, -⟩ := readState_eq_ok.mp read
    rw [found, Except.ok.injEq, Option.some.injEq]
  | error e s =>
    refine iff_of_false (by rintro ⟨⟩) fun found => ?_
    cases read.symm.trans (readState_eq found)

/-! ## What the gate asks of a file -/

/-- What the gate has in hand of a staged release file. -/
structure Judged (env : GateEnv) (r : Repo) (file : Path × Line) (release : Identity) (text : Text) :
    Prop where
  release : splitTag file.2 = .ok release
  text : indexText env r file.1 = .ok text

/-- The file is that of the cycle that the manifest says is in progress. -/
def Excuses (current : Version) (release : Identity) : Prop :=
  current.prerelease = true ∧ 'v' :: current.released.str = release.version

/-- The file is fit to be published. -/
def Finished (release : Identity) (text : Text) : Prop :=
  ¬ "## Changes".toList <:+: joinLines text ∧ (parseMarkdownRelease (joinLines text)
    (some (crateName release.crate ++ '-' :: release.version))).isOk = true

theorem checkFile_eq_ok {u : Unit} : checkFile env r file = .ok u ↔
    ∃ release text, Judged env r file release text ∧
      ∃ current, r.worktree.version? release.crate = some current ∧
        (Excuses current release ∨ Finished release text) := by
  have judge : ∀ (release : Identity) (text : Text) (current : Version),
      (if current.prerelease ∧ 'v' :: current.released.str = release.version then .ok ()
        else do
          refuseIf ("## Changes".toList <:+: joinLines text) (.unfolded file.1)
          refuseIf (!(parseMarkdownRelease (joinLines text)
            (some (crateName release.crate ++ '-' :: release.version))).isOk) (.invalid file.1)) =
        .ok u ↔ Excuses current release ∨ Finished release text := by
    intro release text current
    split
    · next excuses => exact iff_of_true rfl (.inl excuses)
    · next other =>
      simp only [bind_eq_ok, refuseIf_eq_ok, decide_eq_false_iff_not, Bool.not_eq_false']
      constructor
      · rintro ⟨-, folded, valid⟩
        exact .inr ⟨folded, valid⟩
      · rintro (excuses | ⟨folded, valid⟩)
        · exact absurd excuses other
        · exact ⟨(), folded, valid⟩
  simp only [checkFile, bind_eq_ok, mapError_eq_ok, ask_readState, judge]
  constructor
  · rintro ⟨release, named, text, shown, current, read, fit⟩
    exact ⟨release, text, ⟨named, shown⟩, current, read, fit⟩
  · rintro ⟨release, text, judged, current, read, fit⟩
    exact ⟨release, judged.release, text, judged.text, current, read, fit⟩

/-! ## What the gate asks of the commit -/

/-- The two checkouts are about to make the same commit. -/
structure SameCommit (r s : Repo) : Prop where
  head : s.head = r.head
  index : s.index = r.index

/-- The release files of the commit. -/
def Repo.releases (r : Repo) (env : GateEnv) : List (Path × Line) :=
  releaseFiles (r.staged env.renames)

/-- The gate finds nothing amiss up to its questions about the release files. -/
structure IndexPasses (env : GateEnv) (r : Repo) : Prop where
  lists : env.lists = true
  manifests : checkManifests env r (r.staged env.renames) = .ok ()
  files : ∀ file ∈ r.releases env, ∃ release text, Judged env r file release text

theorem Judged.unique {release' : Identity} {text' : Text} (judged : Judged env r file release text)
    (judged' : Judged env r file release' text') : release' = release ∧ text' = text :=
  ⟨Except.ok.inj (judged'.release.symm.trans judged.release),
    Except.ok.inj (judged'.text.symm.trans judged.text)⟩

/-- **When the gate lets a commit through.** -/
theorem cmdCheckStaged_eq_ok : cmdCheckStaged env r = .ok () ↔ IndexPasses env r ∧
    ∀ file ∈ r.releases env, ∀ release text, Judged env r file release text →
      ∃ current, r.worktree.version? release.crate = some current ∧
        (Excuses current release ∨ Finished release text) := by
  have listed : ∀ staged, listStaged env r = .ok staged ↔
      env.lists = true ∧ staged = r.staged env.renames := by
    intro staged
    unfold listStaged
    split
    · next lists => simp [lists, eq_comm]
    · next fails => simp [fails]
  rw [cmdCheckStaged]
  simp only [bind_eq_ok, listed, forM_eq_ok, checkFile_eq_ok]
  constructor
  · rintro ⟨_, ⟨lists, rfl⟩, _, manifests, files⟩
    refine ⟨⟨lists, manifests, fun file mem => ?_⟩, fun file mem release text judged => ?_⟩
    · obtain ⟨release, text, judged, -⟩ := files file mem
      exact ⟨release, text, judged⟩
    · obtain ⟨release', text', judged', fit⟩ := files file mem
      obtain ⟨rfl, rfl⟩ := judged.unique judged'
      exact fit
  · rintro ⟨passes, fit⟩
    refine ⟨_, ⟨passes.lists, rfl⟩, (), passes.manifests, fun file mem => ?_⟩
    obtain ⟨release, text, judged⟩ := passes.files file mem
    exact ⟨release, text, judged, fit file mem release text judged⟩

namespace SameCommit

theorem staged (same : SameCommit r s) (renames : List (Path × Path)) :
    s.staged renames = r.staged renames := by
  simp only [Repo.staged, Repo.renamed, same.head, same.index]

theorem indexText (same : SameCommit r s) : indexText env s = indexText env r := by
  funext p
  rw [Release.indexText, Release.indexText, same.index]

theorem judged (same : SameCommit r s) :
    Judged env s file release text ↔ Judged env r file release text := by
  constructor
  · rintro ⟨named, shown⟩
    exact ⟨named, same.indexText ▸ shown⟩
  · rintro ⟨named, shown⟩
    exact ⟨named, same.indexText.symm ▸ shown⟩

/-- The checks of the manifests are blind to the working tree. -/
theorem checkManifests (same : SameCommit r s) : checkManifests env s = checkManifests env r := by
  have bump : checkBump env s = checkBump env r := by
    funext files crate
    rw [checkBump, checkBump, same.indexText]
  funext staged
  rw [Release.checkManifests, Release.checkManifests, checkPin, checkPin, same.indexText, bump]

theorem releases (same : SameCommit r s) : s.releases env = r.releases env := by
  rw [Repo.releases, Repo.releases, same.staged]

theorem indexPasses (same : SameCommit r s) : IndexPasses env s ↔ IndexPasses env r := by
  constructor
  · rintro ⟨lists, manifests, files⟩
    rw [same.staged, same.checkManifests] at manifests
    simp only [same.releases, same.judged] at files
    exact ⟨lists, manifests, files⟩
  · rintro ⟨lists, manifests, files⟩
    refine ⟨lists, ?_, ?_⟩
    · rwa [same.staged, same.checkManifests]
    · simpa only [same.releases, same.judged] using files

end SameCommit

/-- Of each crate, the unfinished files are all of one version: a manifest that is in its cycle
    excuses them. -/
def Excusable (env : GateEnv) (r : Repo) : Prop :=
  ∀ crate, ∃ v : Version, ∀ file ∈ r.releases env, ∀ release text,
    Judged env r file release text → release.crate = crate →
      Finished release text ∨ release.version = 'v' :: v.released.str

/-- A working tree whose manifests say these versions. -/
def stating (v : Crate → Version) : Tree :=
  [(.manifest .libosdpSys, [versionSetting.render (v .libosdpSys).str]),
    (.manifest .libosdp, [versionSetting.render (v .libosdp).str])]

theorem version?_stating (v : Crate → Version) (crate : Crate) :
    (stating v).version? crate = some (v crate) := by
  have parsed : parseManifestVersion crate [versionSetting.render (v crate).str] = .ok (v crate) := by
    have found : versionSetting.search [versionSetting.render (v crate).str] =
        some (v crate).str := by
      have quotable : Setting.Quotable (v crate).str := Version.quotable_str [] (by decide)
      rw [Setting.search, List.findSome?_cons, Setting.value?_render quotable]
    rw [parseManifestVersion, found, okOr_some, ok_bind, parseVersion, Version.parse?_str, okOr_some]
  refine version?_eq_some.mpr ⟨_, ?_, parsed⟩
  cases crate <;> rfl

/-- The gate can be made to let the commit through. -/
theorem exists_passes_iff : (∃ s, SameCommit r s ∧ cmdCheckStaged env s = .ok ()) ↔
    IndexPasses env r ∧ Excusable env r := by
  constructor
  · rintro ⟨s, same, passes⟩
    obtain ⟨index, fit⟩ := cmdCheckStaged_eq_ok.mp passes
    refine ⟨same.indexPasses.mp index, fun crate => ?_⟩
    refine ⟨(s.worktree.version? crate).getD ⟨0, 0, 0, false⟩, ?_⟩
    rintro file mem release text judged rfl
    rw [← same.releases] at mem
    obtain ⟨current, read, excuses | finished⟩ := fit file mem release text (same.judged.mpr judged)
    · rw [read]
      exact .inr excuses.2.symm
    · exact .inl finished
  · rintro ⟨index, excusable⟩
    choose v excused using excusable
    let dev : Crate → Version := fun crate => { v crate with prerelease := true }
    have same : SameCommit r { r with worktree := stating dev } := ⟨rfl, rfl⟩
    refine ⟨_, same, cmdCheckStaged_eq_ok.mpr ⟨same.indexPasses.mpr index, ?_⟩⟩
    intro file mem release text judged
    rw [same.releases] at mem
    refine ⟨dev release.crate, version?_stating dev release.crate, ?_⟩
    rcases excused release.crate file mem release text (same.judged.mp judged) rfl with fin | version
    · exact .inr fin
    · exact .inl ⟨rfl, version.symm⟩

/-- Without manifests in the working tree, no release file passes. -/
theorem exists_refuses (some : r.releases env ≠ []) :
    ∃ s, SameCommit r s ∧ cmdCheckStaged env s ≠ .ok () := by
  let s : Repo := { r with worktree := [] }
  have same : SameCommit r s := ⟨rfl, rfl⟩
  refine ⟨s, same, fun passes => ?_⟩
  obtain ⟨index, fit⟩ := cmdCheckStaged_eq_ok.mp passes
  obtain ⟨file, mem⟩ := List.exists_mem_of_ne_nil _ some
  rw [← same.releases] at mem
  obtain ⟨release, text, judged⟩ := index.files file mem
  obtain ⟨current, read, -⟩ := fit file mem release text judged
  cases read

/-- **The gate judges the commit alone**, whatever the working tree holds, exactly if no release
    file is staged, or the index alone has it refused: by the other checks, or by unfinished files
    of one crate that are not of one version. -/
theorem gate_blind_exact (env : GateEnv) (r : Repo) :
    (∀ s t, SameCommit r s → SameCommit r t →
      (cmdCheckStaged env s = .ok () ↔ cmdCheckStaged env t = .ok ())) ↔
    r.releases env = [] ∨ ¬ (IndexPasses env r ∧ Excusable env r) := by
  constructor
  · intro blind
    by_contra sways
    rw [not_or, not_not] at sways
    obtain ⟨s, same, passes⟩ := exists_passes_iff.mpr sways.2
    obtain ⟨t, same', refuses⟩ := exists_refuses sways.1
    exact refuses ((blind s t same same').mp passes)
  · rintro (none | refused) s t same same'
    · rw [cmdCheckStaged_eq_ok, cmdCheckStaged_eq_ok, same.releases, same'.releases, none,
        same.indexPasses, same'.indexPasses]
      simp
    · exact iff_of_false (fun passes => refused (exists_passes_iff.mp ⟨s, same, passes⟩))
        fun passes => refused (exists_passes_iff.mp ⟨t, same', passes⟩)

/-- The manifest at HEAD and in the index is at 1.0.0, and an unfinished release file for 1.1.0 is
staged: it is refused, unless an edit that is not staged marks the manifest as in that cycle. -/
theorem unstaged_marker_lets_through :
    let env : GateEnv := ⟨true, fun _ => true, [], none⟩
    let tag : Tag := ⟨.libosdp, ⟨1, 1, 0, false⟩⟩
    let clean := sample "3.2.7" "1.0.0" "=3.2.7" []
    let staged := { clean with
      index := (.changelog tag, scaffold tag "2026-10-06".toList []) :: clean.index }
    let edited := { staged with worktree := (sample "3.2.7" "1.1.0-dev" "=3.2.7" []).worktree }
    SameCommit staged edited ∧
      cmdCheckStaged env staged = .error (.unfolded (.changelog tag)) ∧
      cmdCheckStaged env edited = .ok () :=
  ⟨⟨rfl, rfl⟩, by decide +kernel, by decide +kernel⟩

end LibOsdp.Release
