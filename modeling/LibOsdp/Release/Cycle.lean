import LibOsdp.Release.Hook

/-!
# The commit that opens a cycle

What a `prepare` stages is committed by hand if it opens a cycle, and left for `publish` if not.
The hook and the gate over the changelog directory tell the two apart: on a clean checkout they
let that commit through exactly if it opens a cycle.
-/

set_option autoImplicit false

namespace LibOsdp.Release

open LibOsdp.Base
open LibOsdp.Changelog (crateName crates)

/-- The release that a `prepare` to that version is of. -/
def PrepareArgs.tag (args : PrepareArgs) (next : Version) : Tag := ⟨args.crate, next.released⟩

variable {env : Env} {genv : GateEnv} {args : PrepareArgs} {r s t : Repo} {crate : Crate} {p : Path}
  {tag : Tag} {state next : Version} {renames : List (Path × Path)} {text : Text}
  {hints : List Line}

/-- What a `prepare` that returned has done: from the version `state` in `r` it went to `next` and
    left `t`, the state before its `git add` being `s`. -/
structure Opened (env : Env) (args : PrepareArgs) (r : Repo) (state next : Version) (s t : Repo) :
    Prop where
  read : r.worktree.version? args.crate = some state
  headed : r.headVersion? args.crate = some state
  before : state.prerelease = false
  up : state.core < next.core
  marker : next.prerelease = args.cycle
  fresh : r.worktree.get (.changelog (args.tag next)) = none
  confined : Confined (r.preparedPaths (args.tag next)) r s
  staged : t = s.add (r.preparedPaths (args.tag next))
  now : s.worktree.version? args.crate = some next
  other : ∀ crate ≠ args.crate, s.worktree.version? crate = r.worktree.version? crate
  pin : r.pins args.crate = true → ∃ sys, s.worktree.pin? = some (exactly sys)
  file : ∃ hints, s.worktree.get (.changelog (args.tag next)) =
    some (scaffold (args.tag next) env.today hints)

/-- What a written pin is read back as. -/
theorem pin?_of_writePin {v : Version} {u : Unit} (h : writePin v r = .ok u s) :
    s.worktree.pin? = some (exactly v) := by
  obtain ⟨_, text', -, set, rfl⟩ := of_setOnce h
  rw [Tree.pin?, Repo.write_worktree, if_pos rfl, Option.bind_some]
  exact Setting.search_subOnce (Version.quotable_str ['='] (by decide)) set

theorem pin?_of_stagePin (h : stagePin crate r = .ok true s) :
    ∃ sys, s.worktree.pin? = some (exactly sys) := by
  cases crate with
  | libosdp =>
    obtain ⟨sys, -, h⟩ := reads_readState.bind_eq_ok h
    obtain ⟨_, _, written, rest⟩ := bind_eq_ok_iff.mp h
    cases rest
    exact ⟨sys, pin?_of_writePin written⟩
  | libosdpSys =>
    obtain ⟨_, -, h⟩ := reads_readState.bind_eq_ok h
    split at h
    · obtain ⟨sys, -, h⟩ := reads_readState.bind_eq_ok h
      obtain ⟨_, _, written, rest⟩ := bind_eq_ok_iff.mp h
      cases rest
      exact ⟨sys, pin?_of_writePin written⟩
    · cases h

theorem isFile_eq_ok {found : Bool} (h : isFile p r = .ok found s) :
    found = (r.worktree.get p).isSome := by
  cases h
  rfl

theorem of_scaffoldChangelog {u : Unit} (h : scaffoldChangelog env tag hints r = .ok u s) :
    s = r.write (.changelog tag) (scaffold tag env.today hints) := by
  obtain ⟨_, -, h⟩ := reads_isFile.bind_eq_ok h
  obtain ⟨_, -, h⟩ := (Reads.stopIf _ _).bind_eq_ok h
  cases h
  rfl

/-- A crate's version files hold no other manifest and no release file. -/
theorem manifest_not_mem_versionFiles {other : Crate} (differ : other ≠ crate) :
    .manifest other ∉ versionFiles crate := by
  cases crate <;> cases other <;> simp [versionFiles] at differ ⊢

theorem changelog_not_mem_versionFiles : .changelog tag ∉ versionFiles crate := by
  cases crate <;> simp [versionFiles]

theorem opened_of_ok {u : Unit} (h : cmdPrepare env args r = .ok u t) :
    ∃ state next s, Opened env args r state next s t := by
  obtain ⟨state, read, h⟩ := reads_readState.bind_eq_ok h
  obtain ⟨_, cycle, h⟩ := (Reads.stopIf _ _).bind_eq_ok h
  obtain ⟨head, shown, h⟩ := reads_headState.bind_eq_ok h
  obtain ⟨_, same, h⟩ := (Reads.stopIf _ _).bind_eq_ok h
  obtain ⟨⟨target, hints⟩, r₁, chosen, h⟩ := bind_eq_ok_iff.mp h
  obtain ⟨there, isFile, h⟩ := reads_isFile.bind_eq_ok h
  obtain ⟨_, absent, h⟩ := (Reads.stopIf _ _).bind_eq_ok h
  obtain ⟨_, -, h⟩ := reads_tagExists.bind_eq_ok h
  obtain ⟨_, -, h⟩ := (Reads.stopIf _ _).bind_eq_ok h
  obtain ⟨_, r₂, written, h⟩ := bind_eq_ok_iff.mp h
  obtain ⟨stagedPin, r₃, pinned, h⟩ := bind_eq_ok_iff.mp h
  obtain ⟨_, -, h⟩ := reads_refreshLockfile.bind_eq_ok h
  obtain ⟨_, s, scaffolded, h⟩ := bind_eq_ok_iff.mp h
  obtain ⟨_, -, add⟩ := reads_call.bind_eq_ok h
  let next : Version := { target with prerelease := args.cycle }
  obtain rfl : state = head := by simpa using (stopIf_eq_ok.mp same).1
  -- the version files first, then the pin, then the release file
  have moved : Confined (versionFiles args.crate) r r₁ :=
    (Confined.keeps_nextVersion fun _ mem => mem).of_ok Confined.refl chosen
  have own : Confined (versionFiles args.crate) r r₂ :=
    (Confined.keeps_setOnce (manifest_mem_versionFiles args.crate)).of_ok moved written
  obtain ⟨wrote, versions⟩ := stagePin_eq_ok pinned
  have wrote : stagedPin = r.pins args.crate := wrote.trans (pins_congr own)
  have left := of_scaffoldChangelog scaffolded
  have kept : ∀ crate, s.worktree.version? crate = r₂.worktree.version? crate := by
    intro crate
    rw [← versions crate, left, Tree.version?, Repo.write_worktree, if_neg (by simp)]
    rfl
  have confined : Confined (r.preparedPaths (args.tag next)) r r₃ := by
    have own := own.mono fun p mem =>
      @mem_preparedPaths r p (args.tag next) (List.mem_append_left _ mem)
    refine confined_of_stagePin own pinned fun written => ?_
    rw [wrote] at written
    simp [Repo.preparedPaths, PrepareArgs.tag, written]
  refine ⟨state, next, s, (readState_eq_ok.mp read).1, (headState_eq_ok.mp shown).2.1, ?_,
    lt_core_of_nextVersion chosen, rfl, ?_, ?_, ?_, ?_, ?_, ?_, hints, ?_⟩
  · simpa using (stopIf_eq_ok.mp cycle).1
  · have gone := isFile_eq_ok isFile
    rw [(stopIf_eq_ok.mp absent).1, moved.others _ changelog_not_mem_versionFiles] at gone
    exact Option.isNone_iff_eq_none.mp (Option.isSome_eq_false_iff.mp gone.symm)
  · rw [left]
    exact confined.write (mem_preparedPaths (List.mem_append_right _ (List.mem_singleton_self _)))
  · rw [wrote] at add
    exact (left_of_ok add).symm
  · rw [kept, version?_of_writeState written]
  · intro crate differ
    rw [kept, own.version? (manifest_not_mem_versionFiles differ)]
  · intro pins
    rw [wrote, pins] at pinned
    obtain ⟨sys, pin⟩ := pin?_of_stagePin pinned
    refine ⟨sys, ?_⟩
    rwa [left, Tree.pin?, Repo.write_worktree, if_neg (by simp)]
  · rw [left, Repo.write_worktree]
    exact if_pos rfl

theorem mem_preparedPaths_iff : p ∈ r.preparedPaths tag ↔ p ∈ versionFiles tag.crate ∨
    p = .changelog tag ∨ (p = .manifest .libosdp ∧ r.pins tag.crate = true) := by
  cases pins : r.pins tag.crate <;> simp [Repo.preparedPaths, pins]

/-- The lines of an unfinished release file, the last one apart. -/
def unfinishedLines (tag : Tag) (date : Line) : List Line :=
  ["---".toList, "release_crate: ".toList ++ crateName tag.crate, "release_date: ".toList ++ date,
    "release_version: v".toList ++ tag.version.str, "---".toList, [],
    "Release subject ## TODO".toList, [], "## Enhancements".toList, [], "- ## TODO".toList, [],
    "## Fixes".toList, []]

theorem renderRelease_unfinished {date : Line} :
    Changelog.renderRelease (Changelog.unfinished tag.identity date) =
      joinLines (unfinishedLines tag date ++ ["- ## TODO".toList]) ++ ['\n'] := by
  have lines : "---".toList :: Changelog.renderFront (Changelog.unfinished tag.identity date) ++
      "---".toList :: [] :: Changelog.renderBody (Changelog.unfinished tag.identity date) =
        unfinishedLines tag date ++ ["- ## TODO".toList] ++ [[]] := rfl
  have words : strip "- ## TODO".toList ≠ [] := by decide
  have ends : "- ## TODO".toList.rdropWhile isSpace = "- ## TODO".toList := by decide
  rw [Changelog.renderRelease, lines, ← joinLines_trimEnd, trimEnd_concat_blank rfl,
    trimEnd_concat words, ends]

/-- **What a `prepare` scaffolds is what `init` writes** for its tag, and then the hints. -/
theorem scaffold_eq_init {date : Line} : ∃ text,
    Changelog.commandInit date [] tag.name none = .ok [(tag.name ++ Changelog.extension, text)] ∧
    joinLines (scaffold tag date hints) = text ++ '\n' :: joinLines
      ("## Changes".toList :: [] :: if hints = [] then ["-".toList] else hints) := by
  have made : Changelog.scaffold tag.crate tag.identity.version date =
      .ok (joinLines (unfinishedLines tag date ++ ["- ## TODO".toList]) ++ ['\n']) := by
    rw [← renderRelease_unfinished, Changelog.scaffold]
    exact bind_eq_ok.mpr ⟨_, (normal_str tag.version).reads, rfl⟩
  have path : tag.identity.pathName = tag.name ++ Changelog.extension :=
    congrArg (· ++ Changelog.extension) tag_identity
  refine ⟨joinLines (unfinishedLines tag date ++ ["- ## TODO".toList]) ++ ['\n'], ?_, ?_⟩
  · refine bind_eq_ok.mpr ⟨tag.identity, mapError_eq_ok.mpr splitTag_name, ?_⟩
    refine bind_eq_ok.mpr ⟨_, mapError_eq_ok.mpr made, ?_⟩
    rw [path]
    rfl
  · have lines : scaffold tag date hints = (unfinishedLines tag date ++ ["- ## TODO".toList]) ++
        [] :: "## Changes".toList :: [] :: if hints = [] then ["-".toList] else hints := by
      obtain ⟨crate, version⟩ := tag
      cases crate <;> rfl
    have text : ∀ more : Line, joinLines (unfinishedLines tag date ++ ["- ## TODO".toList]) ++
        '\n' :: ([] ++ '\n' :: more) =
          (joinLines (unfinishedLines tag date ++ ["- ## TODO".toList]) ++ ['\n']) ++ '\n' :: more :=
      fun more => (List.append_assoc _ ['\n'] _).symm
    rw [lines, joinLines_append (by simp) (by simp), joinLines_cons (by simp), text]

/-- The hints of a `prepare` stand under a heading that a finished release file does not have. -/
theorem unfinished_scaffold {release : Changelog.Identity} :
    ¬ Finished release (stripText (scaffold tag env.today hints)) := by
  rintro ⟨folded, -⟩
  refine folded (infix_joinLines ?_)
  rw [stripText_eq]
  have opens : trimStart (scaffold tag env.today hints) = scaffold tag env.today hints :=
    trimStart_cons (by decide)
  rw [opens]
  exact mem_trimEnd (by simp [scaffold]) (by decide) (by decide)

namespace Opened

variable (opened : Opened env args r state next s t) (clean : ∀ p, r.dirty p = false)

include opened

theorem head : t.head = r.head := by
  rw [opened.staged]
  exact congrArg (List.headD · []) opened.confined.history

theorem index : t.index.get p =
    if p ∈ r.preparedPaths (args.tag next) then s.worktree.get p else r.index.get p := by
  rw [opened.staged, Repo.add_index, opened.confined.index]

theorem worktree : t.worktree = s.worktree := by
  rw [opened.staged, Repo.add_worktree]

theorem index_version? (mem : .manifest crate ∈ r.preparedPaths (args.tag next)) :
    t.index.version? crate = s.worktree.version? crate := by
  rw [Tree.version?, Tree.version?, opened.index, if_pos mem]

theorem index_changelog : ∃ hints, t.index.get (.changelog (args.tag next)) =
    some (scaffold (args.tag next) env.today hints) := by
  obtain ⟨hints, file⟩ := opened.file
  refine ⟨hints, ?_⟩
  rw [opened.index, if_pos (mem_preparedPaths_iff.mpr (.inr (.inl rfl))), file]

/-- In a cycle, every manifest that was staged has the marker. -/
theorem dev (cycle : args.cycle = true) (mem : .manifest crate ∈ r.preparedPaths (args.tag next)) :
    ∃ v, t.index.version? crate = some v ∧ v.prerelease = true := by
  rw [opened.index_version? mem]
  by_cases own : crate = args.crate
  · rw [own]
    exact ⟨next, opened.now, opened.marker.trans cycle⟩
  · rcases mem_preparedPaths_iff.mp mem with version | ⟨⟨⟩⟩ | ⟨pin, pins⟩
    · exact absurd version (manifest_not_mem_versionFiles own)
    · -- the pin of a `libosdp` in its own cycle
      obtain rfl := Path.manifest.inj pin
      have sys : args.crate = .libosdpSys := by
        cases crate : args.crate with
        | libosdpSys => rfl
        | libosdp => exact absurd crate.symm own
      have mid : r.pins args.crate = true := pins
      rw [sys, Repo.pins, Repo.midCycle, Option.any_eq_true] at mid
      obtain ⟨v, read, dev⟩ := mid
      exact ⟨v, (opened.other _ own).trans read, dev⟩

include clean

/-- No commit has the release file yet. -/
theorem not_committed : r.head.get (.changelog (args.tag next)) = none := by
  obtain ⟨committed, same⟩ := Repo.dirty_eq_false.mp (clean (.changelog (args.tag next)))
  rw [committed]
  by_contra there
  rw [same (Option.isSome_iff_ne_none.mpr there)] at there
  exact there opened.fresh

theorem staged_subset (mem : p ∈ t.staged renames) : p ∈ r.preparedPaths (args.tag next) := by
  by_contra other
  have changed := (List.mem_filter.mp (List.mem_filter.mp mem).1).2
  have same := (Repo.dirty_eq_false.mp (clean p)).1
  rw [opened.head, opened.index, if_neg other, same] at changed
  simp at changed

/-- The one release file of the commit is the new one. -/
theorem mem_releases {file : Path × Line} :
    file ∈ t.releases genv ↔ file = (.changelog (args.tag next), (args.tag next).name) := by
  obtain ⟨_, there⟩ := opened.index_changelog
  obtain ⟨p, name⟩ := file
  rw [Repo.releases, mem_releaseFiles]
  constructor
  · rintro ⟨mem, named⟩
    rcases mem_preparedPaths_iff.mp (opened.staged_subset clean mem) with version | rfl | ⟨rfl, -⟩
    · cases (releaseTag?_of_mem_versionFiles version).symm.trans named
    · obtain rfl := Option.some.inj (releaseTag?_name.symm.trans named)
      rfl
    · have version := manifest_mem_versionFiles .libosdp
      cases (releaseTag?_of_mem_versionFiles version).symm.trans named
  · intro same
    cases same
    refine ⟨(mem_staged (Option.isSome_of_eq_some there)).mpr ?_, releaseTag?_name⟩
    rw [opened.head, opened.not_committed clean, there]
    exact Option.some_ne_none _ ∘ Eq.symm

theorem manifests_pass (cycle : args.cycle = true) (shows : ∀ p, genv.shows p = true)
    (neat : ∀ crate text, t.index.get (.manifest crate) = some text → Neat text) :
    checkManifests genv t (t.staged genv.renames) = .ok () := by
  have shown : ∀ {crate text}, t.index.get (.manifest crate) = some text →
      indexText genv t (.manifest crate) = .ok (stripText text) := fun found =>
    indexText_eq (shows _) found
  refine bind_eq_ok.mpr ⟨(), forM_eq_ok.mpr fun crate mem => ?_, ?_⟩
  · have staged := opened.staged_subset clean (of_decide_eq_true (List.mem_filter.mp mem).2)
    obtain ⟨v, read, dev⟩ := opened.dev cycle staged
    obtain ⟨text, found, parsed⟩ := version?_eq_some.mp read
    have parsed := (neat crate text found).parse.trans parsed
    refine (checkBump_eq_ok (shown found) parsed).mpr fun released => ?_
    rw [dev] at released
    cases released
  · split
    · next mem =>
      have staged := opened.staged_subset clean mem
      have pins : r.pins args.crate = true := by
        rcases mem_preparedPaths_iff.mp staged with version | ⟨⟨⟩⟩ | ⟨-, pins⟩
        · cases crate : args.crate with
          | libosdp => rfl
          | libosdpSys =>
            refine absurd version (manifest_not_mem_versionFiles ?_)
            rw [PrepareArgs.tag, crate]
            exact nofun
        · exact pins
      obtain ⟨sys, pin⟩ := opened.pin pins
      obtain ⟨text, found, read⟩ := Option.bind_eq_some_iff.mp pin
      have committed : t.index.get (.manifest .libosdp) = some text := by
        rw [opened.index, if_pos staged, found]
      exact checkPin_of_exact (shown committed) ((neat _ text committed).pin.trans read) rfl
    · rfl

end Opened

/-- **What a `prepare` stages passes the hook exactly if it opens a cycle**, whatever the hook is
    told of a release. -/
theorem prepared_commit_gate_exact {u : Unit} (h : cmdPrepare env args r = .ok u t)
    (clean : ∀ p, r.dirty p = false)
    (neat : ∀ crate text, t.index.get (.manifest crate) = some text → Neat text)
    (lists : genv.lists = true) (shows : ∀ p, genv.shows p = true) :
    cmdCheckStaged genv t = .ok () ↔ args.cycle = true := by
  obtain ⟨state, next, s, opened⟩ := opened_of_ok h
  obtain ⟨hints, there⟩ := opened.index_changelog
  have judges : Judged genv t (.changelog (args.tag next), (args.tag next).name)
      (args.tag next).identity (stripText (scaffold (args.tag next) env.today hints)) :=
    ⟨splitTag_name, indexText_eq (shows _) there⟩
  have current : t.worktree.version? (args.tag next).identity.crate = some next := by
    rw [opened.worktree]
    exact opened.now
  rw [cmdCheckStaged_eq_ok]
  constructor
  · rintro ⟨-, fit⟩
    obtain ⟨v, read, excuses | finished⟩ := fit _ ((opened.mem_releases clean).mpr rfl) _ _ judges
    · obtain rfl := Option.some.inj (current.symm.trans read)
      rw [← opened.marker]
      exact excuses.1
    · exact absurd finished unfinished_scaffold
  · intro cycle
    refine ⟨⟨lists, opened.manifests_pass clean cycle shows neat, fun file mem => ?_⟩,
      fun file mem release text judged => ?_⟩
    · obtain rfl := (opened.mem_releases clean).mp mem
      exact ⟨_, _, judges⟩
    · obtain rfl := (opened.mem_releases clean).mp mem
      obtain ⟨rfl, rfl⟩ := judges.unique judged
      exact ⟨next, current, .inl ⟨opened.marker.trans cycle, rfl⟩⟩

/-- The checkout of a `libosdp` release, and what a `prepare` leaves there. -/
def releasedCheckout : Repo := sample "4.0.0" "1.0.0" "=4.0.0" []

def preparedCheckout (cycle : Bool) : Repo :=
  left (cmdPrepare (sampleEnv []) { crate := .libosdp, cycle := cycle }) releasedCheckout

theorem cmdPrepare_releasedCheckout (cycle : Bool) :
    cmdPrepare (sampleEnv []) { crate := .libosdp, cycle := cycle } releasedCheckout =
      .ok () (preparedCheckout cycle) := by
  cases cycle <;> rfl

/-- Told of no release, the hook takes the commit that opens a cycle. -/
theorem prepared_commit_gate_exact_libosdp :
    let gate : GateEnv := ⟨true, fun _ => true, [], none⟩
    cmdCheckStaged gate (preparedCheckout true) = .ok () ∧
      cmdCheckStaged gate (preparedCheckout false) ≠ .ok () := by
  intro gate
  have neat : ∀ cycle crate text, (preparedCheckout cycle).index.get (.manifest crate) = some text →
      Neat text := by
    have all : ∀ cycle, ∀ crate ∈ crates,
        ∀ text ∈ (preparedCheckout cycle).index.get (.manifest crate), stripText text = text := by
      decide +kernel
    exact fun cycle crate text found =>
      neat_of_stripped (all cycle crate (mem_crates crate) text found)
  have exact' : ∀ cycle, cmdCheckStaged gate (preparedCheckout cycle) = .ok () ↔ cycle = true :=
    fun cycle => prepared_commit_gate_exact (cmdPrepare_releasedCheckout cycle)
      (fun _ => not_dirty_sample) (neat cycle) rfl fun _ => rfl
  exact ⟨(exact' true).mpr rfl, fun passes => Bool.false_ne_true ((exact' false).mp passes)⟩

/-! ## The gate of the directory -/

namespace Opened

/-- The Prepare commit says the new version, and of the other crate what HEAD said. -/
theorem committed_version? (opened : Opened env args r state next s t)
    (clean : ∀ p, r.dirty p = false) (legible : ∀ crate, (r.head.version? crate).isSome) :
    t.index.version? args.crate = some next ∧ r.head.version? args.crate = some state ∧
      ∀ crate ≠ args.crate, t.index.version? crate = r.head.version? crate := by
  have same : ∀ crate, r.worktree.version? crate = r.head.version? crate := by
    intro crate
    obtain ⟨_, read⟩ := Option.isSome_iff_exists.mp (legible crate)
    obtain ⟨_, found, -⟩ := version?_eq_some.mp read
    obtain ⟨index, worktree⟩ := Repo.dirty_eq_false.mp (clean (.manifest crate))
    rw [index] at found
    rw [Tree.version?, Tree.version?, index, worktree (Option.isSome_of_eq_some found)]
  refine ⟨?_, (same _).symm.trans opened.read, fun crate other => ?_⟩
  · have mem : .manifest args.crate ∈ r.preparedPaths (args.tag next) :=
      mem_preparedPaths_iff.mpr (.inl (manifest_mem_versionFiles _))
    rw [opened.index_version? mem, opened.now]
  · by_cases mem : .manifest crate ∈ r.preparedPaths (args.tag next)
    · rw [opened.index_version? mem, opened.other crate other, same]
    · rw [Tree.version?, Tree.version?, opened.index, if_neg mem,
        (Repo.dirty_eq_false.mp (clean (.manifest crate))).1]

end Opened

/-- **Committed, what a `prepare` stages passes the gate over the directory exactly if it opens a
    cycle**, where the checkout passed it before. -/
theorem prepared_keeps_check_changelog_exact {u : Unit} (h : cmdPrepare env args r = .ok u t)
    (clean : ∀ p, r.dirty p = false) (passes : cmdCheckChangelog r.checkout = .ok ()) :
    cmdCheckChangelog t.commit.checkout = .ok () ↔ args.cycle = true := by
  obtain ⟨state, next, s, opened⟩ := opened_of_ok h
  obtain ⟨hints, there⟩ := opened.index_changelog
  obtain ⟨legible, files⟩ := cmdCheckChangelog_eq_ok.mp passes
  obtain ⟨now, before, others⟩ := opened.committed_version? clean legible
  have unfolded : (scaffold (args.tag next) env.today hints).any
      (fun line => "## Changes".toList <:+: line) = true :=
    List.any_eq_true.mpr ⟨"## Changes".toList, by simp [scaffold], by simp⟩
  rw [cmdCheckChangelog_eq_ok]
  constructor
  · rintro ⟨-, files'⟩
    rcases files' _ _ _ there childTag?_name with ⟨crate, v, read, dev, same⟩ | fine
    · have same := congrArg Tag.ofName? same
      rw [ofName?_name, ofName?_name, Option.some.injEq, PrepareArgs.tag, Tag.mk.injEq] at same
      obtain ⟨rfl, -⟩ := same
      obtain rfl := Option.some.inj (now.symm.trans read)
      exact opened.marker.symm.trans dev
    · cases unfolded.symm.trans fine.1
  · intro cycle
    have dev : next.prerelease = true := opened.marker.trans cycle
    refine ⟨fun crate => ?_, fun p name text found named => ?_⟩
    · show (t.index.version? crate).isSome
      by_cases own : crate = args.crate
      · rw [own, now]
        rfl
      · rw [others crate own]
        exact legible crate
    by_cases here : p = .changelog (args.tag next)
    · subst here
      obtain rfl := Option.some.inj (childTag?_name.symm.trans named)
      exact .inl ⟨args.crate, next, now, dev, rfl⟩
    · have unstaged : p ∉ r.preparedPaths (args.tag next) := by
        intro mem
        rcases mem_preparedPaths_iff.mp mem with version | same | ⟨rfl, -⟩
        · cases (childTag?_of_mem_versionFiles version).symm.trans named
        · exact here same
        · have version := manifest_mem_versionFiles .libosdp
          cases (childTag?_of_mem_versionFiles version).symm.trans named
      have found : t.index.get p = some text := found
      rw [opened.index, if_neg unstaged, ← (Repo.dirty_eq_false.mp (clean p)).1] at found
      rcases files p name text found named with ⟨crate, v, read, flying, rfl⟩ | fine
      · have other : crate ≠ args.crate := by
          rintro rfl
          obtain rfl := Option.some.inj (before.symm.trans read)
          cases opened.before.symm.trans flying
        exact .inl ⟨crate, v, (others crate other).trans read, flying, rfl⟩
      · exact .inr fine

theorem prepared_keeps_check_changelog_exact_libosdp :
    cmdCheckChangelog (preparedCheckout true).commit.checkout = .ok () ∧
      cmdCheckChangelog (preparedCheckout false).commit.checkout ≠ .ok () := by
  have passes : cmdCheckChangelog releasedCheckout.checkout = .ok () := by decide +kernel
  have exact' : ∀ cycle,
      cmdCheckChangelog (preparedCheckout cycle).commit.checkout = .ok () ↔ cycle = true :=
    fun cycle => prepared_keeps_check_changelog_exact (cmdPrepare_releasedCheckout cycle)
      (fun _ => not_dirty_sample) passes
  exact ⟨(exact' true).mpr rfl, fun passes => Bool.false_ne_true ((exact' false).mp passes)⟩

end LibOsdp.Release
