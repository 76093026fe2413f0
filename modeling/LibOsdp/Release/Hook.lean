import LibOsdp.Release.Ci

/-!
# The hook at the commit of a release

`publish` commits with the name of its tag in the environment, for the hook that runs
`check-staged`. The hook lets the commit through, and for nothing but that name: whoever makes the
same commit without it is refused, if the release file is in it.
-/

set_option autoImplicit false

namespace LibOsdp.Release

open LibOsdp.Base
open LibOsdp.Changelog (Identity crateName crates isVersion splitTag parseMarkdownRelease)

variable {env : Env} {genv : GateEnv} {r r' s : Repo} {crate : Crate} {p : Path} {tag : Tag}
  {plan : Plan} {args : PublishArgs} {renames : List (Path × Path)} {text : Text}

/-- The checkout that is about to be committed, where the commit leaves `r'`. -/
def Repo.committing (r r' : Repo) : Repo := { r' with history := r.history, tags := r.tags }

/-- No removed file is taken for the old name of another. -/
def Repo.Unmoved (renames : List (Path × Path)) (r : Repo) : Prop :=
  ∀ p q, (p, q) ∈ renames → r.renamed p q = false

/-! ## The files of the commit -/

/-- A file is listed if it was changed, and is listed by its own name if it is there. -/
theorem mem_staged (there : (r.index.get p).isSome) :
    p ∈ r.staged renames ↔ r.head.get p ≠ r.index.get p := by
  have tracked : p ∈ ((r.head ++ r.index).map Prod.fst).dedup := by
    refine List.mem_dedup.mpr (Repo.mem_paths ?_)
    rw [Tree.get_append, Option.isSome_or, there, Bool.or_true]
  rw [Repo.staged, List.mem_filter, List.mem_filter, Bool.not_eq_true', List.any_eq_false]
  simp only [tracked, true_and, decide_eq_true_eq]
  -- A path that the index has was not renamed away.
  refine and_iff_left ?_
  rintro ⟨old, new⟩ -
  simp only [Bool.and_eq_true, decide_eq_true_eq, Repo.renamed, not_and, Bool.not_eq_true]
  rintro rfl
  rw [Option.isSome_iff_ne_none] at there
  simp [there]

theorem releaseTag?_name : releaseTag? (Path.changelog tag).name = some tag.name := by
  have flat : '/' ∉ tag.name ++ ".md".toList := by
    have crate : '/' ∉ crateName tag.crate ++ "-v".toList := by
      cases tag.crate <;> decide
    have version : '/' ∉ tag.version.str := by
      intro mem
      rcases Version.mem_str mem with digit | dot | mem
      · cases digit
      · cases dot
      · exact absurd mem (by decide)
    exact List.not_mem_append (List.not_mem_append crate version) (by decide)
  have whole : (Path.changelog tag).name =
      "changelog".toList ++ '/' :: (tag.name ++ ".md".toList) := by
    show "changelog/".toList ++ tag.name ++ ".md".toList = _
    simp
  have last : ((Path.changelog tag).name.splitOn '/').getLast? = some (tag.name ++ ".md".toList) := by
    rw [whole, List.splitOn_append_cons_of_beq _ _ BEq.rfl, List.splitOn_eq_singleton flat,
      List.splitOn_eq_singleton (by decide)]
    rfl
  have front : (tag.name ++ ".md".toList).take ((tag.name ++ ".md".toList).length -
      ".md".toList.length) = tag.name := by
    rw [List.length_append, Nat.add_sub_cancel, List.take_left]
  have known : (crates.any fun crate =>
      (tag.name.dropPrefix? (crateName crate ++ "-v".toList)).any isVersion) = true := by
    obtain ⟨rest, same, version⟩ := (normal_str tag.version).marked
    obtain rfl := (List.cons.inj same).2
    have own : tag.name.dropPrefix? (crateName tag.crate ++ "-v".toList) = some tag.version.str :=
      List.dropPrefix?_append_of_beq _ BEq.rfl
    exact List.any_eq_true.mpr ⟨tag.crate, mem_crates _, by rw [own]; exact version⟩
  simp only [releaseTag?, last, Option.getD_some, front]
  rw [if_pos]
  refine ⟨?_, List.suffix_append _ _, known⟩
  exact ⟨tag.name ++ ".md".toList, by rw [whole]; simp⟩

theorem releaseTag?_of_mem_versionFiles (mem : p ∈ versionFiles crate) :
    releaseTag? p.name = none := by
  cases crate with
  | libosdpSys =>
    simp only [versionFiles, List.mem_cons, List.not_mem_nil, or_false] at mem
    rcases mem with rfl | rfl | rfl <;> decide
  | libosdp =>
    obtain rfl := List.mem_singleton.mp mem
    decide

theorem mem_releaseFiles {staged : List Path} {file : Path × Line} :
    file ∈ releaseFiles staged ↔ file.1 ∈ staged ∧ releaseTag? file.1.name = some file.2 := by
  obtain ⟨p, name⟩ := file
  rw [releaseFiles, List.mem_insertionSort, List.mem_filterMap]
  constructor
  · rintro ⟨q, mem, named⟩
    obtain ⟨_, named, same⟩ := Option.map_eq_some_iff.mp named
    cases same
    exact ⟨mem, named⟩
  · rintro ⟨mem, named⟩
    exact ⟨p, mem, by rw [named]; rfl⟩

namespace Published

theorem index (published : Published env args r plan s r') : r'.index = r'.head := by
  rw [Repo.head, published.history, published.left]
  exact atCommit_tagged.index

/-- Only the files of the release are in the commit. -/
theorem clean (published : Published env args r plan s r') (unmoved : r.Unmoved env.renames)
    (other : p ∉ plan.staged) : r.dirty p = false := by
  have dirt := published.dirt
  cases quick : plan.quick with
  | false =>
    rw [quick] at dirt
    exact Repo.not_dirty_of_porcelainNames dirt
  | true =>
    rw [quick] at dirt
    by_contra changed
    obtain ⟨q, -, mem, removed⟩ := Repo.porcelainNames_subset_iff.mp dirt p
      (fun mem => other (mem_allowedDirt.mp mem)) (by simpa using changed)
    rw [unmoved p q mem] at removed
    cases removed

theorem staged_subset (published : Published env args r plan s r') (unmoved : r.Unmoved env.renames)
    (mem : p ∈ (r.committing r').staged renames) : p ∈ plan.staged := by
  by_contra other
  have changed := (List.mem_filter.mp (List.mem_filter.mp mem).1).2
  have same := (Repo.dirty_eq_false.mp (published.clean unmoved other)).1
  have kept : r'.index.get p = r.head.get p := by
    rw [published.index, published.head, if_neg other, same]
  simp only [decide_eq_true_eq] at changed
  exact changed kept.symm

/-- A release is never made of the manifest as it was at HEAD. -/
theorem manifest_changed (published : Published env args r plan s r')
    (neat : ∀ crate text, r'.head.get (.manifest crate) = some text → Neat text) :
    r.head.get (.manifest plan.crate) ≠ r'.head.get (.manifest plan.crate) := by
  intro same
  obtain ⟨new, found, parsed⟩ := version?_eq_some.mp published.version
  have before : r.head.get (.manifest plan.crate) = some new := same.trans found
  obtain ⟨⟨head, past⟩, -, crate, -, -⟩ := publishChecks_eq_ok.mp published.checks
  rw [← crate] at past
  cases quick : plan.quick with
  | true =>
    have headed := past.headed
    rw [Repo.headVersion?, before, Option.map_some, Option.bind_eq_some_iff] at headed
    obtain ⟨text, kept, read⟩ := headed
    obtain rfl := Option.some.inj (Option.filter_eq_some_iff.mp kept).1
    rw [(neat _ new found).parse] at read
    obtain rfl := Except.ok.inj (parsed.symm.trans (toOption_eq_some.mp read))
    have inferred := past.inferred
    rw [quick] at inferred
    simp [Version.released, Version.core] at inferred
  | false =>
    have dev : plan.state.prerelease = true := past.prepared.resolve_left (by simp [quick])
    have dirt := past.dirt
    rw [quick] at dirt
    have clean := Repo.dirty_eq_false.mp
      (Repo.not_dirty_of_porcelainNames dirt : r.dirty (.manifest plan.crate) = false)
    have index : r.index.get (.manifest plan.crate) = some new := clean.1.symm.trans before
    have current : r.worktree.get (.manifest plan.crate) = some new :=
      (clean.2 (Option.isSome_of_eq_some index)).symm.trans index
    have read := past.read
    rw [Tree.version?, current, Option.bind_some, toOption_eq_some] at read
    have same := Except.ok.inj (parsed.symm.trans read)
    rw [← same] at dev
    cases dev

/-- The release file of the commit is fit to be published. -/
theorem finished (published : Published env args r plan s r')
    (tool : ∀ text tag, env.validates text tag = validates text tag.name)
    (plain : r.PlainlyDated args.crate)
    (iso : Changelog.isIsoDate env.today = true) : ∃ new,
    r'.head.get (.changelog plan.tag) = some new ∧ Finished plan.tag.identity (stripText new) := by
  obtain ⟨-, releasable, crate, -, -⟩ := publishChecks_eq_ok.mp published.checks
  obtain ⟨old, new, before, after, set⟩ := published.file
  obtain ⟨_, valid⟩ := releasable.file
  have tag : (⟨args.crate, plan.state.released⟩ : Tag) = plan.tag := by rw [Plan.tag, crate]
  rw [tag] at valid
  obtain rfl := Option.some.inj (before.symm.trans valid.found)
  have hash : '#' ∉ env.today := fun mem => (Changelog.plain_of_isIsoDate iso mem).2.2 rfl
  have folded := folded_of_subOnce hash set valid.folded
  have valid' : validates old plan.tag.name = true := by
    rw [← tool]
    exact valid.valid
  have fit := validates_dated iso set valid' (published.plain plain before)
  obtain ⟨entry, parsed, same⟩ := validates_iff.mp fit
  refine ⟨new, after, ?_, ?_⟩
  · rw [joinLines_stripText]
    intro inside
    have within : "## Changes".toList <:+: joinLines new :=
      inside.trans ((List.rdropWhile_prefix _ _).isInfix.trans (List.dropWhile_suffix _).isInfix)
    obtain ⟨line, mem, here⟩ := exists_of_infix_joinLines (by decide) (by decide) within
    rw [List.any_eq_false] at folded
    exact folded line mem (decide_eq_true here)
  · have expected : crateName plan.tag.identity.crate ++ '-' :: plan.tag.identity.version =
        plan.tag.name := tag_identity
    have parsed := Changelog.parse_expected.mpr
      ⟨Changelog.parse_strip parsed, checkExpected_name.mpr same⟩
    rw [joinLines_stripText, expected, parsed]
    rfl

end Published

/-! ## The gate on the commit -/

theorem exactPin_of_releaseInvariants {v : Version}
    (h : releaseInvariants env .libosdp v r = .ok [] r) :
    ∃ pin, r.worktree.pin? = some pin ∧ pin.head? = some '=' := by
  obtain ⟨pin, pinned, h⟩ := reads_readPin.bind_eq_ok h
  obtain ⟨sys, read, h⟩ := reads_readState.bind_eq_ok h
  refine ⟨pin, (readPin_eq_ok.mp pinned).1, ?_⟩
  by_contra caret
  rw [if_pos caret] at h
  injection h with none
  cases (List.append_eq_nil_iff.mp none).2

theorem indexText_eq (shows : genv.shows p = true) (found : r.index.get p = some text) :
    indexText genv r p = .ok (stripText text) := by
  rw [indexText, if_pos shows, found]
  rfl

theorem checkBump_eq_ok {files : List (Path × Line)} {u : Unit} {v : Version}
    (shown : indexText genv r (.manifest crate) = .ok text)
    (parsed : parseManifestVersion crate text = .ok v) : checkBump genv r files crate = .ok u ↔
      (v.prerelease = false → (∃ file ∈ files, file.1.name = (Path.changelog ⟨crate, v⟩).name) →
        genv.release = some (Tag.name ⟨crate, v⟩)) := by
  rw [checkBump, shown, ok_bind, parsed, mapError_eq_ok.mpr rfl, ok_bind, refuseIf_eq_ok]
  simp only [Bool.and_eq_false_iff, Bool.not_eq_false', List.any_eq_false, decide_eq_true_eq,
    decide_eq_false_iff_not, not_not]
  constructor
  · rintro ((dev | none) | named) release ⟨file, mem, same⟩
    · rw [dev] at release
      cases release
    · exact absurd same (none file mem)
    · exact named
  · intro allowed
    cases dev : v.prerelease with
    | true => exact .inl (.inl rfl)
    | false =>
      by_cases folds : ∃ file ∈ files, file.1.name = (Path.changelog ⟨crate, v⟩).name
      · exact .inr (allowed dev folds)
      · push Not at folds
        exact .inl (.inr folds)

theorem checkPin_of_exact {pin : Line} (shown : indexText genv r (.manifest .libosdp) = .ok text)
    (pinned : sysDep.search text = some pin) (equal : pin.head? = some '=') :
    checkPin genv r = .ok () := by
  rw [checkPin, shown, ok_bind, pinned, refuseIf_eq_ok]
  simp [equal]

namespace Published

/-- The hook reads the files as they are committed. -/
theorem indexText (published : Published env args r plan s r') (shows : ∀ p, genv.shows p = true)
    (found : r'.head.get p = some text) :
    indexText genv (r.committing r') p = .ok (stripText text) := by
  rw [← published.index] at found
  exact indexText_eq (shows p) found

theorem mem_staged_committing (published : Published env args r plan s r')
    (there : (r'.head.get p).isSome) :
    p ∈ (r.committing r').staged renames ↔ r.head.get p ≠ r'.head.get p := by
  rw [← published.index] at there ⊢
  exact mem_staged there

/-- The one manifest of the commit is that of the release. -/
theorem manifest_mem_staged (published : Published env args r plan s r')
    (unmoved : r.Unmoved env.renames)
    (neat : ∀ crate text, r'.head.get (.manifest crate) = some text → Neat text) :
    .manifest crate ∈ (r.committing r').staged renames ↔ crate = plan.crate := by
  constructor
  · exact fun mem => crate_of_mem_staged (published.staged_subset unmoved mem)
  · rintro rfl
    obtain ⟨text, found, -⟩ := version?_eq_some.mp published.version
    rw [published.mem_staged_committing (Option.isSome_of_eq_some found)]
    exact published.manifest_changed neat

/-- The one release file of the commit is that of the release, if it was changed. -/
theorem mem_releases (published : Published env args r plan s r') (unmoved : r.Unmoved env.renames)
    {file : Path × Line} : file ∈ (r.committing r').releases genv ↔
      file = (.changelog plan.tag, plan.tag.name) ∧
        r.head.get (.changelog plan.tag) ≠ r'.head.get (.changelog plan.tag) := by
  obtain ⟨_, new, -, there, -⟩ := published.file
  have changed : .changelog plan.tag ∈ (r.committing r').staged genv.renames ↔ _ :=
    published.mem_staged_committing (Option.isSome_of_eq_some there)
  rw [Repo.releases, mem_releaseFiles]
  constructor
  · rintro ⟨mem, named⟩
    obtain ⟨p, name⟩ := file
    rcases List.mem_append.mp (published.staged_subset unmoved mem) with version | own
    · cases (releaseTag?_of_mem_versionFiles version).symm.trans named
    · obtain rfl : p = .changelog plan.tag := List.mem_singleton.mp own
      obtain rfl := Option.some.inj (releaseTag?_name.symm.trans named)
      exact ⟨rfl, changed.mp mem⟩
  · rintro ⟨rfl, differs⟩
    exact ⟨changed.mpr differs, releaseTag?_name⟩

/-- The manifest of the release passes if the hook is told of it. -/
theorem checkBump_eq_ok (published : Published env args r plan s r')
    (unmoved : r.Unmoved env.renames)
    (neat : ∀ crate text, r'.head.get (.manifest crate) = some text → Neat text)
    (shows : ∀ p, genv.shows p = true) {u : Unit} :
    checkBump genv (r.committing r') ((r.committing r').releases genv) plan.crate = .ok u ↔
      genv.release = some plan.tag.name ∨
        r.head.get (.changelog plan.tag) = r'.head.get (.changelog plan.tag) := by
  obtain ⟨text, found, parsed⟩ := version?_eq_some.mp published.version
  have shown := published.indexText shows found
  rw [Release.checkBump_eq_ok shown ((neat _ _ found).parse.trans parsed)]
  constructor
  · intro allowed
    by_cases same : r.head.get (.changelog plan.tag) = r'.head.get (.changelog plan.tag)
    · exact .inr same
    · exact .inl (allowed rfl ⟨_, (published.mem_releases unmoved).mpr ⟨rfl, same⟩, rfl⟩)
  · rintro (told | same) - ⟨file, mem, -⟩
    · exact told
    · exact absurd same ((published.mem_releases unmoved).mp mem).2

theorem checkManifests_eq_ok (published : Published env args r plan s r')
    (unmoved : r.Unmoved env.renames)
    (neat : ∀ crate text, r'.head.get (.manifest crate) = some text → Neat text)
    (shows : ∀ p, genv.shows p = true) :
    checkManifests genv (r.committing r') ((r.committing r').staged genv.renames) = .ok () ↔
      genv.release = some plan.tag.name ∨
        r.head.get (.changelog plan.tag) = r'.head.get (.changelog plan.tag) := by
  have touched : ∀ crate, .manifest crate ∈ (r.committing r').staged genv.renames ↔ _ :=
    fun _ => published.manifest_mem_staged unmoved neat
  rw [checkManifests, bind_eq_ok]
  simp only [forM_eq_ok, List.mem_filter, decide_eq_true_eq, touched]
  constructor
  · rintro ⟨_, bumped, -⟩
    exact (published.checkBump_eq_ok unmoved neat shows).mp (bumped plan.crate ⟨mem_crates _, rfl⟩)
  · intro allowed
    refine ⟨(), ?_, ?_⟩
    · rintro crate ⟨-, rfl⟩
      exact (published.checkBump_eq_ok unmoved neat shows).mpr allowed
    · split
      · next libosdp =>
        obtain ⟨-, releasable, crate, -, -⟩ := publishChecks_eq_ok.mp published.checks
        have invariants := releasable.found
        rw [← crate, ← libosdp] at invariants
        obtain ⟨pin, pinned, equal⟩ := exactPin_of_releaseInvariants invariants
        rw [← published.written.pin] at pinned
        obtain ⟨text, found, read⟩ := Option.bind_eq_some_iff.mp pinned
        have mem : .manifest .libosdp ∈ plan.staged := by
          rw [libosdp]
          exact mem_staged_of_written (by simp)
        have committed : r'.head.get (.manifest .libosdp) = some text := by
          rw [published.head, if_pos mem, found]
        have shown := published.indexText shows committed
        exact checkPin_of_exact shown ((neat _ _ committed).pin.trans read) equal
      · rfl

end Published

/-- **The hook lets the commit of a release through if it is told of the release**, and only then,
    unless the release file is not in the commit. -/
theorem publish_commit_gate_exact (h : cmdPublish env args r = .ok () r')
    (tool : ∀ text tag, env.validates text tag = validates text tag.name)
    (plain : r.PlainlyDated args.crate)
    (iso : Changelog.isIsoDate env.today = true) (unmoved : r.Unmoved env.renames)
    (neat : ∀ crate text, r'.head.get (.manifest crate) = some text → Neat text)
    (lists : genv.lists = true) (shows : ∀ p, genv.shows p = true) : ∃ tag,
      r'.tags = tag :: r.tags ∧ (cmdCheckStaged genv (r.committing r') = .ok () ↔
        genv.release = some tag.name ∨
          r.head.get (.changelog tag) = r'.head.get (.changelog tag)) := by
  obtain ⟨plan, s, published⟩ := published_of_ok h
  refine ⟨plan.tag, published.tags, ?_⟩
  obtain ⟨new, file, fit⟩ := published.finished tool plain iso
  have judges : Judged genv (r.committing r') (.changelog plan.tag, plan.tag.name)
      plan.tag.identity (stripText new) := ⟨splitTag_name, published.indexText shows file⟩
  have worktree : (r.committing r').worktree = s.worktree := by
    rw [published.left]
    exact atCommit_tagged.worktree
  rw [cmdCheckStaged_eq_ok, ← published.checkManifests_eq_ok unmoved neat shows]
  constructor
  · rintro ⟨passes, -⟩
    exact passes.manifests
  · intro manifests
    refine ⟨⟨lists, manifests, fun file mem => ?_⟩, fun file mem release text judged => ?_⟩
    · obtain ⟨rfl, -⟩ := (published.mem_releases unmoved).mp mem
      exact ⟨_, _, judges⟩
    · obtain ⟨rfl, -⟩ := (published.mem_releases unmoved).mp mem
      obtain ⟨rfl, rfl⟩ := judges.unique judged
      refine ⟨plan.state.released, ?_, .inr fit⟩
      rw [worktree]
      exact published.written.version

/-- The release of a cycle is committed by `publish`, and by nobody else. -/
theorem publish_commit_gate_exact_finished :
    let told : GateEnv := ⟨true, fun _ => true, [], some "libosdp-v1.0.0".toList⟩
    cmdCheckStaged told (finishedCycle.committing publishedCycle) = .ok () ∧
      cmdCheckStaged { told with release := none } (finishedCycle.committing publishedCycle) ≠
        .ok () := by
  intro told
  have neat : ∀ crate text, publishedCycle.head.get (.manifest crate) = some text →
      Neat text := by
    have all : ∀ crate ∈ crates, ∀ text ∈ publishedCycle.head.get (.manifest crate),
        stripText text = text := by decide +kernel
    exact fun crate text found => neat_of_stripped (all crate (mem_crates crate) text found)
  have gate : ∀ release, ∃ tag, publishedCycle.tags = [tag] ∧
      (cmdCheckStaged { told with release := release } (finishedCycle.committing publishedCycle) =
        .ok () ↔ release = some tag.name ∨ _) := fun release =>
    publish_commit_gate_exact cmdPublish_finishedCycle (fun _ _ => rfl)
      plainlyDated_finishedCycle (by decide +kernel) (by rintro p q ⟨⟩) neat rfl fun _ => rfl
  have tags : publishedCycle.tags = [⟨.libosdp, ⟨1, 0, 0, false⟩⟩] := by decide +kernel
  constructor
  · obtain ⟨tag, made, exact'⟩ := gate (some "libosdp-v1.0.0".toList)
    cases tags.symm.trans made
    exact exact'.mpr (.inl (by decide +kernel))
  · obtain ⟨tag, made, exact'⟩ := gate none
    cases tags.symm.trans made
    intro passes
    rcases exact'.mp passes with ⟨⟨⟩⟩ | same
    exact absurd same (by decide +kernel)

end LibOsdp.Release
