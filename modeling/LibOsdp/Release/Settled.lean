import LibOsdp.Release.Journal

/-!
# What the tool leaves alone

The tool writes the manifests, the vendored sources with their bindings, and the file of a release
that has no tag yet. Any other file that git does not ignore stays as it is, also where a release
in a cycle is undone: that resets the whole working tree, but the guard found it clean before
anything was written.
-/

set_option autoImplicit false

namespace LibOsdp.Release

open LibOsdp.Base

variable {env : Env} {r r' s t : Repo} {crate : Crate} {p : Path} {tag : Tag} {plan : Plan}
  {args : PublishArgs} {paths : List Path}

/-- `.gitignore`: the lock file and the builds of cargo, and what Python compiles. -/
def Ignored (name : Line) : Prop :=
  name = "Cargo.lock".toList ∨ "target/".toList <+: name ∨ "__pycache__/".toList <:+: name

instance : DecidablePred Ignored := fun _ => inferInstanceAs (Decidable (_ ∨ _ ∨ _))

/-- A file that is of no release in the making: a file of another kind, or that of a release that
    has its tag. -/
def Repo.Settled (r : Repo) : Path → Prop
  | .other name => ¬ Ignored name
  | .changelog tag => tag ∈ r.tags
  | .manifest _ | .vendor | .bindings => False

/-- `s` still has the tags of `r`, and the text of each file that was settled there. -/
structure Spared (r s : Repo) : Prop where
  tags : r.tags <:+ s.tags
  files : ∀ p, r.Settled p → s.worktree.get p = r.worktree.get p

namespace Spared

theorem refl : Spared r r := ⟨List.suffix_refl _, fun _ _ => rfl⟩

theorem settled (spared : Spared r s) (settled : r.Settled p) : s.Settled p := by
  cases p with
  | changelog tag => exact spared.tags.mem settled
  | other name => exact settled
  | manifest crate => cases settled
  | vendor => cases settled
  | bindings => cases settled

theorem trans (first : Spared r s) (rest : Spared s t) : Spared r t :=
  ⟨first.tags.trans rest.tags, fun p settled =>
    (rest.files p (first.settled settled)).trans (first.files p settled)⟩

theorem congr (spared : Spared r s) (tags : t.tags = s.tags) (worktree : t.worktree = s.worktree) :
    Spared r t :=
  ⟨tags ▸ spared.tags, fun p settled => worktree ▸ spared.files p settled⟩

theorem confined (spared : Spared r s) (confined : Confined paths s t)
    (own : ∀ p ∈ paths, ¬ r.Settled p) : Spared r t := by
  refine ⟨confined.tags ▸ spared.tags, fun p settled => ?_⟩
  have other : p ∉ paths := fun mem => own p mem settled
  exact (confined.others p other).trans (spared.files p settled)

/-! ## The scripts -/

theorem keeps {α : Type} {x : Tool α} (confined : ∀ s, Keeps (Confined paths s) x)
    (own : ∀ p ∈ paths, ¬ r.Settled p) : Keeps (Spared r) x := by
  constructor
  intro s spared
  exact spared.confined ((confined s).after s Confined.refl) own

theorem keeps_gitAdd (paths : List Path) : Keeps (Spared r) (gitAdd env paths) :=
  reads_call.keeps.bind fun _ => Keeps.modify fun _ spared => spared.congr rfl rfl

theorem not_settled_manifest : ∀ p ∈ [Path.manifest crate], ¬ r.Settled p := by
  intro p mem
  obtain rfl := List.mem_singleton.mp mem
  exact id

theorem not_settled_versionFiles : ∀ p ∈ versionFiles crate, ¬ r.Settled p := by
  intro p mem
  cases crate with
  | libosdpSys =>
    simp only [versionFiles, List.mem_cons, List.not_mem_nil, or_false] at mem
    rcases mem with rfl | rfl | rfl <;> exact id
  | libosdp => exact not_settled_manifest p mem

theorem keeps_writeState (v : Version) : Keeps (Spared r) (writeState crate v) :=
  keeps (fun _ => Confined.keeps_setOnce (List.mem_singleton_self _)) not_settled_manifest

theorem keeps_writePin (v : Version) : Keeps (Spared r) (writePin v) :=
  keeps (fun _ => Confined.keeps_setOnce (List.mem_singleton_self _)) not_settled_manifest

theorem keeps_refreshPin : Keeps (Spared r) refreshPinIfMidCycle := by
  apply reads_readState.keeps.bind
  intro state
  split
  · apply reads_readState.keeps.bind
    intro sys
    exact (keeps_writePin sys).bind fun _ => (Reads.pure _).keeps
  · exact (Reads.pure _).keeps

theorem keeps_stagePin : Keeps (Spared r) (stagePin crate) := by
  cases crate with
  | libosdpSys => exact keeps_refreshPin
  | libosdp =>
    apply reads_readState.keeps.bind
    intro sys
    exact (keeps_writePin sys).bind fun _ => (Reads.pure _).keeps

theorem keeps_nextVersion {args : PrepareArgs} {state : Version} :
    Keeps (Spared r) (nextVersion env args state) :=
  keeps (fun _ => Confined.keeps_nextVersion fun _ mem => mem) not_settled_versionFiles

theorem keeps_cmdVendor (ref : Line) : Keeps (Spared r) (cmdVendor env ref) := by
  apply reads_requireCleanTree.keeps.bind
  intro _
  apply Keeps.bind
  · exact keeps (fun _ => Confined.keeps_checkoutVendor (List.mem_singleton_self _))
      (by simp [Repo.Settled])
  intro _
  apply Keeps.bind
  · exact keeps (fun _ => Confined.keeps_regenerateBindings (List.mem_singleton_self _))
      (by simp [Repo.Settled])
  intro _
  apply reads_refreshLockfile.keeps.bind
  intro _
  apply reads_vendorVersion.keeps.bind
  intro vendored
  exact keeps_refreshPin.bind fun _ => keeps_gitAdd _

/-- **A `prepare`** scaffolds only the file of a release that has no tag. -/
theorem after_cmdPrepare (spared : Spared r s) (args : PrepareArgs) :
    Spared r (left (cmdPrepare env args) s) := by
  have stops : ∀ t, Spared r t → Spared r t := fun _ => id
  refine reads_readState.keeps.left_bind spared stops fun state t _ spared => ?_
  refine (Reads.stopIf _ _).keeps.left_bind spared stops fun _ t _ spared => ?_
  refine reads_headState.keeps.left_bind spared stops fun head t _ spared => ?_
  refine (Reads.stopIf _ _).keeps.left_bind spared stops fun _ t _ spared => ?_
  refine keeps_nextVersion.left_bind spared stops fun next t _ spared => ?_
  obtain ⟨target, hints⟩ := next
  refine reads_isFile.keeps.left_bind spared stops fun _ t _ spared => ?_
  refine (Reads.stopIf _ _).keeps.left_bind spared stops fun _ t _ spared => ?_
  refine reads_tagExists.keeps.left_bind spared stops fun found t asked spared => ?_
  refine (Reads.stopIf _ _).keeps.left_bind spared stops fun _ t passed before => ?_
  -- the file is scaffolded where the tag is not there yet
  obtain ⟨new, rfl⟩ := stopIf_eq_ok.mp passed
  obtain ⟨-, answer, same⟩ := tagExists_eq_ok.mp asked
  rw [answer, decide_eq_false_iff_not, ← same] at new
  refine (keeps_writeState _).left_bind before stops fun _ t _ spared => ?_
  refine keeps_stagePin.left_bind spared stops fun staged t _ spared => ?_
  refine reads_refreshLockfile.keeps.left_bind spared stops fun _ t _ spared => ?_
  have unsettled : ∀ p ∈ [Path.changelog ⟨args.crate, Version.released { target with
      prerelease := args.cycle }⟩], ¬ r.Settled p := by
    intro p mem
    obtain rfl := List.mem_singleton.mp mem
    exact fun settled => new (before.tags.mem settled)
  refine Keeps.left_bind (keeps (fun _ => Confined.keeps_scaffoldChangelog
    (List.mem_singleton_self _)) unsettled) spared stops fun _ t _ spared => ?_
  exact (keeps_gitAdd _).after t spared

/-! ## Undoing a release -/

/-- A reset of the whole tree leaves each file that was clean and that the release does not
    stage. -/
theorem get_resetHard (clean : r.dirty p = false) (saved : plan.saved = r.history)
    (index : t.index.get p = r.index.get p) (worktree : t.worktree.get p = r.worktree.get p) :
    (t.resetHard plan.saved).worktree.get p = r.worktree.get p := by
  obtain ⟨head, same⟩ := Repo.dirty_eq_false.mp clean
  rw [Repo.resetHard_worktree, saved]
  split
  · next resets =>
    have tracked : (r.index.get p).isSome := by
      simp only [Repo.resets, Bool.and_eq_true, Bool.or_eq_true] at resets
      rcases resets.2 with kept | staged
      · exact head ▸ kept
      · exact index ▸ staged
    exact head.trans (same tracked)
  · exact worktree

/-- The calls of a `publish` leave the working tree, or reset it. -/
theorem worktree_of_callsOf : (left (callsOf env plan) s).worktree = s.worktree ∨
    plan.quick = false ∧ ∃ t, AtCommit plan s t ∧
      left (callsOf env plan) s = t.resetHard plan.saved := by
  cases ran : callsOf env plan s with
  | ok u t =>
    rw [left_of_ok ran]
    obtain ⟨-, -, rfl⟩ := callsOf_ok ran
    exact .inl atCommit_tagged.worktree
  | error e t =>
    rw [left_of_error ran]
    cases callsOf_fails ran with
    | written => exact .inl rfl
    | staged => exact .inl rfl
    | passed => exact .inl atCommit_tagged.worktree
    | rolledBack commits fails =>
      rcases @undone_cases env _ s plan atCommit_tagged with ⟨cycle, -, t, at', eq⟩ | ⟨-, same⟩
      · exact .inr ⟨cycle, t, at', eq⟩
      · exact .inl same

/-- **A `publish`**, however it ends, writes only the file of the release and its manifest. -/
theorem of_cmdPublish : Spared r (left (cmdPublish env args) r) := by
  cases checks : publishChecks env args r with
  | error e t =>
    obtain rfl := reads_publishChecks.eq_of_error checks
    have same : left (cmdPublish env args) t = t := left_bind_of_error checks
    rw [same]
    exact refl
  | ok plan t =>
    obtain rfl : r = t := (reads_publishChecks.eq_of_ok checks).symm
    obtain ⟨⟨head, past⟩, releasable, crate, saved, -⟩ := publishChecks_eq_ok.mp checks
    refine ⟨(tags_of_cmdPublish checks).1.elim (fun same => same ▸ List.suffix_refl _)
      fun more => more ▸ List.suffix_cons _ _, ?_⟩
    intro p settled
    have own : p ∉ [.changelog plan.tag, .manifest plan.crate] := by
      simp only [List.mem_cons, List.not_mem_nil, or_false, not_or]
      refine ⟨?_, ?_⟩
      · rintro rfl
        rw [Plan.tag, crate] at settled
        exact releasable.untagged settled
      · rintro rfl
        exact settled
    cases dated : r.dated plan.tag with
    | false =>
      rcases @stampReleaseDate_cases env r plan.tag with ⟨dated', -⟩ | ⟨-, e, stopped⟩
      · cases dated.symm.trans dated'
      · rw [cmdPublish, left_bind_of_ok checks, left_bind_of_error stopped]
    | true =>
      obtain ⟨s, written, eq⟩ := publish_written checks dated
      have same : left (cmdPublish env args) r = left (callsOf env plan) s := by
        rw [left, left, eq]
      have kept : s.worktree.get p = r.worktree.get p := written.confined.others p own
      rw [same]
      rcases @worktree_of_callsOf env s plan with worktree | ⟨cycle, t, at', reset⟩
      · rw [worktree]
        exact kept
      · have clean : r.porcelainNames env.renames = [] := by
          have dirt := past.dirt
          rw [cycle] at dirt
          exact dirt
        have unstaged : p ∉ plan.staged := by
          rw [Plan.staged, List.mem_append, not_or]
          refine ⟨fun mem => not_settled_versionFiles p mem settled, fun mem => ?_⟩
          exact own (List.mem_cons.mpr (.inl (List.mem_singleton.mp mem)))
        rw [reset]
        refine get_resetHard (Repo.not_dirty_of_porcelainNames clean) saved ?_ ?_
        · rw [at'.index, Repo.add_index, if_neg unstaged, written.confined.index]
        · rw [at'.worktree]
          exact kept

/-- **The step of the settled files**, unless one is edited by hand. -/
theorem of_step {a : Act} (hstep : step r a = some r')
    (hand : ∀ tag text, a = .edit tag text → tag ∉ r.tags) : Spared r r' := by
  obtain rfl := Option.some.inj hstep
  have stops : ∀ t, Spared r t → Spared r t := fun _ => id
  cases a with
  | prepare env args =>
    refine (Reads.stopIf _ _).keeps.left_bind refl stops fun _ t _ spared => ?_
    refine reads_call.keeps.left_bind spared stops fun _ t _ spared => ?_
    exact after_cmdPrepare spared args
  | vendor env ref =>
    refine reads_call.keeps.left_bind refl stops fun _ t _ spared => ?_
    exact (keeps_cmdVendor ref).after t spared
  | publish env args =>
    refine reads_call.keeps.left_bind refl stops fun _ t _ spared => ?_
    exact spared.trans of_cmdPublish
  | edit tag text =>
    refine ⟨List.suffix_refl _, fun p settled => ?_⟩
    have other : p ≠ .changelog tag := by
      rintro rfl
      exact hand tag text rfl settled
    exact Repo.write_worktree.trans (if_neg other)
  | stage paths => exact refl.congr rfl rfl
  | commit => exact refl.congr rfl rfl

end Spared

/-- **Settled files stay**: over any run of the tool and of steps by hand, whatever its calls
    answer, no tag is lost, and no file that git sees changes but the manifests, the vendored sources
    with their bindings, and the files of releases that have no tag yet. -/
theorem settled_files_stay {hops : List (Hop Repo Act)} (run : Run step r hops r')
    (hand : ∀ h ∈ hops, ∀ tag text, h.act = .edit tag text → tag ∉ h.src.tags) :
    r.tags <:+ r'.tags ∧ ∀ p, r.Settled p → r'.worktree.get p = r.worktree.get p := by
  have spared : Spared r r' := run.invariant hand .refl fun before hand hstep =>
    before.trans (.of_step hstep hand)
  exact ⟨spared.tags, spared.files⟩

/-- A release that is undone by a hard reset, but for its tag, leaves the file of an older one, and
    an untracked file. -/
theorem settled_files_stay_undone : ∃ r hops r', Run step r hops r' ∧ r'.history = r.history ∧
    r'.tags.length = r.tags.length + 1 ∧
    r'.worktree.get (.changelog ⟨.libosdpSys, ⟨3, 2, 0, false⟩⟩) = some ["Fixes".toList] ∧
      r'.worktree.get (.other "notes".toList) = some ["todo".toList] := by
  let old : Tag := ⟨.libosdpSys, ⟨3, 2, 0, false⟩⟩
  let both := sample "4.0.0-dev" "1.0.0-dev" "=4.0.0-dev"
    [(.changelog ⟨.libosdpSys, ⟨4, 0, 0, false⟩⟩, [dateOpening ++ "2026-10-05".toList]),
      (.changelog old, ["Fixes".toList])]
  let r : Repo := { both with
    worktree := (.other "notes".toList, ["todo".toList]) :: both.worktree
    tags := [old] }
  have run : Run step r _ _ :=
    Run.single (a := .publish (sampleEnv [.verifyTag, .deleteTag]) { crate := .libosdpSys }) rfl
  obtain ⟨-, files⟩ := settled_files_stay run (by
    intro h mem tag text edits
    obtain rfl := List.mem_singleton.mp mem
    cases edits)
  refine ⟨r, _, _, run, by decide +kernel, by decide +kernel, ?_, ?_⟩
  · exact (files (.changelog old) List.mem_cons_self).trans rfl
  · exact (files (.other "notes".toList) (show ¬ Ignored _ by decide)).trans rfl

end LibOsdp.Release
