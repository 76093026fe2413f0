import LibOsdp.Release.Failure

/-!
# Publishing again after a failure

Which call of a `publish` failed decides what state it leaves, and whether the next `publish`,
which infers from the manifests what it is to do, takes that state for the release that failed.
-/

set_option autoImplicit false

namespace LibOsdp.Release

open LibOsdp.Base

variable {env env' : Env} {r r' s t : Repo} {crate : Crate} {p : Path} {tag : Tag} {plan : Plan}
  {args : PublishArgs} {v : Version}

/-! ## The checks on another checkout -/

theorem vendorVersion_congr (vendor : t.worktree.get .vendor = r.worktree.get .vendor)
    (sources : env'.cmakeLists = env.cmakeLists) (h : vendorVersion env r = .ok v r) :
    vendorVersion env' t = .ok v t := by
  obtain ⟨text, read, h⟩ := (Reads.lift _).bind_eq_ok h
  obtain ⟨raw, found, h⟩ := (Reads.lift _).bind_eq_ok h
  obtain ⟨parsed, -⟩ := lift_eq_ok.mp h
  rw [← vendor, ← sources] at read
  rw [vendorVersion, get_bind]
  refine bind_eq_ok_iff.mpr ⟨text, t, lift_eq_ok.mpr ⟨(lift_eq_ok.mp read).1, rfl⟩, ?_⟩
  refine bind_eq_ok_iff.mpr ⟨raw, t, lift_eq_ok.mpr ⟨(lift_eq_ok.mp found).1, rfl⟩, ?_⟩
  exact lift_eq_ok.mpr ⟨parsed, rfl⟩

/-- What the invariants of a release read is in `t` as it is in `r`. -/
structure SameSources (crate : Crate) (r t : Repo) : Prop where
  vendor : t.worktree.get .vendor = r.worktree.get .vendor
  pin : t.worktree.pin? = r.worktree.pin?
  sys : crate = .libosdp → t.worktree.version? .libosdpSys = r.worktree.version? .libosdpSys

theorem releaseInvariants_congr {problems : List Problem} (same : SameSources crate r t)
    (sources : env'.cmakeLists = env.cmakeLists)
    (h : releaseInvariants env crate v r = .ok problems r) :
    releaseInvariants env' crate v t = .ok problems t := by
  cases crate with
  | libosdpSys =>
    obtain ⟨vendored, read, h⟩ := reads_vendorVersion.bind_eq_ok h
    refine bind_eq_ok_iff.mpr ⟨vendored, t, vendorVersion_congr same.vendor sources read, ?_⟩
    cases h
    rfl
  | libosdp =>
    obtain ⟨pin, pinned, h⟩ := reads_readPin.bind_eq_ok h
    obtain ⟨sys, read, h⟩ := reads_readState.bind_eq_ok h
    refine bind_eq_ok_iff.mpr ⟨pin, t, readPin_eq_ok.mpr ⟨?_, rfl⟩, ?_⟩
    · rw [same.pin]
      exact (readPin_eq_ok.mp pinned).1
    refine bind_eq_ok_iff.mpr ⟨sys, t, readState_eq ?_, ?_⟩
    · rw [same.sys rfl]
      exact (readState_eq_ok.mp read).1
    · cases h
      rfl

theorem registryInvariants_congr {problems : List Problem} (same : SameSources crate r t)
    (lookUp : env'.succeeds .lookUpRelease = true) (registry : env'.onCratesIo = env.onCratesIo)
    (h : registryInvariants env args r = .ok problems r) :
    registryInvariants env' args t = .ok problems t := by
  unfold registryInvariants at h ⊢
  split
  · next skip =>
    rw [if_pos skip] at h
    cases h
    rfl
  · next ask =>
    rw [if_neg ask] at h
    obtain ⟨pin, pinned, h⟩ := reads_readPin.bind_eq_ok h
    refine bind_eq_ok_iff.mpr ⟨pin, t, readPin_eq_ok.mpr ⟨?_, rfl⟩, ?_⟩
    · rw [same.pin]
      exact (readPin_eq_ok.mp pinned).1
    split
    · next loose =>
      rw [if_pos loose] at h
      cases h
      rfl
    · next exact' =>
      rw [if_neg exact'] at h
      obtain ⟨version, parsed, h⟩ := (Reads.lift _).bind_eq_ok h
      obtain ⟨_, -, h⟩ := reads_call.bind_eq_ok h
      refine bind_eq_ok_iff.mpr ⟨version, t, lift_eq_ok.mpr ⟨(lift_eq_ok.mp parsed).1, rfl⟩, ?_⟩
      refine bind_eq_ok_iff.mpr ⟨(), t, call_of_succeeds lookUp, ?_⟩
      rw [registry]
      cases h
      rfl

/-! ## Publishing again -/

/-- The environment once the cause of a failure is removed: every call goes through, and the rest
    answers as before. -/
structure Repaired (env env' : Env) : Prop where
  succeeds : ∀ c, env'.succeeds c = true
  renames : env'.renames = env.renames
  cmakeLists : env'.cmakeLists = env.cmakeLists
  onCratesIo : env'.onCratesIo = env.onCratesIo
  validates : env'.validates = env.validates

/-- **The failed `publish` can be run again** from `t`, where it left off. -/
structure Reruns (env : Env) (args : PublishArgs) (r : Repo) (plan : Plan) (t : Repo) : Prop where
  head : t.history = r.history
  untagged : plan.tag ∉ t.tags
  prose : (t.worktree.get (.changelog plan.tag)).map prose =
    (r.worktree.get (.changelog plan.tag)).map prose
  again : ∀ env', Repaired env env' →
    ∃ t', cmdPublish env' args t = .ok () t' ∧ plan.tag ∈ t'.tags

/-- What the checks of a second `publish` find in `t`, which now says `v`. -/
structure Ready (env' : Env) (r : Repo) (plan : Plan) (v : Version) (t : Repo) : Prop where
  head : t.history = r.history
  untagged : plan.tag ∉ t.tags
  sources : SameSources plan.crate r t
  now : t.worktree.version? plan.crate = some v
  released : v.released = plan.state.released
  shape : plan.quick = true ∨ v = plan.state
  dirt : DirtOk env' t plan.tag plan.quick
  file : ∃ text, ValidFile env' t plan.tag text
  dated : t.dated plan.tag = true

theorem core_eq_of_released {w : Version} (h : v.released = w.released) : v.core = w.core := by
  have same : v.released.core = w.released.core := congrArg Version.core h
  exact same

theorem headVersion?_congr (same : t.history = r.history) :
    t.headVersion? crate = r.headVersion? crate := by
  rw [Repo.headVersion?, Repo.headVersion?, Repo.head, Repo.head, same]

/-- A `publish` whose calls all go through makes its tag. -/
theorem publishes (all : ∀ c, env.succeeds c = true)
    (checks : publishChecks env args r = .ok plan r) (dated : r.dated plan.tag = true) :
    ∃ t, cmdPublish env args r = .ok () t ∧ plan.tag ∈ t.tags := by
  obtain ⟨s, -, ran⟩ := publish_written checks dated
  refine ⟨_, ran.trans (callsOf_succeeds all), ?_⟩
  rw [tagged_tags, if_pos (all _)]
  exact List.mem_cons_self

theorem Ready.runs (ready : Ready env' r plan v t) (repaired : Repaired env env')
    (checks : publishChecks env args r = .ok plan r) :
    ∃ t', cmdPublish env' args t = .ok () t' ∧ plan.tag ∈ t'.tags := by
  obtain ⟨⟨head, past⟩, releasable, crate, -, -⟩ := publishChecks_eq_ok.mp checks
  have tag : (⟨args.crate, v.released⟩ : Tag) = plan.tag := by
    rw [Plan.tag, crate, ready.released]
  have sources := ready.sources
  have now := ready.now
  rw [crate] at sources now
  have past' : PastGuards env' t args.crate v head plan.quick := by
    refine ⟨now, repaired.succeeds _, ?_, ?_, ?_, past.reconciled, repaired.succeeds _, ?_⟩
    · rw [headVersion?_congr ready.head, past.headed]
    · rw [past.inferred, core_eq_of_released ready.released]
    · rcases ready.shape with quick | rfl
      · exact .inl quick
      · exact past.prepared
    · rw [tag]
      exact ready.dirt
  obtain ⟨text, file⟩ := ready.file
  have invariants := releasable.found
  rw [← ready.released] at invariants
  have releasable' : Releasable env' args t v := by
    refine ⟨repaired.succeeds _, ?_, ⟨text, ?_⟩, ?_, ?_, repaired.succeeds _, repaired.succeeds _⟩
    · rw [tag]
      exact ready.untagged
    · rw [tag]
      exact file
    · exact releaseInvariants_congr sources repaired.cmakeLists invariants
    · refine registryInvariants_congr sources (repaired.succeeds _) repaired.onCratesIo ?_
      exact releasable.missing
  have again : publishChecks env' args t = .ok ⟨args.crate, v, plan.quick, t.history⟩ t :=
    publishChecks_eq_ok.mpr ⟨⟨head, past'⟩, releasable', rfl, rfl, rfl⟩
  have tag' : (⟨args.crate, v, plan.quick, t.history⟩ : Plan).tag = plan.tag := tag
  have dated := ready.dated
  rw [← tag'] at dated ⊢
  exact publishes repaired.succeeds again dated

/-- A quick release is still covered once its files are staged: what else is changed is shown by
    git as the old name of one of them that is there to be staged. -/
def StaysCovered (env : Env) (r : Repo) (tag : Tag) : Prop :=
  ∀ p ∉ allowedDirt tag, r.dirty p = true →
    ∃ q ∈ allowedDirt tag, (p, q) ∈ env.renames ∧ r.head.get q = none ∧ (r.worktree.get q).isSome

/-- **What it takes for a failed `publish` to be run again.** -/
structure Recovers (env : Env) (r : Repo) (plan : Plan) : Prop where
  /-- Only the rollback restores the manifest of a cycle. -/
  cycle : plan.quick = false →
    env.commits plan = true ∧ (r.head.get (.changelog plan.tag)).isSome
  reset : env.commits plan = true → env.rollsBack = true ∧ env.succeeds .reset = true
  deleteTag : env.signs plan = true → env.rollsBack = true ∧ env.succeeds .deleteTag = true
  quick : plan.quick = true → env.adds plan = true → StaysCovered env r plan.tag
  /-- Nothing restores the release file of a quick release, which was dated. -/
  file : plan.quick = true → ∀ text, r.worktree.get (.changelog plan.tag) = some text →
    Redatable env.today text plan.tag

theorem mem_allowedDirt : p ∈ allowedDirt plan.tag ↔ p ∈ plan.staged := by
  obtain ⟨crate, state, quick, saved⟩ := plan
  cases crate with
  | libosdpSys => simp [allowedDirt, Plan.staged, Plan.tag, versionFiles]
  | libosdp =>
    simp only [allowedDirt, Plan.staged, Plan.tag, versionFiles, List.mem_append,
      List.mem_singleton]
    tauto

theorem mem_staged_of_written (mem : p ∈ [.changelog plan.tag, .manifest plan.crate]) :
    p ∈ plan.staged := by
  rcases List.mem_cons.mp mem with rfl | mem
  · simp [Plan.staged]
  · rw [List.mem_singleton.mp mem]
    exact List.mem_append_left _ (manifest_mem_versionFiles plan.crate)

namespace Written

theorem dated (written : Written env r plan s) : s.dated plan.tag = true := by
  obtain ⟨old, new, -, found, set⟩ := written.file
  rw [Repo.dated, found, Option.any_some, List.any_eq_true]
  exact ⟨_, repl_mem_of_subOnce set, dated_line env.today⟩

theorem sources (written : Written env r plan s) : SameSources plan.crate r s := by
  refine ⟨written.confined.others _ (by simp), written.pin, fun libosdp => ?_⟩
  exact written.confined.version? (by simp [libosdp])

theorem isSome_worktree (written : Written env r plan s)
    (read : r.worktree.version? plan.crate = some plan.state) :
    (s.worktree.get p).isSome = (r.worktree.get p).isSome := by
  by_cases mem : p ∈ [.changelog plan.tag, .manifest plan.crate]
  · rcases List.mem_cons.mp mem with rfl | mem
    · obtain ⟨old, new, before, after, -⟩ := written.file
      rw [before, after]
      rfl
    · obtain rfl := List.mem_singleton.mp mem
      obtain ⟨before, found, -⟩ := version?_eq_some.mp read
      obtain ⟨after, found', -⟩ := version?_eq_some.mp written.version
      rw [found, found']
      rfl
  · rw [written.confined.others p mem]

end Written

namespace Kept

theorem head (written : Written env r plan s) (kept : Kept env plan s t) : t.head = r.head := by
  rw [Repo.head, Repo.head, kept.history, written.confined.history]

theorem index_of_unstaged (written : Written env r plan s) (kept : Kept env plan s t)
    (other : p ∉ plan.staged) : t.index.get p = r.index.get p := by
  rw [kept.index, ← written.confined.index]
  split
  · rw [Repo.add_index, if_neg other]
  · rfl

theorem dirty_of_unstaged (written : Written env r plan s) (kept : Kept env plan s t)
    (other : p ∉ plan.staged) : t.dirty p = r.dirty p := by
  have same : s.worktree.get p = r.worktree.get p :=
    written.confined.others p fun mem => other (mem_staged_of_written mem)
  rw [Repo.dirty, Repo.dirty, kept.head written, kept.worktree, same,
    kept.index_of_unstaged written other]

theorem renamed_of_staged (written : Written env r plan s) (kept : Kept env plan s t)
    (adds : env.adds plan = true) (other : p ∉ plan.staged) {q : Path} (mem : q ∈ plan.staged)
    (read : r.worktree.version? plan.crate = some plan.state) :
    t.renamed p q = ((r.head.get p).isSome && r.index.get p = none && r.head.get q = none &&
      (r.worktree.get q).isSome) := by
  rw [Repo.renamed, kept.head written, kept.index_of_unstaged written other, kept.index, adds,
    if_pos rfl, Repo.add_index, if_pos mem, written.isSome_worktree read]

/-- What the guard asks of a quick release that failed. -/
theorem dirtOk_iff (written : Written env r plan s) (kept : Kept env plan s t)
    (read : r.worktree.version? plan.crate = some plan.state)
    (renames : env'.renames = env.renames) (before : DirtOk env r plan.tag true) :
    DirtOk env' t plan.tag true ↔ (env.adds plan = true → StaysCovered env r plan.tag) := by
  have before : ∀ p ∉ allowedDirt plan.tag, r.dirty p = true →
      ∃ q ∈ allowedDirt plan.tag, (p, q) ∈ env.renames ∧ r.renamed p q = true :=
    Repo.porcelainNames_subset_iff.mp before
  show (∀ p ∈ Repo.porcelainNames _ _, p ∈ allowedDirt plan.tag) ↔ _
  rw [Repo.porcelainNames_subset_iff, renames]
  cases adds : env.adds plan with
  | false =>
    refine iff_of_true (fun p stray changed => ?_) (by rintro ⟨⟩)
    have other : p ∉ plan.staged := fun mem => stray (mem_allowedDirt.mpr mem)
    rw [kept.dirty_of_unstaged written other] at changed
    obtain ⟨q, mem, pair, renamed⟩ := before p stray changed
    refine ⟨q, mem, pair, ?_⟩
    have index : t.index = r.index := by
      rw [kept.index, adds, if_neg Bool.false_ne_true, written.confined.index]
    rw [Repo.renamed, kept.head written, index]
    exact renamed
  | true =>
    rw [StaysCovered, eq_self_iff_true, true_imp_iff]
    refine forall_congr' fun p => forall_congr' fun stray => ?_
    have other : p ∉ plan.staged := fun mem => stray (mem_allowedDirt.mpr mem)
    rw [kept.dirty_of_unstaged written other]
    refine forall_congr' fun changed => exists_congr fun q => ?_
    obtain ⟨_, -, -, removed⟩ := before p stray changed
    simp only [Repo.renamed, Bool.and_eq_true, decide_eq_true_eq] at removed
    refine and_congr_right fun mem => and_congr_right fun _ => ?_
    rw [kept.renamed_of_staged written adds other (mem_allowedDirt.mp mem) read]
    simp [removed.1.1.1, removed.1.1.2]

end Kept

/-- A dated file has a changes section only if it had one before. -/
theorem folded_of_subOnce {date : Line} {old new : Text} (plain : '#' ∉ date)
    (h : subOnce (dateOpening.isPrefixOf ·) (dateOpening ++ date) old = some new)
    (folded : (old.any fun line => "## Changes".toList <:+: line) = false) :
    (new.any fun line => "## Changes".toList <:+: line) = false := by
  simp only [List.any_eq_false, decide_eq_true_eq] at folded ⊢
  intro line mem
  rcases mem_of_subOnce h mem with rfl | mem
  · intro infix'
    have hash : '#' ∈ dateOpening ++ date := infix'.subset (by decide)
    rcases List.mem_append.mp hash with opening | date
    · exact absurd opening (by decide)
    · exact plain date
  · exact folded line mem

/-- The environment that lets everything through. -/
def Env.repaired (env : Env) : Env := { env with succeeds := fun _ => true }

theorem repaired_repaired : Repaired env env.repaired := ⟨fun _ => rfl, rfl, rfl, rfl, rfl⟩

section Again

variable (checks : publishChecks env args r = .ok plan r)

include checks

theorem read_of_checks : r.worktree.version? plan.crate = some plan.state :=
  (checked_of_ok checks).2.state

theorem file_of_checks : ∃ text, ValidFile env r plan.tag text := by
  obtain ⟨-, releasable, crate, -, -⟩ := publishChecks_eq_ok.mp checks
  rw [Plan.tag, crate]
  exact releasable.file

theorem untagged_of_checks : plan.tag ∉ r.tags := by
  obtain ⟨-, releasable, crate, -, -⟩ := publishChecks_eq_ok.mp checks
  rw [Plan.tag, crate]
  exact releasable.untagged

theorem dirt_of_checks : DirtOk env r plan.tag plan.quick := by
  obtain ⟨⟨head, past⟩, -, crate, -, -⟩ := publishChecks_eq_ok.mp checks
  rw [Plan.tag, crate]
  exact past.dirt

theorem ready_of_kept (plain : '#' ∉ env.today) (written : Written env r plan s)
    (kept : Kept env plan s t) (untagged : plan.tag ∉ t.tags) (quick : plan.quick = true)
    (covered : env.adds plan = true → StaysCovered env r plan.tag)
    (file : ∀ text, s.worktree.get (.changelog plan.tag) = some text →
      env.validates text plan.tag = true)
    (repaired : Repaired env env') : Ready env' r plan plan.state.released t := by
  have dirt := dirt_of_checks checks
  rw [quick] at dirt
  obtain ⟨old, new, before, after, set⟩ := written.file
  obtain ⟨text, valid⟩ := file_of_checks checks
  obtain rfl : text = old := Option.some.inj (valid.found.symm.trans before)
  have valid' : env'.validates new plan.tag = true := by
    rw [repaired.validates]
    exact file new after
  refine ⟨kept.history.trans written.confined.history, untagged, ?_, ?_, rfl, .inl quick, ?_,
    ⟨new, ?_, folded_of_subOnce plain set valid.folded, valid'⟩, ?_⟩
  · obtain ⟨vendor, pin, sys⟩ := written.sources
    constructor <;> rwa [kept.worktree]
  · rw [kept.worktree]
    exact written.version
  · rw [quick]
    exact (kept.dirtOk_iff written (read_of_checks checks) repaired.renames dirt).mpr covered
  · rw [kept.worktree]
    exact after
  · rw [Repo.dated, kept.worktree]
    exact written.dated

/-- After the hard reset of a cycle, a file tracked at HEAD is as it was. -/
theorem worktree_of_undone (cycle : plan.quick = false) (written : Written env r plan s)
    (at' : AtCommit plan s t) (tracked : (r.head.get p).isSome) :
    (t.resetHard plan.saved).worktree.get p = r.worktree.get p := by
  obtain ⟨-, checked⟩ := checked_of_ok checks
  obtain ⟨committed, unchanged⟩ := Repo.dirty_eq_false.mp (checked.clean cycle p)
  rw [checked.saved, Repo.resetHard_worktree, show r.history.headD [] = r.head from rfl]
  split
  · rw [committed]
    exact unchanged (committed ▸ tracked)
  · next keeps =>
    have vendor : p = .vendor := by
      by_contra other
      exact keeps (by simp [Repo.resets, other, tracked])
    rw [vendor, at'.worktree]
    exact written.confined.others _ (by simp)

theorem ready_of_undone (repaired : Repaired env env') (cycle : plan.quick = false)
    (written : Written env r plan s)
    (at' : AtCommit plan s t) (undone : r' = t.resetHard plan.saved)
    (untagged : plan.tag ∉ r'.tags) (tracked : (r.head.get (.changelog plan.tag)).isSome)
    (dated : r.dated plan.tag = true) : Ready env' r plan plan.state r' := by
  obtain ⟨-, checked⟩ := checked_of_ok checks
  have others : ∀ crate ≠ plan.crate,
      s.worktree.get (.manifest crate) = r.worktree.get (.manifest crate) := by
    intro crate other
    exact written.confined.others _ (by simp [other])
  have manifests := resetHard_restores checked cycle at' written.confined.index others
  have file := worktree_of_undone checks cycle written at' tracked
  have head : r'.head = r.head := by
    rw [undone, Repo.head, Repo.head, ← checked.saved]
    rfl
  obtain ⟨text, valid⟩ := file_of_checks checks
  rw [← undone] at manifests file
  have read := read_of_checks checks
  have valid' : env'.validates text plan.tag = true := by
    rw [repaired.validates]
    exact valid.valid
  refine ⟨?_, untagged, ⟨?_, ?_, fun _ => ?_⟩, ?_, rfl, .inr rfl, ?_,
    ⟨text, ?_, valid.folded, valid'⟩, ?_⟩
  · rw [undone, ← checked.saved]
    rfl
  · rw [undone, Repo.resetHard_worktree, if_neg (by simp [Repo.resets]), at'.worktree]
    exact written.confined.others _ (by simp)
  · rw [Tree.pin?, Tree.pin?, manifests]
  · rw [Tree.version?, Tree.version?, manifests]
  · rw [Tree.version?, manifests]
    exact read
  · rw [cycle]
    show Repo.porcelainNames _ _ = []
    rw [Repo.porcelainNames_eq_nil_iff]
    intro p
    have index : r'.index.get p = r.head.get p := by
      rw [undone, checked.saved]
      rfl
    rw [Repo.dirty_eq_false, head, index]
    refine ⟨rfl, fun tracked => ?_⟩
    obtain ⟨committed, unchanged⟩ := Repo.dirty_eq_false.mp (checked.clean cycle p)
    rw [undone, worktree_of_undone checks cycle written at' tracked, committed]
    exact unchanged (committed ▸ tracked)
  · rw [file]
    exact valid.found
  · rw [Repo.dated, file]
    exact dated

/-- What a second `publish` infers from files that stayed as they were written. -/
theorem guards_of_kept (written : Written env r plan s) (kept : Kept env plan s t)
    (again : ∃ t', cmdPublish env' args t = .ok () t' ∧ plan.tag ∈ t'.tags) :
    (∃ head, PastGuards env' t args.crate plan.state.released head plan.quick) ∧
      ∃ text, ValidFile env' t plan.tag text := by
  obtain ⟨⟨head, past⟩, -, crate, -, -⟩ := publishChecks_eq_ok.mp checks
  obtain ⟨t', ran, -⟩ := again
  obtain ⟨plan', checks', -⟩ := reads_publishChecks.bind_eq_ok ran
  obtain ⟨⟨head', past'⟩, releasable', -, -, -⟩ := publishChecks_eq_ok.mp checks'
  have now : t.worktree.version? args.crate = some plan.state.released := by
    rw [kept.worktree, ← crate]
    exact written.version
  have state : plan'.state = plan.state.released := Option.some.inj (past'.read.symm.trans now)
  have same : head' = head := by
    have headed := past'.headed
    rw [headVersion?_congr (kept.history.trans written.confined.history), past.headed] at headed
    exact (Option.some.inj headed).symm
  have quick : plan'.quick = plan.quick := by
    rw [past'.inferred, past.inferred, state, same]
    rfl
  have file := releasable'.file
  have tag : (⟨args.crate, plan'.state.released⟩ : Tag) = plan.tag := by
    rw [Plan.tag, crate, state]
    rfl
  rw [tag] at file
  rw [state, quick] at past'
  exact ⟨⟨head', past'⟩, file⟩

/-- A release file that is not tracked at HEAD does not outlive the hard reset: it was staged. -/
theorem gone_of_untracked (written : Written env r plan s) (at' : AtCommit plan s t)
    (absent : r.head.get (.changelog plan.tag) = none) :
    (t.resetHard plan.saved).worktree.get (.changelog plan.tag) = none := by
  obtain ⟨-, checked⟩ := checked_of_ok checks
  obtain ⟨old, new, -, after, -⟩ := written.file
  have staged : (t.index.get (.changelog plan.tag)).isSome := by
    rw [at'.index, Repo.add_index, if_pos (by simp [Plan.staged]), after]
    rfl
  rw [checked.saved, Repo.resetHard_worktree, if_pos (by simp [Repo.resets, staged])]
  exact absent

/-- In a cycle, only a release that was committed is taken up again. -/
theorem commits_of_again (cycle : plan.quick = false) (written : Written env r plan s)
    (leaves : LeavesOff env plan s t) (history : t.history = s.history)
    (again : ∃ t', cmdPublish env' args t = .ok () t' ∧ plan.tag ∈ t'.tags) :
    env.commits plan = true := by
  by_contra none
  have kept := leaves.kept history (.inr (Bool.eq_false_iff.mpr none))
  obtain ⟨⟨head, past⟩, -⟩ := guards_of_kept checks written kept again
  rcases past.prepared with quick | dev
  · cases cycle.symm.trans quick
  · cases dev

theorem covered_of_again (quick : plan.quick = true) (written : Written env r plan s)
    (kept : Kept env plan s t)
    (again : ∃ t', cmdPublish env' args t = .ok () t' ∧ plan.tag ∈ t'.tags)
    (renames : env'.renames = env.renames) : env.adds plan = true → StaysCovered env r plan.tag := by
  obtain ⟨⟨head, past⟩, -⟩ := guards_of_kept checks written kept again
  obtain ⟨-, -, crate, -, -⟩ := publishChecks_eq_ok.mp checks
  have dirt := past.dirt
  have before := dirt_of_checks checks
  have tag : (⟨args.crate, plan.state.released.released⟩ : Tag) = plan.tag := by
    rw [Plan.tag, crate]
    rfl
  rw [tag] at dirt
  rw [quick] at before dirt
  exact (kept.dirtOk_iff written (read_of_checks checks) renames before).mp dirt

section File

variable (tool : ∀ text tag, env.validates text tag = validates text tag.name)
  (iso : Changelog.isIsoDate env.today = true)
  (newline : ∀ text, r.worktree.get (.changelog plan.tag) = some text → ∀ line ∈ text, '\n' ∉ line)

include tool iso newline

/-- What the dated file keeps. -/
theorem file_iff (written : Written env r plan s) :
    (s.worktree.get (.changelog plan.tag)).map prose =
        (r.worktree.get (.changelog plan.tag)).map prose ∧
      (∀ text, s.worktree.get (.changelog plan.tag) = some text →
        env.validates text plan.tag = true) ↔
    ∀ text, r.worktree.get (.changelog plan.tag) = some text →
      Redatable env.today text plan.tag := by
  obtain ⟨old, new, before, after, set⟩ := written.file
  obtain ⟨text, valid⟩ := file_of_checks checks
  obtain rfl : text = old := Option.some.inj (valid.found.symm.trans before)
  have valid := valid.valid
  rw [tool] at valid
  have kept := redatable_iff iso set valid (newline text before)
  rw [before, after]
  simp only [Option.map_some, Option.some.injEq, forall_eq', tool]
  exact kept

theorem recovers_of_reruns (written : Written env r plan s) (leaves : LeavesOff env plan s t)
    (reruns : Reruns env args r plan t) : Recovers env r plan := by
  obtain ⟨-, checked⟩ := checked_of_ok checks
  have history : t.history = s.history := reruns.head.trans written.confined.history.symm
  have saved : plan.saved = s.history := checked.saved.trans written.confined.history.symm
  have untagged : plan.tag ∉ s.tags := by
    rw [written.confined.tags]
    exact untagged_of_checks checks
  have reset := (leaves.history_iff saved).mp history
  have again := reruns.again env.repaired repaired_repaired
  constructor
  · intro cycle
    have commits := commits_of_again checks cycle written leaves history again
    refine ⟨commits, ?_⟩
    by_contra untracked
    obtain ⟨back, reset⟩ := reset commits
    obtain ⟨u, at', undone⟩ := leaves.undone cycle commits back reset
    obtain ⟨text, valid⟩ := file_of_checks checks
    have gone := gone_of_untracked checks written at' (Option.not_isSome_iff_eq_none.mp untracked)
    have prose := reruns.prose
    rw [undone, gone, valid.found] at prose
    cases prose
  · exact reset
  · exact (leaves.untagged_iff untagged).mp reruns.untagged
  · intro quick
    exact covered_of_again checks quick written (leaves.kept history (.inl quick)) again rfl
  · intro quick
    have kept := leaves.kept history (.inl quick)
    obtain ⟨-, text, valid⟩ := guards_of_kept checks written kept again
    have prose := reruns.prose
    have found := valid.found
    rw [kept.worktree] at prose found
    refine (file_iff checks tool iso newline written).mp ⟨prose, fun text' found' => ?_⟩
    obtain rfl := Option.some.inj (found.symm.trans found')
    exact valid.valid

theorem reruns_of_recovers (dated : r.dated plan.tag = true) (written : Written env r plan s)
    (leaves : LeavesOff env plan s t) (recovers : Recovers env r plan) :
    Reruns env args r plan t := by
  obtain ⟨-, checked⟩ := checked_of_ok checks
  have saved : plan.saved = s.history := checked.saved.trans written.confined.history.symm
  have untagged : plan.tag ∉ s.tags := by
    rw [written.confined.tags]
    exact untagged_of_checks checks
  have plain : '#' ∉ env.today := fun mem => (Changelog.plain_of_isIsoDate iso mem).2.2 rfl
  have history := (leaves.history_iff saved).mpr recovers.reset
  have untagged := (leaves.untagged_iff untagged).mpr recovers.deleteTag
  have head := history.trans written.confined.history
  cases quick : plan.quick with
  | true =>
    have kept := leaves.kept history (.inl quick)
    obtain ⟨prose, valid⟩ := (file_iff checks tool iso newline written).mpr (recovers.file quick)
    refine ⟨head, untagged, ?_, fun env' repaired => ?_⟩
    · rw [kept.worktree]
      exact prose
    · have ready := ready_of_kept checks plain written kept untagged quick (recovers.quick quick)
        valid repaired
      exact ready.runs repaired checks
  | false =>
    obtain ⟨commits, tracked⟩ := recovers.cycle quick
    obtain ⟨back, reset⟩ := recovers.reset commits
    obtain ⟨u, at', undone⟩ := leaves.undone quick commits back reset
    refine ⟨head, untagged, ?_, fun env' repaired => ?_⟩
    · rw [undone, worktree_of_undone checks quick written at' tracked]
    · have ready : Ready env' r plan plan.state t :=
        ready_of_undone checks repaired quick written at' undone untagged tracked dated
      exact ready.runs repaired checks

end File

end Again

/-- A release file without a line to date stops `publish` before it has changed anything. -/
theorem eq_of_undated {e : Die} (checks : publishChecks env args r = .ok plan r)
    (undated : r.dated plan.tag = false) (failed : cmdPublish env args r = .error e r') : r' = r := by
  rcases @stampReleaseDate_cases env r plan.tag with ⟨dated, -⟩ | ⟨-, e', stopped⟩
  · cases undated.symm.trans dated
  · rw [cmdPublish, bind_of_ok checks, bind_of_error stopped] at failed
    cases failed
    rfl

/-- **A failed `publish` can be run again** exactly if it was quick, or had committed the release
    of a cycle; git could undo what it had made; and what a quick release leaves is what its checks
    ask for, the rest of the tree and the release file. One that finds no line to date has changed
    nothing. -/
theorem failed_publish_reruns_exact {e : Die} (checks : publishChecks env args r = .ok plan r)
    (tool : ∀ text tag, env.validates text tag = validates text tag.name)
    (iso : Changelog.isIsoDate env.today = true)
    (newline : ∀ text, r.worktree.get (.changelog plan.tag) = some text → ∀ line ∈ text, '\n' ∉ line)
    (failed : cmdPublish env args r = .error e r') :
    (r.dated plan.tag = true → (Reruns env args r plan r' ↔ Recovers env r plan)) ∧
    (r.dated plan.tag = false → r' = r) := by
  refine ⟨fun dated => ?_, fun undated => eq_of_undated checks undated failed⟩
  obtain ⟨s, written, ran⟩ := publish_written checks dated
  have leaves : LeavesOff env plan s r' := callsOf_fails (ran.symm.trans failed)
  exact ⟨recovers_of_reruns checks tool iso newline written leaves,
    reruns_of_recovers checks tool iso newline dated written leaves⟩

/-- A cycle of `libosdp` whose release file is finished. -/
def finishedCycle : Repo :=
  sample "3.2.7" "1.0.0-dev" "=3.2.7"
    [(.changelog ⟨.libosdp, ⟨1, 0, 0, false⟩⟩, ["---".toList, "release_crate: libosdp".toList,
      dateOpening ++ "2026-10-05".toList, "release_version: v1.0.0".toList, "---".toList, [],
      "The first stable release.".toList, [], "## Fixes".toList, [], "- A reply is late.".toList])]

/-- The environment where the release tool calls the changelog tool. -/
def toolEnv (fails : List Call) : Env :=
  { sampleEnv fails with validates := fun text tag => validates text tag.name }

/-- The calls that `publish` makes once its checks have passed. -/
def lateCalls : List Call := [.metadata, .add, .commit, .signTag, .verifyTag, .deleteTag, .reset]

theorem checks_finishedCycle {fails : List Call} (late : ∀ c ∈ fails, c ∈ lateCalls) :
    publishChecks (toolEnv fails) { crate := .libosdp } finishedCycle =
      .ok ⟨.libosdp, ⟨1, 0, 0, true⟩, false, finishedCycle.history⟩ finishedCycle := by
  have made : ∀ c ∉ lateCalls, (toolEnv fails).succeeds c = true := fun c early =>
    decide_eq_true fun mem => early (late c mem)
  have past :
      PastGuards (toolEnv fails) finishedCycle .libosdp ⟨1, 0, 0, true⟩ ⟨1, 0, 0, true⟩ false :=
    ⟨by decide +kernel, made _ (by decide), by decide +kernel, rfl, .inr rfl, by rintro ⟨⟩,
      made _ (by decide), Repo.porcelainNames_eq_nil_iff.mpr fun _ => not_dirty_sample⟩
  have registry : registryInvariants (toolEnv []) { crate := .libosdp } finishedCycle =
      .ok [] finishedCycle := rfl
  have missing := @registryInvariants_congr (toolEnv []) (toolEnv fails) finishedCycle finishedCycle
    .libosdp { crate := .libosdp } [] ⟨rfl, rfl, fun _ => rfl⟩ (made _ (by decide)) rfl registry
  have valid : ∃ text,
      finishedCycle.worktree.get (.changelog ⟨.libosdp, ⟨1, 0, 0, false⟩⟩) = some text ∧
      (text.any fun line => "## Changes".toList <:+: line) = false ∧
      validates text (Tag.name ⟨.libosdp, ⟨1, 0, 0, false⟩⟩) = true :=
    ⟨_, rfl, by decide +kernel, by decide +kernel⟩
  obtain ⟨text, found, folded, valid⟩ := valid
  have releasable : Releasable (toolEnv fails) { crate := .libosdp } finishedCycle ⟨1, 0, 0, true⟩ :=
    ⟨made _ (by decide), List.not_mem_nil, ⟨text, found, folded, valid⟩, rfl, missing,
      made _ (by decide), made _ (by decide)⟩
  exact publishChecks_eq_ok.mpr ⟨⟨_, past⟩, releasable, rfl, rfl, rfl⟩

theorem datesPlainly_finishedCycle {text : Text}
    (found : finishedCycle.worktree.get (.changelog tag) = some text) : DatesPlainly text := by
  have all : (finishedCycle.worktree.all fun file =>
      file.2.all fun line => line.all fun c => !isLineEnd c) = true := by decide +kernel
  obtain ⟨_, _, same, -⟩ := List.lookup_eq_some_iff.mp found
  have plain := List.all_eq_true.mp all (.changelog tag, text) (by rw [same]; simp)
  have plain : ∀ line ∈ text, Plain line := by
    intro line mem c inside
    simpa using List.all_eq_true.mp (List.all_eq_true.mp plain line mem) c inside
  refine ⟨fun line mem inside => ?_, fun line found => plain line (List.mem_of_find?_eq_some found)⟩
  cases plain line mem '\n' inside

theorem plainlyDated_finishedCycle : finishedCycle.PlainlyDated crate :=
  fun _ _ _ => datesPlainly_finishedCycle

/-- A cycle whose tag cannot be signed. -/
theorem failed_publish_reruns_exact_unsigned : ∃ plan r',
    cmdPublish (toolEnv [.signTag]) { crate := .libosdp } finishedCycle =
      .error (.rolledBack .couldNotSign plan.tag) r' ∧
    Reruns (toolEnv [.signTag]) { crate := .libosdp } finishedCycle plan r' := by
  let plan : Plan := ⟨.libosdp, ⟨1, 0, 0, true⟩, false, finishedCycle.history⟩
  have checks : publishChecks (toolEnv [.signTag]) { crate := .libosdp } finishedCycle =
      .ok plan finishedCycle := checks_finishedCycle (by decide)
  have dated : finishedCycle.dated plan.tag = true := by decide +kernel
  obtain ⟨s, -, ran⟩ := publish_written checks dated
  have found : refreshLockfile (toolEnv [.signTag]) s = .ok () s := rfl
  have failed : cmdPublish (toolEnv [.signTag]) { crate := .libosdp } finishedCycle =
      .error (.rolledBack .couldNotSign plan.tag)
        (undone (toolEnv [.signTag]) plan (s.add plan.staged).commit) := by
    rw [ran, callsOf, if_pos rfl, bind_of_ok found, commitRelease_of_committed rfl rfl,
      signAndVerify_of_unsigned rfl]
    rfl
  refine ⟨plan, _, failed, ?_⟩
  obtain ⟨reruns, -⟩ := failed_publish_reruns_exact checks (fun _ _ => rfl) (by decide +kernel)
    (fun _ found => (datesPlainly_finishedCycle found).newline) failed
  exact (reruns dated).mpr ⟨fun _ => ⟨rfl, rfl⟩, fun _ => ⟨rfl, rfl⟩, fun _ => ⟨rfl, rfl⟩,
    by rintro ⟨⟩, by rintro ⟨⟩⟩

/-- A cycle whose release could not be committed: nothing restored the manifest, and the same
`publish` finds nothing to do. -/
theorem failed_cycle_finds_nothing :
    let args : PublishArgs := { crate := .libosdp }
    let fails : List Call := [.metadata, .add, .commit]
    fails.map (fun c => stops (publishChecks (toolEnv [c]) args) finishedCycle) =
        [none, none, none] ∧
      fails.map (fun c => stops (cmdPublish (toolEnv [c]) args) finishedCycle) =
        fails.map (fun c => some (.failed c)) ∧
      fails.map (fun c => stops (cmdPublish (toolEnv []) args)
          (left (cmdPublish (toolEnv [c]) args) finishedCycle)) =
        fails.map (fun _ => some (.nothingPrepared .libosdp)) := by
  decide +kernel

end LibOsdp.Release
