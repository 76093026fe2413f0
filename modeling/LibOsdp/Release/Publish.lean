import LibOsdp.Release.Effects

/-!
# What publish leaves

The checks of `publish` change nothing. After them it dates the release file, clears the marker
in the manifest of its crate, commits and tags; it stops where a call fails, and rolls back where
the tag cannot be signed or verified. What the manifests say at the end is then decided by the
manifests before and by which calls succeeded: `publish_stated`.
-/

set_option autoImplicit false

namespace LibOsdp.Release

open LibOsdp.Base

variable {env : Env} {r s : Repo} {m n : Manifests} {p : Path} {tag : Tag} {plan : Plan}
  {args : PublishArgs}

theorem reads_requireDirtOf {quick : Bool} : Reads (requireDirtOf env quick tag) := by
  unfold requireDirtOf
  split
  · exact reads_porcelainNames.bind fun _ => Reads.stopIf _ _
  · exact reads_requireCleanTree

theorem reads_validateChangelog : Reads (validateChangelog env tag) := by
  apply reads_isFile.bind
  intro found
  apply (Reads.stopIf _ _).bind
  intro _
  apply reads_readText.bind
  intro text
  exact (Reads.stopIf _ _).bind fun _ => Reads.stopIf _ _

theorem reads_releaseInvariants (crate : Crate) (version : Version) :
    Reads (releaseInvariants env crate version) := by
  cases crate with
  | libosdpSys => exact reads_vendorVersion.bind fun _ => Reads.pure _
  | libosdp => exact reads_readPin.bind fun _ => reads_readState.bind fun _ => Reads.pure _

theorem reads_registryInvariants : Reads (registryInvariants env args) := by
  unfold registryInvariants
  split
  · exact Reads.pure _
  · apply reads_readPin.bind
    intro pin
    split
    · exact Reads.pure _
    · exact (Reads.lift _).bind fun _ => reads_call.bind fun _ => Reads.pure _

/-- What a `publish` that passes its checks knows of the checkout. -/
structure Checked (r : Repo) (args : PublishArgs) (plan : Plan) : Prop where
  crate : plan.crate = args.crate
  state : r.worktree.version? plan.crate = some plan.state
  tracked : (r.head.get (.manifest plan.crate)).isSome
  clean : plan.quick = false → ∀ p, r.dirty p = false
  saved : plan.saved = r.history

theorem isSome_head_of_headState {crate : Crate} {v : Version} {r' : Repo}
    (h : headState env crate r = .ok v r') : (r.head.get (.manifest crate)).isSome := by
  obtain ⟨text, read, -⟩ := (Reads.lift _).bind_eq_ok h
  by_contra none
  rw [Option.not_isSome_iff_eq_none.mp none, ite_self] at read
  cases (lift_eq_ok.mp read).1

theorem reads_publishChecks : Reads (publishChecks env args) := by
  apply reads_readState.bind
  intro state
  apply reads_headState.bind
  intro head
  apply (Reads.stopIf _ _).bind
  intro _
  apply (Reads.stopIf _ _).bind
  intro _
  apply reads_requireDirtOf.bind
  intro _
  apply reads_tagExists.bind
  intro tagged
  apply (Reads.stopIf _ _).bind
  intro _
  apply reads_validateChangelog.bind
  intro _
  apply (reads_releaseInvariants _ _).bind
  intro found
  apply reads_registryInvariants.bind
  intro missing
  apply (Reads.stopIf _ _).bind
  intro _
  exact reads_call.bind fun _ => reads_call.bind fun _ => Reads.get.bind fun _ => Reads.pure _

theorem checked_of_ok {r' : Repo} (h : publishChecks env args r = .ok plan r') :
    r' = r ∧ Checked r args plan := by
  obtain ⟨state, read, h⟩ := reads_readState.bind_eq_ok h
  obtain ⟨head, shown, h⟩ := reads_headState.bind_eq_ok h
  obtain ⟨_, -, h⟩ := (Reads.stopIf _ _).bind_eq_ok h
  obtain ⟨_, -, h⟩ := (Reads.stopIf _ _).bind_eq_ok h
  obtain ⟨_, dirt, h⟩ := reads_requireDirtOf.bind_eq_ok h
  obtain ⟨_, -, h⟩ := reads_tagExists.bind_eq_ok h
  obtain ⟨_, -, h⟩ := (Reads.stopIf _ _).bind_eq_ok h
  obtain ⟨_, -, h⟩ := reads_validateChangelog.bind_eq_ok h
  obtain ⟨_, -, h⟩ := (reads_releaseInvariants _ _).bind_eq_ok h
  obtain ⟨_, -, h⟩ := reads_registryInvariants.bind_eq_ok h
  obtain ⟨_, -, h⟩ := (Reads.stopIf _ _).bind_eq_ok h
  obtain ⟨_, -, h⟩ := reads_call.bind_eq_ok h
  obtain ⟨_, -, h⟩ := reads_call.bind_eq_ok h
  cases h
  refine ⟨rfl, rfl, (readState_eq_ok.mp read).1, isSome_head_of_headState shown, ?_, rfl⟩
  intro cycle p
  rw [requireDirtOf, if_neg (by simpa using cycle)] at dirt
  exact not_dirty_of_requireCleanTree dirt

/-- Has the release file a line for its date? -/
def Repo.dated (r : Repo) (tag : Tag) : Bool :=
  (r.worktree.get (.changelog tag)).any fun text => text.any (dateOpening.isPrefixOf ·)

theorem stampReleaseDate_cases :
    (r.dated tag = true ∧
      ∃ text, stampReleaseDate env tag r = .ok () (r.write (.changelog tag) text)) ∨
    (r.dated tag = false ∧ ∃ e, stampReleaseDate env tag r = .error e r) := by
  rw [stampReleaseDate, Repo.dated]
  cases found : r.worktree.get (.changelog tag) with
  | none =>
    refine .inr ⟨rfl, .missing (.changelog tag), bind_of_error ?_⟩
    rw [readText, get_bind, found]
    rfl
  | some text =>
    rw [bind_of_ok (readText_eq_ok.mpr ⟨found, rfl⟩), Option.any_some, ← isSome_subOnce]
    cases subOnce (dateOpening.isPrefixOf ·) (dateOpening ++ env.today) text with
    | none => exact .inr ⟨rfl, _, rfl⟩
    | some stamped => exact .inl ⟨rfl, stamped, rfl⟩

/-- What a rollback leaves. -/
def undone (env : Env) (plan : Plan) (r : Repo) : Repo :=
  let r := if env.succeeds .deleteTag then { r with tags := r.tags.erase plan.tag } else r
  if env.succeeds .reset then
    if plan.quick then r.resetSoft plan.saved else r.resetHard plan.saved
  else r

theorem rollback_eq (reason : Failure) :
    rollback env plan reason r = .error (.rolledBack reason plan.tag) (undone env plan r) := rfl

/-- The paths that `publish` adds. -/
def Plan.staged (plan : Plan) : List Path := versionFiles plan.crate ++ [.changelog plan.tag]

/-- Does `publish` catch the failure of its tag, or of the check of it? -/
def Env.rollsBack (env : Env) : Bool :=
  if env.succeeds .signTag then !env.raises .verifyTag else !env.raises .signTag

/-- Is the Release commit made and then undone by `git reset --hard`? -/
def Env.undoes (env : Env) (quick : Bool) : Bool :=
  env.succeeds .add && env.succeeds .commit &&
    !(env.succeeds .signTag && env.succeeds .verifyTag) && env.rollsBack && !quick &&
    env.succeeds .reset

/-- The working tree and the index as they are when the release is committed. -/
structure AtCommit (plan : Plan) (s t : Repo) : Prop where
  worktree : t.worktree = s.worktree
  index : t.index = (s.add plan.staged).index

theorem undone_cases (at' : AtCommit plan s r) :
    (plan.quick = false ∧ env.succeeds .reset = true ∧
      ∃ t, AtCommit plan s t ∧ undone env plan r = t.resetHard plan.saved) ∨
    ((plan.quick = true ∨ env.succeeds .reset = false) ∧
      (undone env plan r).worktree = s.worktree) := by
  unfold undone
  generalize eq : (if env.succeeds .deleteTag then { r with tags := r.tags.erase plan.tag } else r)
    = t
  have at'' : AtCommit plan s t := by
    subst eq
    split
    · exact ⟨at'.worktree, at'.index⟩
    · exact at'
  cases reset : env.succeeds .reset with
  | false => exact .inr ⟨.inr rfl, at''.worktree⟩
  | true =>
    cases quick : plan.quick with
    | true => exact .inr ⟨.inl rfl, at''.worktree⟩
    | false => exact .inl ⟨rfl, rfl, t, at'', rfl⟩

theorem gitAdd_eq (added : env.succeeds .add = true) {paths : List Path} :
    gitAdd env paths s = .ok () (s.add paths) := bind_of_ok (call_of_succeeds added)

theorem gitCommit_eq (committed : env.succeeds .commit = true) :
    gitCommit env s = .ok () s.commit := bind_of_ok (call_of_succeeds committed)

/-- `publish` after its commit. -/
def signAndVerify (env : Env) (plan : Plan) : Tool Unit := do
  onExit (signTag env plan.tag) (rollback env plan .couldNotSign)
  onExit (call env .verifyTag) (rollback env plan .signatureCheckFailed)

theorem commitRelease_of_not_added (fails : env.succeeds .add = false) :
    commitRelease env plan s = .error (env.failure .add) s := by
  have stopped : gitAdd env plan.staged s = .error (env.failure .add) s :=
    bind_of_error (call_of_fails fails)
  exact bind_of_error stopped

theorem commitRelease_of_not_committed (added : env.succeeds .add = true)
    (fails : env.succeeds .commit = false) :
    commitRelease env plan s = .error (env.failure .commit) (s.add plan.staged) := by
  have stopped : gitCommit env (s.add plan.staged) =
      .error (env.failure .commit) (s.add plan.staged) := bind_of_error (call_of_fails fails)
  exact (bind_of_ok (gitAdd_eq added)).trans (bind_of_error stopped)

theorem commitRelease_of_committed (added : env.succeeds .add = true)
    (committed : env.succeeds .commit = true) :
    commitRelease env plan s = signAndVerify env plan (s.add plan.staged).commit :=
  (bind_of_ok (gitAdd_eq added)).trans (bind_of_ok (gitCommit_eq committed))

/-- The end of a failure that `publish` catches, or lets pass. -/
def Env.ends (env : Env) (plan : Plan) (reason : Failure) (c : Call) (t : Repo) :
    EStateM.Result Die Repo Unit :=
  if env.raises c then .error (.raised c) t
  else .error (.rolledBack reason plan.tag) (undone env plan t)

theorem ends_eq (reason : Failure) {c : Call} {t : Repo} :
    ∃ e, env.ends plan reason c t = .error e (if env.raises c then t else undone env plan t) := by
  rw [Env.ends]
  cases env.raises c with
  | true => exact ⟨_, rfl⟩
  | false => exact ⟨_, rfl⟩

theorem onExit_of_failure {t : Repo} {c : Call} {body : Tool Unit} (reason : Failure)
    (stopped : body t = .error (env.failure c) t) :
    onExit body (rollback env plan reason) t = env.ends plan reason c t := by
  rw [onExit, tryCatch_of_error stopped, exits_failure, Env.ends, Env.failure]
  cases env.raises c with
  | true => rfl
  | false => exact rollback_eq reason

theorem signAndVerify_of_signed {t : Repo} (signed : env.succeeds .signTag = true) :
    signAndVerify env plan t =
      if env.succeeds .verifyTag then .ok () { t with tags := plan.tag :: t.tags }
      else
        env.ends plan .signatureCheckFailed .verifyTag { t with tags := plan.tag :: t.tags } := by
  have sign : signTag env plan.tag t = .ok () { t with tags := plan.tag :: t.tags } :=
    bind_of_ok (call_of_succeeds signed)
  rw [signAndVerify, onExit, bind_of_ok (tryCatch_of_ok sign)]
  cases verified : env.succeeds .verifyTag with
  | false => exact onExit_of_failure .signatureCheckFailed (call_of_fails verified)
  | true => exact tryCatch_of_ok (call_of_succeeds verified)

theorem signAndVerify_of_unsigned {t : Repo} (unsigned : env.succeeds .signTag = false) :
    signAndVerify env plan t = env.ends plan .couldNotSign .signTag t := by
  have stopped : signTag env plan.tag t = .error (env.failure .signTag) t :=
    bind_of_error (call_of_fails unsigned)
  have caught := @onExit_of_failure env plan t .signTag _ .couldNotSign stopped
  obtain ⟨e, ends⟩ := @ends_eq env plan .couldNotSign .signTag t
  rw [ends] at caught ⊢
  exact bind_of_error caught

theorem committed_worktree (failed : (env.succeeds .add && env.succeeds .commit) = false) :
    (left (commitRelease env plan) s).worktree = s.worktree := by
  cases added : env.succeeds .add with
  | false => rw [left_of_error (commitRelease_of_not_added added)]
  | true =>
    have fails : env.succeeds .commit = false := by simpa [added] using failed
    rw [left_of_error (commitRelease_of_not_committed added fails), Repo.add_worktree]

/-- Once the release is committed, either it is tagged and verified or all is rolled back. -/
theorem commitRelease_eq (committed : (env.succeeds .add && env.succeeds .commit) = true) :
    ∃ r, AtCommit plan s r ∧ left (commitRelease env plan) s =
      if env.succeeds .signTag && env.succeeds .verifyTag || !env.rollsBack then r
      else undone env plan r := by
  obtain ⟨added, committed⟩ := Bool.and_eq_true_iff.mp committed
  rw [left, commitRelease_of_committed added committed]
  cases signed : env.succeeds .signTag with
  | false =>
    rw [signAndVerify_of_unsigned signed]
    refine ⟨(s.add plan.staged).commit, ⟨rfl, rfl⟩, ?_⟩
    obtain ⟨e, ends⟩ := @ends_eq env plan .couldNotSign .signTag (s.add plan.staged).commit
    rw [ends, Env.rollsBack, signed]
    cases env.raises .signTag <;> rfl
  | true =>
    rw [signAndVerify_of_signed signed]
    refine ⟨{ (s.add plan.staged).commit with tags := plan.tag :: (s.add plan.staged).commit.tags },
      ⟨rfl, rfl⟩, ?_⟩
    rw [Env.rollsBack, signed]
    cases verified : env.succeeds .verifyTag with
    | false =>
      rw [if_neg Bool.false_ne_true, Env.ends]
      cases env.raises .verifyTag <;> rfl
    | true => rfl

/-- **After the files are written**, the working tree changes only if all is undone. -/
theorem commitRelease_cases :
    (env.undoes plan.quick = true ∧
      ∃ t, AtCommit plan s t ∧ left (commitRelease env plan) s = t.resetHard plan.saved) ∨
    (env.undoes plan.quick = false ∧ (left (commitRelease env plan) s).worktree = s.worktree) := by
  cases committed : env.succeeds .add && env.succeeds .commit with
  | false => exact .inr ⟨by simp [Env.undoes, committed], committed_worktree committed⟩
  | true =>
    obtain ⟨r, at', eq⟩ := @commitRelease_eq env s plan committed
    rw [eq, Env.undoes, committed]
    cases verified : env.succeeds .signTag && env.succeeds .verifyTag with
    | true => exact .inr ⟨rfl, at'.worktree⟩
    | false =>
      cases caught : env.rollsBack with
      | false => exact .inr ⟨rfl, at'.worktree⟩
      | true =>
        rcases @undone_cases env r s plan at' with ⟨cycle, reset, t, at'', eq⟩ | ⟨kept, eq⟩
        · exact .inl ⟨by simp [cycle, reset], t, at'', eq⟩
        · exact .inr ⟨by rcases kept with kept | kept <;> simp [kept], eq⟩

theorem crate_of_mem_staged {crate : Crate} (mem : .manifest crate ∈ plan.staged) :
    crate = plan.crate := by
  rw [Plan.staged] at mem
  generalize plan.crate = released at mem
  cases released with
  | libosdpSys => simpa [versionFiles] using mem
  | libosdp => simpa [versionFiles] using mem

/-- **The hard reset puts the manifests back**: the tree was clean before. -/
theorem resetHard_restores {t : Repo} (checked : Checked r args plan) (cycle : plan.quick = false)
    (at' : AtCommit plan s t) (index : s.index = r.index)
    (others : ∀ crate ≠ plan.crate,
      s.worktree.get (.manifest crate) = r.worktree.get (.manifest crate)) (crate : Crate) :
    (t.resetHard plan.saved).worktree.get (.manifest crate) =
      r.worktree.get (.manifest crate) := by
  obtain ⟨committed, unchanged⟩ :=
    Repo.dirty_eq_false.mp (checked.clean cycle (.manifest crate))
  rw [checked.saved, Repo.resetHard_worktree, show r.history.headD [] = r.head from rfl]
  by_cases tracked : (r.head.get (.manifest crate)).isSome
  · have resets : t.resets r.head (.manifest crate) = true := by simp [Repo.resets, tracked]
    rw [if_pos resets, committed]
    exact unchanged (committed ▸ tracked)
  · -- an untracked manifest is that of the other crate, which is not staged either
    have other : crate ≠ plan.crate := fun eq => tracked (eq ▸ checked.tracked)
    have unstaged : .manifest crate ∉ plan.staged := fun mem => other (crate_of_mem_staged mem)
    have none : t.index.get (.manifest crate) = none := by
      rw [at'.index, Repo.add_index, if_neg unstaged, index, ← committed]
      exact Option.not_isSome_iff_eq_none.mp tracked
    have keeps : t.resets r.head (.manifest crate) = false := by
      simp [Repo.resets, none, Option.not_isSome_iff_eq_none.mp tracked]
    rw [if_neg (by rw [keeps]; exact Bool.false_ne_true), at'.worktree, others crate other]

/-- Does `publish` leave its crate at the released version, once its checks have passed? -/
def Env.clears (env : Env) (r : Repo) (plan : Plan) : Bool :=
  plan.state.prerelease && r.dated plan.tag &&
    !(env.succeeds .metadata && env.undoes plan.quick)

theorem committed_stated (stated : Stated m r) (checked : Checked r args plan) (now : Stated n s)
    (index : s.index = r.index)
    (others : ∀ crate ≠ plan.crate,
      s.worktree.get (.manifest crate) = r.worktree.get (.manifest crate)) :
    Stated (if env.undoes plan.quick then m else n) (left (commitRelease env plan) s) := by
  rcases @commitRelease_cases env s plan with ⟨undoes, t, at', eq⟩ | ⟨kept, eq⟩
  · have cycle : plan.quick = false := by
      simp only [Env.undoes, Bool.and_eq_true, Bool.not_eq_true'] at undoes
      exact undoes.1.2
    rw [if_pos undoes, eq]
    exact Tree.Stated.congr stated (resetHard_restores checked cycle at' index others)
  · rw [if_neg (by rw [kept]; exact Bool.false_ne_true)]
    exact Tree.Stated.congr now fun crate => by rw [eq]

/-- **What a `publish` that passes its checks leaves in the manifests.** -/
theorem publish_stated (stated : Stated m r) (h : publishChecks env args r = .ok plan r) :
    Stated (if env.clears r plan then m.setVersion plan.state.released plan.crate else m)
      (left (cmdPublish env args) r) := by
  obtain ⟨-, checked⟩ := checked_of_ok h
  rw [cmdPublish, left_bind_of_ok h]
  rcases @stampReleaseDate_cases env r plan.tag with ⟨dated, text, stamped⟩ | ⟨undated, e, stopped⟩
  · rw [left_bind_of_ok stamped]
    have stated' : Stated m (r.write (.changelog plan.tag) text) := stated.write text fun _ => by simp
    have others : ∀ crate ≠ plan.crate,
        (r.write (.changelog plan.tag) text).worktree.get (.manifest crate) =
          r.worktree.get (.manifest crate) := by simp
    cases dev : plan.state.prerelease with
    | false =>
      rw [clearMarker, dev, Env.clears, dev]
      have after := @committed_stated env r _ m m plan args stated checked stated' rfl others
      rwa [ite_self] at after
    | true =>
      obtain ⟨cleared, written, stated''⟩ := writeState_eq stated' plan.crate plan.state.released
      rw [clearMarker, dev, if_pos rfl, bind_assoc, left_bind_of_ok written, refreshLockfile,
        left_call_bind, Env.clears, dev, dated]
      cases env.succeeds .metadata with
      | false => exact stated''
      | true =>
        have after := @committed_stated env r _ m _ plan args stated checked stated'' rfl ?_
        · cases undoes : env.undoes plan.quick <;> simpa [undoes] using after
        · intro crate other
          simp [other]
  · rw [left_bind_of_error stopped, Env.clears, undated]
    simpa using stated

end LibOsdp.Release
