import LibOsdp.Release.Checks
import LibOsdp.Release.Pin
import LibOsdp.Release.Staging
import LibOsdp.Release.Validation

/-!
# What a failed publish leaves

A `publish` that has passed its checks writes its files, then makes calls that can fail: it
resolves the lock file, stages, commits, signs and verifies. `Written` is what it has written
before the first of them, and `LeavesOff` the state in which it stops, by the call that failed.
-/

set_option autoImplicit false

namespace LibOsdp.Release

open LibOsdp.Base

variable {env : Env} {r r' s t : Repo} {crate : Crate} {tag : Tag} {plan : Plan}
  {args : PublishArgs}

/-! ## The files publish writes -/

/-- A manifest with a version takes another one. -/
theorem writeState_runs {old : Version} (read : r.worktree.version? crate = some old)
    (v : Version) : ∃ text, writeState crate v r = .ok () (r.write (.manifest crate) text) ∧
      (r.write (.manifest crate) text).worktree.pin? = r.worktree.pin? := by
  obtain ⟨before, found, parsed⟩ := version?_eq_some.mp read
  have some : (versionSetting.search before).isSome := by
    obtain ⟨raw, read, -⟩ := bind_eq_ok.mp parsed
    rw [okOr_eq_ok.mp read]
    rfl
  rw [← @Setting.isSome_subOnce _ v.str] at some
  obtain ⟨text, set⟩ := Option.isSome_iff_exists.mp some
  refine ⟨text, setOnce_eq found set, ?_⟩
  rw [Tree.pin?, Tree.pin?, Repo.write_worktree]
  cases crate with
  | libosdpSys => rw [if_neg (by simp)]
  | libosdp =>
    rw [if_pos rfl, found, Option.bind_some, Option.bind_some,
      Setting.search_subOnce_of_apart apart (Version.quotable_str [] (by decide)) set]

/-- What `publish` has written when it makes its calls. -/
structure Written (env : Env) (r : Repo) (plan : Plan) (s : Repo) : Prop where
  confined : Confined [.changelog plan.tag, .manifest plan.crate] r s
  version : s.worktree.version? plan.crate = some plan.state.released
  pin : s.worktree.pin? = r.worktree.pin?
  file : ∃ old new, r.worktree.get (.changelog plan.tag) = some old ∧
    s.worktree.get (.changelog plan.tag) = some new ∧
    subOnce (dateOpening.isPrefixOf ·) (dateOpening ++ env.today) old = some new

/-- `publish` from where it makes its calls. -/
def callsOf (env : Env) (plan : Plan) : Tool Unit :=
  if plan.state.prerelease then refreshLockfile env >>= fun _ => commitRelease env plan
  else commitRelease env plan

theorem released_eq {v : Version} (plain : v.prerelease = false) : v.released = v := by
  obtain ⟨major, minor, patch, dev⟩ := v
  cases plain
  rfl

theorem stamped_of_dated (dated : r.dated tag = true) : ∃ old new,
    r.worktree.get (.changelog tag) = some old ∧
    subOnce (dateOpening.isPrefixOf ·) (dateOpening ++ env.today) old = some new ∧
    stampReleaseDate env tag r = .ok () (r.write (.changelog tag) new) := by
  rw [Repo.dated] at dated
  obtain ⟨old, found⟩ : ∃ old, r.worktree.get (.changelog tag) = some old := by
    cases file : r.worktree.get (.changelog tag) with
    | none =>
      rw [file] at dated
      cases dated
    | some old => exact ⟨old, rfl⟩
  rw [found, Option.any_some, ← @isSome_subOnce _ (dateOpening ++ env.today)] at dated
  obtain ⟨new, set⟩ := Option.isSome_iff_exists.mp dated
  refine ⟨old, new, found, set, ?_⟩
  rw [stampReleaseDate, bind_of_ok (readText_eq_ok.mpr ⟨found, rfl⟩), set]
  rfl

theorem publish_written (checks : publishChecks env args r = .ok plan r)
    (dated : r.dated plan.tag = true) :
    ∃ s, Written env r plan s ∧ cmdPublish env args r = callsOf env plan s := by
  obtain ⟨-, checked⟩ := checked_of_ok checks
  obtain ⟨old, new, found, set, stamped⟩ := @stamped_of_dated env r plan.tag dated
  let stamp := r.write (.changelog plan.tag) new
  have confined : Confined [.changelog plan.tag, .manifest plan.crate] r stamp :=
    Confined.refl.write (by simp)
  have read : stamp.worktree.version? plan.crate = some plan.state := by
    rw [Tree.version?, Repo.write_worktree, if_neg (by simp)]
    exact checked.state
  have pin : stamp.worktree.pin? = r.worktree.pin? := by
    rw [Tree.pin?, Tree.pin?, Repo.write_worktree, if_neg (by simp)]
  have file : stamp.worktree.get (.changelog plan.tag) = some new := by
    rw [Repo.write_worktree, if_pos rfl]
  rw [cmdPublish, bind_of_ok checks, bind_of_ok stamped, clearMarker, callsOf]
  cases dev : plan.state.prerelease with
  | false =>
    refine ⟨stamp, ⟨confined, ?_, pin, old, new, found, file, set⟩, rfl⟩
    rw [read, released_eq dev]
  | true =>
    obtain ⟨text, written, samePin⟩ := writeState_runs read plan.state.released
    refine ⟨_, ⟨confined.write (by simp), version?_of_writeState written, samePin.trans pin, old,
      new, found, ?_, set⟩, ?_⟩
    · rw [Repo.write_worktree, if_neg (by simp)]
      exact file
    · rw [if_pos rfl, if_pos rfl, bind_assoc, bind_of_ok written]

/-! ## The calls, and where they leave off -/

/-- Was the lock file resolved, or did it not have to be? -/
def Env.resolves (env : Env) (plan : Plan) : Bool := !plan.state.prerelease || env.succeeds .metadata

/-- Were the files of the release staged? -/
def Env.adds (env : Env) (plan : Plan) : Bool := env.resolves plan && env.succeeds .add

/-- Was the release committed? -/
def Env.commits (env : Env) (plan : Plan) : Bool := env.adds plan && env.succeeds .commit

/-- Was the tag made? -/
def Env.signs (env : Env) (plan : Plan) : Bool := env.commits plan && env.succeeds .signTag

/-- The release committed from `s`, with its tag if it could be signed. -/
def tagged (env : Env) (plan : Plan) (s : Repo) : Repo :=
  let r := (s.add plan.staged).commit
  if env.succeeds .signTag then { r with tags := plan.tag :: r.tags } else r

/-- **What a failure leaves**, by how far the calls got. -/
inductive LeavesOff (env : Env) (plan : Plan) (s : Repo) : Repo → Prop where
  | written (adds : env.adds plan = false) : LeavesOff env plan s s
  | staged (adds : env.adds plan = true) (commits : env.commits plan = false) :
      LeavesOff env plan s (s.add plan.staged)
  | rolledBack (commits : env.commits plan = true)
      (fails : (env.succeeds .signTag && env.succeeds .verifyTag) = false)
      (caught : env.rollsBack = true) : LeavesOff env plan s (undone env plan (tagged env plan s))
  | passed (commits : env.commits plan = true)
      (fails : (env.succeeds .signTag && env.succeeds .verifyTag) = false)
      (caught : env.rollsBack = false) : LeavesOff env plan s (tagged env plan s)

theorem eq_of_ends {e : Die} {t : Repo} {reason : Failure} {c : Call}
    (h : env.ends plan reason c t = .error e r') :
    r' = if env.raises c then t else undone env plan t := by
  obtain ⟨_, ends⟩ := @ends_eq env plan reason c t
  cases ends.symm.trans h
  rfl

theorem ite_rollsBack {c : Call} {t u : Repo} (caught : env.rollsBack = !env.raises c) :
    (if env.raises c then t else u) = if env.rollsBack then u else t := by
  rw [caught]
  cases env.raises c <;> rfl

theorem signAndVerify_fails {e : Die} {t : Repo} (h : signAndVerify env plan t = .error e r') :
    (env.succeeds .signTag && env.succeeds .verifyTag) = false ∧
      let made := if env.succeeds .signTag then { t with tags := plan.tag :: t.tags } else t
      r' = if env.rollsBack then undone env plan made else made := by
  cases signed : env.succeeds .signTag with
  | false =>
    rw [signAndVerify_of_unsigned signed] at h
    have caught : env.rollsBack = !env.raises .signTag := by rw [Env.rollsBack, signed]; rfl
    exact ⟨rfl, (eq_of_ends h).trans (ite_rollsBack caught)⟩
  | true =>
    rw [signAndVerify_of_signed signed] at h
    cases verified : env.succeeds .verifyTag with
    | false =>
      rw [verified] at h
      have caught : env.rollsBack = !env.raises .verifyTag := by rw [Env.rollsBack, signed]; rfl
      exact ⟨rfl, (eq_of_ends h).trans (ite_rollsBack caught)⟩
    | true =>
      rw [verified] at h
      cases h

theorem commitRelease_fails {e : Die} (resolves : env.resolves plan = true)
    (h : commitRelease env plan s = .error e r') : LeavesOff env plan s r' := by
  cases added : env.succeeds .add with
  | false =>
    rw [commitRelease_of_not_added added] at h
    cases h
    exact .written (by simp [Env.adds, added])
  | true =>
    have adds : env.adds plan = true := by simp [Env.adds, resolves, added]
    cases committed : env.succeeds .commit with
    | false =>
      rw [commitRelease_of_not_committed added committed] at h
      cases h
      exact .staged adds (by simp [Env.commits, committed])
    | true =>
      rw [commitRelease_of_committed added committed] at h
      have commits : env.commits plan = true := by simp [Env.commits, adds, committed]
      obtain ⟨fails, rfl⟩ := signAndVerify_fails h
      cases caught : env.rollsBack with
      | false => exact .passed commits fails caught
      | true => exact .rolledBack commits fails caught

theorem callsOf_fails {e : Die} (h : callsOf env plan s = .error e r') :
    LeavesOff env plan s r' := by
  rw [callsOf] at h
  cases dev : plan.state.prerelease with
  | false =>
    rw [dev] at h
    exact commitRelease_fails (by simp [Env.resolves, dev]) h
  | true =>
    rw [dev, if_pos rfl] at h
    cases resolved : env.succeeds .metadata with
    | false =>
      have stopped : refreshLockfile env s = .error (env.failure .metadata) s :=
        call_of_fails resolved
      cases (bind_of_error stopped).symm.trans h
      exact .written (by simp [Env.adds, Env.resolves, dev, resolved])
    | true =>
      have found : refreshLockfile env s = .ok () s := call_of_succeeds resolved
      exact commitRelease_fails (by simp [Env.resolves, resolved])
        ((bind_of_ok found).symm.trans h)

theorem callsOf_succeeds (all : ∀ c, env.succeeds c = true) :
    callsOf env plan s = .ok () (tagged env plan s) := by
  have made : commitRelease env plan s = .ok () (tagged env plan s) := by
    rw [commitRelease_of_committed (all _) (all _), signAndVerify_of_signed (all _),
      if_pos (all _), tagged, if_pos (all _)]
  rw [callsOf]
  split
  · have found : refreshLockfile env s = .ok () s := call_of_succeeds (all _)
    exact (bind_of_ok found).trans made
  · exact made

theorem undone_history : (undone env plan t).history =
    if env.succeeds .reset then plan.saved else t.history := by
  unfold undone
  cases env.succeeds .deleteTag <;> cases env.succeeds .reset <;> cases plan.quick <;> rfl

theorem undone_tags : (undone env plan t).tags =
    if env.succeeds .deleteTag then t.tags.erase plan.tag else t.tags := by
  unfold undone
  cases env.succeeds .deleteTag <;> cases env.succeeds .reset <;> cases plan.quick <;> rfl

theorem undone_soft (quick : plan.quick = true) :
    (undone env plan t).worktree = t.worktree ∧ (undone env plan t).index = t.index := by
  unfold undone
  rw [quick]
  cases env.succeeds .deleteTag <;> cases env.succeeds .reset <;> exact ⟨rfl, rfl⟩

theorem atCommit_tagged : AtCommit plan s (tagged env plan s) := by
  unfold tagged
  split <;> exact ⟨rfl, rfl⟩

theorem tagged_history : (tagged env plan s).history = (s.add plan.staged).index :: s.history := by
  unfold tagged
  split <;> rfl

theorem tagged_tags : (tagged env plan s).tags =
    if env.succeeds .signTag then plan.tag :: s.tags else s.tags := by
  unfold tagged
  split <;> rfl

/-- `t` has the files as they were written, staged if they could be. -/
structure Kept (env : Env) (plan : Plan) (s t : Repo) : Prop where
  history : t.history = s.history
  worktree : t.worktree = s.worktree
  index : t.index = if env.adds plan then (s.add plan.staged).index else s.index

namespace LeavesOff

theorem history_iff (leaves : LeavesOff env plan s r') (saved : plan.saved = s.history) :
    r'.history = s.history ↔
      (env.commits plan = true → env.rollsBack = true ∧ env.succeeds .reset = true) := by
  cases leaves with
  | written adds => exact iff_of_true rfl (by simp [Env.commits, adds])
  | staged adds commits => exact iff_of_true rfl (by simp [commits])
  | rolledBack commits fails caught =>
    rw [undone_history, tagged_history, saved, commits, caught]
    cases env.succeeds .reset with
    | true => simp
    | false => simp
  | passed commits fails caught => simp [tagged_history, commits, caught]

theorem untagged_iff (leaves : LeavesOff env plan s r') (untagged : plan.tag ∉ s.tags) :
    plan.tag ∉ r'.tags ↔
      (env.signs plan = true → env.rollsBack = true ∧ env.succeeds .deleteTag = true) := by
  cases leaves with
  | written adds => exact iff_of_true untagged (by simp [Env.signs, Env.commits, adds])
  | staged adds commits => exact iff_of_true untagged (by simp [Env.signs, commits])
  | passed commits fails caught =>
    rw [tagged_tags, Env.signs, commits, caught]
    cases env.succeeds .signTag <;> simp [untagged]
  | rolledBack commits fails caught =>
    rw [undone_tags, tagged_tags, Env.signs, commits, caught, Bool.true_and]
    cases env.succeeds .signTag with
    | true => cases env.succeeds .deleteTag <;> simp [untagged]
    | false =>
      refine iff_of_true ?_ (by rintro ⟨⟩)
      split
      · exact fun mem => untagged (List.mem_of_mem_erase mem)
      · exact untagged

/-- Unless the release was committed in a cycle, its files stay as they were written. -/
theorem kept (leaves : LeavesOff env plan s r') (history : r'.history = s.history)
    (soft : plan.quick = true ∨ env.commits plan = false) : Kept env plan s r' := by
  cases leaves with
  | written adds => exact ⟨rfl, rfl, by simp [adds]⟩
  | staged adds commits => exact ⟨rfl, rfl, by simp [adds]⟩
  | passed commits fails caught => simp [tagged_history] at history
  | rolledBack commits fails caught =>
    have quick : plan.quick = true := soft.resolve_right (by simp [commits])
    obtain ⟨worktree, index⟩ := @undone_soft env (tagged env plan s) plan quick
    have adds : env.adds plan = true := (Bool.and_eq_true_iff.mp commits).1
    have at' := @atCommit_tagged env s plan
    refine ⟨history, worktree.trans at'.worktree, ?_⟩
    rw [index, adds, if_pos rfl]
    exact at'.index

/-- A release committed in a cycle is undone by a hard reset. -/
theorem undone (leaves : LeavesOff env plan s r') (cycle : plan.quick = false)
    (commits : env.commits plan = true) (back : env.rollsBack = true)
    (reset : env.succeeds .reset = true) : ∃ t, AtCommit plan s t ∧ r' = t.resetHard plan.saved := by
  cases leaves with
  | written adds => simp [Env.commits, adds] at commits
  | staged adds commits' => cases commits.symm.trans commits'
  | passed _ _ caught => cases back.symm.trans caught
  | rolledBack _ fails _ =>
    rcases @undone_cases env _ s plan atCommit_tagged with ⟨-, -, t, at', eq⟩ | ⟨none, -⟩
    · exact ⟨t, at', eq⟩
    · simp [cycle, reset] at none

end LeavesOff

end LibOsdp.Release
