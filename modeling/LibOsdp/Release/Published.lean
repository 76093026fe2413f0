import LibOsdp.Release.Rerun

/-!
# A release that was published

Where `publish` returns, it has committed the files of the release as they were in the working
tree, with the date of the day and without the marker, and everything else as it was in the index;
and it has tagged that commit. What a clean checkout of the tag holds is said here, for the gates
that are run on it.
-/

set_option autoImplicit false

namespace LibOsdp.Release

open LibOsdp.Base

variable {env : Env} {r r' s : Repo} {crate : Crate} {p : Path} {plan : Plan} {args : PublishArgs}

theorem commitRelease_ok {u : Unit} (h : commitRelease env plan s = .ok u r') :
    env.succeeds .signTag = true ∧ env.succeeds .verifyTag = true ∧ r' = tagged env plan s := by
  cases added : env.succeeds .add with
  | false =>
    rw [commitRelease_of_not_added added] at h
    cases h
  | true =>
    cases committed : env.succeeds .commit with
    | false =>
      rw [commitRelease_of_not_committed added committed] at h
      cases h
    | true =>
      rw [commitRelease_of_committed added committed] at h
      cases signed : env.succeeds .signTag with
      | false =>
        obtain ⟨e, ends⟩ := @ends_eq env plan .couldNotSign .signTag (s.add plan.staged).commit
        cases ends.symm.trans ((signAndVerify_of_unsigned signed).symm.trans h)
      | true =>
        rw [signAndVerify_of_signed signed] at h
        cases verified : env.succeeds .verifyTag with
        | false =>
          obtain ⟨e, ends⟩ := @ends_eq env plan .signatureCheckFailed .verifyTag
            { (s.add plan.staged).commit with tags := plan.tag :: s.tags }
          rw [verified] at h
          cases ends.symm.trans h
        | true =>
          rw [verified] at h
          cases h
          exact ⟨rfl, rfl, by rw [tagged, signed]; rfl⟩

theorem callsOf_ok {u : Unit} (h : callsOf env plan s = .ok u r') :
    env.succeeds .signTag = true ∧ env.succeeds .verifyTag = true ∧ r' = tagged env plan s := by
  rw [callsOf] at h
  split at h
  · obtain ⟨_, t, resolved, made⟩ := bind_eq_ok_iff.mp h
    obtain ⟨-, rfl⟩ := call_eq_ok resolved
    exact commitRelease_ok made
  · exact commitRelease_ok h

/-- What a `publish` that returned has done: its checks passed in `r`, it wrote `s`, and left
    `r'`. -/
structure Published (env : Env) (args : PublishArgs) (r : Repo) (plan : Plan) (s r' : Repo) :
    Prop where
  checks : publishChecks env args r = .ok plan r
  written : Written env r plan s
  signed : env.succeeds .signTag = true
  verified : env.succeeds .verifyTag = true
  left : r' = tagged env plan s

theorem published_of_ok {u : Unit} (h : cmdPublish env args r = .ok u r') :
    ∃ plan s, Published env args r plan s r' := by
  obtain ⟨plan, t, checks, rest⟩ := bind_eq_ok_iff.mp h
  obtain ⟨rfl, -⟩ := checked_of_ok checks
  have dated : t.dated plan.tag = true := by
    by_contra undated
    rcases @stampReleaseDate_cases env t plan.tag with ⟨dated, -⟩ | ⟨-, e, stopped⟩
    · exact undated dated
    · cases (bind_of_error stopped).symm.trans rest
  obtain ⟨s, written, eq⟩ := publish_written checks dated
  rw [eq] at h
  obtain ⟨signed, verified, left⟩ := callsOf_ok h
  exact ⟨plan, s, checks, written, signed, verified, left⟩

/-- A clean checkout of HEAD. -/
def Repo.checkout (r : Repo) : Repo := ⟨r.history, r.head, r.head, r.tags⟩

namespace Published

theorem tags (published : Published env args r plan s r') : r'.tags = plan.tag :: r.tags := by
  rw [published.left, tagged_tags, published.signed, if_pos rfl, published.written.confined.tags]

theorem history (published : Published env args r plan s r') :
    r'.history = (s.add plan.staged).index :: r.history := by
  rw [published.left, tagged_history, published.written.confined.history]

/-- What is in the commit. -/
theorem head (published : Published env args r plan s r') :
    r'.head.get p = if p ∈ plan.staged then s.worktree.get p else r.index.get p := by
  rw [Repo.head, published.history, List.headD_cons, Repo.add_index,
    published.written.confined.index]

theorem dirt (published : Published env args r plan s r') : DirtOk env r plan.tag plan.quick := by
  obtain ⟨⟨head, past⟩, -, crate, -, -⟩ := publishChecks_eq_ok.mp published.checks
  rw [Plan.tag, crate]
  exact past.dirt

/-- What `publish` did not stage and is in the index, nobody had changed. -/
theorem not_dirty (published : Published env args r plan s r') (other : p ∉ plan.staged)
    (tracked : (r.index.get p).isSome) : r.dirty p = false := by
  have dirt := published.dirt
  cases quick : plan.quick with
  | false =>
    rw [quick] at dirt
    exact Repo.not_dirty_of_porcelainNames dirt
  | true =>
    rw [quick] at dirt
    by_contra changed
    obtain ⟨q, -, -, removed⟩ := Repo.porcelainNames_subset_iff.mp dirt p
      (fun mem => other (mem_allowedDirt.mp mem)) (by simpa using changed)
    simp only [Repo.renamed, Bool.and_eq_true, decide_eq_true_eq] at removed
    rw [removed.1.1.2] at tracked
    cases tracked

/-- **The commit has what the working tree had**, of every file that was tracked. -/
theorem head_of_tracked (published : Published env args r plan s r')
    (tracked : (r.index.get p).isSome) : r'.head.get p = s.worktree.get p := by
  rw [published.head]
  split
  · rfl
  · next other =>
    rw [(Repo.dirty_eq_false.mp (published.not_dirty other tracked)).2 tracked]
    exact (published.written.confined.others p fun mem => other (mem_staged_of_written mem)).symm

/-- The released version is that of the commit. -/
theorem version (published : Published env args r plan s r') :
    r'.head.version? plan.crate = some plan.state.released := by
  have mem : .manifest plan.crate ∈ plan.staged := mem_staged_of_written (by simp)
  rw [Tree.version?, published.head, if_pos mem]
  exact published.written.version

/-- What the invariants of the release read is in the commit as it was in the working tree. -/
theorem sources (published : Published env args r plan s r')
    (manifests : ∀ crate, (r.index.get (.manifest crate)).isSome)
    (vendor : (r.index.get .vendor).isSome) : SameSources plan.crate r r'.checkout := by
  have written := published.written.sources
  have manifest : ∀ crate, r'.checkout.worktree.get (.manifest crate) =
      s.worktree.get (.manifest crate) := fun crate => published.head_of_tracked (manifests crate)
  refine ⟨(published.head_of_tracked vendor).trans written.vendor, ?_, fun libosdp => ?_⟩
  · rw [← written.pin, Tree.pin?, manifest, Tree.pin?]
  · rw [← written.sys libosdp, Tree.version?, manifest, Tree.version?]

theorem plain (published : Published env args r plan s r') (plain : r.PlainlyDated args.crate)
    {text : Text} (found : r.worktree.get (.changelog plan.tag) = some text) :
    DatesPlainly text := by
  obtain ⟨⟨head, past⟩, -, crate, -, -⟩ := publishChecks_eq_ok.mp published.checks
  rw [Plan.tag, crate] at found
  exact plain plan.state past.read text found

/-- The release file of the commit is that of the working tree, with the date of the day. -/
theorem file (published : Published env args r plan s r') : ∃ old new,
    r.worktree.get (.changelog plan.tag) = some old ∧
    r'.head.get (.changelog plan.tag) = some new ∧
    subOnce (dateOpening.isPrefixOf ·) (dateOpening ++ env.today) old = some new := by
  obtain ⟨old, new, before, after, set⟩ := published.written.file
  refine ⟨old, new, before, ?_, set⟩
  rw [published.head, if_pos (mem_staged_of_written (by simp)), after]

end Published

end LibOsdp.Release
