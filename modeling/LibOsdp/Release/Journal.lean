import LibOsdp.Base.Journal
import LibOsdp.Release.Published

/-!
# The releases over the life of a checkout

A checkout shows a journal: of each crate the version that its manifest is at, and the versions
that were tagged. Every step on the checkout, however it ends, is one that a journal can take. So
over any run no version goes back, no release is lost, and the releases of a crate rise.
-/

set_option autoImplicit false

namespace LibOsdp.Release

open LibOsdp.Base

variable {env : Env} {r r' s t : Repo} {m : Manifests} {crate : Crate} {p : Path} {tag : Tag}
  {plan : Plan} {args : PublishArgs}

/-- `X.Y.Z` of a version. -/
abbrev Core := Nat ×ₗ Nat ×ₗ Nat

abbrev Releases := Journal Crate Core

/-- The tag of a release. -/
def Tag.ofEntry (e : Crate × Core) : Tag :=
  ⟨e.1, ⟨(ofLex e.2).1, (ofLex (ofLex e.2).2).1, (ofLex (ofLex e.2).2).2, false⟩⟩

/-- What the checkout shows of the releases, and that the commits of `past` are still there. -/
structure Shows (j : Releases) (past : List Tree) (r : Repo) : Prop where
  stated : ∃ m, Stated m r ∧ ∀ crate, (m.version crate).core = j.now crate
  tags : r.tags = j.log.map Tag.ofEntry
  history : past <:+ r.history

/-- The checkout shows what `j` became. -/
def Grown (j : Releases) (past : List Tree) (r : Repo) : Prop :=
  ∃ j', Journal.Steps j j' ∧ Shows j' past r

variable {j j' : Releases} {past : List Tree}

theorem Shows.grown (shows : Shows j past r) : Grown j past r := ⟨j, .refl, shows⟩

theorem Grown.trans (steps : Journal.Steps j j') (grown : Grown j' past r) : Grown j past r := by
  obtain ⟨last, rest, shows⟩ := grown
  exact ⟨last, steps.trans rest, shows⟩

theorem Shows.congr (shows : Shows j past r) (history : s.history = r.history)
    (tags : s.tags = r.tags)
    (same : ∀ crate, s.worktree.get (.manifest crate) = r.worktree.get (.manifest crate)) :
    Shows j past s := by
  obtain ⟨⟨m, stated, now⟩, log, kept⟩ := shows
  exact ⟨⟨m, Tree.Stated.congr stated same, now⟩, tags.trans log, history ▸ kept⟩

/-- The versions in the manifests are those of the journal. -/
theorem Shows.now (shows : Shows j past r) {v : Version}
    (read : r.worktree.version? crate = some v) : j.now crate = v.core := by
  obtain ⟨m, stated, now⟩ := shows.stated
  rw [← now crate, Option.some.inj ((stated.version crate).symm.trans read)]

/-! ## What leaves the releases alone -/

/-- Scripts that keep what the manifests say, and touch neither the tags nor the commits. -/
theorem keeps_shows {α : Type} {x : Tool α} {paths : List Path}
    (stated : ∀ m, Keeps (Stated m) x) (confined : ∀ r, Keeps (Confined paths r) x) :
    Keeps (Shows j past) x := by
  constructor
  rintro r ⟨⟨m, states, now⟩, log, kept⟩
  obtain ⟨history, tags, -, -⟩ := (confined r).after r Confined.refl
  exact ⟨⟨m, (stated m).after r states, now⟩, tags.trans log, history ▸ kept⟩

theorem keeps_shows_gitAdd (paths : List Path) : Keeps (Shows j past) (gitAdd env paths) :=
  reads_call.keeps.bind fun _ => Keeps.modify fun _ shows => shows.congr rfl rfl fun _ => rfl

theorem keeps_shows_writePin (v : Version) : Keeps (Shows j past) (writePin v) := by
  constructor
  rintro r ⟨⟨m, stated, now⟩, log, kept⟩
  obtain ⟨text, written, stated'⟩ := writePin_eq stated v
  rw [left_of_ok written]
  refine ⟨⟨m.setPin v, stated', fun crate => ?_⟩, log, kept⟩
  rw [← now crate]
  cases crate <;> rfl

theorem keeps_shows_refreshPin : Keeps (Shows j past) refreshPinIfMidCycle := by
  apply reads_readState.keeps.bind
  intro state
  split
  · apply reads_readState.keeps.bind
    intro sys
    exact (keeps_shows_writePin sys).bind fun _ => (Reads.pure _).keeps
  · exact (Reads.pure _).keeps

theorem keeps_shows_stagePin : Keeps (Shows j past) (stagePin crate) := by
  cases crate with
  | libosdpSys => exact keeps_shows_refreshPin
  | libosdp =>
    apply reads_readState.keeps.bind
    intro sys
    exact (keeps_shows_writePin sys).bind fun _ => (Reads.pure _).keeps

theorem keeps_shows_nextVersion {args : PrepareArgs} {state : Version} :
    Keeps (Shows j past) (nextVersion env args state) :=
  keeps_shows (fun _ => keeps_nextVersion args state) fun _ =>
    Confined.keeps_nextVersion fun _ mem => mem

theorem keeps_shows_scaffold {hints : List Line} :
    Keeps (Shows j past) (scaffoldChangelog env tag hints) :=
  keeps_shows (fun _ => keeps_scaffoldChangelog hints) fun _ =>
    Confined.keeps_scaffoldChangelog (List.mem_singleton_self _)

theorem keeps_shows_cmdVendor (ref : Line) : Keeps (Shows j past) (cmdVendor env ref) := by
  apply reads_requireCleanTree.keeps.bind
  intro _
  apply Keeps.bind (keeps_shows (fun _ => keeps_checkoutVendor ref) fun _ =>
    Confined.keeps_checkoutVendor (List.mem_singleton_self _))
  intro _
  apply Keeps.bind (keeps_shows (fun _ => keeps_regenerateBindings) fun _ =>
    Confined.keeps_regenerateBindings (List.mem_singleton_self _))
  intro _
  apply reads_refreshLockfile.keeps.bind
  intro _
  apply reads_vendorVersion.keeps.bind
  intro vendored
  exact keeps_shows_refreshPin.bind fun _ => keeps_shows_gitAdd _

/-! ## What the commands do to them -/

/-- **A version that goes up** is a step of the journal. -/
theorem grown_writeState (shows : Shows j past r) {v : Version} (up : j.now crate < v.core) :
    ∃ s, writeState crate v r = .ok () s ∧ Shows (j.raised crate v.core) past s := by
  obtain ⟨⟨m, stated, now⟩, log, kept⟩ := shows
  obtain ⟨text, written, stated'⟩ := writeState_eq stated crate v
  refine ⟨_, written, ⟨m.setVersion v crate, stated', fun other => ?_⟩, log, kept⟩
  by_cases same : other = crate
  · subst same
    rw [Journal.now_raised]
    cases other <;> rfl
  · rw [Journal.now_raised_of_ne same, ← now other]
    cases other <;> cases crate <;> first | rfl | exact absurd rfl same

/-- **A `prepare` raises a version**, or leaves the releases alone. -/
theorem grown_cmdPrepare (shows : Shows j past r) (args : PrepareArgs) :
    Grown j past (left (cmdPrepare env args) r) := by
  have stops : ∀ t, Shows j past t → Grown j past t := fun _ => Shows.grown
  refine reads_readState.keeps.left_bind shows stops fun state t read shows => ?_
  obtain ⟨read, rfl⟩ := readState_eq_ok.mp read
  have now := shows.now read
  refine (Reads.stopIf _ _).keeps.left_bind shows stops fun _ t _ shows => ?_
  refine reads_headState.keeps.left_bind shows stops fun head t _ shows => ?_
  refine (Reads.stopIf _ _).keeps.left_bind shows stops fun _ t _ shows => ?_
  refine keeps_shows_nextVersion.left_bind shows stops fun (target, hints) t chosen shows => ?_
  have up : state.core < target.core := lt_core_of_nextVersion chosen
  refine reads_isFile.keeps.left_bind shows stops fun _ t _ shows => ?_
  refine (Reads.stopIf _ _).keeps.left_bind shows stops fun _ t _ shows => ?_
  refine reads_tagExists.keeps.left_bind shows stops fun _ t _ shows => ?_
  refine (Reads.stopIf _ _).keeps.left_bind shows stops fun _ t _ shows => ?_
  -- the version goes up here, and nothing after it touches one
  have up' : j.now args.crate < Version.core { target with prerelease := args.cycle } := by
    rw [now]
    exact up
  obtain ⟨s, written, shows'⟩ := grown_writeState shows up'
  rw [left_bind_of_ok written]
  refine Grown.trans (.single (.raise _ _ up')) (Shows.grown ?_)
  refine keeps_shows_stagePin.left_bind shows' (fun _ => id) fun staged t _ shows => ?_
  refine reads_refreshLockfile.keeps.left_bind shows (fun _ => id) fun _ t _ shows => ?_
  refine keeps_shows_scaffold.left_bind shows (fun _ => id) fun _ t _ shows => ?_
  exact (keeps_shows_gitAdd _).after t shows

/-- What the calls of a `publish` leave of the tags and the commits. -/
theorem tags_of_callsOf (untagged : plan.tag ∉ s.tags) (saved : plan.saved = s.history) :
    ((left (callsOf env plan) s).tags = s.tags ∨
      (left (callsOf env plan) s).tags = plan.tag :: s.tags) ∧
      s.history <:+ (left (callsOf env plan) s).history := by
  cases ran : callsOf env plan s with
  | ok u t =>
    rw [left_of_ok ran]
    obtain ⟨signed, -, rfl⟩ := callsOf_ok ran
    rw [tagged_tags, tagged_history, signed]
    exact ⟨.inr rfl, List.suffix_cons _ _⟩
  | error e t =>
    rw [left_of_error ran]
    cases callsOf_fails ran with
    | written => exact ⟨.inl rfl, List.suffix_refl _⟩
    | staged => exact ⟨.inl rfl, List.suffix_refl _⟩
    | passed commits fails caught =>
      rw [tagged_tags, tagged_history]
      refine ⟨?_, List.suffix_cons _ _⟩
      cases env.succeeds .signTag with
      | true => exact .inr rfl
      | false => exact .inl rfl
    | rolledBack commits fails caught =>
      rw [undone_tags, undone_history, tagged_tags, tagged_history, saved]
      refine ⟨?_, ?_⟩
      · cases env.succeeds .signTag with
        | true =>
          cases env.succeeds .deleteTag with
          | true => exact .inl (by simp)
          | false => exact .inr rfl
        | false => exact .inl (by simp [List.erase_of_not_mem untagged])
      · split
        · exact List.suffix_refl _
        · exact List.suffix_cons _ _

/-- What a `publish` past its checks leaves of the tags and the commits. -/
theorem tags_of_cmdPublish (checks : publishChecks env args r = .ok plan r) :
    ((left (cmdPublish env args) r).tags = r.tags ∨
      (left (cmdPublish env args) r).tags = plan.tag :: r.tags) ∧
      r.history <:+ (left (cmdPublish env args) r).history := by
  obtain ⟨-, releasable, crate, saved, -⟩ := publishChecks_eq_ok.mp checks
  have untagged : plan.tag ∉ r.tags := by
    rw [Plan.tag, crate]
    exact releasable.untagged
  cases dated : r.dated plan.tag with
  | false =>
    rcases @stampReleaseDate_cases env r plan.tag with ⟨dated', -⟩ | ⟨-, e, stopped⟩
    · cases dated.symm.trans dated'
    · rw [cmdPublish, left_bind_of_ok checks, left_bind_of_error stopped]
      exact ⟨.inl rfl, List.suffix_refl _⟩
  | true =>
    obtain ⟨s, written, eq⟩ := publish_written checks dated
    have same : left (cmdPublish env args) r = left (callsOf env plan) s := by rw [left, left, eq]
    rw [same, ← written.confined.tags, ← written.confined.history]
    rw [← written.confined.tags] at untagged
    exact tags_of_callsOf untagged (saved.trans written.confined.history.symm)

/-- **A `publish` records a release**, or leaves the releases alone. -/
theorem grown_cmdPublish (shows : Shows j past r) : Grown j past (left (cmdPublish env args) r) := by
  cases checks : publishChecks env args r with
  | error e t =>
    obtain rfl := reads_publishChecks.eq_of_error checks
    have same : left (cmdPublish env args) t = t := left_bind_of_error checks
    rw [same]
    exact shows.grown
  | ok plan t =>
    obtain ⟨⟨head, past'⟩, releasable, crate, saved, rfl⟩ := publishChecks_eq_ok.mp checks
    obtain ⟨m, stated, now⟩ := shows.stated
    have current : j.now plan.crate = plan.state.core := by
      rw [crate]
      exact shows.now past'.read
    have cores : ∀ other, ((if env.clears t plan then m.setVersion plan.state.released plan.crate
        else m).version other).core = j.now other := by
      intro other
      split
      · by_cases same : other = plan.crate
        · subst same
          rw [current]
          cases plan.crate <;> rfl
        · rw [← now other]
          generalize plan.crate = released at same
          cases other <;> cases released <;> first | rfl | exact absurd rfl same
      · exact now other
    have stated' := publish_stated stated checks
    obtain ⟨tags, history⟩ := tags_of_cmdPublish checks
    have kept := shows.history.trans history
    rcases tags with same | tagged
    · exact Shows.grown ⟨⟨_, stated', cores⟩, same.trans shows.tags, kept⟩
    · -- the release is new, as its tag is
      have entry : Tag.ofEntry (plan.crate, j.now plan.crate) = plan.tag := by
        rw [current]
        rfl
      have new : (plan.crate, j.now plan.crate) ∉ j.log := by
        intro mem
        have old := List.mem_map_of_mem (f := Tag.ofEntry) mem
        rw [entry, ← shows.tags, Plan.tag, crate] at old
        exact releasable.untagged old
      refine ⟨j.recorded plan.crate, .single (.record _ new), ⟨_, stated', cores⟩, ?_, kept⟩
      rw [tagged, shows.tags, Journal.recorded, List.map_cons, entry]

/-- **Every step is one of the journal**, or none. -/
theorem grown_step {a : Act} (shows : Shows j past r) (hstep : step r a = some r') :
    Grown j past r' := by
  obtain rfl := Option.some.inj hstep
  have stops : ∀ t, Shows j past t → Grown j past t := fun _ => Shows.grown
  cases a with
  | prepare env args =>
    refine (Reads.stopIf _ _).keeps.left_bind shows stops fun _ t _ shows => ?_
    refine reads_call.keeps.left_bind shows stops fun _ t _ shows => ?_
    exact grown_cmdPrepare shows args
  | vendor env ref =>
    refine reads_call.keeps.left_bind shows stops fun _ t _ shows => ?_
    exact ((keeps_shows_cmdVendor ref).after t shows).grown
  | publish env args =>
    refine reads_call.keeps.left_bind shows stops fun _ t _ shows => ?_
    exact grown_cmdPublish shows
  | edit tag text =>
    have kept : Shows j past (r.write (.changelog tag) text) := by
      refine shows.congr rfl rfl fun crate => ?_
      rw [Repo.write_worktree, if_neg (by simp)]
    exact kept.grown
  | stage paths =>
    have kept : Shows j past (r.add paths) := shows.congr rfl rfl fun _ => rfl
    exact kept.grown
  | commit =>
    obtain ⟨stated, tags, kept⟩ := shows
    exact Shows.grown ⟨stated, tags, kept.trans (List.suffix_cons _ _)⟩

theorem grown_of_run {hops : List (Hop Repo Act)} (shows : Shows j past r)
    (run : Run step r hops r') : Grown j past r' := by
  apply run.always shows.grown
  rintro x a y ⟨j', steps, shows⟩ hstep
  exact (grown_step shows hstep).trans steps

/-! ## Over the life of a checkout -/

/-- The releases of a crate rise, up to the version that it is at. -/
structure Orderly (r : Repo) : Prop where
  legible : ∃ m, Stated m r
  released : ∀ tag ∈ r.tags, tag.version.prerelease = false
  behind : ∀ tag ∈ r.tags, ∀ v, r.worktree.version? tag.crate = some v →
    tag.version.core ≤ v.core
  rising : r.tags.Pairwise fun newer older =>
    newer.crate = older.crate → older.version.core < newer.version.core

theorem Shows.orderly (shows : Shows j past r) (rising : j.Rising) : Orderly r := by
  obtain ⟨m, stated, -⟩ := shows.stated
  refine ⟨⟨m, stated⟩, ?_, ?_, ?_⟩
  · intro tag mem
    rw [shows.tags] at mem
    obtain ⟨e, -, rfl⟩ := List.mem_map.mp mem
    rfl
  · intro tag mem v read
    rw [shows.tags] at mem
    obtain ⟨e, inside, rfl⟩ := List.mem_map.mp mem
    rw [← shows.now read]
    exact rising.behind e inside
  · rw [shows.tags, List.pairwise_map]
    exact rising.rising

theorem Orderly.shows (orderly : Orderly r) : ∃ j, Shows j r.history r ∧ j.Rising := by
  obtain ⟨m, stated⟩ := orderly.legible
  let entry (tag : Tag) : Crate × Core := (tag.crate, tag.version.core)
  have tags : r.tags = (r.tags.map entry).map Tag.ofEntry := by
    rw [List.map_map]
    refine (List.map_id' _).symm.trans (List.map_congr_left fun tag mem => ?_)
    have plain := orderly.released tag mem
    obtain ⟨crate, major, minor, patch, dev⟩ := tag
    cases plain
    rfl
  refine ⟨⟨fun crate => (m.version crate).core, r.tags.map entry⟩,
    ⟨⟨m, stated, fun _ => rfl⟩, tags, List.suffix_refl _⟩, ?_, ?_⟩
  · intro e mem
    obtain ⟨tag, inside, rfl⟩ := List.mem_map.mp mem
    exact orderly.behind tag inside _ (stated.version tag.crate)
  · rw [List.pairwise_map]
    exact orderly.rising

/-- **Releases only grow**: over any run of the tool and of steps by hand, whatever its calls
    answer, no version goes back, no commit and no release is lost, and what is released of a crate
    is above all that was. -/
theorem releases_only_grow {hops : List (Hop Repo Act)} (start : Orderly r)
    (run : Run step r hops r') : Orderly r' ∧ r.tags <:+ r'.tags ∧ r.history <:+ r'.history ∧
      ∀ crate v v', r.worktree.version? crate = some v → r'.worktree.version? crate = some v' →
        v.core ≤ v'.core := by
  obtain ⟨j, shows, rising⟩ := start.shows
  obtain ⟨j', steps, shows'⟩ := grown_of_run shows run
  refine ⟨shows'.orderly (Journal.Steps.rising steps rising), ?_, shows'.history, ?_⟩
  · rw [shows.tags, shows'.tags]
    exact (Journal.Steps.log_suffix steps).map _
  · intro crate v v' before after
    rw [← shows.now before, ← shows'.now after]
    exact Journal.Steps.le_now steps crate

/-- A release whose signature does not verify, and whose tag cannot be deleted, is a release. -/
theorem releases_only_grow_unverified : ∃ hops r', Run step bothInCycle hops r' ∧ Orderly r' ∧
    r'.tags = [⟨.libosdpSys, ⟨4, 0, 0, false⟩⟩] ∧ bothInCycle.history <:+ r'.history := by
  let unverified : Act :=
    .publish (sampleEnv [.verifyTag, .deleteTag]) { crate := .libosdpSys }
  have run : Run step bothInCycle _ _ := Run.single (a := unverified) rfl
  have start : Orderly bothInCycle := by
    refine ⟨⟨⟨⟨4, 0, 0, true⟩, ⟨1, 0, 0, true⟩, "=4.0.0-dev".toList⟩, ?_, by decide +kernel⟩, ?_, ?_,
      .nil⟩
    · rintro (_ | _) <;> decide +kernel
    · exact List.forall_mem_nil _
    · exact List.forall_mem_nil _
  obtain ⟨orderly, -, history, -⟩ := releases_only_grow start run
  exact ⟨_, _, run, orderly, by decide +kernel, history⟩

end LibOsdp.Release
