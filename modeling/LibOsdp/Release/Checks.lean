import LibOsdp.Release.Publish

/-!
# What the checks of publish ask

`publish` first works out from the two manifests what it is to release and how, and guards the
working tree; the rest of its checks are about the release itself. Here both parts are said as
conditions on the checkout: a `publish` passes its guards, or all of its checks, exactly if the
conditions hold.
-/

set_option autoImplicit false

namespace LibOsdp.Release

open LibOsdp.Base

variable {env : Env} {r r' : Repo} {crate : Crate} {p q : Path} {tag : Tag} {plan : Plan}
  {args : PublishArgs} {state : Version} {quick : Bool}

/-- What `publish` allows to be changed before a quick release. -/
def allowedDirt (tag : Tag) : List Path :=
  versionFiles tag.crate ++ [.changelog tag] ++
    match tag.crate with
    | .libosdp => [.manifest .libosdp]
    | .libosdpSys => []

/-- `publish` up to its working-tree guard: the version it found, and whether it is quick. -/
def publishGuards (env : Env) (args : PublishArgs) : Tool (Version × Bool) := do
  let crate := args.crate
  let state ← readState crate
  let head ← headState env crate
  let quick := decide (state.core ≠ head.core)
  stopIf (!quick && !state.prerelease) (.nothingPrepared crate)
  stopIf (quick && head.prerelease) (.headInCycle crate head.released state)
  requireDirtOf env quick ⟨crate, state.released⟩
  return (state, quick)

/-- The checks of `publish` after its guards. -/
def publishInvariants (env : Env) (args : PublishArgs) : Version × Bool → Tool Plan :=
  fun (state, quick) => do
    let crate := args.crate
    let version := state.released
    let tag : Tag := ⟨crate, version⟩
    stopIf (← tagExists env tag) (.tagExists tag)
    validateChangelog env tag
    let found ← releaseInvariants env crate version
    let missing ← registryInvariants env args
    stopIf (found ++ missing ≠ []) (.problems (found ++ missing))
    call env .signingKey
    call env .revParseHead
    let r ← get
    return ⟨crate, state, quick, r.history⟩

theorem publishChecks_eq :
    publishChecks env args = publishGuards env args >>= publishInvariants env args := by
  simp only [publishChecks, publishGuards, publishInvariants, bind_assoc, pure_bind]

/-- The version in the manifest at HEAD, as `head_state` reads it. -/
def Repo.headVersion? (r : Repo) (crate : Crate) : Option Version :=
  (((r.head.get (.manifest crate)).map stripText).filter (· ≠ [])).bind fun text =>
    (parseManifestVersion crate text).toOption

theorem headState_eq_ok : headState env crate r = .ok state r' ↔
    env.succeeds .showHead = true ∧ r.headVersion? crate = some state ∧ r' = r := by
  rw [headState, get_bind, Repo.headVersion?]
  cases shown : env.succeeds .showHead with
  | false =>
    refine iff_of_false ?_ (by rintro ⟨⟨⟩, -⟩)
    intro h
    obtain ⟨text, t, read, -⟩ := bind_eq_ok_iff.mp h
    cases (lift_eq_ok.mp read).1
  | true =>
    rw [if_pos rfl, bind_eq_ok_iff]
    simp only [lift_eq_ok, okOr_eq_ok, Option.bind_eq_some_iff, toOption_eq_some]
    constructor
    · rintro ⟨text, t, ⟨read, rfl⟩, parsed, rfl⟩
      exact ⟨trivial, ⟨text, read, parsed⟩, rfl⟩
    · rintro ⟨-, ⟨text, read, parsed⟩, rfl⟩
      exact ⟨text, r', ⟨read, rfl⟩, parsed, rfl⟩

theorem porcelainNames_eq_ok {names : List Path} : porcelainNames env r = .ok names r' ↔
    env.succeeds .status = true ∧ names = r.porcelainNames env.renames ∧ r' = r := by
  rw [porcelainNames, bind_eq_ok_iff]
  constructor
  · rintro ⟨_, t, status, rest⟩
    obtain ⟨made, rfl⟩ := call_eq_ok status
    cases rest
    exact ⟨made, rfl, rfl⟩
  · rintro ⟨made, rfl, rfl⟩
    exact ⟨(), r', call_of_succeeds made, rfl⟩

/-- What the working-tree guard asks of the changed tracked files. -/
def DirtOk (env : Env) (r : Repo) (tag : Tag) : Bool → Prop
  | true => ∀ p ∈ r.porcelainNames env.renames, p ∈ allowedDirt tag
  | false => r.porcelainNames env.renames = []

theorem requireReleaseOnlyDirt_eq_ok {u : Unit} : requireReleaseOnlyDirt env tag r = .ok u r' ↔
    env.succeeds .status = true ∧ DirtOk env r tag true ∧ r' = r := by
  show (porcelainNames env >>= fun names =>
    stopIf (names.filter (· ∉ allowedDirt tag) ≠ []) (.stray _)) r = _ ↔ _
  have none : ∀ names : List Path, decide (names.filter (· ∉ allowedDirt tag) ≠ []) = false ↔
      ∀ p ∈ names, p ∈ allowedDirt tag := by
    intro names
    simp [List.filter_eq_nil_iff]
  simp only [bind_eq_ok_iff, porcelainNames_eq_ok, stopIf_eq_ok, none]
  constructor
  · rintro ⟨names, t, ⟨made, rfl, rfl⟩, allowed, rfl⟩
    exact ⟨made, allowed, rfl⟩
  · rintro ⟨made, allowed, rfl⟩
    exact ⟨_, r', ⟨made, rfl, rfl⟩, allowed, rfl⟩

theorem requireCleanTree_eq_ok {u : Unit} : requireCleanTree env r = .ok u r' ↔
    env.succeeds .status = true ∧ DirtOk env r tag false ∧ r' = r := by
  rw [requireCleanTree, bind_eq_ok_iff]
  simp only [porcelainNames_eq_ok, stopIf_eq_ok, decide_eq_false_iff_not, ne_eq, not_not]
  constructor
  · rintro ⟨names, t, ⟨made, rfl, rfl⟩, clean, rfl⟩
    exact ⟨made, clean, rfl⟩
  · rintro ⟨made, clean, rfl⟩
    exact ⟨_, r', ⟨made, rfl, rfl⟩, clean, rfl⟩

theorem requireDirtOf_eq_ok {u : Unit} : requireDirtOf env quick tag r = .ok u r' ↔
    env.succeeds .status = true ∧ DirtOk env r tag quick ∧ r' = r := by
  cases quick with
  | true => exact requireReleaseOnlyDirt_eq_ok
  | false => exact requireCleanTree_eq_ok

/-- What a `publish` that is past its guards found, `head` being the version at HEAD. -/
structure PastGuards (env : Env) (r : Repo) (crate : Crate) (state head : Version) (quick : Bool) :
    Prop where
  read : r.worktree.version? crate = some state
  shown : env.succeeds .showHead = true
  headed : r.headVersion? crate = some head
  inferred : quick = decide (state.core ≠ head.core)
  prepared : quick = true ∨ state.prerelease = true
  reconciled : quick = true → head.prerelease = false
  status : env.succeeds .status = true
  dirt : DirtOk env r ⟨crate, state.released⟩ quick

theorem publishGuards_eq_ok : publishGuards env args r = .ok (state, quick) r' ↔
    (∃ head, PastGuards env r args.crate state head quick) ∧ r' = r := by
  simp only [publishGuards, bind_eq_ok_iff, readState_eq_ok, headState_eq_ok, stopIf_eq_ok,
    requireDirtOf_eq_ok, Bool.and_eq_false_iff, Bool.not_eq_false']
  constructor
  · rintro ⟨found, t, ⟨read, rfl⟩, head, t, ⟨shown, headed, rfl⟩, _, t, ⟨prepared, rfl⟩, _, t,
      ⟨reconciled, rfl⟩, _, t, ⟨status, dirt, rfl⟩, rest⟩
    cases rest
    refine ⟨⟨head, read, shown, headed, rfl, prepared, ?_, status, dirt⟩, rfl⟩
    intro quick
    rcases reconciled with cycle | released
    · rw [quick] at cycle
      cases cycle
    · exact released
  · rintro ⟨⟨head, past⟩, rfl⟩
    obtain rfl := past.inferred
    refine ⟨state, r', ⟨past.read, rfl⟩, head, r', ⟨past.shown, past.headed, rfl⟩, (), r',
      ⟨past.prepared, rfl⟩, (), r', ⟨?_, rfl⟩, (), r', ⟨past.status, past.dirt, rfl⟩, rfl⟩
    cases differ : decide (state.core ≠ head.core) with
    | false => exact .inl rfl
    | true => exact .inr (past.reconciled differ)

theorem readPin_eq_ok {pin : Line} :
    readPin r = .ok pin r' ↔ r.worktree.pin? = some pin ∧ r' = r := by
  rw [readPin, bind_eq_ok_iff, Tree.pin?, Option.bind_eq_some_iff]
  simp only [readText_eq_ok, lift_eq_ok, okOr_eq_ok]
  constructor
  · rintro ⟨text, t, ⟨found, rfl⟩, read, rfl⟩
    exact ⟨⟨text, found, read⟩, rfl⟩
  · rintro ⟨⟨text, found, read⟩, rfl⟩
    exact ⟨text, r', ⟨found, rfl⟩, read, rfl⟩

/-- What `validate_changelog` asks of the release file. -/
structure ValidFile (env : Env) (r : Repo) (tag : Tag) (text : Text) : Prop where
  found : r.worktree.get (.changelog tag) = some text
  folded : (text.any fun line => "## Changes".toList <:+: line) = false
  valid : env.validates text tag = true

theorem validateChangelog_eq_ok {u : Unit} : validateChangelog env tag r = .ok u r' ↔
    (∃ text, ValidFile env r tag text) ∧ r' = r := by
  rw [validateChangelog, isFile, bind_assoc, get_bind]
  simp only [pure_bind, bind_eq_ok_iff, stopIf_eq_ok, readText_eq_ok]
  constructor
  · rintro ⟨_, t, ⟨-, rfl⟩, text, t, ⟨found, rfl⟩, _, t, ⟨folded, rfl⟩, valid, rfl⟩
    exact ⟨⟨text, found, folded, by simpa using valid⟩, rfl⟩
  · rintro ⟨⟨text, file⟩, rfl⟩
    refine ⟨(), r', ⟨by simp [file.found], rfl⟩, text, r', ⟨file.found, rfl⟩, (), r',
      ⟨file.folded, rfl⟩, ?_, rfl⟩
    simp [file.valid]

/-- What the checks after the guards found. -/
structure Releasable (env : Env) (args : PublishArgs) (r : Repo) (state : Version) : Prop where
  listed : env.succeeds .listTag = true
  untagged : ⟨args.crate, state.released⟩ ∉ r.tags
  file : ∃ text, ValidFile env r ⟨args.crate, state.released⟩ text
  found : releaseInvariants env args.crate state.released r = .ok [] r
  missing : registryInvariants env args r = .ok [] r
  key : env.succeeds .signingKey = true
  rev : env.succeeds .revParseHead = true

theorem call_iff {c : Call} {u : Unit} :
    call env c r = .ok u r' ↔ env.succeeds c = true ∧ r' = r := by
  constructor
  · exact call_eq_ok
  · rintro ⟨made, rfl⟩
    exact call_of_succeeds made

theorem tagExists_eq_ok {found : Bool} : tagExists env tag r = .ok found r' ↔
    env.succeeds .listTag = true ∧ found = decide (tag ∈ r.tags) ∧ r' = r := by
  rw [tagExists, bind_eq_ok_iff]
  simp only [call_iff]
  constructor
  · rintro ⟨_, t, ⟨made, rfl⟩, rest⟩
    cases rest
    exact ⟨made, rfl, rfl⟩
  · rintro ⟨made, rfl, rfl⟩
    exact ⟨(), r', ⟨made, rfl⟩, rfl⟩

theorem publishInvariants_eq_ok : publishInvariants env args (state, quick) r = .ok plan r' ↔
    Releasable env args r state ∧ plan = ⟨args.crate, state, quick, r.history⟩ ∧ r' = r := by
  constructor
  · intro h
    obtain ⟨tagged, exists?, h⟩ := reads_tagExists.bind_eq_ok h
    obtain ⟨_, new, h⟩ := (Reads.stopIf _ _).bind_eq_ok h
    obtain ⟨_, valid, h⟩ := reads_validateChangelog.bind_eq_ok h
    obtain ⟨found, invariants, h⟩ := (reads_releaseInvariants _ _).bind_eq_ok h
    obtain ⟨missing, registry, h⟩ := reads_registryInvariants.bind_eq_ok h
    obtain ⟨_, none, h⟩ := (Reads.stopIf _ _).bind_eq_ok h
    obtain ⟨_, key, h⟩ := reads_call.bind_eq_ok h
    obtain ⟨_, rev, h⟩ := reads_call.bind_eq_ok h
    cases h
    obtain ⟨listed, rfl, -⟩ := tagExists_eq_ok.mp exists?
    have none : found = [] ∧ missing = [] := by simpa using (stopIf_eq_ok.mp none).1
    obtain ⟨rfl, rfl⟩ := none
    refine ⟨⟨listed, ?_, (validateChangelog_eq_ok.mp valid).1, invariants, registry,
      (call_eq_ok key).1, (call_eq_ok rev).1⟩, rfl, rfl⟩
    simpa using (stopIf_eq_ok.mp new).1
  · rintro ⟨releasable, rfl, rfl⟩
    have new : false = decide (⟨args.crate, state.released⟩ ∈ r'.tags) :=
      (decide_eq_false releasable.untagged).symm
    refine bind_eq_ok_iff.mpr ⟨false, r', tagExists_eq_ok.mpr ⟨releasable.listed, new, rfl⟩, ?_⟩
    refine bind_eq_ok_iff.mpr ⟨(), r', rfl, ?_⟩
    refine bind_eq_ok_iff.mpr ⟨(), r', validateChangelog_eq_ok.mpr ⟨releasable.file, rfl⟩, ?_⟩
    refine bind_eq_ok_iff.mpr ⟨[], r', releasable.found, ?_⟩
    refine bind_eq_ok_iff.mpr ⟨[], r', releasable.missing, ?_⟩
    refine bind_eq_ok_iff.mpr ⟨(), r', rfl, ?_⟩
    refine bind_eq_ok_iff.mpr ⟨(), r', call_of_succeeds releasable.key, ?_⟩
    exact bind_eq_ok_iff.mpr ⟨(), r', call_of_succeeds releasable.rev, rfl⟩

/-- **What a `publish` that passes its checks found**, all of it. -/
theorem publishChecks_eq_ok : publishChecks env args r = .ok plan r' ↔
    (∃ head, PastGuards env r args.crate plan.state head plan.quick) ∧
      Releasable env args r plan.state ∧ plan.crate = args.crate ∧ plan.saved = r.history ∧
      r' = r := by
  rw [publishChecks_eq, bind_eq_ok_iff]
  simp only [Prod.exists, publishGuards_eq_ok, publishInvariants_eq_ok]
  constructor
  · rintro ⟨state, quick, t, ⟨past, rfl⟩, releasable, rfl, rfl⟩
    exact ⟨past, releasable, rfl, rfl, rfl⟩
  · rintro ⟨past, releasable, crate, saved, rfl⟩
    refine ⟨plan.state, plan.quick, r', ⟨past, rfl⟩, releasable, ?_, rfl⟩
    rw [← crate, ← saved]

end LibOsdp.Release
