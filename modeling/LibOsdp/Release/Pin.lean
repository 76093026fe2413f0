import LibOsdp.Base.Lts
import LibOsdp.Release.Publish

/-!
# The pin over the life of a checkout

Runs of the release tool on one checkout, in any order and with any failures, and what a
maintainer does by hand between them. Every step but one keeps the requirement of `libosdp` in
step with `libosdp-sys` while `libosdp` is in a cycle: the exception is a `publish` of
`libosdp-sys` out of a cycle of its own, which clears the marker of `libosdp-sys` and leaves the
requirement on the marked version.
-/

set_option autoImplicit false

namespace LibOsdp.Release

open LibOsdp.Base

/-- A run of the tool in its environment, or a step by hand. -/
inductive Act where
  | prepare (env : Env) (args : PrepareArgs)
  | vendor (env : Env) (ref : Line)
  | publish (env : Env) (args : PublishArgs)
  /-- Rewrite a release file. -/
  | edit (tag : Tag) (text : Text)
  /-- `git add`, by hand. -/
  | stage (paths : List Path)
  /-- `git commit`, by hand. -/
  | commit

/-- `main`: parse the arguments, find the checkout, run the command. -/
def Act.script : Act → Tool Unit
  | .prepare env args => do
    stopIf args.refused .usage
    call env .showTopLevel
    cmdPrepare env args
  | .vendor env ref => do
    call env .showTopLevel
    cmdVendor env ref
  | .publish env args => do
    call env .showTopLevel
    cmdPublish env args
  | .edit tag text => modify (Repo.write (.changelog tag) text)
  | .stage paths => modify (Repo.add paths)
  | .commit => modify Repo.commit

/-- A step leaves what its script leaves, finished or not. -/
def step (r : Repo) (a : Act) : Option Repo := some (left a.script r)

/-- While `libosdp` carries the marker, it requires exactly the version of `libosdp-sys`. -/
def PinInStep (t : Tree) : Prop :=
  ∀ v, t.version? .libosdp = some v → v.prerelease = true →
    ∃ sys, t.version? .libosdpSys = some sys ∧ t.pin? = some (exactly sys)

/-- The manifests can be read, and the pin is in step. -/
structure Consistent (r : Repo) : Prop where
  legible : ∃ m, Stated m r
  inStep : PinInStep r.worktree

def Repo.inCycle (r : Repo) (crate : Crate) : Bool :=
  (r.worktree.version? crate).any (·.prerelease)

/-- A `publish` of `libosdp-sys` that passes its checks in the middle of a cycle of `libosdp`,
clears the marker of `libosdp-sys`, and is not undone. -/
def Act.strands (r : Repo) : Act → Bool
  | .publish env args =>
    args.crate = .libosdpSys && r.inCycle .libosdp && env.succeeds .showTopLevel &&
      match publishChecks env args r with
      | .ok plan _ => env.clears r plan
      | .error .. => false
  | _ => false

variable {env : Env} {args : PublishArgs} {r r' : Repo} {m : Manifests} {a : Act}

theorem pinInStep_iff {t : Tree} (stated : t.Stated m) : PinInStep t ↔ m.InStep := by
  constructor
  · intro inStep dev
    obtain ⟨sys, version, pin⟩ := inStep m.libosdp (stated.version .libosdp) dev
    obtain rfl : m.sys = sys := Option.some.inj ((stated.version .libosdpSys).symm.trans version)
    exact Option.some.inj (stated.pin.symm.trans pin)
  · intro inStep v version dev
    obtain rfl : m.libosdp = v := Option.some.inj ((stated.version .libosdp).symm.trans version)
    exact ⟨m.sys, stated.version .libosdpSys, stated.pin.trans (congrArg some (inStep dev))⟩

theorem sound_iff : Sound r ↔ Consistent r := by
  constructor
  · rintro ⟨m, stated, inStep⟩
    exact ⟨⟨m, stated⟩, (pinInStep_iff stated).mpr inStep⟩
  · rintro ⟨⟨m, stated⟩, inStep⟩
    exact ⟨m, stated, (pinInStep_iff stated).mp inStep⟩

theorem inCycle_eq (stated : Stated m r) (crate : Crate) :
    r.inCycle crate = (m.version crate).prerelease := by
  rw [Repo.inCycle, stated.version crate]
  rfl

/-- Publishing `libosdp` takes it out of its cycle. -/
theorem inStep_of_released (v : Version) : (m.setVersion v.released .libosdp).InStep := by
  intro dev
  cases dev

/-- **A released `libosdp-sys` is not what a marked requirement names.** -/
theorem not_inStep_of_released (inStep : m.InStep) (dev : m.libosdp.prerelease = true)
    (marked : m.sys.prerelease = true) : ¬ (m.setVersion m.sys.released .libosdpSys).InStep := by
  intro still
  have pin : exactly m.sys = exactly m.sys.released := (inStep dev).symm.trans (still dev)
  have same : m.sys = m.sys.released := Version.str_inj (List.cons.inj pin).2
  have unmarked : m.sys.prerelease = false := congrArg Version.prerelease same
  rw [marked] at unmarked
  cases unmarked

theorem strands_publish {plan : Plan} (stated : Stated m r)
    (top : env.succeeds .showTopLevel = true) (checks : publishChecks env args r = .ok plan r) :
    (Act.publish env args).strands r =
      (decide (args.crate = .libosdpSys) && m.libosdp.prerelease && env.clears r plan) := by
  rw [Act.strands, inCycle_eq stated, top, checks, Bool.and_true]
  rfl

/-- What a `publish` past its checks says, and whether that is in step. -/
theorem cleared_inStep {plan : Plan} (stated : Stated m r) (inStep : m.InStep)
    (checked : Checked r args plan) (clears : env.clears r plan = true) :
    (m.setVersion plan.state.released plan.crate).InStep ↔
      (decide (args.crate = .libosdpSys) && m.libosdp.prerelease) = false := by
  have state : m.version plan.crate = plan.state :=
    Option.some.inj ((stated.version plan.crate).symm.trans checked.state)
  have marked : plan.state.prerelease = true := by
    simp only [Env.clears, Bool.and_eq_true] at clears
    exact clears.1.1
  rw [← checked.crate]
  cases crate : plan.crate with
  | libosdp => exact iff_of_true (inStep_of_released plan.state) rfl
  | libosdpSys =>
    have sys : m.sys = plan.state := by rw [← state, crate]; rfl
    rw [← sys] at marked ⊢
    cases dev : m.libosdp.prerelease with
    | false => exact iff_of_true (fun dev' => absurd (dev'.symm.trans dev) (by decide)) rfl
    | true => exact iff_of_false (not_inStep_of_released inStep dev marked) (by decide)

/-- A `publish` is the one command that can leave the pin behind, and `strands` says when. -/
theorem publish_step (sound : Sound r) : ∃ m', Stated m' (left (Act.publish env args).script r) ∧
    (m'.InStep ↔ (Act.publish env args).strands r = false) := by
  obtain ⟨m, stated, inStep⟩ := sound
  rw [Act.script, left_call_bind]
  cases top : env.succeeds .showTopLevel with
  | false => exact ⟨m, stated, iff_of_true inStep (by simp [Act.strands, top])⟩
  | true =>
    rw [if_pos rfl]
    cases checks : publishChecks env args r with
    | error e r' =>
      obtain rfl := reads_publishChecks.eq_of_error checks
      have same : left (cmdPublish env args) r' = r' := left_bind_of_error checks
      rw [same]
      exact ⟨m, stated, iff_of_true inStep (by simp [Act.strands, checks])⟩
    | ok plan r' =>
      obtain ⟨rfl, checked⟩ := checked_of_ok checks
      refine ⟨_, publish_stated stated checks, ?_⟩
      rw [strands_publish stated top checks]
      cases clears : env.clears r' plan with
      | false => exact iff_of_true inStep (Bool.and_false _)
      | true =>
        rw [if_pos rfl, Bool.and_true]
        exact cleared_inStep stated inStep checked clears

/-- **One step**: from a consistent checkout the pin stays in step exactly if it does not strand. -/
theorem step_exact (consistent : Consistent r) (h : step r a = some r') :
    (PinInStep r'.worktree ↔ a.strands r = false) ∧ (a.strands r = false → Consistent r') := by
  obtain rfl := Option.some.inj h
  have sound := sound_iff.mpr consistent
  have kept : a.strands r = false → Sound (left a.script r) →
      (PinInStep (left a.script r).worktree ↔ a.strands r = false) ∧
        (a.strands r = false → Consistent (left a.script r)) := by
    intro quiet sound'
    have consistent' := sound_iff.mp sound'
    exact ⟨iff_of_true consistent'.inStep quiet, fun _ => consistent'⟩
  cases a with
  | prepare env args =>
    refine kept rfl (Keeps.after ?_ r sound)
    exact (Reads.stopIf _ _).keeps.bind fun _ => reads_call.keeps.bind fun _ => sound_cmdPrepare args
  | vendor env ref =>
    exact kept rfl ((reads_call.keeps.bind fun _ => sound_cmdVendor ref).after r sound)
  | publish env args =>
    obtain ⟨m', stated', exactly'⟩ := @publish_step env args r sound
    refine ⟨(pinInStep_iff stated').trans exactly', fun quiet => ?_⟩
    exact sound_iff.mp ⟨m', stated', exactly'.mpr quiet⟩
  | edit tag text =>
    obtain ⟨m, stated, inStep⟩ := sound
    exact kept rfl ⟨m, stated.write text fun _ => by simp, inStep⟩
  | stage paths => exact kept rfl sound
  | commit => exact kept rfl sound

theorem consistent_of_run {hops : List (Hop Repo Act)} (start : Consistent r)
    (run : Run step r hops r') (quiet : ∀ h ∈ hops, h.act.strands h.src = false) :
    Consistent r' := by
  apply run.invariant quiet start
  intro x a y consistent quiet hstep
  exact (step_exact consistent hstep).2 quiet

/-- **The pin stays in step exactly while no step strands it**: in a run from a consistent
    checkout, whatever its calls answer. -/
theorem pin_in_step_exact {hops : List (Hop Repo Act)} (start : Consistent r)
    (run : Run step r hops r') :
    (∀ h ∈ hops, PinInStep h.dst.worktree) ↔ ∀ h ∈ hops, h.act.strands h.src = false := by
  induction run with
  | nil => exact iff_of_true (List.forall_mem_nil _) (List.forall_mem_nil _)
  | snoc run hstep ih =>
    rw [List.forall_mem_append, List.forall_mem_append, ih]
    apply and_congr_right
    intro quiet
    rw [List.forall_mem_singleton, List.forall_mem_singleton]
    exact (step_exact (consistent_of_run start run quiet) hstep).1

/-- A committed checkout whose manifests say these versions and this requirement. -/
def sample (sys libosdp pin : String) (releases : Tree) : Repo :=
  let tree : Tree :=
    [(.manifest .libosdpSys, ["[package]".toList, versionSetting.render sys.toList]),
      (.manifest .libosdp, ["[package]".toList, versionSetting.render libosdp.toList,
        "[dependencies]".toList, sysDep.render pin.toList]),
      (.vendor, ["91f4c0a".toList]), (.bindings, [])] ++ releases
  ⟨[tree], tree, tree, []⟩

/-- Both crates are in a cycle, and the release file of `libosdp-sys` is finished. -/
def bothInCycle : Repo :=
  sample "4.0.0-dev" "1.0.0-dev" "=4.0.0-dev"
    [(.changelog ⟨.libosdpSys, ⟨4, 0, 0, false⟩⟩, [dateOpening ++ "2026-10-05".toList])]

/-- An environment where the library is at 4.0.0 and the calls in `fails` fail. -/
def sampleEnv (fails : List Call) : Env where
  succeeds c := c ∉ fails
  vendorTags := ["v4.0.0".toList]
  revParse ref := if ref = "refs/tags/v4.0.0".toList then some "91f4c0a".toList else none
  cmakeLists _ := some ["project(libosdp VERSION 4.0.0)".toList]
  bindings := none
  vendorHints := []
  rustHints := []
  renames := []
  today := "2026-10-06".toList
  validates _ _ := true
  onCratesIo _ := true

/-- A `prepare` of `libosdp-sys` that stops at the lock file, with `libosdp` in its cycle. -/
theorem pin_in_step_exact_stopped : ∃ hops r',
    Run step (sample "3.2.7" "1.0.0-dev" "=3.2.7" []) hops r' ∧
    (∀ h ∈ hops, PinInStep h.dst.worktree) ∧ r'.worktree.pin? = some "=4.0.0".toList := by
  let r := sample "3.2.7" "1.0.0-dev" "=3.2.7" []
  let m : Manifests := ⟨⟨3, 2, 7, false⟩, ⟨1, 0, 0, true⟩, "=3.2.7".toList⟩
  have stated : Stated m r := ⟨by rintro (_ | _) <;> decide +kernel, by decide +kernel⟩
  have start : Consistent r := ⟨⟨m, stated⟩, (pinInStep_iff stated).mpr (by decide)⟩
  have run : Run step r _ _ :=
    Run.single (a := .prepare (sampleEnv [.metadata]) { crate := .libosdpSys }) rfl
  exact ⟨_, _, run, (pin_in_step_exact start run).mpr (by simp [Act.strands]), by decide +kernel⟩

/-- Publishing `libosdp-sys` in the middle of a cycle of `libosdp` leaves the requirement on a
version that is no longer there, here with the lock file refused for it. -/
theorem pin_left_behind : ∃ hops r', Consistent bothInCycle ∧ Run step bothInCycle hops r' ∧
    (∀ h ∈ hops, h.act = .publish (sampleEnv [.metadata]) { crate := .libosdpSys }) ∧
    r'.worktree.version? .libosdpSys = some ⟨4, 0, 0, false⟩ ∧ ¬ PinInStep r'.worktree := by
  let m : Manifests := ⟨⟨4, 0, 0, true⟩, ⟨1, 0, 0, true⟩, "=4.0.0-dev".toList⟩
  let published : Act := .publish (sampleEnv [.metadata]) { crate := .libosdpSys }
  let r' := left published.script bothInCycle
  have stated : Stated m bothInCycle := ⟨by rintro (_ | _) <;> decide +kernel, by decide +kernel⟩
  have sys : r'.worktree.version? .libosdpSys = some ⟨4, 0, 0, false⟩ := by decide +kernel
  refine ⟨_, r', ⟨⟨m, stated⟩, (pinInStep_iff stated).mpr (by decide)⟩, Run.single rfl,
    List.forall_mem_singleton.mpr rfl, sys, ?_⟩
  intro inStep
  have libosdp : r'.worktree.version? .libosdp = some ⟨1, 0, 0, true⟩ := by decide +kernel
  have pin : r'.worktree.pin? = some "=4.0.0-dev".toList := by decide +kernel
  obtain ⟨v, version, required⟩ := inStep _ libosdp rfl
  obtain rfl := Option.some.inj (sys.symm.trans version)
  exact absurd (pin.symm.trans required) (by decide +kernel)

end LibOsdp.Release
