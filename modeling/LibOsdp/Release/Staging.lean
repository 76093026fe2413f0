import LibOsdp.Release.Checks
import LibOsdp.Release.Pin

/-!
# What prepare stages and publish allows

Both commands work out the files of a release, each for itself. `prepare` touches the files it
stages and no others; `publish` refuses every change outside the files it allows. A `prepare`
of `libosdp-sys` also rewrites the requirement of a `libosdp` that is in its cycle, which
`publish` does not allow for.
-/

set_option autoImplicit false

namespace LibOsdp.Release

open LibOsdp.Base

variable {env env' : Env} {r s t : Repo} {crate : Crate} {p : Path} {tag : Tag} {paths : List Path}
  {args : PrepareArgs} {state : Version}

/-- From `r` to `s`, only files of the working tree changed, and of these only `paths`. -/
structure Confined (paths : List Path) (r s : Repo) : Prop where
  history : s.history = r.history
  tags : s.tags = r.tags
  index : s.index = r.index
  others : ∀ p ∉ paths, s.worktree.get p = r.worktree.get p

namespace Confined

theorem refl : Confined paths r r := ⟨rfl, rfl, rfl, fun _ _ => rfl⟩

theorem write (confined : Confined paths r s) {text : Text} (mem : p ∈ paths) :
    Confined paths r (s.write p text) := by
  refine ⟨confined.history, confined.tags, confined.index, fun q other => ?_⟩
  have differ : q ≠ p := fun same => other (same ▸ mem)
  rw [Repo.write_worktree, if_neg differ]
  exact confined.others q other

theorem keeps_write {text : Text} (mem : p ∈ paths) :
    Keeps (Confined paths r) (modify (Repo.write p text) : Tool Unit) :=
  Keeps.modify fun _ confined => confined.write mem

theorem keeps_checkoutVendor {ref : Line} (mem : .vendor ∈ paths) :
    Keeps (Confined paths r) (checkoutVendor env ref) := by
  apply reads_call.keeps.bind
  intro _
  apply (Reads.lift _).keeps.bind
  intro sha
  apply reads_call.keeps.bind
  intro _
  apply (keeps_write mem).bind
  intro _
  exact (reads_call.bind fun _ => Reads.pure _).keeps

theorem keeps_regenerateBindings (mem : .bindings ∈ paths) :
    Keeps (Confined paths r) (regenerateBindings env) := by
  refine Keeps.bind (Keeps.modify fun s confined => ?_) fun _ => reads_call.keeps
  split
  · exact confined.write mem
  · exact confined

theorem keeps_sysTarget (vendor : .vendor ∈ paths) (bindings : .bindings ∈ paths) :
    Keeps (Confined paths r) (sysTarget env args state) := by
  apply (reads_targetTag args).keeps.bind
  intro ref
  apply (Reads.stopIf _ _).keeps.bind
  intro _
  apply (Reads.stopIf _ _).keeps.bind
  intro _
  apply (keeps_checkoutVendor vendor).bind
  intro _
  apply (keeps_regenerateBindings bindings).bind
  intro _
  apply reads_vendorVersion.keeps.bind
  intro vendored
  apply (Reads.stopIf _ _).keeps.bind
  intro _
  apply (Reads.stopIf _ _).keeps.bind
  intro _
  exact (reads_rustCommitHints.bind fun _ => Reads.pure _).keeps

theorem keeps_nextVersion (own : ∀ q ∈ versionFiles args.crate, q ∈ paths) :
    Keeps (Confined paths r) (nextVersion env args state) := by
  unfold nextVersion
  generalize args.crate = crate at own
  cases crate with
  | libosdpSys => exact keeps_sysTarget (own _ (by simp [versionFiles])) (own _ (by simp [versionFiles]))
  | libosdp =>
    apply (reads_setOrBumped args state).keeps.bind
    intro target
    exact (reads_rustCommitHints.bind fun _ => Reads.pure _).keeps

theorem keeps_setOnce {s : Setting} {value : Line} (mem : .manifest crate ∈ paths) :
    Keeps (Confined paths r) (setOnce crate s value) := by
  apply reads_readText.keeps.bind
  intro text
  apply (Reads.lift _).keeps.bind
  intro text'
  exact keeps_write mem

theorem keeps_scaffoldChangelog {hints : List Line} (mem : .changelog tag ∈ paths) :
    Keeps (Confined paths r) (scaffoldChangelog env tag hints) := by
  apply reads_isFile.keeps.bind
  intro found
  apply (Reads.stopIf _ _).keeps.bind
  intro _
  exact keeps_write mem

theorem mono {more : List Path} (confined : Confined paths r s) (sub : ∀ p ∈ paths, p ∈ more) :
    Confined more r s :=
  ⟨confined.history, confined.tags, confined.index, fun p other =>
    confined.others p fun mem => other (sub p mem)⟩

theorem version? (confined : Confined paths r s) (other : .manifest crate ∉ paths) :
    s.worktree.version? crate = r.worktree.version? crate := by
  rw [Tree.version?, Tree.version?, confined.others _ other]

end Confined

/-- Is `libosdp` in a cycle, by its manifest in the working tree? -/
def Repo.midCycle (r : Repo) : Bool := (r.worktree.version? .libosdp).any (·.prerelease)

/-- Does a `prepare` write the pin? -/
def Repo.pins (r : Repo) : Crate → Bool
  | .libosdp => true
  | .libosdpSys => r.midCycle

/-- The paths that a `prepare` of the release stages. -/
def Repo.preparedPaths (r : Repo) (tag : Tag) : List Path :=
  let staged := versionFiles tag.crate ++ [.changelog tag]
  if r.pins tag.crate then staged ++ [.manifest .libosdp] else staged

/-- What a rewrite of a setting found and wrote. -/
theorem of_setOnce {setting : Setting} {value : Line} {u : Unit}
    (h : setOnce crate setting value r = .ok u s) :
    ∃ text text', r.worktree.get (.manifest crate) = some text ∧
      setting.subOnce value text = some text' ∧ s = r.write (.manifest crate) text' := by
  obtain ⟨text, read, rest⟩ := reads_readText.bind_eq_ok h
  obtain ⟨text', set, written⟩ := (Reads.lift _).bind_eq_ok rest
  have result : r.write (.manifest crate) text' = s := by
    injection written
  exact ⟨text, text', (readText_eq_ok.mp read).1, okOr_eq_ok.mp (lift_eq_ok.mp set).1, result.symm⟩

/-- What a written version is read back as. -/
theorem version?_of_writeState {v : Version} {u : Unit} (h : writeState crate v r = .ok u s) :
    s.worktree.version? crate = some v := by
  obtain ⟨text, text', -, set, rfl⟩ := of_setOnce h
  rw [Tree.version?, Repo.write_worktree, if_pos rfl, Option.bind_some, parse_of_subOnce set]
  rfl

/-- Writing the pin leaves both versions as they were. -/
theorem version?_of_writePin {v : Version} {u : Unit} (h : writePin v r = .ok u s) :
    s.worktree.version? crate = r.worktree.version? crate := by
  obtain ⟨text, text', found, set, rfl⟩ := of_setOnce h
  rw [Tree.version?, Tree.version?, Repo.write_worktree]
  cases crate with
  | libosdpSys => rw [if_neg (by simp)]
  | libosdp =>
    rw [if_pos rfl, found, Option.bind_some, Option.bind_some,
      parse_of_subOnce_sysDep set]

theorem stagePin_eq_ok {wrote : Bool} (h : stagePin crate r = .ok wrote s) :
    wrote = r.pins crate ∧ (∀ other, s.worktree.version? other = r.worktree.version? other) := by
  cases crate with
  | libosdp =>
    obtain ⟨sys, -, h⟩ := reads_readState.bind_eq_ok h
    obtain ⟨_, t, written, rest⟩ := bind_eq_ok_iff.mp h
    cases rest
    exact ⟨rfl, fun other => version?_of_writePin written⟩
  | libosdpSys =>
    obtain ⟨state, read, h⟩ := reads_readState.bind_eq_ok h
    have state? := (readState_eq_ok.mp read).1
    have pins : r.pins .libosdpSys = state.prerelease := by
      rw [Repo.pins, Repo.midCycle, state?, Option.any_some]
    rw [pins]
    split at h
    · next dev =>
      obtain ⟨sys, -, h⟩ := reads_readState.bind_eq_ok h
      obtain ⟨_, t, written, rest⟩ := bind_eq_ok_iff.mp h
      cases rest
      exact ⟨dev.symm, fun other => version?_of_writePin written⟩
    · next released =>
      cases h
      exact ⟨(Bool.eq_false_iff.mpr released).symm, fun _ => rfl⟩

theorem lt_core_bumped (bump : Bump) : state.core < (state.bumped bump).core := by
  cases bump with
  | major => exact Prod.Lex.toLex_lt_toLex.mpr (.inl (Nat.lt_succ_self _))
  | minor =>
    exact Prod.Lex.toLex_lt_toLex.mpr
      (.inr ⟨rfl, Prod.Lex.toLex_lt_toLex.mpr (.inl (Nat.lt_succ_self _))⟩)
  | patch =>
    exact Prod.Lex.toLex_lt_toLex.mpr
      (.inr ⟨rfl, Prod.Lex.toLex_lt_toLex.mpr (.inr ⟨rfl, Nat.lt_succ_self _⟩)⟩)

/-- **A `prepare` goes up.** -/
theorem lt_core_of_nextVersion {next : Version × List Line}
    (h : nextVersion env args state r = .ok next s) : state.core < next.1.core := by
  have passed : ∀ {e : Die} {t u : Repo} {target : Version},
      stopIf (decide (target.core ≤ state.core)) e t = .ok () u → state.core < target.core := by
    intro e t u target h
    exact not_le.mp (of_decide_eq_false (stopIf_eq_ok.mp h).1)
  unfold nextVersion at h
  generalize args.crate = crate at h
  cases crate with
  | libosdpSys =>
    obtain ⟨ref, _, -, h⟩ := bind_eq_ok_iff.mp h
    obtain ⟨_, _, -, h⟩ := bind_eq_ok_iff.mp h
    obtain ⟨_, _, -, h⟩ := bind_eq_ok_iff.mp h
    obtain ⟨_, _, -, h⟩ := bind_eq_ok_iff.mp h
    obtain ⟨_, _, -, h⟩ := bind_eq_ok_iff.mp h
    obtain ⟨vendored, _, -, h⟩ := bind_eq_ok_iff.mp h
    obtain ⟨_, _, -, h⟩ := bind_eq_ok_iff.mp h
    obtain ⟨_, _, up, h⟩ := bind_eq_ok_iff.mp h
    obtain ⟨hints, _, -, h⟩ := bind_eq_ok_iff.mp h
    cases h
    exact passed up
  | libosdp =>
    obtain ⟨target, _, chosen, h⟩ := bind_eq_ok_iff.mp h
    obtain ⟨hints, _, -, h⟩ := bind_eq_ok_iff.mp h
    cases h
    rw [setOrBumped] at chosen
    generalize given args.set = raw? at chosen
    cases raw? with
    | some raw =>
      obtain ⟨_, _, -, chosen⟩ := bind_eq_ok_iff.mp chosen
      obtain ⟨_, _, up, chosen⟩ := bind_eq_ok_iff.mp chosen
      cases chosen
      exact passed up
    | none =>
      cases chosen
      exact lt_core_bumped args.bump

/-- What a `prepare` without `--cycle` left in `s'`, the state before its `git add` being `s`. -/
structure Prepared (r : Repo) (tag : Tag) (state : Version) (s s' : Repo) : Prop where
  released : tag.version.released = tag.version
  headed : r.headVersion? tag.crate = some state
  before : state.prerelease = false
  up : state.core < tag.version.core
  confined : Confined (r.preparedPaths tag) r s
  staged : s' = s.add (r.preparedPaths tag)
  now : s.worktree.version? tag.crate = some tag.version

theorem mem_preparedPaths (mem : p ∈ versionFiles tag.crate ++ [.changelog tag]) :
    p ∈ r.preparedPaths tag := by
  unfold Repo.preparedPaths
  split
  · exact List.mem_append_left _ mem
  · exact mem

theorem manifest_mem_versionFiles (crate : Crate) : .manifest crate ∈ versionFiles crate := by
  cases crate <;> simp [versionFiles]

theorem confined_of_stagePin {wrote : Bool} (before : Confined paths r s)
    (h : stagePin crate s = .ok wrote t) (mem : wrote = true → .manifest .libosdp ∈ paths) :
    Confined paths r t := by
  cases crate with
  | libosdp =>
    obtain ⟨sys, -, h⟩ := reads_readState.bind_eq_ok h
    obtain ⟨_, _, written, rest⟩ := bind_eq_ok_iff.mp h
    cases rest
    exact (Confined.keeps_setOnce (mem rfl)).of_ok before written
  | libosdpSys =>
    obtain ⟨state, -, h⟩ := reads_readState.bind_eq_ok h
    split at h
    · obtain ⟨sys, -, h⟩ := reads_readState.bind_eq_ok h
      obtain ⟨_, _, written, rest⟩ := bind_eq_ok_iff.mp h
      cases rest
      exact (Confined.keeps_setOnce (mem rfl)).of_ok before written
    · cases h
      exact before

theorem pins_congr (confined : Confined (versionFiles crate) r s) : s.pins crate = r.pins crate := by
  cases crate with
  | libosdp => rfl
  | libosdpSys =>
    have same := @Confined.version? r s .libosdp _ confined (by simp [versionFiles])
    rw [Repo.pins, Repo.pins, Repo.midCycle, Repo.midCycle, same]

theorem prepared_of_ok {u : Unit} (release : args.cycle = false)
    (h : cmdPrepare env args r = .ok u t) :
    ∃ tag state s, tag.crate = args.crate ∧ Prepared r tag state s t := by
  obtain ⟨state, read, h⟩ := reads_readState.bind_eq_ok h
  obtain ⟨_, cycle, h⟩ := (Reads.stopIf _ _).bind_eq_ok h
  obtain ⟨head, shown, h⟩ := reads_headState.bind_eq_ok h
  obtain ⟨_, same, h⟩ := (Reads.stopIf _ _).bind_eq_ok h
  obtain ⟨⟨target, hints⟩, r₁, next, h⟩ := bind_eq_ok_iff.mp h
  obtain ⟨_, -, h⟩ := reads_isFile.bind_eq_ok h
  obtain ⟨_, -, h⟩ := (Reads.stopIf _ _).bind_eq_ok h
  obtain ⟨_, -, h⟩ := reads_tagExists.bind_eq_ok h
  obtain ⟨_, -, h⟩ := (Reads.stopIf _ _).bind_eq_ok h
  obtain ⟨_, r₂, written, h⟩ := bind_eq_ok_iff.mp h
  obtain ⟨stagedPin, r₃, pinned, h⟩ := bind_eq_ok_iff.mp h
  obtain ⟨_, -, h⟩ := reads_refreshLockfile.bind_eq_ok h
  obtain ⟨_, s, scaffolded, h⟩ := bind_eq_ok_iff.mp h
  obtain ⟨_, -, add⟩ := reads_call.bind_eq_ok h
  let nxt : Version := { target with prerelease := args.cycle }
  let tag : Tag := ⟨args.crate, nxt.released⟩
  have released : nxt.released = nxt := by
    show ({ target with prerelease := false } : Version) = { target with prerelease := args.cycle }
    rw [release]
  have up : state.core < nxt.core := lt_core_of_nextVersion next
  -- the version files first, then the pin, then the release file
  have own : Confined (versionFiles args.crate) r r₂ := by
    have moved := (Confined.keeps_nextVersion fun _ mem => mem).of_ok Confined.refl next
    exact (Confined.keeps_setOnce (manifest_mem_versionFiles args.crate)).of_ok moved written
  obtain ⟨wrote, versions⟩ := stagePin_eq_ok pinned
  have wrote : stagedPin = r.pins args.crate := wrote.trans (pins_congr own)
  have confined : Confined (r.preparedPaths tag) r s := by
    have own := own.mono fun p mem =>
      @mem_preparedPaths r p tag (List.mem_append_left _ mem)
    have pin := confined_of_stagePin own pinned fun written => by
      rw [wrote] at written
      simp [Repo.preparedPaths, tag, written]
    have scaffold : Keeps (Confined (r.preparedPaths tag) r) (scaffoldChangelog env tag hints) :=
      Confined.keeps_scaffoldChangelog (mem_preparedPaths (by simp))
    exact scaffold.of_ok pin scaffolded
  have now : s.worktree.version? args.crate = some nxt := by
    have scaffold : Keeps (Confined [.changelog tag] r₃) (scaffoldChangelog env tag hints) :=
      Confined.keeps_scaffoldChangelog (by simp)
    have kept := scaffold.of_ok Confined.refl scaffolded
    rw [kept.version? (by simp), versions, version?_of_writeState written]
  obtain rfl : state = head := by simpa using (stopIf_eq_ok.mp same).1
  refine ⟨tag, state, s, rfl, ?_, (headState_eq_ok.mp shown).2.1, ?_, ?_, confined, ?_, ?_⟩
  · rfl
  · simpa using (stopIf_eq_ok.mp cycle).1
  · exact up
  · rw [wrote] at add
    exact (left_of_ok add).symm
  · rw [now]
    exact congrArg some released.symm

/-- The two sets of files are one, but for the pin of a `libosdp` in its cycle. -/
theorem allowed_iff : (∀ p, p ∈ allowedDirt tag ↔ p ∈ r.preparedPaths tag) ↔
    tag.crate = .libosdp ∨ r.midCycle = false := by
  obtain ⟨crate, version⟩ := tag
  cases crate with
  | libosdp =>
    refine iff_of_true (fun p => ?_) (.inl rfl)
    simp [allowedDirt, Repo.preparedPaths, Repo.pins, versionFiles]
  | libosdpSys =>
    cases mid : r.midCycle with
    | false =>
      refine iff_of_true (fun p => ?_) (.inr rfl)
      simp [allowedDirt, Repo.preparedPaths, Repo.pins, versionFiles, mid]
    | true =>
      refine iff_of_false (fun same => ?_) (by simp)
      have pin := (same (.manifest .libosdp)).mpr
        (by simp [Repo.preparedPaths, Repo.pins, mid])
      simp [allowedDirt, versionFiles] at pin

/-- Outside the files that `publish` allows, nothing was changed in `r`, save removals that git
    shows in `t` as the old names of those files. -/
def NoStrayDirt (renames : List (Path × Path)) (r t : Repo) (tag : Tag) : Prop :=
  ∀ p ∉ allowedDirt tag, r.dirty p = true →
    ∃ q ∈ allowedDirt tag, (p, q) ∈ renames ∧ t.renamed p q = true

/-- A file that a `prepare` does not stage is changed after it if it was before. -/
theorem dirty_finished {text : Text} (prepared : Prepared r tag state s t)
    (other : p ∉ r.preparedPaths tag) : (t.write (.changelog tag) text).dirty p = r.dirty p := by
  have confined := prepared.confined
  have head : (t.write (.changelog tag) text).head = r.head := by
    rw [prepared.staged]
    exact congrArg (List.headD · []) confined.history
  have index : (t.write (.changelog tag) text).index.get p = r.index.get p := by
    show t.index.get p = _
    rw [prepared.staged, Repo.add_index, if_neg other, confined.index]
  have differ : p ≠ .changelog tag := fun same => other (same ▸ mem_preparedPaths (by simp))
  have worktree : (t.write (.changelog tag) text).worktree.get p = r.worktree.get p := by
    rw [Repo.write_worktree, if_neg differ, prepared.staged, Repo.add_worktree]
    exact confined.others p other
  rw [Repo.dirty, Repo.dirty, head, index, worktree]

/-- `publish` goes for the prepared release, if its files are all that is changed. -/
theorem publishGuards_prepared {text : Text} {pargs : PublishArgs}
    (prepared : Prepared r tag state s t) (crate : pargs.crate = tag.crate)
    (shown : env'.succeeds .showHead = true) (status : env'.succeeds .status = true) :
    publishGuards env' pargs (t.write (.changelog tag) text) =
        .ok (tag.version, true) (t.write (.changelog tag) text) ↔
      DirtOk env' (t.write (.changelog tag) text) tag true := by
  have headed : (t.write (.changelog tag) text).headVersion? tag.crate = some state := by
    rw [← prepared.headed, prepared.staged]
    exact congrArg (fun history => (Repo.mk history [] [] []).headVersion? tag.crate)
      prepared.confined.history
  have now : (t.write (.changelog tag) text).worktree.version? tag.crate = some tag.version := by
    rw [← prepared.now, Tree.version?, Repo.write_worktree, if_neg (by simp), prepared.staged]
    rfl
  have differ : tag.version.core ≠ state.core := ne_of_gt prepared.up
  rw [publishGuards_eq_ok, crate]
  constructor
  · rintro ⟨⟨head, past⟩, -⟩
    have dirt := past.dirt
    rwa [prepared.released] at dirt
  · intro dirt
    refine ⟨⟨state, now, shown, headed, ?_, .inl rfl, fun _ => prepared.before, status, ?_⟩, rfl⟩
    · simpa using differ
    · rwa [prepared.released]

/-- **`publish` accepts what `prepare` staged**, the release file being finished in between,
    exactly unless it is a release of `libosdp-sys` with `libosdp` in its cycle, or something else
    was changed already. -/
theorem prepared_release_accepted_exact {u : Unit} (release : args.cycle = false)
    (h : cmdPrepare env args r = .ok u t) (shown : env'.succeeds .showHead = true)
    (status : env'.succeeds .status = true) :
    ∃ tag : Tag, tag.crate = args.crate ∧
      (∃ s, Confined (r.preparedPaths tag) r s ∧ t = s.add (r.preparedPaths tag)) ∧
      ∀ (text : Text) (pargs : PublishArgs), pargs.crate = args.crate →
        ((publishGuards env' pargs (t.write (.changelog tag) text) =
            .ok (tag.version, true) (t.write (.changelog tag) text) ∧
          ∀ p, p ∈ allowedDirt tag ↔ p ∈ r.preparedPaths tag) ↔
        (args.crate = .libosdp ∨ r.midCycle = false) ∧ NoStrayDirt env'.renames r t tag) := by
  obtain ⟨tag, state, s, crate, prepared⟩ := prepared_of_ok release h
  refine ⟨tag, crate, ⟨s, prepared.confined, prepared.staged⟩, fun text pargs same => ?_⟩
  rw [publishGuards_prepared prepared (same.trans crate.symm) shown status, allowed_iff, ← crate,
    and_comm]
  apply and_congr_right
  intro aside
  have allowed : ∀ p, p ∈ allowedDirt tag ↔ p ∈ r.preparedPaths tag := allowed_iff.mpr aside
  show (∀ p ∈ Repo.porcelainNames _ _, p ∈ allowedDirt tag) ↔ _
  rw [Repo.porcelainNames_subset_iff, NoStrayDirt]
  refine forall_congr' fun p => forall_congr' fun stray => ?_
  rw [dirty_finished prepared (fun mem => stray ((allowed p).mpr mem))]
  rfl

/-- A checkout without changes. -/
theorem noStrayDirt_of_clean {renames : List (Path × Path)} (clean : ∀ p, r.dirty p = false) :
    NoStrayDirt renames r t tag := by
  intro p _ changed
  rw [clean p] at changed
  cases changed

/-- How a script stops, if it does. -/
def stops {α : Type} (m : Tool α) (r : Repo) : Option Die :=
  match m r with
  | .ok _ _ => none
  | .error e _ => some e

theorem not_dirty_sample {sys libosdp pin : String} {releases : Tree} :
    (sample sys libosdp pin releases).dirty p = false := by
  rw [Repo.dirty_eq_false]
  exact ⟨rfl, fun _ => rfl⟩

/-- A `libosdp` release prepared in a clean checkout, with its file finished. -/
theorem prepared_release_accepted_exact_libosdp : ∃ (tag : Tag) (t : Repo),
    cmdPrepare (sampleEnv []) { crate := .libosdp } (sample "4.0.0" "1.0.0" "=3.2.7" []) =
      .ok () t ∧
    publishGuards (sampleEnv []) { crate := .libosdp }
        (t.write (.changelog tag) [dateOpening ++ "2026-10-06".toList]) =
      .ok (tag.version, true) (t.write (.changelog tag) [dateOpening ++ "2026-10-06".toList]) := by
  have ran : ∃ t, cmdPrepare (sampleEnv []) { crate := .libosdp }
      (sample "4.0.0" "1.0.0" "=3.2.7" []) = .ok () t := ⟨_, rfl⟩
  obtain ⟨t, ran⟩ := ran
  obtain ⟨tag, -, -, accepted⟩ :=
    @prepared_release_accepted_exact (sampleEnv []) (sampleEnv []) _ t _ () rfl ran rfl rfl
  refine ⟨tag, t, ran, ((accepted _ { crate := .libosdp } rfl).mpr ⟨.inl rfl, ?_⟩).1⟩
  exact noStrayDirt_of_clean fun _ => not_dirty_sample

/-- `libosdp-sys` prepared from a clean checkout while `libosdp` is in its cycle: the pin that the
`prepare` rewrote and staged is a stray change to `publish`. -/
theorem prepared_pin_refused :
    let r := sample "3.2.7" "1.0.0-dev" "=3.2.7" []
    let prepare := cmdPrepare (sampleEnv []) { crate := .libosdpSys }
    let tag : Tag := ⟨.libosdpSys, ⟨4, 0, 0, false⟩⟩
    let finished := (left prepare r).write (.changelog tag) [dateOpening ++ "2026-10-06".toList]
    (∀ p, r.dirty p = false) ∧ stops prepare r = none ∧
      stops (publishGuards (sampleEnv []) { crate := .libosdpSys }) finished =
        some (.stray [.manifest .libosdp]) :=
  ⟨fun _ => not_dirty_sample, by decide +kernel, by decide +kernel⟩

end LibOsdp.Release
