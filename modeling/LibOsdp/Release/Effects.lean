import LibOsdp.Release.Commands

/-!
# What each command does to the manifests

`prepare` and `vendor` leave the pin in step however they end: the one place where a `prepare`
writes a version is followed at once by the pin, and everything else leaves both manifests as
they were.
-/

set_option autoImplicit false

namespace LibOsdp.Release

open LibOsdp.Base

variable {env : Env} {r s : Repo} {m : Manifests} {crate : Crate} {p : Path} {tag : Tag}

/-- The manifests of the working tree say `m`. -/
def Stated (m : Manifests) (r : Repo) : Prop := r.worktree.Stated m

/-- The manifests can be read, and the pin is in step. -/
def Sound (r : Repo) : Prop := ∃ m, Stated m r ∧ m.InStep

theorem Stated.write (stated : Stated m r) (text : Text) (other : ∀ crate, p ≠ .manifest crate) :
    Stated m (r.write p text) := by
  apply Tree.Stated.congr stated
  intro crate
  rw [Repo.write_worktree, if_neg (other crate).symm]

theorem keeps_write (text : Text) (other : ∀ crate, p ≠ .manifest crate) :
    Keeps (Stated m) (modify (Repo.write p text) : Tool Unit) :=
  Keeps.modify fun _ stated => stated.write text other

/-- What keeps every reading of the manifests keeps the pin in step. -/
theorem sound_of_stated {α : Type} {x : Tool α} (keeps : ∀ m, Keeps (Stated m) x) : Keeps Sound x := by
  constructor
  rintro r ⟨m, stated, inStep⟩
  exact ⟨m, (keeps m).after r stated, inStep⟩

theorem keeps_gitAdd (paths : List Path) : Keeps (Stated m) (gitAdd env paths) :=
  reads_call.keeps.bind fun _ => Keeps.modify fun _ stated => stated

theorem reads_vendorVersion : Reads (vendorVersion env) :=
  Reads.get.bind fun _ => (Reads.lift _).bind fun _ => (Reads.lift _).bind fun _ => Reads.lift _

theorem reads_vendorNewestTag : Reads (vendorNewestTag env) :=
  reads_call.bind fun _ => reads_call.bind fun _ => (Reads.lift _).bind fun _ => Reads.pure _

theorem reads_rustCommitHints : Reads (rustCommitHints env) :=
  reads_call.bind fun _ => Reads.pure _

theorem keeps_checkoutVendor (ref : Line) : Keeps (Stated m) (checkoutVendor env ref) := by
  apply reads_call.keeps.bind
  intro _
  apply (Reads.lift _).keeps.bind
  intro sha
  apply reads_call.keeps.bind
  intro _
  apply (keeps_write [sha] fun _ => by simp).bind
  intro _
  exact (reads_call.bind fun _ => Reads.pure _).keeps

theorem keeps_regenerateBindings : Keeps (Stated m) (regenerateBindings env) := by
  refine Keeps.bind (Keeps.modify fun r stated => ?_) fun _ => reads_call.keeps
  split
  · exact stated.write _ fun _ => by simp
  · exact stated

theorem keeps_scaffoldChangelog (hints : List Line) :
    Keeps (Stated m) (scaffoldChangelog env tag hints) := by
  apply reads_isFile.keeps.bind
  intro found
  apply (Reads.stopIf _ _).keeps.bind
  intro _
  exact keeps_write _ fun _ => by simp

theorem reads_targetTag (args : PrepareArgs) : Reads (targetTag env args) := by
  unfold targetTag
  split
  · exact Reads.pure _
  · exact reads_vendorNewestTag

theorem keeps_sysTarget (args : PrepareArgs) (state : Version) :
    Keeps (Stated m) (sysTarget env args state) := by
  apply (reads_targetTag args).keeps.bind
  intro ref
  apply (Reads.stopIf _ _).keeps.bind
  intro _
  apply (Reads.stopIf _ _).keeps.bind
  intro _
  apply (keeps_checkoutVendor _).bind
  intro _
  apply keeps_regenerateBindings.bind
  intro _
  apply reads_vendorVersion.keeps.bind
  intro vendored
  apply (Reads.stopIf _ _).keeps.bind
  intro _
  apply (Reads.stopIf _ _).keeps.bind
  intro _
  exact (reads_rustCommitHints.bind fun _ => Reads.pure _).keeps

theorem reads_setOrBumped (args : PrepareArgs) (state : Version) :
    Reads (setOrBumped args state) := by
  unfold setOrBumped
  split
  · exact (Reads.lift _).bind fun _ => (Reads.stopIf _ _).bind fun _ => Reads.pure _
  · exact Reads.pure _

theorem keeps_nextVersion (args : PrepareArgs) (state : Version) :
    Keeps (Stated m) (nextVersion env args state) := by
  unfold nextVersion
  split
  · exact keeps_sysTarget ..
  · apply (reads_setOrBumped args state).keeps.bind
    intro target
    exact (reads_rustCommitHints.bind fun _ => Reads.pure _).keeps

theorem sound_stagePin (stated : Stated m r) : Sound (left (stagePin crate) r) := by
  cases crate with
  | libosdpSys => exact refreshPinIfMidCycle_inStep stated
  | libosdp =>
    have read : readState .libosdpSys r = .ok m.sys r := readState_eq (stated.version .libosdpSys)
    obtain ⟨text, written, stated'⟩ := writePin_eq stated m.sys
    refine ⟨m.setPin m.sys, ?_, fun _ => rfl⟩
    show Stated _ (left (readState .libosdpSys >>= fun sys => writePin sys >>= fun _ => pure true) r)
    rw [left_bind_of_ok read, left_bind_of_ok written]
    exact stated'

/-- **A version is written, and the pin right after it**: nothing that can fail comes between. -/
theorem sound_pinned {α : Type} {k : Bool → Tool α} (nxt : Version)
    (rest : ∀ stagedPin, Keeps Sound (k stagedPin)) :
    Keeps Sound (writeState crate nxt >>= fun _ => stagePin crate >>= k) := by
  constructor
  rintro r ⟨m, stated, -⟩
  obtain ⟨text, written, stated'⟩ := writeState_eq stated crate nxt
  rw [left_bind_of_ok written]
  exact Keeps.seq (sound_stagePin stated') rest

theorem sound_cmdPrepare (args : PrepareArgs) : Keeps Sound (cmdPrepare env args) := by
  apply reads_readState.keeps.bind
  intro state
  apply (Reads.stopIf _ _).keeps.bind
  intro _
  apply reads_headState.keeps.bind
  intro head
  apply (Reads.stopIf _ _).keeps.bind
  intro _
  apply (sound_of_stated fun m => keeps_nextVersion args state).bind
  rintro ⟨target, hints⟩
  apply reads_isFile.keeps.bind
  intro found
  apply (Reads.stopIf _ _).keeps.bind
  intro _
  apply reads_tagExists.keeps.bind
  intro tagged
  apply (Reads.stopIf _ _).keeps.bind
  intro _
  apply sound_pinned
  intro stagedPin
  apply reads_refreshLockfile.keeps.bind
  intro _
  apply (sound_of_stated fun m => keeps_scaffoldChangelog _).bind
  intro _
  exact sound_of_stated fun m => keeps_gitAdd _

theorem sound_cmdVendor (ref : Line) : Keeps Sound (cmdVendor env ref) := by
  apply reads_requireCleanTree.keeps.bind
  intro _
  apply (sound_of_stated fun m => keeps_checkoutVendor ref).bind
  intro _
  apply (sound_of_stated fun m => keeps_regenerateBindings).bind
  intro _
  apply reads_refreshLockfile.keeps.bind
  intro _
  apply reads_vendorVersion.keeps.bind
  intro vendored
  refine Keeps.bind ?_ fun refreshed => sound_of_stated fun m => keeps_gitAdd _
  constructor
  rintro r ⟨m, stated, -⟩
  exact refreshPinIfMidCycle_inStep stated

end LibOsdp.Release
