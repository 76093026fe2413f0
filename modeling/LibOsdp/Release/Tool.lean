import LibOsdp.Base.Result
import LibOsdp.Release.Repo

/-!
# What the release tool is made of

A command of the tool is a script on the checkout: it may stop at any of its steps, and what it
has changed by then stays. Its calls to git, cargo, gpg and the registry succeed or fail as the
environment of the run says; no call is made twice in a run.
-/

set_option autoImplicit false

namespace LibOsdp.Release

open LibOsdp.Base

/-- The calls of the tool that can fail. -/
inductive Call where
  | showTopLevel
  | showHead
  | fetchTracked
  | listVendorTags
  | fetchVendor
  | checkoutVendor
  | updateSubmodules
  | build
  | listReleaseTags
  | listTag
  | metadata
  | status
  | signingKey
  | lookUpRelease
  | revParseHead
  | add
  | commit
  | signTag
  | verifyTag
  | deleteTag
  | reset
  deriving DecidableEq, Repr

/-- What the calls of one run answer. -/
structure Env where
  succeeds : Call → Bool
  /-- If the call fails, does it raise an exception that is no `SystemExit`? -/
  raises : Call → Bool := fun _ => false
  /-- The library's release tags on the tracked branch, newest first. -/
  vendorTags : List Line
  /-- The commit that a name stands for in the submodule. -/
  revParse : Line → Option Line
  /-- `CMakeLists.txt` at a commit of the library. -/
  cmakeLists : Line → Option Text
  /-- The bindings that the build writes, if it writes any. -/
  bindings : Option Text
  vendorHints : List Line
  rustHints : List Line
  /-- Pairs of paths that git takes for renames. -/
  renames : List (Path × Path)
  today : Line
  /-- Does `changelog_tool.py validate` pass the release file? -/
  validates : Text → Tag → Bool
  onCratesIo : Version → Bool

/-- What can block a release. -/
inductive Problem where
  | prerelease (version : Version)
  | vendored (version vendored : Version)
  | notExactPin (pin : Line)
  | stalePin (pin : Line) (sys : Version)
  | unpublished (version : Version)
  deriving DecidableEq, Repr

/-- The arguments of a rollback. -/
inductive Failure where
  | couldNotSign
  | signatureCheckFailed
  deriving DecidableEq, Repr

/-- The ways the tool dies, with what its message names. -/
inductive Die where
  | usage
  | failed (call : Call)
  /-- An exception of the call that is no `SystemExit`, such as an interrupt. -/
  | raised (call : Call)
  | missing (path : Path)
  | notVersion (raw : Line)
  | noVersion (path : Path)
  | noRequirement
  | noMatch (path : Path)
  | noHead (crate : Crate)
  | vendorMissing
  | vendorUnparsed
  | noVendorTags
  | unknownRef (ref : Line)
  | inCycle (crate : Crate) (version : Version)
  | alreadyPrepared (crate : Crate) (state : Version)
  | notReleaseTag (ref : Line)
  | backwards (state target : Version)
  | vendorDeclares (ref : Line) (vendored : Version)
  | notGreater (target state : Version)
  | releaseFileExists (tag : Tag)
  | releaseFileMissing (tag : Tag)
  | tagExists (tag : Tag)
  | notClean
  | stray (paths : List Path)
  | nothingPrepared (crate : Crate)
  | headInCycle (crate : Crate) (head state : Version)
  | unfoldedChanges (tag : Tag)
  | invalidChangelog (tag : Tag)
  | problems (problems : List Problem)
  | rolledBack (reason : Failure) (tag : Tag)
  deriving DecidableEq, Repr

/-- Is it a `SystemExit`? -/
def Die.exits : Die → Bool
  | .raised _ => false
  | _ => true

/-- How a call that fails ends the run. -/
def Env.failure (env : Env) (c : Call) : Die := if env.raises c then .raised c else .failed c

abbrev Tool := EStateM Die Repo

/-- A call to the environment. -/
def call (env : Env) (c : Call) : Tool Unit := stopIf (!env.succeeds c) (env.failure c)

/-- `try` with an `except SystemExit`. -/
def onExit (body handler : Tool Unit) : Tool Unit :=
  tryCatch body fun e => if e.exits then handler else throw e

def readText (p : Path) : Tool Text := do
  let r ← get
  lift (okOr (r.worktree.get p) (.missing p))

def isFile (p : Path) : Tool Bool := do
  let r ← get
  return (r.worktree.get p).isSome

def tagExists (env : Env) (tag : Tag) : Tool Bool := do
  call env .listTag
  let r ← get
  return decide (tag ∈ r.tags)

/-- What cargo resolves it writes to the lock file, which git ignores. -/
def refreshLockfile (env : Env) : Tool Unit := call env .metadata

def gitAdd (env : Env) (paths : List Path) : Tool Unit := do
  call env .add
  modify (·.add paths)

def gitCommit (env : Env) : Tool Unit := do
  call env .commit
  modify Repo.commit

def porcelainNames (env : Env) : Tool (List Path) := do
  call env .status
  let r ← get
  return r.porcelainNames env.renames

def requireCleanTree (env : Env) : Tool Unit := do
  let names ← porcelainNames env
  stopIf (names ≠ []) .notClean

variable {env : Env} {c : Call} {p : Path}

theorem call_eq_ok {r r' : Repo} {u : Unit} (h : call env c r = .ok u r') :
    env.succeeds c = true ∧ r' = r := by
  obtain ⟨made, same⟩ := stopIf_eq_ok.mp h
  exact ⟨by simpa using made, same⟩

theorem call_of_succeeds {r : Repo} (made : env.succeeds c = true) : call env c r = .ok () r := by
  rw [call, made]
  rfl

theorem call_of_fails {r : Repo} (made : env.succeeds c = false) :
    call env c r = .error (env.failure c) r := by
  rw [call, made]
  rfl

theorem exits_failure : (env.failure c).exits = !env.raises c := by
  rw [Env.failure]
  cases env.raises c <;> rfl

/-- Going on after a call that can fail. -/
theorem left_call_bind {α : Type} {f : Unit → Tool α} {r : Repo} :
    left (call env c >>= f) r = if env.succeeds c then left (f ()) r else r := by
  cases made : env.succeeds c with
  | true => rw [left_bind_of_ok (call_of_succeeds made), if_pos rfl]
  | false => exact left_bind_of_error (call_of_fails made)

theorem reads_call : Reads (call env c) := Reads.stopIf _ _

theorem reads_readText : Reads (readText p) := Reads.get.bind fun _ => Reads.lift _

theorem readText_eq_ok {r r' : Repo} {text : Text} :
    readText p r = .ok text r' ↔ r.worktree.get p = some text ∧ r' = r := by
  rw [readText, get_bind, lift_eq_ok, okOr_eq_ok]

theorem reads_isFile : Reads (isFile p) := Reads.get.bind fun _ => Reads.pure _

theorem reads_tagExists {tag : Tag} : Reads (tagExists env tag) :=
  reads_call.bind fun _ => Reads.get.bind fun _ => Reads.pure _

theorem reads_refreshLockfile : Reads (refreshLockfile env) := reads_call

theorem reads_porcelainNames : Reads (porcelainNames env) :=
  reads_call.bind fun _ => Reads.get.bind fun _ => Reads.pure _

theorem reads_requireCleanTree : Reads (requireCleanTree env) :=
  reads_porcelainNames.bind fun _ => Reads.stopIf _ _

/-- `require_clean_tree` passes only a tree without changed tracked files. -/
theorem not_dirty_of_requireCleanTree {r r' : Repo} {u : Unit}
    (h : requireCleanTree env r = .ok u r') : r.dirty p = false := by
  obtain ⟨names, s, listed, clean⟩ := bind_eq_ok_iff.mp h
  obtain ⟨_, t, status, rest⟩ := bind_eq_ok_iff.mp listed
  obtain ⟨-, rfl⟩ := call_eq_ok status
  obtain ⟨empty, -⟩ := stopIf_eq_ok.mp clean
  cases rest
  exact Repo.not_dirty_of_porcelainNames (by simpa using empty)

end LibOsdp.Release
