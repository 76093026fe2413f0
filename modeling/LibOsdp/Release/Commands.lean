import LibOsdp.Release.Manifest
import Mathlib.Data.List.Infix

/-!
# The commands of the release tool

`prepare`, `vendor` and `publish`, with the steps they are made of in the order they make them.
-/

set_option autoImplicit false

namespace LibOsdp.Release

open LibOsdp.Base

/-- Tracked files a release of the crate is allowed to touch, changelog aside. -/
def versionFiles : Crate → List Path
  | .libosdpSys => [.manifest .libosdpSys, .vendor, .bindings]
  | .libosdp => [.manifest .libosdp]

/-! ## The vendored C library -/

/-- `CMAKE_VERSION_RE` on one line. -/
def cmakeVersion? (line : Line) : Option Line := do
  let rest ← line.dropPrefix? "project(libosdp VERSION ".toList
  let version := rest.dropLast
  if rest.getLast? = some ')' ∧ (Version.base? version).isSome then some version else none

/-- The version the vendored C sources declare for themselves. -/
def vendorVersion (env : Env) : Tool Version := do
  let r ← get
  let text ← lift (okOr ((r.worktree.get .vendor).bind fun gitlink =>
    gitlink.head?.bind env.cmakeLists) .vendorMissing)
  let raw ← lift (okOr (text.findSome? cmakeVersion?) .vendorUnparsed)
  lift (parseVersion raw)

def vendorNewestTag (env : Env) : Tool Line := do
  call env .fetchTracked
  call env .listVendorTags
  let tag ← lift (okOr env.vendorTags.head? .noVendorTags)
  return strip tag

/-- The version a vendor ref declares by its own name, if it does. -/
def sysTargetFromRef (ref : Line) : Option Version :=
  let candidate := (strip ref).dropWhile (· = 'v')
  if (Version.match? candidate).isSome then Version.parse? candidate else none

/-- Detach the vendor submodule at `ref`, resolved against origin. -/
def checkoutVendor (env : Env) (ref : Line) : Tool Line := do
  call env .fetchVendor
  let candidates :=
    ["refs/tags/".toList ++ ref, "refs/remotes/origin/".toList ++ ref, ref ++ "^\x7bcommit\x7d".toList]
  let sha ← lift (okOr (candidates.findSome? env.revParse) (.unknownRef ref))
  call env .checkoutVendor
  modify (·.write .vendor [sha])
  call env .updateSubmodules
  return sha

/-- Rebuild the bindings; the build may write them and fail. -/
def regenerateBindings (env : Env) : Tool Unit := do
  modify fun r =>
    match env.bindings with
    | some text => r.write .bindings text
    | none => r
  call env .build

/-! ## The release file -/

/-- `changelog_tool.scaffold`, and the section of commit hints under it. -/
def scaffold (tag : Tag) (date : Line) (hints : List Line) : Text :=
  let crate :=
    match tag.crate with
    | .libosdpSys => "libosdp-sys"
    | .libosdp => "libosdp"
  ["---".toList, "release_crate: ".toList ++ crate.toList, "release_date: ".toList ++ date,
    "release_version: v".toList ++ tag.version.str, "---".toList, [],
    "Release subject ## TODO".toList, [], "## Enhancements".toList, [], "- ## TODO".toList, [],
    "## Fixes".toList, [], "- ## TODO".toList, [], "## Changes".toList, []] ++
    if hints = [] then ["-".toList] else hints

def scaffoldChangelog (env : Env) (tag : Tag) (hints : List Line) : Tool Unit := do
  stopIf (← isFile (.changelog tag)) (.releaseFileExists tag)
  modify (·.write (.changelog tag) (scaffold tag env.today hints))

def dateOpening : Line := "release_date: ".toList

def stampReleaseDate (env : Env) (tag : Tag) : Tool Unit := do
  let text ← readText (.changelog tag)
  let text ← lift (okOr (subOnce (dateOpening.isPrefixOf ·) (dateOpening ++ env.today) text)
    (.noMatch (.changelog tag)))
  modify (·.write (.changelog tag) text)

def validateChangelog (env : Env) (tag : Tag) : Tool Unit := do
  stopIf (!(← isFile (.changelog tag))) (.releaseFileMissing tag)
  let text ← readText (.changelog tag)
  stopIf (text.any fun line => "## Changes".toList <:+: line) (.unfoldedChanges tag)
  stopIf (!env.validates text tag) (.invalidChangelog tag)

/-! ## prepare -/

structure PrepareArgs where
  crate : Crate
  bump : Bump := .patch
  set : Option Line := none
  vendor : Option Line := none
  cycle : Bool := false

/-- An argument that is absent or empty is false. -/
def given (arg : Option Line) : Option Line := arg.filter (· ≠ [])

/-- What `parse_args` refuses of a `prepare`. -/
def PrepareArgs.refused (args : PrepareArgs) : Bool :=
  ((given args.set).isSome && args.bump ≠ .patch) ||
    (args.crate = .libosdpSys && ((given args.set).isSome || args.bump ≠ .patch)) ||
    (args.crate ≠ .libosdpSys && (given args.vendor).isSome)

def rustCommitHints (env : Env) : Tool (List Line) := do
  call env .listReleaseTags
  return env.rustHints

/-- `--vendor`, or the newest release tag. -/
def targetTag (env : Env) (args : PrepareArgs) : Tool Line :=
  match given args.vendor with
  | some ref => pure ref
  | none => vendorNewestTag env

/-- The version that a `prepare` of `libosdp-sys` goes to, after moving the submodule there. -/
def sysTarget (env : Env) (args : PrepareArgs) (state : Version) : Tool (Version × List Line) := do
  let ref ← targetTag env args
  let declared := sysTargetFromRef ref
  stopIf (declared.isNone && !args.cycle) (.notReleaseTag ref)
  stopIf (declared.any fun target => target.core ≤ state.core)
    (.backwards state (declared.getD state))
  let _ ← checkoutVendor env ref
  regenerateBindings env
  let vendored ← vendorVersion env
  stopIf (declared.any fun target => vendored.core ≠ target.core)
    (.vendorDeclares ref vendored)
  let target := declared.getD vendored
  stopIf (target.core ≤ state.core) (.backwards state target)
  let hints ← rustCommitHints env
  return (target, env.vendorHints ++ hints)

/-- `--set`, or the bumped version. -/
def setOrBumped (args : PrepareArgs) (state : Version) : Tool Version :=
  match given args.set with
  | some raw => do
    let target ← lift (parseVersion raw)
    stopIf (target.core ≤ state.core) (.notGreater target state)
    return target
  | none => return state.bumped args.bump

/-- The version that a `prepare` goes to, and the hints for its changelog. -/
def nextVersion (env : Env) (args : PrepareArgs) (state : Version) : Tool (Version × List Line) :=
  match args.crate with
  | .libosdpSys => sysTarget env args state
  | .libosdp => do
    let target ← setOrBumped args state
    let hints ← rustCommitHints env
    return (target, hints)

/-- Write the pin after the version of the crate: was it written? -/
def stagePin : Crate → Tool Bool
  | .libosdp => do
    let sys ← readState .libosdpSys
    writePin sys
    return true
  | .libosdpSys => refreshPinIfMidCycle

def cmdPrepare (env : Env) (args : PrepareArgs) : Tool Unit := do
  let crate := args.crate
  let state ← readState crate
  stopIf state.prerelease (.inCycle crate state.released)
  let head ← headState env crate
  stopIf (state ≠ head) (.alreadyPrepared crate state)
  let (target, hints) ← nextVersion env args state
  let nxt := { target with prerelease := args.cycle }
  let tag : Tag := ⟨crate, nxt.released⟩
  stopIf (← isFile (.changelog tag)) (.releaseFileExists tag)
  stopIf (← tagExists env tag) (.tagExists tag)
  writeState crate nxt
  let stagedPin ← stagePin crate
  refreshLockfile env
  scaffoldChangelog env tag hints
  let staged := versionFiles crate ++ [.changelog tag]
  gitAdd env (if stagedPin then staged ++ [.manifest .libosdp] else staged)

/-! ## vendor -/

/-- Move the vendored C library without touching versions or changelogs. -/
def cmdVendor (env : Env) (ref : Line) : Tool Unit := do
  requireCleanTree env
  let _ ← checkoutVendor env ref
  regenerateBindings env
  refreshLockfile env
  let _ ← vendorVersion env
  let staged := [.vendor, .bindings]
  gitAdd env (if ← refreshPinIfMidCycle then staged ++ [.manifest .libosdp] else staged)

/-! ## publish -/

structure PublishArgs where
  crate : Crate
  noRegistry : Bool := false

/-- What a `publish` that has passed its checks is about to do. -/
structure Plan where
  crate : Crate
  state : Version
  /-- The bump is uncommitted, so the Release commit carries it. -/
  quick : Bool
  saved : List Tree

def Plan.tag (plan : Plan) : Tag := ⟨plan.crate, plan.state.released⟩

def requireReleaseOnlyDirt (env : Env) (tag : Tag) : Tool Unit := do
  let allowed := versionFiles tag.crate ++ [.changelog tag] ++
    match tag.crate with
    | .libosdp => [.manifest .libosdp]
    | .libosdpSys => []
  let names ← porcelainNames env
  let stray := names.filter (· ∉ allowed)
  stopIf (stray ≠ []) (.stray stray)

/-- Problems that must block a release of `crate` at `version`. -/
def releaseInvariants (env : Env) (crate : Crate) (version : Version) : Tool (List Problem) := do
  let marked := if version.prerelease then [.prerelease version] else []
  match crate with
  | .libosdpSys => do
    let vendored ← vendorVersion env
    return marked ++ if vendored.core ≠ version.core then [.vendored version vendored] else []
  | .libosdp => do
    let pin ← readPin
    let sys ← readState .libosdpSys
    return marked ++
      if pin.head? ≠ some '=' then [.notExactPin pin]
      else if pin.tail ≠ sys.str then [.stalePin pin sys]
      else []

/-- Problems that need the registry to detect. -/
def registryInvariants (env : Env) (args : PublishArgs) : Tool (List Problem) :=
  if args.noRegistry || args.crate ≠ .libosdp then pure []
  else do
    let pin ← readPin
    if pin.head? ≠ some '=' then return []
    let version ← lift (parseVersion pin.tail)
    call env .lookUpRelease
    return if env.onCratesIo version then [] else [.unpublished version]

/-- A quick release brings its own files uncommitted; a cycle starts from a clean tree. -/
def requireDirtOf (env : Env) (quick : Bool) (tag : Tag) : Tool Unit :=
  if quick then requireReleaseOnlyDirt env tag else requireCleanTree env

/-- All of `publish` that comes before it touches anything. -/
def publishChecks (env : Env) (args : PublishArgs) : Tool Plan := do
  let crate := args.crate
  let state ← readState crate
  let head ← headState env crate
  let quick := decide (state.core ≠ head.core)
  stopIf (!quick && !state.prerelease) (.nothingPrepared crate)
  stopIf (quick && head.prerelease) (.headInCycle crate head.released state)
  let version := state.released
  let tag : Tag := ⟨crate, version⟩
  requireDirtOf env quick tag
  stopIf (← tagExists env tag) (.tagExists tag)
  validateChangelog env tag
  let found ← releaseInvariants env crate version
  let missing ← registryInvariants env args
  stopIf (found ++ missing ≠ []) (.problems (found ++ missing))
  call env .signingKey
  call env .revParseHead
  let r ← get
  return ⟨crate, state, quick, r.history⟩

/-- Clear the pre-release marker, where there is one. -/
def clearMarker (env : Env) (plan : Plan) : Tool Unit :=
  if plan.state.prerelease then do
    writeState plan.crate plan.state.released
    refreshLockfile env
  else pure ()

def signTag (env : Env) (tag : Tag) : Tool Unit := do
  call env .signTag
  modify fun r => { r with tags := tag :: r.tags }

/-- Undo the Release commit: neither the tag's removal nor the reset is checked. -/
def rollback (env : Env) (plan : Plan) (reason : Failure) : Tool Unit := do
  modify fun r => if env.succeeds .deleteTag then { r with tags := r.tags.erase plan.tag } else r
  modify fun r =>
    if env.succeeds .reset then
      if plan.quick then r.resetSoft plan.saved else r.resetHard plan.saved
    else r
  throw (.rolledBack reason plan.tag)

/-- Commit the release and tag it. -/
def commitRelease (env : Env) (plan : Plan) : Tool Unit := do
  gitAdd env (versionFiles plan.crate ++ [.changelog plan.tag])
  gitCommit env
  onExit (signTag env plan.tag) (rollback env plan .couldNotSign)
  onExit (call env .verifyTag) (rollback env plan .signatureCheckFailed)

def cmdPublish (env : Env) (args : PublishArgs) : Tool Unit := do
  let plan ← publishChecks env args
  stampReleaseDate env plan.tag
  clearMarker env plan
  commitRelease env plan

end LibOsdp.Release
