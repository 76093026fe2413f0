import LibOsdp.Release.Tool

/-!
# What the two manifests say

The versions of the two crates and the requirement of `libosdp` on `libosdp-sys`, as the tool
reads and rewrites them in the manifests. `Stated` relates a tree to what its manifests say, and
every write of the tool is one update of that.
-/

set_option autoImplicit false

namespace LibOsdp.Release

open LibOsdp.Base

/-- `MANIFEST_VERSION_RE`. -/
def versionSetting : Setting := ⟨"version = \"".toList⟩

/-- `SYS_DEP_RE`. -/
def sysDep : Setting := ⟨"libosdp-sys = \"".toList⟩

def parseVersion (raw : Line) : Except Die Version := okOr (Version.parse? raw) (.notVersion raw)

def parseManifestVersion (crate : Crate) (text : Text) : Except Die Version := do
  let raw ← okOr (versionSetting.search text) (.noVersion (.manifest crate))
  parseVersion raw

/-- Stripping the text, as the tool strips what git prints, changes none of its settings. -/
structure Neat (text : Text) : Prop where
  version : versionSetting.search (stripText text) = versionSetting.search text
  pin : sysDep.search (stripText text) = sysDep.search text

def readState (crate : Crate) : Tool Version := do
  let text ← readText (.manifest crate)
  lift (parseManifestVersion crate text)

/-- The version recorded in the last commit. -/
def headState (env : Env) (crate : Crate) : Tool Version := do
  let r ← get
  let shown := if env.succeeds .showHead then r.head.get (.manifest crate) else none
  let text ← lift (okOr ((shown.map stripText).filter (· ≠ [])) (.noHead crate))
  lift (parseManifestVersion crate text)

/-- `_sub_once` on a manifest. -/
def setOnce (crate : Crate) (s : Setting) (value : Line) : Tool Unit := do
  let text ← readText (.manifest crate)
  let text ← lift (okOr (s.subOnce value text) (.noMatch (.manifest crate)))
  modify (·.write (.manifest crate) text)

def writeState (crate : Crate) (version : Version) : Tool Unit :=
  setOnce crate versionSetting version.str

/-- An exact requirement on a version. -/
def exactly (version : Version) : Line := '=' :: version.str

def readPin : Tool Line := do
  let text ← readText (.manifest .libosdp)
  lift (okOr (sysDep.search text) .noRequirement)

def writePin (version : Version) : Tool Unit := setOnce .libosdp sysDep (exactly version)

def refreshPinIfMidCycle : Tool Bool := do
  let state ← readState .libosdp
  if state.prerelease then
    let sys ← readState .libosdpSys
    writePin sys
    return true
  else return false

/-- What the manifests say: the two versions, and the requirement on `libosdp-sys`. -/
structure Manifests where
  sys : Version
  libosdp : Version
  pin : Line

namespace Manifests

def version (m : Manifests) : Crate → Version
  | .libosdpSys => m.sys
  | .libosdp => m.libosdp

def setVersion (m : Manifests) (version : Version) : Crate → Manifests
  | .libosdpSys => { m with sys := version }
  | .libosdp => { m with libosdp := version }

def setPin (m : Manifests) (version : Version) : Manifests := { m with pin := exactly version }

/-- While `libosdp` is in a cycle, it requires exactly the `libosdp-sys` of the workspace. -/
def InStep (m : Manifests) : Prop := m.libosdp.prerelease = true → m.pin = exactly m.sys

instance (m : Manifests) : Decidable m.InStep := inferInstanceAs (Decidable (_ → _))

end Manifests

namespace Tree

variable {t u : Tree} {m : Manifests} {crate : Crate}

def version? (t : Tree) (crate : Crate) : Option Version :=
  (t.get (.manifest crate)).bind fun text => (parseManifestVersion crate text).toOption

def pin? (t : Tree) : Option Line := (t.get (.manifest .libosdp)).bind sysDep.search

/-- The manifests of the tree say `m`. -/
structure Stated (t : Tree) (m : Manifests) : Prop where
  version : ∀ crate, t.version? crate = some (m.version crate)
  pin : t.pin? = some m.pin

theorem Stated.congr (stated : t.Stated m)
    (same : ∀ crate, u.get (.manifest crate) = t.get (.manifest crate)) : u.Stated m := by
  constructor
  · intro crate
    rw [version?, same crate]
    exact stated.version crate
  · rw [pin?, same .libosdp]
    exact stated.pin

end Tree

variable {r : Repo} {m : Manifests} {crate : Crate} {v : Version} {text text' : Text} {env : Env}

theorem apart : versionSetting.Apart sysDep := Setting.apart_of_opening (by decide) (by decide)

theorem apart' : sysDep.Apart versionSetting := Setting.apart_of_opening (by decide) (by decide)

theorem parse_of_subOnce (set : versionSetting.subOnce v.str text = some text') :
    parseManifestVersion crate text' = .ok v := by
  have read := Setting.search_subOnce (Version.quotable_str [] (by decide)) set
  simp [parseManifestVersion, parseVersion, read, Version.parse?_str]

theorem parse_of_subOnce_sysDep (set : sysDep.subOnce (exactly v) text = some text') :
    parseManifestVersion crate text' = parseManifestVersion crate text := by
  have read := Setting.search_subOnce_of_apart apart' (Version.quotable_str ['='] (by decide)) set
  rw [parseManifestVersion, read]
  rfl

theorem version?_eq_some {t : Tree} : t.version? crate = some v ↔
    ∃ text, t.get (.manifest crate) = some text ∧ parseManifestVersion crate text = .ok v := by
  simp only [Tree.version?, Option.bind_eq_some_iff, toOption_eq_some]

/-- `read_state` reads what the manifest says. -/
theorem readState_eq_ok {r' : Repo} :
    readState crate r = .ok v r' ↔ r.worktree.version? crate = some v ∧ r' = r := by
  rw [readState, bind_eq_ok_iff, version?_eq_some]
  constructor
  · rintro ⟨text, s, read, lifted⟩
    obtain ⟨found, rfl⟩ := readText_eq_ok.mp read
    obtain ⟨parsed, same⟩ := lift_eq_ok.mp lifted
    exact ⟨⟨text, found, parsed⟩, same⟩
  · rintro ⟨⟨text, found, parsed⟩, rfl⟩
    exact ⟨text, r', readText_eq_ok.mpr ⟨found, rfl⟩, lift_eq_ok.mpr ⟨parsed, rfl⟩⟩

theorem readState_eq (read : r.worktree.version? crate = some v) : readState crate r = .ok v r :=
  readState_eq_ok.mpr ⟨read, rfl⟩

theorem setOnce_eq {s : Setting} {value : Line} (found : r.worktree.get (.manifest crate) = some text)
    (set : s.subOnce value text = some text') :
    setOnce crate s value r = .ok () (r.write (.manifest crate) text') := by
  rw [setOnce, bind_of_ok (readText_eq_ok.mpr ⟨found, rfl⟩), set]
  rfl

/-- **Writing a version** changes what the manifests say about it, and no other file. -/
theorem writeState_eq (stated : r.worktree.Stated m) (crate : Crate) (v : Version) :
    ∃ text, writeState crate v r = .ok () (r.write (.manifest crate) text) ∧
      (r.write (.manifest crate) text).worktree.Stated (m.setVersion v crate) := by
  obtain ⟨old, found, parsed⟩ := version?_eq_some.mp (stated.version crate)
  have some : (versionSetting.search old).isSome := by
    obtain ⟨raw, read, -⟩ := bind_eq_ok.mp parsed
    rw [okOr_eq_ok.mp read]
    rfl
  rw [← @Setting.isSome_subOnce _ v.str] at some
  obtain ⟨text, set⟩ := Option.isSome_iff_exists.mp some
  refine ⟨text, setOnce_eq found set, ?_, ?_⟩
  · intro other
    rw [Tree.version?, Repo.write_worktree]
    by_cases same : other = crate
    · subst same
      rw [if_pos rfl, Option.bind_some, parse_of_subOnce set]
      cases other <;> rfl
    · rw [if_neg (by simpa using same)]
      refine (stated.version other).trans (congrArg Option.some ?_)
      cases other <;> cases crate <;> first | rfl | exact absurd rfl same
  · rw [Tree.pin?, Repo.write_worktree]
    cases crate with
    | libosdpSys => exact stated.pin
    | libosdp =>
      rw [if_pos rfl, Option.bind_some,
        Setting.search_subOnce_of_apart apart (Version.quotable_str [] (by decide)) set]
      have pin := stated.pin
      rwa [Tree.pin?, found, Option.bind_some] at pin

/-- **Writing the pin** changes what the manifests say about it, and no other file. -/
theorem writePin_eq (stated : r.worktree.Stated m) (v : Version) :
    ∃ text, writePin v r = .ok () (r.write (.manifest .libosdp) text) ∧
      (r.write (.manifest .libosdp) text).worktree.Stated (m.setPin v) := by
  obtain ⟨old, found, read⟩ := Option.bind_eq_some_iff.mp stated.pin
  have some : (sysDep.search old).isSome := Option.isSome_of_eq_some read
  rw [← @Setting.isSome_subOnce _ (exactly v)] at some
  obtain ⟨text, set⟩ := Option.isSome_iff_exists.mp some
  refine ⟨text, setOnce_eq found set, ?_, ?_⟩
  · intro other
    rw [Tree.version?, Repo.write_worktree]
    cases other with
    | libosdpSys => exact stated.version .libosdpSys
    | libosdp =>
      have version := stated.version .libosdp
      rw [Tree.version?, found, Option.bind_some] at version
      rwa [if_pos rfl, Option.bind_some, parse_of_subOnce_sysDep set]
  · rw [Tree.pin?, Repo.write_worktree, if_pos rfl, Option.bind_some]
    exact Setting.search_subOnce (Version.quotable_str ['='] (by decide)) set

/-- **`refresh_pin_if_mid_cycle` brings the pin in step**, whatever it was. -/
theorem refreshPinIfMidCycle_inStep (stated : r.worktree.Stated m) :
    ∃ m', (left refreshPinIfMidCycle r).worktree.Stated m' ∧ m'.InStep := by
  rw [refreshPinIfMidCycle, left_bind_of_ok (readState_eq (stated.version .libosdp))]
  split
  · rw [left_bind_of_ok (readState_eq (stated.version .libosdpSys))]
    obtain ⟨text, written, stated'⟩ := writePin_eq stated m.sys
    refine ⟨m.setPin m.sys, ?_, fun _ => rfl⟩
    rw [show m.version .libosdpSys = m.sys from rfl, left_bind_of_ok written]
    exact stated'
  · next released => exact ⟨m, stated, fun dev => absurd dev released⟩

theorem Neat.parse {text : Text} (neat : Neat text) :
    parseManifestVersion crate (stripText text) = parseManifestVersion crate text := by
  rw [parseManifestVersion, neat.version, parseManifestVersion]

theorem neat_of_stripped {text : Text} (same : stripText text = text) : Neat text :=
  ⟨by rw [same], by rw [same]⟩

theorem reads_readState : Reads (readState crate) := reads_readText.bind fun _ => Reads.lift _

theorem reads_headState : Reads (headState env crate) :=
  Reads.get.bind fun _ => (Reads.lift _).bind fun _ => Reads.lift _

theorem reads_readPin : Reads readPin := reads_readText.bind fun _ => Reads.lift _

end LibOsdp.Release
