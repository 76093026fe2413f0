import LibOsdp.Base.Script
import LibOsdp.Release.Version
import Mathlib.Data.List.Dedup

/-!
# The checkout a release works on

The files of the release flow in the working tree, in the index and in each commit, and what the
git commands of the tool do to them. Everything outside this checkout is an environment: each
call to git, cargo, gpg or the registry may fail, and what such a call answers is the
environment's choice.
-/

set_option autoImplicit false

namespace LibOsdp.Release

open LibOsdp.Base

/-- A release tag, `<crate>-v<version>`. -/
structure Tag where
  crate : Crate
  version : Version
  deriving DecidableEq, Repr

/-- The paths of the checkout, from its root. -/
inductive Path where
  | manifest (crate : Crate)
  /-- The gitlink of the vendored C library. -/
  | vendor
  | bindings
  /-- The release file `changelog/<tag>.md`. -/
  | changelog (tag : Tag)
  | other (name : Line)
  deriving DecidableEq, Repr

/-- Files by path; the text of a gitlink is the one line of its commit. -/
abbrev Tree := List (Path × Text)

namespace Tree

variable {t u : Tree} {p q : Path}

def get (t : Tree) (p : Path) : Option Text := t.lookup p

/-- The files whose path is one of `keep`. -/
def only (keep : Path → Bool) (t : Tree) : Tree := t.filter fun file => keep file.1

/-- The tree with this text, or with nothing, at `p`. -/
def put (t : Tree) (p : Path) : Option Text → Tree
  | some text => (p, text) :: t
  | none => t.only (· ≠ p)

@[simp] theorem get_append : get (t ++ u) p = (t.get p).or (u.get p) := List.lookup_append

theorem get_only {keep : Path → Bool} : (t.only keep).get p = if keep p then t.get p else none := by
  induction t with
  | nil => simp [only, get]
  | cons file t ih =>
    obtain ⟨q, text⟩ := file
    simp only [only, get, List.filter_cons, List.lookup_cons] at ih ⊢
    by_cases same : p = q
    · subst same
      split
      · simp
      · next drop => simpa [drop] using ih
    · have other : (p == q) = false := beq_false_of_ne same
      split
      · rw [List.lookup_cons, other]
        exact ih
      · rw [other]
        exact ih

theorem get_put {text : Option Text} : (t.put p text).get q = if q = p then text else t.get q := by
  cases text with
  | none =>
    rw [put, get_only]
    by_cases same : q = p <;> simp [same]
  | some text =>
    by_cases same : q = p <;> simp [put, get, List.lookup_cons, same, beq_false_of_ne]

end Tree

/-- The checkout: the commits with HEAD first, the index, the working tree, and the tags. What git
    ignores is left out: the lock file and the builds of cargo, and what Python compiles. -/
structure Repo where
  history : List Tree
  index : Tree
  worktree : Tree
  tags : List Tag

namespace Repo

variable {r : Repo} {p q : Path}

def head (r : Repo) : Tree := r.history.headD []

def write (p : Path) (text : Text) (r : Repo) : Repo :=
  { r with worktree := r.worktree.put p (some text) }

/-- `git add`. -/
def add (paths : List Path) (r : Repo) : Repo :=
  { r with index := paths.foldl (fun index p => index.put p (r.worktree.get p)) r.index }

/-- `git commit`. -/
def commit (r : Repo) : Repo := { r with history := r.index :: r.history }

/-- `git reset --soft`. -/
def resetSoft (saved : List Tree) (r : Repo) : Repo := { r with history := saved }

/-- Is there a file for `git reset --hard` to write or to remove? A submodule's checkout stays. -/
def resets (saved : Tree) (r : Repo) (p : Path) : Bool :=
  p ≠ .vendor && ((saved.get p).isSome || (r.index.get p).isSome)

/-- `git reset --hard`. -/
def resetHard (saved : List Tree) (r : Repo) : Repo :=
  let target := saved.headD []
  { r with
    history := saved
    index := target
    worktree := target.only (r.resets target) ++ r.worktree.only fun p => !r.resets target p }

/-- Does `git status` list the tracked file `p`? -/
def dirty (r : Repo) (p : Path) : Bool :=
  r.head.get p ≠ r.index.get p || ((r.index.get p).isSome && r.index.get p ≠ r.worktree.get p)

/-- Does git show the removal of `old` as its rename to `new`? -/
def renamed (r : Repo) (old new : Path) : Bool :=
  (r.head.get old).isSome && r.index.get old = none && r.head.get new = none &&
    (r.index.get new).isSome

/-- `_porcelain_names`, where `renames` are the pairs of paths that git takes for renames. -/
def porcelainNames (renames : List (Path × Path)) (r : Repo) : List Path :=
  (((r.head ++ r.index).map Prod.fst).dedup.filter r.dirty).filter fun p =>
    !(renames.any fun (old, new) => old = p && r.renamed old new)

@[simp] theorem write_worktree {text : Text} :
    (r.write p text).worktree.get q = if q = p then some text else r.worktree.get q :=
  @Tree.get_put _ _ _ (some text)

@[simp] theorem add_worktree {paths : List Path} : (r.add paths).worktree = r.worktree := rfl

theorem add_index {paths : List Path} : (r.add paths).index.get p =
    if p ∈ paths then r.worktree.get p else r.index.get p := by
  have fold : ∀ (index : Tree), (paths.foldl (fun index p => index.put p (r.worktree.get p))
      index).get p = if p ∈ paths then r.worktree.get p else index.get p := by
    induction paths with
    | nil => simp
    | cons q paths ih =>
      intro index
      rw [List.foldl_cons, ih, Tree.get_put]
      by_cases same : p = q
      · subst same
        simp
      · simp [same]
  exact fold r.index

theorem resetHard_worktree {saved : List Tree} : (r.resetHard saved).worktree.get p =
    if r.resets (saved.headD []) p then (saved.headD []).get p else r.worktree.get p := by
  simp only [resetHard, Tree.get_append, Tree.get_only]
  generalize saved.headD [] = target
  cases resets : r.resets target p with
  | true => simp
  | false => simp

theorem dirty_eq_false : r.dirty p = false ↔ r.head.get p = r.index.get p ∧
    ((r.index.get p).isSome → r.index.get p = r.worktree.get p) := by
  simp only [dirty, Bool.or_eq_false_iff, decide_eq_false_iff_not, not_not, Bool.and_eq_false_imp]

theorem mem_paths {t : Tree} (some : (t.get p).isSome) : p ∈ t.map Prod.fst := by
  induction t with
  | nil => cases some
  | cons file t ih =>
    by_cases same : p = file.1
    · exact List.mem_map.mpr ⟨file, List.mem_cons_self, same.symm⟩
    · rw [Tree.get, List.lookup_cons, beq_false_of_ne same] at some
      exact List.mem_cons_of_mem _ (ih some)

theorem mem_porcelainNames {renames : List (Path × Path)} (changed : r.dirty p = true)
    (shown : ∀ q, (p, q) ∈ renames → r.renamed p q = false) : p ∈ r.porcelainNames renames := by
  have tracked : ((r.head ++ r.index).get p).isSome := by
    rw [Tree.get_append, Option.isSome_or]
    by_contra untracked
    obtain ⟨head, index⟩ := Bool.or_eq_false_iff.mp (Bool.eq_false_iff.mpr untracked)
    rw [Option.isSome_eq_false_iff, Option.isNone_iff_eq_none] at head index
    simp [Repo.dirty, head, index] at changed
  refine List.mem_filter.mpr
    ⟨List.mem_filter.mpr ⟨List.mem_dedup.mpr (mem_paths tracked), changed⟩, ?_⟩
  simp only [Bool.not_eq_true', List.any_eq_false, Bool.and_eq_true, decide_eq_true_eq,
    Prod.forall, not_and, Bool.not_eq_true]
  rintro old new mem rfl
  exact shown new mem

/-- The new name of a rename is listed itself. -/
theorem mem_porcelainNames_of_renamed {renames : List (Path × Path)}
    (pair : r.renamed p q = true) : q ∈ r.porcelainNames renames := by
  simp only [renamed, Bool.and_eq_true, decide_eq_true_eq] at pair
  obtain ⟨⟨-, fresh⟩, added⟩ := pair
  apply mem_porcelainNames
  · have differ : r.head.get q ≠ r.index.get q := by
      rw [fresh]
      exact (Option.isSome_iff_ne_none.mp added).symm
    simp [Repo.dirty, differ]
  · intro new _
    simp [renamed, Option.isSome_iff_ne_none.mp added]

/-- All that `git status` lists is in `allowed` exactly if every other changed file is shown as
    the old name of one in `allowed`. -/
theorem porcelainNames_subset_iff {renames : List (Path × Path)} {allowed : List Path} :
    (∀ p ∈ r.porcelainNames renames, p ∈ allowed) ↔ ∀ p ∉ allowed, r.dirty p = true →
      ∃ q ∈ allowed, (p, q) ∈ renames ∧ r.renamed p q = true := by
  constructor
  · intro listed p stray changed
    by_cases shown : ∀ q, (p, q) ∈ renames → r.renamed p q = false
    · exact absurd (listed p (mem_porcelainNames changed shown)) stray
    · push Not at shown
      obtain ⟨q, mem, pair⟩ := shown
      have pair : r.renamed p q = true := by simpa using pair
      exact ⟨q, listed q (mem_porcelainNames_of_renamed pair), mem, pair⟩
  · intro hidden p mem
    by_contra stray
    obtain ⟨tracked, shown⟩ := List.mem_filter.mp mem
    obtain ⟨q, -, renamed, pair⟩ := hidden p stray (List.mem_filter.mp tracked).2
    have some : renames.any (fun (old, new) => old = p && r.renamed old new) = true :=
      List.any_eq_true.mpr ⟨(p, q), renamed, by simp [pair]⟩
    rw [some] at shown
    cases shown

/-- `git status` prints nothing exactly if no tracked file is changed. -/
theorem porcelainNames_eq_nil_iff {renames : List (Path × Path)} :
    r.porcelainNames renames = [] ↔ ∀ p, r.dirty p = false := by
  have listed := @porcelainNames_subset_iff r renames []
  simp only [List.not_mem_nil, not_false_iff, imp_false, forall_const, false_and, exists_false,
    Bool.not_eq_true] at listed
  rw [List.eq_nil_iff_forall_not_mem, listed]

/-- Where `git status` prints nothing, no tracked file is changed. -/
theorem not_dirty_of_porcelainNames {renames : List (Path × Path)}
    (clean : r.porcelainNames renames = []) : r.dirty p = false :=
  porcelainNames_eq_nil_iff.mp clean p

end Repo

end LibOsdp.Release
