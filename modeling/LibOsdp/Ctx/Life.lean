import LibOsdp.Base.Arena
import Mathlib.Data.List.Range

/-!
# What a context shares with LibOSDP, from its setup to its teardown

A context lends LibOSDP its channel, its callbacks and the file ops of its PDs. Any call of the
setup may fail, and what was made by then is dropped in the order of the language: a value that is
returned early from, then the locals before it, newest first. Here each allocation is named, and
every call into LibOSDP may touch all that it was lent.
-/

set_option autoImplicit false

namespace LibOsdp.Ctx.Life

open LibOsdp.Base LibOsdp.Base.Arena

/-- The allocations that LibOSDP is given pointers to; a box and what the application put in it
    are one. -/
inductive Shared where
  | channel
  /-- The description of a PD, which LibOSDP copies from during the setup. -/
  | info (pd : Nat)
  /-- `CpEvents`, or the `PdCommandSlot`. -/
  | callbacks
  | wakeups
  | fileOps (pd : Nat)
  deriving DecidableEq, Repr

/-- What the calls of the setup answer. -/
structure Answers where
  /-- Did the setup return a context? -/
  setup : Bool
  completions : Bool
  callback : Bool
  registers : Nat → Bool

abbrev Run := Owns Shared

/-- What the callbacks are given. -/
def boxes (async : Bool) : List Shared := .callbacks :: if async then [.wakeups] else []

/-- The fields of a context in the order in which they are dropped. -/
def fields (async : Bool) (fileOps : List Nat) : List Shared :=
  .channel :: (boxes async ++ fileOps.map .fileOps)

def freeInfos (infos : List Nat) : Run Unit := forM (infos.map .info) free

def freeOps (ops : List Nat) : Run Unit := forM (ops.map .fileOps) free

/-- The `Drop` of a context, and then its fields. -/
def dropContext (async : Bool) (fileOps : List Nat) : Run Unit := do
  close
  forM (fields async fileOps) free

variable (answers : Answers) (async : Bool)

/-- Did LibOSDP take the file ops? They are dropped if not. -/
def attachFileOps (pd : Nat) : Run Bool :=
  if answers.registers pd then do
    hold (.fileOps pd)
    return true
  else do
    call
    free (.fileOps pd)
    return false

/-- The file ops of the context, or none where LibOSDP refused some: those still in the iterator
    are dropped first. -/
def attachAll (attached : List Nat) : List Nat → Run (Option (List Nat))
  | [] => return some attached
  | pd :: rest => do
    if ← attachFileOps answers pd then attachAll (attached ++ [pd]) rest
    else
      freeOps rest
      dropContext async attached
      return none

/-- Set both callbacks: were they taken? -/
def setCallbacks : Run Bool := do
  forM (boxes async) own
  offer (async && answers.completions) .wakeups
  offer answers.callback .callbacks
  return answers.completions && answers.callback

/-- The setup from where the callbacks were set. -/
def finishSetup (taken : Bool) (infos ops : List Nat) : Run (Option (List Nat)) :=
  if taken then do
    let fileOps ← attachAll answers async [] ops
    freeInfos infos
    return fileOps
  else do
    dropContext async []
    freeInfos infos
    freeOps ops
    return none

/-- The setup from where there is a context. -/
def setupContext (infos ops : List Nat) : Run (Option (List Nat)) := do
  openContext
  hold .channel
  let taken ← setCallbacks answers async
  finishSetup answers async taken infos ops

/-- The PDs that were added with file ops. -/
def withOps (pds : List Bool) : List Nat := (List.range pds.length).filter fun pd => pds.getD pd false

/-- `ControlPanelBuilder::build`, of PDs with and without file ops. -/
def build (pds : List Bool) : Run (Option (List Nat)) := do
  let infos := List.range pds.length
  forM (infos.map .info) own
  forM (.channel :: infos.map .info) touch
  if answers.setup then setupContext answers async infos (withOps pds)
  else
    free .channel
    freeInfos infos
    freeOps (withOps pds)
    return none

/-- `PeripheralDevice::new`, with or without file ops. -/
def new (ops : Bool) : Run (Option (List Nat)) := do
  let ops := if ops then [0] else []
  forM [.info 0] own
  forM [.channel, .info 0] touch
  if answers.setup then setupContext answers async [0] ops
  else
    freeInfos [0]
    free .channel
    freeOps ops
    return none

/-- A context from its setup to its drop, with `uses` calls of its methods in between: was there
    one? -/
def life (setup : Run (Option (List Nat))) (uses : Nat) : Run Bool := do
  match ← setup with
  | none => return false
  | some fileOps =>
    forM (List.replicate uses ()) fun _ => call
    dropContext async fileOps
    return true

/-- What the application hands over before the setup. -/
def handed (ops : List Nat) : Arena Shared := ⟨(.channel :: ops.map .fileOps).toFinset, ∅, false⟩

/-- Nothing is allocated, and there is no context. -/
def nothing : Arena Shared := ⟨∅, ∅, false⟩

variable {answers async} {attached rest infos ops : List Nat} {held : Finset Shared}
  {before after : List Shared} {a : Arena Shared} {b : Shared} {o : Bool}

/-! ## The context -/

/-- What the setup owns beside the context: the file ops that are not attached yet, and the
    descriptions. -/
def waiting (rest infos : List Nat) : List Shared := rest.map .fileOps ++ infos.map .info

def shares (async : Bool) (attached rest infos : List Nat) : List Shared :=
  fields async attached ++ waiting rest infos

theorem fields_append : fields async (attached ++ rest) = fields async attached ++ rest.map .fileOps := by
  simp [fields, boxes]

theorem shares_eq : shares async attached rest infos =
    fields async (attached ++ rest) ++ infos.map .info := by
  rw [fields_append, List.append_assoc]
  rfl

theorem shares_cons {pd : Nat} :
    shares async attached (pd :: rest) infos = shares async (attached ++ [pd]) rest infos := by
  rw [shares_eq, shares_eq, List.append_assoc, List.singleton_append]

theorem info_notMem_fields {pd : Nat} : .info pd ∉ fields async attached := by
  cases async <;> simp [fields, boxes]

theorem shares_nodup (apart : (attached ++ rest).Nodup) (described : infos.Nodup) :
    (shares async attached rest infos).Nodup := by
  rw [shares_eq]
  refine List.nodup_append.mpr ⟨?_, described.map fun _ _ => Shared.info.inj, ?_⟩
  · have mapped := apart.map (f := Shared.fileOps) fun _ _ => Shared.fileOps.inj
    cases async <;> simpa [fields, boxes] using mapped
  · intro b field c description eq
    obtain ⟨pd, -, rfl⟩ := List.mem_map.mp description
    exact info_notMem_fields (eq ▸ field)

theorem valid_of_subset (sub : held ⊆ (fields async attached).toFinset) :
    Arena.Valid ⟨(fields async attached ++ after).toFinset, held, true⟩ where
  opened := rfl
  held := by
    rw [List.toFinset_append]
    exact sub.trans Finset.subset_union_left

theorem valid_shares (sub : held ⊆ (fields async attached).toFinset) :
    Arena.Valid ⟨(shares async attached rest infos).toFinset, held, true⟩ := valid_of_subset sub

/-- Dropping a context frees its fields, whatever LibOSDP held of them. -/
theorem dropContext_eq (apart : (fields async attached ++ after).Nodup)
    (sub : held ⊆ (fields async attached).toFinset) :
    dropContext async attached ⟨(fields async attached ++ after).toFinset, held, true⟩ =
      .ok () ⟨after.toFinset, ∅, false⟩ := by
  rw [dropContext, bind_of_ok (close_eq (valid_of_subset sub))]
  exact forM_free_first apart fun _ _ => Finset.notMem_empty _

theorem attachFileOps_of_taken {pd : Nat} (taken : answers.registers pd = true)
    (sub : held ⊆ (fields async attached).toFinset) :
    attachFileOps answers pd ⟨(shares async attached (pd :: rest) infos).toFinset, held, true⟩ =
      .ok true ⟨(shares async (attached ++ [pd]) rest infos).toFinset,
        insert (.fileOps pd) held, true⟩ := by
  have there : Shared.fileOps pd ∈ (shares async attached (pd :: rest) infos).toFinset := by
    simp [shares, waiting]
  rw [attachFileOps, if_pos taken, bind_of_ok (hold_eq (valid_shares sub) there), shares_cons]
  rfl

/-- Refused file ops are freed, which is no misuse as LibOSDP does not hold them. -/
theorem attachFileOps_of_refused {pd : Nat} (refused : answers.registers pd = false)
    (apart : (shares async attached (pd :: rest) infos).Nodup)
    (sub : held ⊆ (fields async attached).toFinset) :
    attachFileOps answers pd ⟨(shares async attached (pd :: rest) infos).toFinset, held, true⟩ =
      .ok false ⟨(shares async attached rest infos).toFinset, held, true⟩ := by
  have unheld : Shared.fileOps pd ∉ held := by
    intro mem
    have field := List.mem_toFinset.mp (sub mem)
    exact (List.nodup_append.mp apart).2.2 _ field _ List.mem_cons_self rfl
  rw [attachFileOps, if_neg (by rw [refused]; decide), bind_of_ok (call_eq (valid_shares sub))]
  rw [shares, waiting, List.map_cons, List.cons_append] at apart ⊢
  rw [bind_of_ok (free_list apart unheld)]
  rfl

/-- Attaching hands every one of the file ops to the context, or, where LibOSDP refuses some, frees
    the context and those that are left. -/
theorem attachAll_spec (answers : Answers) (apart : (shares async attached rest infos).Nodup)
    (sub : held ⊆ (fields async attached).toFinset) :
    if rest.all answers.registers then
      ∃ held' ⊆ (fields async (attached ++ rest)).toFinset,
        attachAll answers async attached rest ⟨(shares async attached rest infos).toFinset, held, true⟩ =
          .ok (some (attached ++ rest))
            ⟨(shares async (attached ++ rest) [] infos).toFinset, held', true⟩
    else
      attachAll answers async attached rest ⟨(shares async attached rest infos).toFinset, held, true⟩ =
        .ok none ⟨(infos.map .info).toFinset, ∅, false⟩ := by
  induction rest generalizing attached held with
  | nil =>
    rw [List.all_nil, if_pos rfl, List.append_nil]
    exact ⟨held, sub, rfl⟩
  | cons pd rest ih =>
    cases taken : answers.registers pd
    · have left : (shares async attached rest infos).Nodup :=
        (List.nodup_cons.mp (List.nodup_middle.mp apart)).2
      have unheld : ∀ b ∈ rest.map Shared.fileOps, b ∉ held := by
        intro b mem inside
        have field := List.mem_toFinset.mp (sub inside)
        exact (List.nodup_append.mp left).2.2 _ field _ (List.mem_append_left _ mem) rfl
      have ended : (fields async attached ++ infos.map Shared.info).Nodup :=
        left.sublist (List.Sublist.append_left (List.sublist_append_right _ _) _)
      rw [List.all_cons, taken, Bool.false_and, if_neg Bool.false_ne_true, attachAll,
        bind_of_ok (attachFileOps_of_refused taken apart sub), if_neg Bool.false_ne_true, freeOps,
        shares, waiting, bind_of_ok (forM_free left unheld), bind_of_ok (dropContext_eq ended sub)]
      rfl
    · have sub' : insert (.fileOps pd) held ⊆ (fields async (attached ++ [pd])).toFinset := by
        rw [fields_append, List.toFinset_append]
        refine Finset.insert_subset ?_ (sub.trans Finset.subset_union_left)
        exact Finset.mem_union_right _ (List.mem_toFinset.mpr List.mem_cons_self)
      rw [shares_cons] at apart
      have rest' := ih apart sub'
      rw [List.append_assoc] at rest'
      rw [List.all_cons, taken, Bool.true_and, attachAll, bind_of_ok (attachFileOps_of_taken taken sub)]
      exact rest'

/-! ## The callbacks -/

theorem offer_spec {taken : Bool} (after : List Shared)
    (field : taken = true → b ∈ fields async attached)
    (sub : held ⊆ (fields async attached).toFinset) :
    ∃ held' ⊆ (fields async attached).toFinset,
      offer taken b ⟨(fields async attached ++ after).toFinset, held, true⟩ =
        .ok () ⟨(fields async attached ++ after).toFinset, held', true⟩ := by
  have there : taken = true → b ∈ (fields async attached ++ after).toFinset :=
    fun h => List.mem_toFinset.mpr (List.mem_append_left _ (field h))
  refine ⟨_, ?_, offer_eq (valid_of_subset sub) there⟩
  cases taken
  · exact sub
  · exact Finset.insert_subset (List.mem_toFinset.mpr (field rfl)) sub

/-- Setting the callbacks allocates what they are given, and LibOSDP holds no more than the fields
    of the context. -/
theorem setCallbacks_spec (answers : Answers) (apart : (fields async [] ++ after).Nodup) :
    ∃ held' ⊆ (fields async []).toFinset,
      setCallbacks answers async ⟨(.channel :: after).toFinset, {.channel}, true⟩ =
        .ok (answers.completions && answers.callback)
          ⟨(fields async [] ++ after).toFinset, held', true⟩ := by
  have same : (boxes async ++ .channel :: after).Perm (fields async [] ++ after) := by
    simp [fields, List.perm_middle]
  have owned := forM_own (h := {Shared.channel}) (o := true) (same.nodup_iff.mpr apart)
  rw [List.toFinset_eq_of_perm _ _ same] at owned
  have channel : {Shared.channel} ⊆ (fields async []).toFinset := by simp [fields]
  have wakeups : (async && answers.completions) = true → .wakeups ∈ fields async [] := by
    rw [Bool.and_eq_true]
    rintro ⟨rfl, -⟩
    simp [fields, boxes]
  obtain ⟨held₁, sub₁, completions⟩ := offer_spec after wakeups channel
  have callbacks : answers.callback = true → .callbacks ∈ fields async [] := by simp [fields, boxes]
  obtain ⟨held₂, sub₂, callback⟩ := offer_spec after callbacks sub₁
  refine ⟨held₂, sub₂, ?_⟩
  rw [setCallbacks, bind_of_ok owned, bind_of_ok completions, bind_of_ok callback]
  rfl

/-! ## The setup -/

theorem free_channel (apart : (.channel :: after).Nodup) :
    free .channel ⟨(.channel :: after).toFinset, ∅, false⟩ = .ok () ⟨after.toFinset, ∅, false⟩ :=
  free_head apart (Finset.notMem_empty _)

theorem freeOps_last (served : (ops.map Shared.fileOps).Nodup) :
    freeOps ops ⟨(ops.map .fileOps).toFinset, ∅, false⟩ = .ok () nothing :=
  forM_free_all served fun _ _ => Finset.notMem_empty _

theorem freeInfos_waiting (left : (waiting ops infos).Nodup) :
    freeInfos infos ⟨(waiting ops infos).toFinset, ∅, false⟩ =
      .ok () ⟨(ops.map .fileOps).toFinset, ∅, false⟩ :=
  forM_free_last left fun _ _ => Finset.notMem_empty _

/-- With all answers good, the context owns the file ops and all that LibOSDP holds. Otherwise
    nothing is left. -/
theorem finishSetup_spec {taken : Bool} (apart : (shares async [] ops infos).Nodup)
    (sub : held ⊆ (fields async []).toFinset) :
    if taken && ops.all answers.registers then
      ∃ held' ⊆ (fields async ops).toFinset,
        finishSetup answers async taken infos ops ⟨(shares async [] ops infos).toFinset, held, true⟩ =
          .ok (some ops) ⟨(fields async ops).toFinset, held', true⟩
    else
      finishSetup answers async taken infos ops ⟨(shares async [] ops infos).toFinset, held, true⟩ =
        .ok none nothing := by
  have left : (waiting ops infos).Nodup := (List.nodup_append.mp apart).2.1
  obtain ⟨served, described, -⟩ := List.nodup_append.mp left
  cases taken
  · rw [Bool.false_and, if_neg Bool.false_ne_true, finishSetup, if_neg Bool.false_ne_true, shares,
      bind_of_ok (dropContext_eq apart sub), bind_of_ok (freeInfos_waiting left),
      bind_of_ok (freeOps_last served)]
    rfl
  · have attach := attachAll_spec answers apart sub
    rw [Bool.true_and]
    split
    · next all =>
      rw [if_pos all, shares_eq, shares_eq, List.nil_append, List.append_nil] at attach
      rw [shares_eq, List.nil_append] at apart ⊢
      obtain ⟨held', sub', attached⟩ := attach
      have freed : freeInfos infos ⟨(fields async ops ++ infos.map Shared.info).toFinset, held', true⟩ =
          .ok () ⟨(fields async ops).toFinset, held', true⟩ := by
        refine forM_free_last apart fun b mem inside => ?_
        obtain ⟨pd, -, rfl⟩ := List.mem_map.mp mem
        exact info_notMem_fields (List.mem_toFinset.mp (sub' inside))
      refine ⟨held', sub', ?_⟩
      rw [finishSetup, if_pos rfl, bind_of_ok attached, bind_of_ok freed]
      rfl
    · next refused =>
      rw [if_neg refused] at attach
      have freed : freeInfos infos ⟨(infos.map Shared.info).toFinset, ∅, false⟩ = .ok () nothing :=
        forM_free_all described fun _ _ => Finset.notMem_empty _
      rw [finishSetup, if_pos rfl, bind_of_ok attach, bind_of_ok freed]
      rfl

theorem setupContext_eq (answers : Answers) (apart : (shares async [] ops infos).Nodup) :
    ∃ held ⊆ (fields async []).toFinset,
      setupContext answers async infos ops ⟨(.channel :: waiting ops infos).toFinset, ∅, false⟩ =
        finishSetup answers async (answers.completions && answers.callback) infos ops
          ⟨(shares async [] ops infos).toFinset, held, true⟩ := by
  have opened : openContext ⟨(Shared.channel :: waiting ops infos).toFinset, ∅, false⟩ =
      .ok () ⟨(Shared.channel :: waiting ops infos).toFinset, ∅, true⟩ := rfl
  have lent : hold .channel ⟨(Shared.channel :: waiting ops infos).toFinset, ∅, true⟩ =
      .ok () ⟨(Shared.channel :: waiting ops infos).toFinset, {.channel}, true⟩ :=
    hold_eq ⟨rfl, Finset.empty_subset _⟩ (List.mem_toFinset.mpr List.mem_cons_self)
  obtain ⟨held, sub, set⟩ := setCallbacks_spec answers apart
  exact ⟨held, sub, by rw [setupContext, bind_of_ok opened, bind_of_ok lent, bind_of_ok set]; rfl⟩

/-- A setup that makes a context if all the answers are good, and leaves nothing otherwise. -/
def Sets (answers : Answers) (async : Bool) (ops : List Nat) (setup : Run (Option (List Nat))) : Prop :=
  if answers.setup && (answers.completions && answers.callback) && ops.all answers.registers then
    ∃ held ⊆ (fields async ops).toFinset,
      setup (handed ops) = .ok (some ops) ⟨(fields async ops).toFinset, held, true⟩
  else setup (handed ops) = .ok none nothing

theorem sets_of_setup {setup : Run (Option (List Nat))} (apart : ops.Nodup) (described : infos.Nodup)
    (good : answers.setup = true → setup (handed ops) =
      setupContext answers async infos ops ⟨(.channel :: waiting ops infos).toFinset, ∅, false⟩)
    (bad : answers.setup = false → setup (handed ops) = .ok none nothing) :
    Sets answers async ops setup := by
  have all : (shares async [] ops infos).Nodup := shares_nodup apart described
  cases made : answers.setup
  · rw [Sets, made, Bool.false_and, Bool.false_and, if_neg Bool.false_ne_true]
    exact bad made
  · obtain ⟨held, sub, eq⟩ := setupContext_eq answers all
    rw [Sets, made, Bool.true_and, good made, eq]
    exact finishSetup_spec all sub

theorem start_nodup (apart : ops.Nodup) (described : infos.Nodup) :
    (.channel :: waiting ops infos).Nodup := by
  have all : (shares false [] ops infos).Nodup := shares_nodup apart described
  refine all.sublist (List.Sublist.cons_cons _ ?_)
  exact List.sublist_append_right _ _

theorem own_infos (start : (.channel :: waiting ops infos).Nodup) :
    (forM (infos.map .info) own : Run Unit) (handed ops) =
      .ok () ⟨(.channel :: waiting ops infos).toFinset, ∅, false⟩ := by
  have same : (infos.map Shared.info ++ Shared.channel :: ops.map Shared.fileOps).Perm
      (.channel :: waiting ops infos) :=
    List.perm_middle.trans (List.perm_append_comm.cons _)
  rw [handed, forM_own (same.nodup_iff.mpr start), List.toFinset_eq_of_perm _ _ same]

theorem touch_infos : (forM (.channel :: infos.map .info) touch : Run Unit)
      ⟨(.channel :: waiting ops infos).toFinset, ∅, false⟩ =
    .ok () ⟨(.channel :: waiting ops infos).toFinset, ∅, false⟩ := by
  refine forM_touch fun b mem => List.mem_toFinset.mpr ?_
  exact (List.Sublist.cons_cons _ (List.sublist_append_right _ _)).subset mem

theorem build_sets {pds : List Bool} : Sets answers async (withOps pds) (build answers async pds) := by
  have apart : (withOps pds).Nodup := List.nodup_range.filter _
  have described : (List.range pds.length).Nodup := List.nodup_range
  have start := start_nodup apart described
  refine sets_of_setup apart described (fun made => ?_) fun refused => ?_
  · rw [build, bind_of_ok (own_infos start), bind_of_ok touch_infos, made]
    rfl
  · have left := (List.nodup_cons.mp start).2
    rw [build, bind_of_ok (own_infos start), bind_of_ok touch_infos, refused,
      if_neg Bool.false_ne_true, bind_of_ok (free_channel start), bind_of_ok (freeInfos_waiting left),
      bind_of_ok (freeOps_last (List.nodup_append.mp left).1)]
    rfl

theorem new_sets {served : Bool} :
    Sets answers async (if served then [0] else []) (new answers async served) := by
  generalize eq : (if served then [0] else [] : List Nat) = ops
  have apart : ops.Nodup := by rw [← eq]; cases served <;> decide
  have start := start_nodup apart (List.nodup_singleton 0)
  have owned : (forM [.info 0] own : Run Unit) (handed ops) = .ok () _ := own_infos start
  have touched : (forM [.channel, .info 0] touch : Run Unit)
        ⟨(.channel :: waiting ops [0]).toFinset, ∅, false⟩ =
      .ok () ⟨(.channel :: waiting ops [0]).toFinset, ∅, false⟩ := touch_infos
  refine sets_of_setup apart (List.nodup_singleton 0) (fun made => ?_) fun refused => ?_
  · rw [new, eq, bind_of_ok owned, bind_of_ok touched, made]
    rfl
  · have last : (Shared.channel :: ops.map Shared.fileOps).Nodup :=
      start.sublist (List.Sublist.cons_cons _ (List.sublist_append_left _ _))
    have described : freeInfos [0] ⟨(.channel :: waiting ops [0]).toFinset, ∅, false⟩ =
        .ok () ⟨(.channel :: ops.map Shared.fileOps).toFinset, ∅, false⟩ :=
      @forM_free_last _ _ _ (.channel :: ops.map Shared.fileOps) _ _ start fun _ _ =>
        Finset.notMem_empty _
    rw [new, eq, bind_of_ok owned, bind_of_ok touched, refused, if_neg Bool.false_ne_true,
      bind_of_ok described, bind_of_ok (free_channel last),
      bind_of_ok (freeOps_last (List.nodup_cons.mp last).2)]
    rfl

theorem life_eq {setup : Run (Option (List Nat))} {uses : Nat} (sets : Sets answers async ops setup)
    (apart : ops.Nodup) : life async setup uses (handed ops) =
      .ok (answers.setup && (answers.completions && answers.callback) && ops.all answers.registers)
        nothing := by
  rw [Sets] at sets
  split at sets
  · next all =>
    obtain ⟨held, sub, made⟩ := sets
    have owned : (fields async ops ++ []).Nodup := by
      have shared : (shares async ops [] []).Nodup :=
        shares_nodup (by rwa [List.append_nil]) List.nodup_nil
      exact shared
    have valid : Arena.Valid ⟨(fields async ops ++ []).toFinset, held, true⟩ := valid_of_subset sub
    have dropped := dropContext_eq owned sub
    rw [List.append_nil] at valid dropped
    rw [life, bind_of_ok made]
    dsimp only
    rw [bind_of_ok (forM_call valid), bind_of_ok dropped, all]
    rfl
  · next refused =>
    rw [life, bind_of_ok sets, Bool.eq_false_iff.mpr refused]
    rfl

/-- **What is shared with LibOSDP is freed once, and only when LibOSDP is done with it**, however
    the calls of the setup end and whatever is called in between: no script of a context meets a
    misuse, and each ends with nothing allocated. -/
theorem shared_freed_once (pds : List Bool) (served : Bool) (uses : Nat) :
    (life async (build answers async pds) uses (handed (withOps pds)) =
        .ok (answers.setup && (answers.completions && answers.callback) &&
          (withOps pds).all answers.registers) nothing) ∧
      life async (new answers async served) uses (handed (if served then [0] else [])) =
        .ok (answers.setup && (answers.completions && answers.callback) &&
          (if served then [0] else []).all answers.registers) nothing := by
  refine ⟨life_eq build_sets (List.nodup_range.filter _), life_eq new_sets ?_⟩
  cases served <;> decide

end LibOsdp.Ctx.Life
