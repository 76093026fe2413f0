/-!
# Runs of a partial step function

Finite runs of a system whose step is a partial function of a state and an action. A run keeps
its hops, so that a statement can speak of every step taken and of the states around it, not only
of the states reached. The rules: an invariant is one fact of the first state and one of a step;
a promise on the hops may be assumed of every step; and a run can be cut at any of its hops.
-/

set_option autoImplicit false

namespace LibOsdp.Base

/-- One step taken: the action, and the states around it. -/
structure Hop (S A : Type) where
  src : S
  act : A
  dst : S

section Run

variable {S A : Type} {step : S → A → Option S}

/-- `Run step s hops t`: taking `hops` in order leads from `s` to `t`. -/
inductive Run (step : S → A → Option S) (s : S) : List (Hop S A) → S → Prop where
  | nil : Run step s [] s
  | snoc {hops : List (Hop S A)} {t u : S} {a : A} :
      Run step s hops t → step t a = some u → Run step s (hops ++ [⟨t, a, u⟩]) u

namespace Run

variable {s t u : S} {hops : List (Hop S A)}

theorem trans {more : List (Hop S A)} (first : Run step s hops t) (rest : Run step t more u) :
    Run step s (hops ++ more) u := by
  induction rest with
  | nil => simpa using first
  | snoc _ hstep ih =>
    rw [← List.append_assoc]
    exact ih.snoc hstep

theorem single {a : A} (hstep : step s a = some t) : Run step s [⟨s, a, t⟩] t :=
  Run.nil.snoc hstep

/-- **The invariant rule**, under a promise `P` that every hop of the run keeps. -/
theorem invariant {I : S → Prop} {P : Hop S A → Prop} (run : Run step s hops t)
    (promise : ∀ h ∈ hops, P h) (first : I s)
    (keep : ∀ {x a y}, I x → P ⟨x, a, y⟩ → step x a = some y → I y) : I t := by
  induction run with
  | nil => exact first
  | snoc _ hstep ih =>
    have before := ih fun h mem => promise h (List.mem_append_left _ mem)
    exact keep before (promise _ (by simp)) hstep

/-- The invariant rule without a promise. -/
theorem always {I : S → Prop} (run : Run step s hops t) (first : I s)
    (keep : ∀ {x a y}, I x → step x a = some y → I y) : I t :=
  run.invariant (fun _ _ => trivial) first (P := fun _ => True)
    fun hx _ hstep => keep hx hstep

/-- A run is cut at a place of its hops: a run up to it, the step, and a run from it. -/
theorem cut_at {before after : List (Hop S A)} {h : Hop S A}
    (run : Run step s (before ++ h :: after) t) :
    Run step s before h.src ∧ step h.src h.act = some h.dst ∧ Run step h.dst after t := by
  generalize eq : before ++ h :: after = hops at run
  induction run generalizing after with
  | nil => simp at eq
  | @snoc hops x y a run hstep ih =>
    rcases List.eq_nil_or_concat after with rfl | ⟨after, last, rfl⟩
    · obtain ⟨rfl, last⟩ := List.append_inj' eq rfl
      obtain rfl := List.singleton_inj.mp last
      exact ⟨run, hstep, Run.nil⟩
    · rw [List.concat_eq_append, ← List.cons_append, ← List.append_assoc] at eq
      obtain ⟨init, last⟩ := List.append_inj' eq rfl
      obtain rfl := List.singleton_inj.mp last
      obtain ⟨pre, hop, post⟩ := ih init
      rw [List.concat_eq_append]
      exact ⟨pre, hop, post.snoc hstep⟩

/-- A run is cut at each of its hops. -/
theorem cut {h : Hop S A} (run : Run step s hops t) (mem : h ∈ hops) :
    ∃ before after, hops = before ++ h :: after ∧ Run step s before h.src ∧
      step h.src h.act = some h.dst ∧ Run step h.dst after t := by
  obtain ⟨before, after, rfl⟩ := List.append_of_mem mem
  exact ⟨before, after, rfl, run.cut_at⟩

/-- **The simulation rule**, under an invariant `I`: where each step of one system, seen through
    `view` and under the name that `label` gives it, is one of another, a run is a run there. -/
theorem simulate {T B : Type} {step' : T → B → Option T} {view : S → T} {label : Hop S A → B}
    {I : S → Prop} (run : Run step s hops t) (first : I s)
    (keep : ∀ {x a y}, I x → step x a = some y → I y)
    (sim : ∀ {x a y}, I x → step x a = some y →
      step' (view x) (label ⟨x, a, y⟩) = some (view y)) :
    Run step' (view s) (hops.map fun h => ⟨view h.src, label h, view h.dst⟩) (view t) := by
  induction run with
  | nil => exact Run.nil
  | snoc run hstep ih =>
    have before := run.always first keep
    rw [List.map_append]
    exact ih.snoc (sim before hstep)

end Run

/-- Take the steps `acts` from `s`, keeping the hops. -/
def trace (step : S → A → Option S) : S → List A → Option (List (Hop S A) × S)
  | s, [] => some ([], s)
  | s, a :: acts =>
    match step s a with
    | none => none
    | some t => (trace step t acts).map fun (hops, u) => (⟨s, a, t⟩ :: hops, u)

theorem run_of_trace {acts : List A} {s t : S} {hops : List (Hop S A)}
    (h : trace step s acts = some (hops, t)) : Run step s hops t := by
  induction acts generalizing s hops with
  | nil =>
    simp only [trace, Option.some.injEq, Prod.mk.injEq] at h
    obtain ⟨rfl, rfl⟩ := h
    exact Run.nil
  | cons a acts ih =>
    cases hstep : step s a with
    | none => simp [trace, hstep] at h
    | some x =>
      simp only [trace, hstep, Option.map_eq_some_iff] at h
      obtain ⟨⟨rest, y⟩, hrest, eq⟩ := h
      simp only [Prod.mk.injEq] at eq
      obtain ⟨rfl, rfl⟩ := eq
      exact (Run.single hstep).trans (ih hrest)

/-- What `acts` lead to is a run, once it is known that each of them can be taken. -/
theorem run_trace {acts : List A} {s : S} (h : (trace step s acts).isSome) :
    Run step s ((trace step s acts).get h).1 ((trace step s acts).get h).2 :=
  run_of_trace (Option.some_get h).symm

end Run

end LibOsdp.Base
