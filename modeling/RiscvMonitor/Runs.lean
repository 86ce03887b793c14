import Mathlib.Data.Option.Basic

/-!
# Runs of a partial step function

A system is a step function that may have no result.  A run feeds it a list of
events.  That an invariant holds in whatever state is reached, and that there is one,
are proved from one step, under a condition on the steps that the run takes.
-/

namespace RiscvMonitor.Runs

variable {S E : Type*}

/-- The state after the events; `none` once a step has none. -/
def run (step : S → E → Option S) : S → List E → Option S
  | s, [] => some s
  | s, e :: es => (step s e).bind fun t => run step t es

/-- Every step of the run meets the condition, in the state it is taken in. -/
def Along (step : S → E → Option S) (P : S → E → Prop) : S → List E → Prop
  | _, [] => True
  | s, e :: es => P s e ∧ ∀ t ∈ step s e, Along step P t es

instance Along.decidable {step : S → E → Option S} {P : S → E → Prop}
    [∀ s e, Decidable (P s e)] : ∀ s es, Decidable (Along step P s es)
  | _, [] => inferInstanceAs (Decidable True)
  | s, e :: es =>
    have : ∀ t, Decidable (Along step P t es) := fun t => Along.decidable t es
    inferInstanceAs (Decidable (P s e ∧ ∀ t ∈ step s e, Along step P t es))

variable {step : S → E → Option S} {P : S → E → Prop} {I : S → Prop}

variable {s t : S} {e : E} {es : List E}

theorem run_cons :
    run step s (e :: es) = some t ↔ ∃ u, step s e = some u ∧ run step u es = some t := by
  rw [run, Option.bind_eq_some_iff]

/-- On fixed inputs the end of a run is found by running it. -/
theorem exists_end {o : Option S} (hend : ∃ t ∈ o, I t) : ∃ t, o = some t ∧ I t := hend

/-- What a step keeps holds in every state a run reaches. -/
theorem Along.invariant (hstep : ∀ s e t, I s → P s e → step s e = some t → I t) (hs : I s)
    (halong : Along step P s es) (hrun : run step s es = some t) : I t := by
  induction es generalizing s with
  | nil =>
    cases hrun
    exact hs
  | cons e es ih =>
    obtain ⟨hP, hrest⟩ := halong
    obtain ⟨u, hu, hrun⟩ := run_cons.mp hrun
    exact ih (hstep s e u hs hP hu) (hrest u hu) hrun

theorem Along.mono {Q : S → E → Prop} (hPQ : ∀ s e, P s e → Q s e) (halong : Along step P s es) :
    Along step Q s es := by
  induction es generalizing s with
  | nil => trivial
  | cons e es ih => exact ⟨hPQ s e halong.1, fun t ht => ih (halong.2 t ht)⟩

theorem along_congr {Q : S → E → Prop} (hstep : ∀ s e t, I s → step s e = some t → I t)
    (hiff : ∀ s e, I s → (P s e ↔ Q s e)) (hs : I s) : Along step P s es ↔ Along step Q s es := by
  induction es generalizing s with
  | nil => rfl
  | cons e es ih =>
    exact and_congr (hiff s e hs) (forall₂_congr fun t ht => ih (hstep s e t hs ht))

theorem along_true (step : S → E → Option S) (s : S) (es : List E) :
    Along step (fun _ _ => True) s es := by
  induction es generalizing s with
  | nil => trivial
  | cons e es ih => exact ⟨trivial, fun t _ => ih t⟩

theorem Along.append {fs : List E} (halong : Along step P s es)
    (hrest : ∀ t, run step s es = some t → Along step P t fs) : Along step P s (es ++ fs) := by
  induction es generalizing s with
  | nil => exact hrest s rfl
  | cons e es ih =>
    refine ⟨halong.1, ?_⟩
    intro u hu
    exact ih (halong.2 u hu) fun t ht => hrest t (run_cons.mpr ⟨u, hu, ht⟩)

theorem Along.of_append {fs : List E} (halong : Along step P s (es ++ fs)) :
    Along step P s es ∧ ∀ t, run step s es = some t → Along step P t fs := by
  induction es generalizing s with
  | nil =>
    refine ⟨trivial, ?_⟩
    rintro t ⟨⟩
    exact halong
  | cons e es ih =>
    constructor
    · exact ⟨halong.1, fun u hu => (ih (halong.2 u hu)).1⟩
    · intro t hrun
      obtain ⟨u, hu, hrun⟩ := run_cons.mp hrun
      exact (ih (halong.2 u hu)).2 t hrun

theorem run_concat {u : S} (hrun : run step s es = some t) (hstep : step t e = some u) :
    run step s (es ++ [e]) = some u := by
  induction es generalizing s with
  | nil =>
    cases hrun
    exact run_cons.mpr ⟨u, hstep, rfl⟩
  | cons f es ih =>
    obtain ⟨v, hv, hrun⟩ := run_cons.mp hrun
    exact run_cons.mpr ⟨v, hv, ih hrun⟩

/-- The condition along a run, in terms of the states it passes through. -/
theorem along_of_forall (hall : ∀ fs e gs t, es = fs ++ e :: gs → run step s fs = some t → P t e) :
    Along step P s es := by
  induction es generalizing s with
  | nil => trivial
  | cons e es ih =>
    refine ⟨hall [] e es s rfl rfl, ?_⟩
    intro u hu
    apply ih
    intro fs f gs t heq hrun
    exact hall (e :: fs) f gs t (by rw [heq]; rfl) (run_cons.mpr ⟨u, hu, hrun⟩)

/-- A run whose steps all have a result from where the invariant holds has one. -/
theorem Along.isSome (hsome : ∀ s e, I s → P s e → ∃ t, step s e = some t ∧ I t) (hs : I s)
    (halong : Along step P s es) :
    ∃ t, run step s es = some t ∧ I t := by
  induction es generalizing s with
  | nil => exact ⟨s, rfl, hs⟩
  | cons e es ih =>
    obtain ⟨hP, hrest⟩ := halong
    obtain ⟨u, hu, hI⟩ := hsome s e hs hP
    obtain ⟨t, ht, hIt⟩ := ih hI (hrest u hu)
    exact ⟨t, run_cons.mpr ⟨u, hu, ht⟩, hIt⟩

/-! ### Observers -/

variable {W : Type*}

/-- What an observer has noted by the end of a run, who sees every step and the
    state it is taken in. -/
def watch (step : S → E → Option S) (note : W → S → E → W) : W → S → List E → W
  | w, _, [] => w
  | w, s, e :: es =>
    match step s e with
    | none => w
    | some t => watch step note (note w s e) t es

/-- As for the state alone, with what the observer has noted in the invariant. -/
theorem Along.watch_invariant {note : W → S → E → W} {J : S → W → Prop}
    (hstep : ∀ s w e t, J s w → P s e → step s e = some t → J t (note w s e)) {w : W} (hs : J s w)
    (halong : Along step P s es) (hrun : run step s es = some t) :
    J t (watch step note w s es) := by
  induction es generalizing s w with
  | nil =>
    cases hrun
    exact hs
  | cons e es ih =>
    obtain ⟨hP, hrest⟩ := halong
    obtain ⟨u, hu, hrun⟩ := run_cons.mp hrun
    rw [watch, hu]
    exact ih (hstep s w e u hs hP hu) (hrest u hu) hrun

theorem watch_concat {note : W → S → E → W} {w : W} {u : S} (hrun : run step s es = some t)
    (hstep : step t e = some u) :
    watch step note w s (es ++ [e]) = note (watch step note w s es) t e := by
  induction es generalizing s w with
  | nil =>
    cases hrun
    simp only [List.nil_append, watch, hstep]
  | cons f es ih =>
    obtain ⟨v, hv, hrun⟩ := run_cons.mp hrun
    simp only [List.cons_append, watch, hv]
    exact ih hrun

end RiscvMonitor.Runs
