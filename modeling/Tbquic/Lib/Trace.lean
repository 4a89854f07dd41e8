import Mathlib.Tactic.Common

/-!
# Runs of a partial step function

A system takes one step for each event. A step without a result ends the system, so a run
has a result only when all its steps do.
-/

namespace Trace

variable {σ ι : Type}

/-- The state after a list of events. -/
def run (step : σ → ι → Option σ) (s : σ) : List ι → Option σ
  | [] => some s
  | e :: es => (step s e).bind fun t => run step t es

/-- Every event of a run meets a condition on the state in which it happens. -/
def Along (step : σ → ι → Option σ) (ok : σ → ι → Prop) (s : σ) : List ι → Prop
  | [] => True
  | e :: es => ok s e ∧ ∀ t, step s e = some t → Along step ok t es

variable {step : σ → ι → Option σ} {ok : σ → ι → Prop} {s t u : σ} {e : ι} {es fs : List ι}

@[simp] theorem run_nil : run step s [] = some s := rfl

@[simp] theorem along_nil : Along step ok s [] := trivial

/-- A condition along a run of one event more. -/
theorem along_cons :
    Along step ok s (e :: es) ↔ ok s e ∧ ∀ t, step s e = some t → Along step ok t es :=
  Iff.rfl

/-- A condition along a run can be evaluated. -/
instance decidableAlong [∀ s e, Decidable (ok s e)] :
    ∀ (es : List ι) (s : σ), Decidable (Along step ok s es)
  | [], _ => .isTrue along_nil
  | e :: es, s =>
    match h : step s e with
    | none => decidable_of_iff (ok s e) (by simp [along_cons, h])
    | some t =>
      have := decidableAlong es t
      decidable_of_iff (ok s e ∧ Along step ok t es) (by simp [along_cons, h])

/-- A run of one event more starts with the step of that event. -/
theorem run_cons_eq_some :
    run step s (e :: es) = some u ↔ ∃ t, step s e = some t ∧ run step t es = some u :=
  Option.bind_eq_some_iff

/-- A run of two lists is the run of one after the other. -/
theorem run_append : run step s (es ++ fs) = (run step s es).bind (run step · fs) := by
  induction es generalizing s with
  | nil => rfl
  | cons e es ih =>
    cases h : step s e with
    | none => simp [run, h]
    | some t => simp [run, h, ih]

/-- The last step of a run. -/
theorem run_concat_eq_some :
    run step s (es ++ [e]) = some u ↔ ∃ t, run step s es = some t ∧ step t e = some u := by
  rw [run_append, Option.bind_eq_some_iff]
  simp [run]

/-- The rule of invariants: what every step preserves holds after every run. -/
theorem run_invariant (Inv : σ → Prop) (hstep : ∀ s e t, Inv s → step s e = some t → Inv t)
    (hs : Inv s) (h : run step s es = some t) : Inv t := by
  induction es generalizing s with
  | nil => exact Option.some.inj h ▸ hs
  | cons e es ih =>
    obtain ⟨t', ht, hrun⟩ := run_cons_eq_some.mp h
    exact ih (hstep s e t' hs ht) hrun

/-- The rule of simulation: a map that fits every step fits every run. -/
theorem run_image {τ : Type} {step' : τ → ι → Option τ} {g : σ → τ}
    (hstep : ∀ s e t, step s e = some t → step' (g s) e = some (g t)) (h : run step s es = some t) :
    run step' (g s) es = some (g t) := by
  induction es generalizing s with
  | nil => exact congrArg (Option.map g) h
  | cons e es ih =>
    obtain ⟨t', ht, hrun⟩ := run_cons_eq_some.mp h
    exact run_cons_eq_some.mpr ⟨g t', hstep s e t' ht, ih hrun⟩

/-- The rule of invariants for runs whose events meet a condition. -/
theorem run_invariant_along (Inv : σ → Prop)
    (hstep : ∀ s e t, Inv s → ok s e → step s e = some t → Inv t) (hs : Inv s)
    (hok : Along step ok s es) (h : run step s es = some t) : Inv t := by
  induction es generalizing s with
  | nil => exact Option.some.inj h ▸ hs
  | cons e es ih =>
    obtain ⟨t', ht, hrun⟩ := run_cons_eq_some.mp h
    exact ih (hstep s e t' hs hok.1 ht) (hok.2 t' ht) hrun

/-- Runs whose events all have a step that preserves an invariant do not end early. -/
theorem run_total_along (Inv : σ → Prop)
    (hstep : ∀ s e, Inv s → ok s e → ∃ t, step s e = some t ∧ Inv t) (hs : Inv s)
    (hok : Along step ok s es) : ∃ t, run step s es = some t ∧ Inv t := by
  induction es generalizing s with
  | nil => exact ⟨s, rfl, hs⟩
  | cons e es ih =>
    obtain ⟨t, ht, hinv⟩ := hstep s e hs hok.1
    obtain ⟨u, hu, hinv'⟩ := ih hinv (hok.2 t ht)
    exact ⟨u, run_cons_eq_some.mpr ⟨t, ht, hu⟩, hinv'⟩

/-- Conditions that agree on every event agree along every run. -/
theorem along_congr {ok' : σ → ι → Prop} (h : ∀ s e, ok s e ↔ ok' s e) :
    Along step ok s es ↔ Along step ok' s es := by
  induction es generalizing s with
  | nil => exact Iff.rfl
  | cons e es ih => exact and_congr (h s e) (forall_congr' fun _ => imp_congr_right fun _ => ih)

/-- A condition that implies another does so along every run. -/
theorem Along.mono {ok' : σ → ι → Prop} (h : ∀ s e, ok s e → ok' s e) (hs : Along step ok s es) :
    Along step ok' s es := by
  induction es generalizing s with
  | nil => exact along_nil
  | cons e es ih => exact ⟨h s e hs.1, fun t ht => ih (hs.2 t ht)⟩

/-- A condition that an invariant implies holds along every run. -/
theorem along_of_invariant (Inv : σ → Prop) (hstep : ∀ s e t, Inv s → step s e = some t → Inv t)
    (hinv : ∀ s e, Inv s → ok s e) (hs : Inv s) : Along step ok s es := by
  induction es generalizing s with
  | nil => exact along_nil
  | cons e es ih => exact ⟨hinv s e hs, fun t ht => ih (hstep s e t hs ht)⟩

/-- Conditions that agree under an invariant agree along every run. -/
theorem along_congr_of_invariant {ok' : σ → ι → Prop} (Inv : σ → Prop)
    (h : ∀ s e, Inv s → (ok s e ↔ ok' s e))
    (hstep : ∀ s e t, Inv s → ok s e → step s e = some t → Inv t) (hs : Inv s) :
    Along step ok s es ↔ Along step ok' s es := by
  induction es generalizing s with
  | nil => exact Iff.rfl
  | cons e es ih =>
    rw [along_cons, along_cons, ← h s e hs]
    refine and_congr_right fun hok => forall_congr' fun t => imp_congr_right fun ht => ?_
    exact ih (hstep s e t hs hok ht)

/-- A condition that implies another under an invariant does so along every run. -/
theorem Along.mono_of_invariant {ok' : σ → ι → Prop} (Inv : σ → Prop)
    (h : ∀ s e, Inv s → ok s e → ok' s e)
    (hstep : ∀ s e t, Inv s → ok s e → step s e = some t → Inv t) (hs : Inv s)
    (hok : Along step ok s es) : Along step ok' s es := by
  induction es generalizing s with
  | nil => exact along_nil
  | cons e es ih =>
    exact ⟨h s e hs hok.1, fun t ht => ih (hstep s e t hs hok.1 ht) (hok.2 t ht)⟩

/-- A condition along a run holds along its rest. -/
theorem Along.of_append (h : Along step ok s (es ++ fs)) (hrun : run step s es = some t) :
    Along step ok t fs := by
  induction es generalizing s with
  | nil => exact Option.some.inj hrun ▸ h
  | cons e es ih =>
    obtain ⟨u, hu, hrest⟩ := run_cons_eq_some.mp hrun
    exact ih (h.2 u hu) hrest

/-- A condition along a run holds along its start. -/
theorem Along.append_left (h : Along step ok s (es ++ fs)) : Along step ok s es := by
  induction es generalizing s with
  | nil => exact along_nil
  | cons e es ih => exact ⟨h.1, fun t ht => ih (h.2 t ht)⟩

end Trace
