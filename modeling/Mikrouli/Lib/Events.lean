import Mathlib.Logic.Relation

/-! Systems whose steps are events: an event that can happen in a state leads to one other. A run may
be restricted to events that meet a condition on the state they happen in. -/

namespace Events

variable {σ ε : Type} {step : σ → ε → Option σ} {allowed : σ → ε → Prop} {s s' : σ}

/-- One allowed event leads from one state to the other. -/
def Steps (step : σ → ε → Option σ) (allowed : σ → ε → Prop) (s s' : σ) : Prop :=
  ∃ e, allowed s e ∧ step s e = some s'

/-- Allowed events lead from one state to the other. -/
abbrev Run (step : σ → ε → Option σ) (allowed : σ → ε → Prop) : σ → σ → Prop :=
  Relation.ReflTransGen (Steps step allowed)

/-- No condition. -/
def anything (_ : σ) (_ : ε) : Prop := True

/-- What every allowed event preserves is preserved by every run. -/
theorem Run.invariant {Inv : σ → Prop}
    (kept : ∀ s e s', Inv s → allowed s e → step s e = some s' → Inv s')
    (run : Run step allowed s s') (start : Inv s) : Inv s' := by
  induction run with
  | refl => exact start
  | tail _ last inv =>
    obtain ⟨e, may, taken⟩ := last
    exact kept _ e _ inv may taken

/-- Events that can be played one after the other make a run. -/
theorem run_of_foldlM {R : σ → σ → Prop} (related : ∀ s e s', step s e = some s' → R s s')
    {es : List ε} (played : es.foldlM step s = some s') : Relation.ReflTransGen R s s' := by
  induction es generalizing s with
  | nil =>
    cases played
    exact .refl
  | cons e es ih =>
    rw [List.foldlM_cons] at played
    obtain ⟨next, taken, rest⟩ := Option.bind_eq_some_iff.mp played
    exact .head (related _ e _ taken) (ih rest)

/-- The events that are allowed, and what they lead to. -/
def guarded (step : σ → ε → Option σ) (allowed : σ → ε → Prop) [∀ s e, Decidable (allowed s e)]
    (s : σ) (e : ε) : Option σ :=
  if allowed s e then step s e else none

theorem run_of_guarded [∀ s e, Decidable (allowed s e)] {es : List ε}
    (played : es.foldlM (guarded step allowed) s = some s') : Run step allowed s s' := by
  refine run_of_foldlM (fun s e s' taken => ?_) played
  obtain ⟨may, taken⟩ := Option.ite_none_right_eq_some.mp taken
  exact ⟨e, may, taken⟩

end Events
