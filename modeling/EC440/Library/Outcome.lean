import Mathlib.Logic.Relation

/-!
# Operations that may stop

A program step is modelled as an `Except` computation: it either yields a
value or stops for a stated reason.  The inversion lemma peels a sequence of
such steps apart, and `invariant_of_reachable` carries an invariant from single
steps to whole runs.
-/

namespace EC440.Outcome

universe u v

variable {Reason : Type u} {Value Result : Type v}

theorem bind_eq_ok_iff {first : Except Reason Value} {rest : Value → Except Reason Result}
    {result : Result} :
    (first >>= rest) = .ok result ↔
      ∃ value, first = .ok value ∧ rest value = .ok result := by
  cases first with
  | error reason => simp [bind, Except.bind]
  | ok value => simp [bind, Except.bind]

/-- What holds of every start state and is kept by every step holds of every
state that a run reaches. -/
theorem invariant_of_reachable {State : Type u} {step : State → State → Prop}
    (invariant : State → Prop)
    (preserved : ∀ before after, invariant before → step before after → invariant after)
    {start state : State} (initial : invariant start)
    (run : Relation.ReflTransGen step start state) : invariant state := by
  induction run with
  | refl => exact initial
  | tail _ last inductionHypothesis => exact preserved _ _ inductionHypothesis last

end EC440.Outcome
