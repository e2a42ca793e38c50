import Mathlib.Logic.Relation

/-!
# Runs under a condition

A machine moves from state to state by actions.  A run under a condition is a
run each of whose actions meets the condition in the state where it happens.
`RunUnder.invariant` carries an invariant from single steps to runs,
`exists_finished` builds a run that finishes from steps that lower a rank, and
`exists_run_of_follow` turns the evaluation of a list of actions into a run.
-/

namespace EC440.Transition

universe u v

variable {State : Type u} {Action : Type v}

/-- One step by an action that the condition allows. -/
def StepUnder (step : State → Action → State → Prop) (allowed : State → Action → Prop)
    (before after : State) : Prop :=
  ∃ action, allowed before action ∧ step before action after

/-- Any number of steps by actions that the condition allows. -/
abbrev RunUnder (step : State → Action → State → Prop) (allowed : State → Action → Prop) :
    State → State → Prop :=
  Relation.ReflTransGen (StepUnder step allowed)

variable {step : State → Action → State → Prop} {allowed : State → Action → Prop}

/-- What holds at the start and is kept by every allowed step holds all along a run. -/
theorem RunUnder.invariant (invariant : State → Prop)
    (preserved : ∀ before action after, invariant before → allowed before action →
      step before action after → invariant after)
    {start state : State} (initially : invariant start)
    (run : RunUnder step allowed start state) : invariant state := by
  induction run with
  | refl => exact initially
  | tail _ last inductionHypothesis =>
      rcases last with ⟨action, permitted, stepped⟩
      exact preserved _ _ _ inductionHypothesis permitted stepped

/-- A run under a condition is a run under any that follows from it. -/
theorem RunUnder.weaken {weaker : State → Action → Prop}
    (weakens : ∀ state action, allowed state action → weaker state action)
    {start state : State} (run : RunUnder step allowed start state) :
    RunUnder step weaker start state := by
  induction run with
  | refl => exact .refl
  | tail _ last inductionHypothesis =>
      rcases last with ⟨action, permitted, stepped⟩
      exact inductionHypothesis.tail ⟨action, weakens _ _ permitted, stepped⟩

/-- A machine that can always take an allowed step that lowers a rank, unless it has finished,
has a run that finishes. -/
theorem exists_finished {invariant finished : State → Prop} (rank : State → Nat)
    (progress : ∀ state, invariant state → finished state ∨
      ∃ after, StepUnder step allowed state after ∧ invariant after ∧ rank after < rank state)
    {start : State} (initially : invariant start) :
    ∃ final, RunUnder step allowed start final ∧ invariant final ∧ finished final := by
  induction size : rank start using Nat.strongRecOn generalizing start with
  | ind number inductionHypothesis =>
      rcases progress start initially with done | ⟨after, stepped, kept, lower⟩
      · exact ⟨start, .refl, initially, done⟩
      · rcases inductionHypothesis (rank after) (size ▸ lower) kept rfl with
          ⟨final, run, atFinal, done⟩
        exact ⟨final, .head stepped run, atFinal, done⟩

/-- A relation between states that are images is followed by a relation between what they are
images of. -/
theorem reflTransGen_image_iff {Point : Type v} {follows : Point → Point → Prop}
    {executes : State → State → Prop} {image : Point → State}
    (executes_iff : ∀ point after,
      executes (image point) after ↔ ∃ next, follows point next ∧ after = image next)
    {point : Point} {after : State} :
    Relation.ReflTransGen executes (image point) after ↔
      ∃ next, Relation.ReflTransGen follows point next ∧ after = image next := by
  constructor
  · intro run
    induction run with
    | refl => exact ⟨point, .refl, rfl⟩
    | tail _ last inductionHypothesis =>
        rcases inductionHypothesis with ⟨middle, before, rfl⟩
        rcases (executes_iff middle _).mp last with ⟨next, follow, rfl⟩
        exact ⟨next, before.tail follow, rfl⟩
  · rintro ⟨next, run, rfl⟩
    induction run with
    | refl => exact .refl
    | @tail middle next _ last inductionHypothesis =>
        exact inductionHypothesis.tail ((executes_iff middle _).mpr ⟨next, last, rfl⟩)

def follow (perform : State → Action → Option State) : List Action → State → Option State
  | [], state => some state
  | action :: rest, state => (perform state action).bind (follow perform rest)

/-- Performing a list of actions is a run, if each action is allowed where it is performed. -/
theorem run_of_follow {perform : State → Action → Option State} {actions : List Action}
    (performed : ∀ action ∈ actions, ∀ before after, perform before action = some after →
      allowed before action ∧ step before action after)
    {start state : State} (followed : follow perform actions start = some state) :
    RunUnder step allowed start state := by
  induction actions generalizing start with
  | nil =>
      cases followed
      exact .refl
  | cons action rest inductionHypothesis =>
      rcases Option.bind_eq_some_iff.mp followed with ⟨next, first, others⟩
      have restPerformed : ∀ other ∈ rest, ∀ before after,
          perform before other = some after →
            allowed before other ∧ step before other after :=
        fun other membership => performed other (.tail _ membership)
      exact .head ⟨action, performed action (.head _) _ _ first⟩
        (inductionHypothesis restPerformed others)

/-- What is evaluated of the state after some actions holds at the end of a run. -/
theorem exists_run_of_follow {perform : State → Action → Option State} {actions : List Action}
    (performed : ∀ action ∈ actions, ∀ before after, perform before action = some after →
      allowed before action ∧ step before action after)
    {start : Option State} {holds : State → Bool}
    (evaluated : (start.bind (follow perform actions)).any holds = true) :
    ∃ first last, start = some first ∧ RunUnder step allowed first last ∧ holds last = true := by
  rcases (Option.any_eq_true _ _).mp evaluated with ⟨last, reached, holdsAtLast⟩
  rcases Option.bind_eq_some_iff.mp reached with ⟨first, started, followed⟩
  exact ⟨first, last, started, run_of_follow performed followed, holdsAtLast⟩

end EC440.Transition
