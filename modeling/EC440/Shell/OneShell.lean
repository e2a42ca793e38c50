import EC440.Shell.Processes

/-!
# One shell

Which processes go round the loops of `main`.  The children of a line are on
their way to `execvp` or `exit`, and only the shell itself reads, as long as no
process is forked for a line with `&` and neither the first nor the last
command of a pipeline is redirected twice: in these cases the child goes on as
a shell.
-/

namespace EC440.Shell

open Transition

variable {shell pid : Pid} {state after : State} {process : Process} {outcome : Outcome}
  {input : Buffer} {sections : List Pointer} {point : Point} {i : Nat}

/-! ## What a child does -/

/-- A child has nothing to do any more but to execute another program or to exit. -/
def Point.leaving : Point → Bool
  | .stage .. | .execvp _ | .exit | .executing _ | .ended => true
  | .read | .background _ | .parse _ | .single _ | .waitpid _ | .pipe .. | .fork .. | .wait _ =>
      false

/-- How many steps a child that is leaving takes at most. -/
def Point.remaining : Point → Nat
  | .stage .. => 3
  | .execvp _ => 2
  | .exit | .executing _ => 1
  | _ => 0

/-- The process at this point does not become a second shell: no process is forked for a line
with `&`, and no child finds more than one redirection of the first or the last command. -/
def Point.Undivided : Point → Outcome → Prop
  | .background _, outcome => outcome ≠ .succeeds
  | .stage input sections i, _ =>
      (i = 0 → (parseInput input (sections.getD i 0) less).2.length ≤ 2) ∧
        (i ≠ 0 → ¬i < sections.length - 1 →
          (parseInput input (sections.getD i 0) greater).2.length ≤ 2)
  | _, _ => True

def Undivided (state : State) (action : Pid × Outcome) : Prop :=
  ∀ process ∈ state.processes action.1, process.point.Undivided action.2

/-- How many commands `parse_input(line, _, "|")` finds in a line, without what follows `&`. -/
def commandCount (line : Buffer) : Nat :=
  (parseInput (cutAt (line ++ [0]) 0 ampersand) 0 bar).2.length

theorem parseLoop_length (delim : Byte) (fuel : Nat) (buffer : Buffer) (lim : Option Pointer)
    (separated : List Pointer) :
    separated.length ≤ (parseLoop delim fuel buffer lim separated).2.length := by
  induction fuel generalizing buffer lim separated with
  | zero => exact Nat.le_refl _
  | succ fuel inductionHypothesis =>
      cases lim with
      | none => exact Nat.le_refl _
      | some lim =>
          refine Nat.le_trans ?_ (inductionHypothesis ..)
          split
          · simp
          · exact Nat.le_refl _

theorem parseInput_length_pos (buffer : Buffer) (line : Pointer) (delim : Byte) :
    0 < (parseInput buffer line delim).2.length :=
  Nat.lt_of_lt_of_le (by simp) (parseLoop_length delim _ buffer _ [_])

theorem parseInput_cases (buffer : Buffer) (line : Pointer) (delim : Byte)
    (few : (parseInput buffer line delim).2.length ≤ 2) :
    (∃ later first, parseInput buffer line delim = (later, [first])) ∨
      ∃ later first second, parseInput buffer line delim = (later, [first, second]) := by
  have positive := parseInput_length_pos buffer line delim
  rcases parsed : parseInput buffer line delim with ⟨later, separated⟩
  rw [parsed] at few positive
  match separated, few, positive with
  | [first], _, _ => exact .inl ⟨later, first, rfl⟩
  | [first, second], _, _ => exact .inr ⟨later, first, second, rfl⟩

/-- With one redirection at most, the child of a command executes it. -/
theorem stageChild_execvp (undivided : (Point.stage input sections i).Undivided outcome)
    (executed : stageChild input sections i = some point) :
    ∃ command, point = .execvp command := by
  unfold stageChild at executed
  dsimp only at executed
  split at executed
  next first =>
      rcases parseInput_cases _ _ _ (undivided.1 first) with
        ⟨later, _, parsed⟩ | ⟨later, _, file, parsed⟩ <;>
        simp only [parsed] at executed
      · cases executed
        exact ⟨_, rfl⟩
      · simp only [Option.bind_eq_bind, Option.bind_eq_some_iff] at executed
        rcases executed with ⟨copied, -, trimmed, -, isPoint⟩
        cases isPoint
        exact ⟨_, rfl⟩
  next notFirst =>
      split at executed
      next =>
          cases executed
          exact ⟨_, rfl⟩
      next last =>
          rcases parseInput_cases _ _ _ (undivided.2 notFirst last) with
            ⟨later, _, parsed⟩ | ⟨later, _, file, parsed⟩ <;>
            simp only [parsed] at executed
          · cases executed
            exact ⟨_, rfl⟩
          · simp only [Option.bind_eq_bind, Option.bind_eq_some_iff] at executed
            rcases executed with ⟨copied, -, trimmed, -, isPoint⟩
            cases isPoint
            exact ⟨_, rfl⟩

/-! ## What the shell does -/

theorem singleCommand_cases {command : Pointer}
    (executed : singleCommand input command = some point) :
    point = .read ∨ ∃ parsed, point = .single parsed := by
  have finish {input : Buffer} {args : List Pointer} {fileIn : Option Pointer}
      {outRedirCheck : List Pointer}
      (executed : singleCommand.finishSingle input args fileIn outRedirCheck = some point) :
      point = .read ∨ ∃ parsed, point = .single parsed := by
    unfold singleCommand.finishSingle at executed
    split at executed
    · cases executed
      exact .inr ⟨_, rfl⟩
    · simp only [Option.bind_eq_bind, Option.bind_eq_some_iff] at executed
      rcases executed with ⟨trimmed, -, isPoint⟩
      cases isPoint
      exact .inr ⟨_, rfl⟩
    · cases executed
      exact .inl rfl
  unfold singleCommand at executed
  dsimp only at executed
  split at executed
  · exact finish executed
  · simp only [Option.bind_eq_bind, Option.bind_eq_some_iff] at executed
    rcases executed with ⟨trimmed, -, finished⟩
    exact finish finished
  · cases executed
    exact .inl rfl

theorem afterFork_cases (executed : afterFork input = some point) :
    point = .read ∨ (∃ command, point = .single command) ∨
      ∃ later sections, point = .pipe later sections 0 ∧ 1 < sections.length ∧
        sections.length = (parseInput input 0 bar).2.length := by
  rcases parsed : parseInput input 0 bar with ⟨later, sections⟩
  simp only [afterFork, parsed] at executed
  split at executed
  · cases executed
    exact .inl rfl
  · exact (singleCommand_cases executed).imp id Or.inl
  next notNone notOne =>
      cases executed
      refine .inr (.inr ⟨later, sections, rfl, ?_, rfl⟩)
      match sections, notNone, notOne with
      | [], notNone, _ => exact absurd rfl notNone
      | [first], _, notOne => exact absurd rfl (notOne first)
      | _ :: _ :: _, _, _ => simp

/-- What is known of the shell at its next system call: how many processes were forked for the
line that was read last. -/
def Accounted (line : Buffer) (created : Nat) : Point → Prop
  | .read | .waitpid _ | .wait _ | .ended => created ≤ commandCount line
  | .background input | .parse input =>
      created = 0 ∧ (parseInput input 0 bar).2.length = commandCount line
  | .single _ => created = 0 ∧ 0 < commandCount line
  | .pipe _ sections _ => created = 0 ∧ 1 < sections.length ∧ sections.length = commandCount line
  | .fork _ sections i => created ≤ i ∧ i < sections.length ∧ sections.length = commandCount line
  | .stage .. | .execvp _ | .exit | .executing _ => False

/-- One process is the shell, and all others are its children and leave. -/
structure OneShell (shell : Pid) (state : State) : Prop where
  known : shell < state.next
  main : ∃ process, state.processes shell = some process ∧ process.parent = none ∧
    Accounted state.line state.created process.point
  children : ∀ pid process, pid ≠ shell → state.processes pid = some process →
    process.parent = some shell ∧ process.point.leaving = true
  fresh : ∀ pid, state.next ≤ pid → state.processes pid = none

namespace OneShell

theorem initial (shell : Pid) : OneShell shell (State.initial shell) where
  known := Nat.lt_succ_self shell
  main := by
    refine ⟨{ parent := none, point := .read }, ?_, rfl, Nat.zero_le _⟩
    simp [State.initial]
  children pid process other isProcess := by
    simp [State.initial, other] at isProcess
  fresh pid later := by
    have other : pid ≠ shell := Nat.ne_of_gt (Nat.lt_of_succ_le later)
    simp [State.initial, other]

theorem move (oneShell : OneShell shell state) (isProcess : state.processes shell = some process)
    {line : Buffer} {created : Nat} (accounted : Accounted line created point) :
    OneShell shell { state.goto shell process point with line, created } where
  known := oneShell.known
  main := by
    rcases oneShell.main with ⟨main, isMain, noParent, -⟩
    cases isMain.symm.trans isProcess
    exact ⟨_, Function.update_self .., noParent, accounted⟩
  children pid other notShell isOther := by
    refine oneShell.children pid other notShell ?_
    exact (Function.update_of_ne notShell ..).symm.trans isOther
  fresh pid later := by
    have other : pid ≠ shell := by
      rintro rfl
      exact absurd oneShell.known (Nat.not_lt.mpr later)
    exact (Function.update_of_ne other ..).trans (oneShell.fresh pid later)

theorem goto (oneShell : OneShell shell state) (isProcess : state.processes shell = some process)
    (accounted : Accounted state.line state.created point) :
    OneShell shell (state.goto shell process point) :=
  oneShell.move isProcess accounted

theorem leave (oneShell : OneShell shell state) (notShell : pid ≠ shell)
    (isProcess : state.processes pid = some process) (leaving : point.leaving = true) :
    OneShell shell (state.goto pid process point) where
  known := oneShell.known
  main := by
    rcases oneShell.main with ⟨main, isMain, noParent, accounted⟩
    exact ⟨main, (Function.update_of_ne notShell.symm ..).trans isMain, noParent, accounted⟩
  children other child otherNotShell isChild := by
    by_cases same : other = pid
    · subst same
      cases (Function.update_self ..).symm.trans isChild
      exact ⟨(oneShell.children other process notShell isProcess).1, leaving⟩
    · exact oneShell.children other child otherNotShell
        ((Function.update_of_ne same ..).symm.trans isChild)
  fresh other later := by
    have isOther : other ≠ pid := by
      rintro rfl
      cases (oneShell.fresh other later).symm.trans isProcess
    exact (Function.update_of_ne isOther ..).trans (oneShell.fresh other later)

theorem spawn (oneShell : OneShell shell state) (isProcess : state.processes shell = some process)
    {child : Point} (accounted : Accounted state.line (state.created + 1) point)
    (leaving : child.leaving = true) :
    OneShell shell (state.spawn shell process point child) where
  known := Nat.lt_succ_of_lt oneShell.known
  main := by
    rcases oneShell.main with ⟨main, isMain, noParent, -⟩
    cases isMain.symm.trans isProcess
    refine ⟨{ process with point }, ?_, noParent, accounted⟩
    have old : shell ≠ state.next := Nat.ne_of_lt oneShell.known
    simp [State.spawn, old]
  children pid other notShell isOther := by
    by_cases new : pid = state.next
    · subst new
      simp only [State.spawn, Function.update_self, Option.some.injEq] at isOther
      subst isOther
      exact ⟨rfl, leaving⟩
    · simp only [State.spawn, Function.update_of_ne new, Function.update_of_ne notShell] at isOther
      exact oneShell.children pid other notShell isOther
  fresh pid later := by
    have old : pid ≠ state.next := Nat.ne_of_gt (Nat.lt_of_succ_le later)
    have notShell : pid ≠ shell := by
      rintro rfl
      exact absurd oneShell.known (Nat.not_lt.mpr (Nat.le_of_succ_le later))
    simp only [State.spawn, Function.update_of_ne old, Function.update_of_ne notShell]
    exact oneShell.fresh pid (Nat.le_of_succ_le later)

theorem accounted_afterRead (line : Buffer) : Accounted line 0 (afterRead line) := by
  have counts : commandCount line =
      (parseInput (cutAt (line ++ [0]) 0 ampersand) 0 bar).2.length := rfl
  unfold afterRead
  dsimp only
  split
  · exact Nat.zero_le _
  · rw [cutAt] at counts
    split
    next found isFound =>
        rw [isFound] at counts
        exact ⟨rfl, counts.symm⟩
    next notFound =>
        rw [notFound] at counts
        exact ⟨rfl, counts.symm⟩

theorem accounted_nextStage {line : Buffer} {created : Nat} (before : created ≤ i + 1)
    (inRange : i < sections.length) (counts : sections.length = commandCount line) :
    Accounted line created (nextStage input sections i) := by
  unfold nextStage
  split
  next more => exact ⟨before, more, counts⟩
  next => exact Nat.le_trans before (Nat.le_trans inRange (Nat.le_of_eq counts))

theorem accounted_nextPipe {line : Buffer} (many : 1 < sections.length)
    (counts : sections.length = commandCount line) :
    Accounted line 0 (nextPipe input sections i) := by
  unfold nextPipe
  split
  · exact ⟨rfl, many, counts⟩
  · exact ⟨Nat.le_refl 0, Nat.lt_trans Nat.zero_lt_one many, counts⟩

theorem shellStep (oneShell : OneShell shell state)
    (isProcess : state.processes shell = some process)
    (undivided : process.point.Undivided outcome)
    (executed : state.proceed shell process process.point outcome = some after) :
    OneShell shell after := by
  rcases oneShell.main with ⟨main, isMain, -, accounted⟩
  cases isMain.symm.trans isProcess
  generalize process.point = point at *
  cases point with
  | read =>
      cases outcome with
      | line line =>
          simp only [State.proceed, Option.ite_none_right_eq_some, Option.some.injEq] at executed
          rcases executed with ⟨-, rfl⟩
          exact oneShell.move isProcess (accounted_afterRead line)
      | succeeds => cases executed
      | fails =>
          cases executed
          exact oneShell.goto isProcess accounted
  | background input =>
      cases outcome with
      | line line => cases executed
      | succeeds => exact absurd rfl undivided
      | fails =>
          cases executed
          exact oneShell.goto isProcess accounted
  | parse input =>
      cases outcome with
      | line line | fails => cases executed
      | succeeds =>
          rcases Option.map_eq_some_iff.mp executed with ⟨point, parsed, rfl⟩
          rcases accounted with ⟨none, counts⟩
          refine oneShell.goto isProcess ?_
          rcases afterFork_cases parsed with rfl | ⟨command, rfl⟩ | ⟨later, sections, rfl, many, same⟩
          · exact Nat.le_trans (Nat.le_of_eq none) (Nat.zero_le _)
          · exact ⟨none, counts ▸ parseInput_length_pos input 0 bar⟩
          · exact ⟨none, many, same.trans counts⟩
  | single command =>
      rcases accounted with ⟨none, positive⟩
      cases outcome with
      | line line => cases executed
      | succeeds =>
          cases executed
          refine oneShell.spawn isProcess ?_ rfl
          rw [none]
          exact positive
      | fails =>
          cases executed
          exact oneShell.goto isProcess (Nat.le_trans (Nat.le_of_eq none) (Nat.zero_le _))
  | waitpid child =>
      cases outcome with
      | line line => cases child <;> cases executed
      | succeeds =>
          cases child <;>
            simp only [State.proceed, Option.ite_none_right_eq_some, Option.some.injEq] at executed <;>
            rcases executed with ⟨-, rfl⟩ <;> exact oneShell.goto isProcess accounted
      | fails => cases child <;> cases executed
  | pipe input sections i =>
      rcases accounted with ⟨none, many, counts⟩
      cases outcome with
      | line line => cases executed
      | succeeds =>
          cases executed
          refine oneShell.goto isProcess ?_
          rw [none]
          exact accounted_nextPipe many counts
      | fails =>
          cases executed
          exact oneShell.goto isProcess ⟨none, many, counts⟩
  | fork input sections i =>
      rcases accounted with ⟨few, inRange, counts⟩
      cases outcome with
      | line line => cases executed
      | succeeds =>
          cases executed
          exact oneShell.spawn isProcess
            (accounted_nextStage (Nat.succ_le_succ few) inRange counts) rfl
      | fails =>
          cases executed
          exact oneShell.goto isProcess
            (accounted_nextStage (Nat.le_succ_of_le few) inRange counts)
  | wait remaining =>
      cases outcome with
      | line line | fails => cases remaining <;> cases executed
      | succeeds =>
          cases remaining with
          | zero =>
              cases executed
              exact oneShell.goto isProcess accounted
          | succ remaining =>
              simp only [State.proceed, Option.ite_none_right_eq_some, Option.some.injEq]
                at executed
              rcases executed with ⟨-, rfl⟩
              exact oneShell.goto isProcess accounted
  | ended => cases outcome <;> cases executed
  | stage input sections i => exact accounted.elim
  | execvp command | executing command => exact accounted.elim
  | exit => exact accounted.elim

end OneShell

theorem proceed_leaving (leaving : process.point.leaving = true)
    (undivided : process.point.Undivided outcome)
    (executed : state.proceed pid process process.point outcome = some after) :
    ∃ point, after = state.goto pid process point ∧ point.leaving = true ∧
      point.remaining < process.point.remaining := by
  generalize process.point = point at *
  cases point with
  | stage input sections i =>
      cases outcome with
      | line line | fails => cases executed
      | succeeds =>
          rcases Option.map_eq_some_iff.mp executed with ⟨point, isPoint, rfl⟩
          rcases stageChild_execvp undivided isPoint with ⟨command, rfl⟩
          exact ⟨_, rfl, rfl, Nat.lt_succ_self 2⟩
  | execvp command =>
      cases outcome with
      | line line => cases executed
      | succeeds =>
          cases executed
          exact ⟨_, rfl, rfl, Nat.lt_succ_self 1⟩
      | fails =>
          cases executed
          exact ⟨_, rfl, rfl, Nat.lt_succ_self 1⟩
  | exit =>
      cases outcome with
      | line line | fails => cases executed
      | succeeds =>
          cases executed
          exact ⟨_, rfl, rfl, Nat.zero_lt_one⟩
  | executing command =>
      cases outcome with
      | line line | fails => cases executed
      | succeeds =>
          cases executed
          exact ⟨_, rfl, rfl, Nat.zero_lt_one⟩
  | ended => cases outcome <;> cases executed
  | read | background input | parse input | single command | waitpid child | pipe input sections i
  | fork input sections i | wait remaining => cases leaving

theorem OneShell.step (oneShell : OneShell shell state) {action : Pid × Outcome}
    (undivided : Undivided state action) (step : Step state action after) :
    OneShell shell after := by
  rcases action with ⟨pid, outcome⟩
  rcases Option.bind_eq_some_iff.mp step with ⟨process, isProcess, executed⟩
  by_cases isShell : pid = shell
  · subst isShell
    exact oneShell.shellStep isProcess (undivided process isProcess) executed
  · have leaving := (oneShell.children pid process isShell isProcess).2
    rcases proceed_leaving leaving (undivided process isProcess) executed with
      ⟨point, rfl, stillLeaving, -⟩
    exact oneShell.leave isShell isProcess stillLeaving

/-- As long as no process is forked for a line with `&` and no child finds more than one
redirection of the first or the last command of a pipeline, whatever the shell forks leaves for
`execvp` or `exit`, only the shell reads, and it has forked at most one process for each command
of the line. -/
theorem oneShell (shell : Pid)
    (run : RunUnder Step Undivided (State.initial shell) state) :
    (∀ pid process, state.processes pid = some process → process.parent ≠ none →
      process.point.leaving = true ∧
      ∀ outcome after, Undivided state (pid, outcome) → Step state (pid, outcome) after →
        ∃ later, after.processes pid = some later ∧
          later.point.remaining < process.point.remaining) ∧
      (∀ pid process, state.processes pid = some process → process.point = .read → pid = shell) ∧
      state.created ≤ commandCount state.line := by
  have invariant : OneShell shell state :=
    RunUnder.invariant (OneShell shell)
      (fun _ _ _ oneShell undivided step => oneShell.step undivided step) (.initial shell) run
  rcases invariant.main with ⟨main, isMain, noParent, accounted⟩
  refine ⟨fun pid process isProcess forked => ?_, fun pid process isProcess reads => ?_, ?_⟩
  · have notShell : pid ≠ shell := by
      rintro rfl
      cases isMain.symm.trans isProcess
      exact forked noParent
    have leaving := (invariant.children pid process notShell isProcess).2
    refine ⟨leaving, fun outcome after undivided step => ?_⟩
    rcases Option.bind_eq_some_iff.mp step with ⟨same, isSame, executed⟩
    cases isSame.symm.trans isProcess
    rcases proceed_leaving leaving (undivided _ isProcess) executed with ⟨point, rfl, -, nearer⟩
    exact ⟨_, Function.update_self .., nearer⟩
  · by_contra notShell
    have leaving := (invariant.children pid process notShell isProcess).2
    rw [reads] at leaving
    cases leaving
  · generalize main.point = point at accounted
    cases point with
    | read | waitpid child | wait remaining | ended => exact accounted
    | background input | parse input | single command | pipe input sections i =>
        rw [accounted.1]
        exact Nat.zero_le _
    | fork input sections i =>
        exact Nat.le_trans accounted.1
          (Nat.le_trans (Nat.le_of_lt accounted.2.1) (Nat.le_of_eq accounted.2.2))
    | stage input sections i => exact accounted.elim
    | execvp command | executing command => exact accounted.elim
    | exit => exact accounted.elim

/-! ## Runs of two lines -/

instance (point : Point) (outcome : Outcome) : Decidable (point.Undivided outcome) :=
  match point with
  | .background _ => inferInstanceAs (Decidable (_ ≠ _))
  | .stage _ _ _ => inferInstanceAs (Decidable ((_ = _ → _ ≤ _) ∧ (_ ≠ _ → ¬_ < _ → _ ≤ _)))
  | .read | .parse _ | .single _ | .waitpid _ | .pipe .. | .fork .. | .wait _ | .execvp _ | .exit
  | .executing _ | .ended => inferInstanceAs (Decidable True)

instance (state : State) (action : Pid × Outcome) : Decidable (Undivided state action) :=
  inferInstanceAs (Decidable (∀ process ∈ _, _))

def State.attempt (allowed : State → Pid × Outcome → Prop)
    [∀ state action, Decidable (allowed state action)] (state : State) (action : Pid × Outcome) :
    Option State :=
  if allowed state action then state.perform action else none

theorem step_of_attempt {allowed : State → Pid × Outcome → Prop}
    [∀ state action, Decidable (allowed state action)] {action : Pid × Outcome}
    (attempted : state.attempt allowed action = some after) :
    allowed state action ∧ Step state action after :=
  Option.ite_none_right_eq_some.mp attempted

/-- The shell, process 1, reads `a|b` and executes both commands. -/
def pipeline : List (Pid × Outcome) :=
  [(1, .line [97, bar, 98, newline]), (1, .succeeds), (1, .succeeds), (1, .succeeds),
    (1, .succeeds), (1, .succeeds), (2, .succeeds), (3, .succeeds), (2, .succeeds)]

theorem oneShell_pipeline :
    ∃ state : State, RunUnder Step Undivided (State.initial 1) state ∧
      (∃ process, state.processes 2 = some process ∧ process.point.leaving = true) ∧
      state.created = 2 ∧ state.created ≤ commandCount state.line := by
  have evaluated : ((some (State.initial 1)).bind
      (follow (State.attempt Undivided) pipeline)).any
      (fun state => state.created = 2 ∧ (state.processes 2).any fun process =>
        process.parent = some 1) = true := by
    decide +kernel
  rcases exists_run_of_follow (fun _ _ _ _ attempted => step_of_attempt attempted) evaluated with
    ⟨start, state, started, run, holds⟩
  cases started
  rcases of_decide_eq_true holds with ⟨created, exists'⟩
  rcases (Option.any_eq_true _ _).mp exists' with ⟨process, isProcess, isChild⟩
  rcases oneShell 1 run with ⟨children, -, few⟩
  have forked : process.parent ≠ none := by
    rw [of_decide_eq_true isChild]
    exact Option.some_ne_none 1
  exact ⟨state, run, ⟨process, isProcess, (children 2 process isProcess forked).1⟩, created, few⟩

/-- The shell reads `a&`, and its child waits for the command and reads the next line. -/
def background : List (Pid × Outcome) :=
  [(1, .line [97, ampersand, newline]), (1, .succeeds), (2, .succeeds), (2, .succeeds),
    (3, .succeeds), (3, .succeeds), (2, .succeeds)]

theorem oneShell_broken :
    ¬∀ (shell : Pid) (state : State),
      RunUnder Step (fun _ _ => True) (State.initial shell) state →
      (∀ pid process, state.processes pid = some process → process.parent ≠ none →
        process.point.leaving = true) ∧
      (∀ pid process, state.processes pid = some process → process.point = .read →
        pid = shell) := by
  intro always
  have evaluated : ((some (State.initial 1)).bind
      (follow (State.attempt fun _ _ => True) background)).any
      (fun state => (state.processes 2).any fun process => process.point = .read) = true := by
    decide +kernel
  rcases exists_run_of_follow (fun _ _ _ _ attempted => step_of_attempt attempted) evaluated with
    ⟨start, state, started, run, holds⟩
  cases started
  rcases (Option.any_eq_true _ _).mp holds with ⟨process, isProcess, reads⟩
  have isShell := (always 1 state run).2 2 process isProcess (of_decide_eq_true reads)
  exact absurd isShell (by decide)

end EC440.Shell
