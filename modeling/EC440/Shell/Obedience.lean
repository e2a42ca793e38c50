import EC440.Shell.OneShell
import EC440.Shell.PipelineLines

/-!
# A shell that does what is typed

Runs of the shell in which every line is empty, a single command or a pipeline
with spaces where they do no harm.  Whatever the processes do and which of their
calls fail, none of them leaves its memory, frees what is not its own, or comes
to another command than those that were typed.
-/

namespace EC440.Shell

open Transition

/-! ## What is typed -/

/-- A line of which the shell makes what it says. -/
inductive Typed where
  | blank (line : Buffer) (isBlank : isBlank (line ++ [0]) = true)
  | single (line : CommandLine) (handled : line.Handled)
  | pipeline (line : PipelineLine)
      (carried : ∀ (i : Nat) (stage : Stage), line.stages[i]? = some stage →
        stage.Carried (if i = 0 then 2 else 1))

namespace Typed

def text : Typed → Buffer
  | blank line _ => line
  | single line _ => line.text
  | pipeline line _ => line.text

def Commands : Typed → Command → Prop
  | blank _ _, _ => False
  | single line _, command => command = line.command
  | pipeline line _, command =>
      ∃ (i : Nat) (stage : Stage), line.stages[i]? = some stage ∧ command = stage.command i

end Typed

def Types (typed : Command → Prop) (_ : State) (action : Pid × Outcome) : Prop :=
  ∀ line, action.2 = .line line →
    ∃ entry : Typed, entry.text = line ∧ ∀ command, entry.Commands command → typed command

/-! ## What the processes are about -/

def CarriesTyped (typed : Command → Prop) (input : Buffer) (sections : List Pointer) : Prop :=
  ∀ i < sections.length, ∃ command, typed command ∧ Carries input sections i command

def Point.Parsed (typed : Command → Prop) : Point → Prop
  | .single command => typed command
  | .pipe input sections _ => 0 < sections.length ∧ CarriesTyped typed input sections
  | _ => False

def Point.Obeys (typed : Command → Prop) : Point → Prop
  | .read | .waitpid _ | .wait _ | .exit | .ended => True
  | .background _ => False
  | .parse input => ∃ point, afterFork input = some point ∧ point.Parsed typed
  | .single command | .execvp command | .executing command => typed command
  | .pipe input sections _ => 0 < sections.length ∧ CarriesTyped typed input sections
  | .fork input sections i | .stage input sections i =>
      i < sections.length ∧ CarriesTyped typed input sections

theorem Point.Parsed.obeys {typed : Command → Prop} {point : Point} (parsed : point.Parsed typed) :
    point.Obeys typed := by
  cases point with
  | single command | pipe input sections i => exact parsed
  | read | background input | parse input | waitpid child | fork input sections i
  | stage input sections i | wait remaining | execvp command | exit | executing command | ended =>
      exact parsed.elim

def Obedient (typed : Command → Prop) (state : State) : Prop :=
  ∀ pid process, state.processes pid = some process → process.point.Obeys typed

section Points

variable {typed : Command → Prop} {line : Buffer}

theorem afterRead_plain (noNul : 0 ∉ line) (noAmpersand : ampersand ∉ line) :
    afterRead line = if isBlank (line ++ [0]) then .read else .parse (line ++ [0]) := by
  have absent : strpbrk (line ++ [0]) 0 ampersand = none := by
    have found := @strpbrk_within [] line [] ampersand noNul
    have nowhere : line.findIdx? (· = ampersand) = none := by
      apply List.findIdx?_eq_none_iff.mpr
      intro c inLine
      have other : c ≠ ampersand := by
        rintro rfl
        exact noAmpersand inLine
      simpa using other
    rw [nowhere] at found
    exact found
  rw [afterRead, absent]

theorem afterRead_obeys (entry : Typed)
    (commands : ∀ command, entry.Commands command → typed command) :
    (afterRead entry.text).Obeys typed := by
  cases entry with
  | blank line isBlank =>
      rw [Typed.text, afterRead, if_pos isBlank]
      trivial
  | single line handled =>
      have noNul : 0 ∉ line.text := by
        apply line.notMem_text <;> decide
      have noAmpersand : ampersand ∉ line.text := by
        apply line.notMem_text <;> decide
      rw [Typed.text, afterRead_plain noNul noAmpersand]
      split
      · trivial
      · exact ⟨_, line.handled_iff.mpr handled, commands _ rfl⟩
  | pipeline line carried =>
      have noAmpersand : ampersand ∉ line.text := by
        apply line.notMem_text <;> decide
      rw [Typed.text, afterRead_plain line.noNul_text noAmpersand]
      split
      · trivial
      rcases line.afterFork_eq with ⟨input, found, separated, ends, strings⟩
      have length := PipelineLine.found_length strings
      refine ⟨_, separated, ?_, ?_⟩
      · rw [length]
        exact Nat.succ_pos _
      · intro i inside
        rw [length] at inside
        have isStage := List.getElem?_eq_getElem inside
        refine ⟨_, commands _ ⟨i, _, isStage, rfl⟩, ?_⟩
        exact (PipelineLine.carries_iff ends strings isStage).mpr (carried i _ isStage)

variable {input : Buffer} {sections : List Pointer} {i : Nat}

theorem nextStage_obeys (carried : CarriesTyped typed input sections) :
    (nextStage input sections i).Obeys typed := by
  unfold nextStage
  split
  next inside => exact ⟨inside, carried⟩
  next => trivial

theorem nextPipe_obeys (several : 0 < sections.length)
    (carried : CarriesTyped typed input sections) : (nextPipe input sections i).Obeys typed := by
  unfold nextPipe
  split
  · exact ⟨several, carried⟩
  · exact ⟨several, carried⟩

end Points

/-! ## Steps -/

namespace Obedient

variable {typed : Command → Prop} {state after : State} {pid : Pid} {process : Process}

theorem initial (shell : Pid) : Obedient typed (State.initial shell) := by
  intro pid process isProcess
  by_cases isShell : pid = shell
  · simp only [State.initial, isShell, Function.update_self, Option.some.injEq] at isProcess
    subst isProcess
    trivial
  · simp [State.initial, isShell] at isProcess

theorem goto (obedient : Obedient typed state) {point : Point} (obeys : point.Obeys typed) :
    Obedient typed (state.goto pid process point) := by
  intro other later isLater
  by_cases same : other = pid
  · subst same
    cases (Function.update_self ..).symm.trans isLater
    exact obeys
  · exact obedient other later ((Function.update_of_ne same ..).symm.trans isLater)

theorem spawn (obedient : Obedient typed state) {parent child : Point} (obeys : parent.Obeys typed)
    (childObeys : child.Obeys typed) :
    Obedient typed (state.spawn pid process parent child) := by
  intro other later isLater
  by_cases isNext : other = state.next
  · subst isNext
    cases (Function.update_self ..).symm.trans isLater
    exact childObeys
  · have unchanged := (Function.update_of_ne isNext ..).symm.trans isLater
    exact obedient.goto obeys other later unchanged

theorem step (obedient : Obedient typed state) {action : Pid × Outcome}
    (types : Types typed state action) (step : Step state action after) : Obedient typed after := by
  rcases action with ⟨pid, outcome⟩
  rcases Option.bind_eq_some_iff.mp step with ⟨process, isProcess, executed⟩
  have obeys := obedient pid process isProcess
  rcases process with ⟨parent, point⟩
  cases point with
  | read =>
      cases outcome with
      | line line =>
          obtain ⟨entry, rfl, commands⟩ := types line rfl
          simp only [State.proceed, Option.ite_none_right_eq_some, Option.some.injEq] at executed
          rcases executed with ⟨-, rfl⟩
          exact obedient.goto (afterRead_obeys entry commands)
      | fails =>
          cases executed
          exact obedient.goto trivial
      | succeeds => cases executed
  | background input => exact obeys.elim
  | parse input =>
      cases outcome with
      | succeeds =>
          rcases Option.map_eq_some_iff.mp executed with ⟨point, parsed, rfl⟩
          rcases obeys with ⟨_, same, isParsed⟩
          cases same.symm.trans parsed
          exact obedient.goto isParsed.obeys
      | line line | fails => cases executed
  | single command =>
      cases outcome with
      | succeeds =>
          cases executed
          exact obedient.spawn trivial obeys
      | fails =>
          cases executed
          exact obedient.goto trivial
      | line line => cases executed
  | waitpid child =>
      cases outcome with
      | succeeds =>
          cases child <;>
          · rcases Option.ite_none_right_eq_some.mp executed with ⟨-, executed⟩
            cases executed
            exact obedient.goto trivial
      | line line | fails => cases child <;> cases executed
  | pipe input sections i =>
      cases outcome with
      | succeeds =>
          cases executed
          exact obedient.goto (nextPipe_obeys obeys.1 obeys.2)
      | fails =>
          cases executed
          exact obedient.goto obeys
      | line line => cases executed
  | fork input sections i =>
      cases outcome with
      | succeeds =>
          cases executed
          exact obedient.spawn (nextStage_obeys obeys.2) obeys
      | fails =>
          cases executed
          exact obedient.goto (nextStage_obeys obeys.2)
      | line line => cases executed
  | stage input sections i =>
      cases outcome with
      | succeeds =>
          rcases Option.map_eq_some_iff.mp executed with ⟨point, found, rfl⟩
          rcases obeys with ⟨inside, carried⟩
          rcases carried i inside with ⟨command, isTyped, -, carries⟩
          cases carries.symm.trans found
          exact obedient.goto isTyped
      | line line | fails => cases executed
  | wait remaining =>
      cases outcome with
      | succeeds =>
          cases remaining with
          | zero =>
              cases executed
              exact obedient.goto trivial
          | succ remaining =>
              rcases Option.ite_none_right_eq_some.mp executed with ⟨-, executed⟩
              cases executed
              exact obedient.goto trivial
      | line line | fails => cases remaining <;> cases executed
  | execvp command =>
      cases outcome with
      | succeeds =>
          cases executed
          exact obedient.goto obeys
      | fails =>
          cases executed
          exact obedient.goto trivial
      | line line => cases executed
  | exit | executing command =>
      cases outcome with
      | succeeds =>
          cases executed
          exact obedient.goto trivial
      | line line | fails => cases executed
  | ended => cases executed

end Obedient

/-- As long as only such lines are typed, no process leaves its memory or frees another address
than that of its block, and all that is ever executed are the commands that were typed. -/
theorem obedientShell (typed : Command → Prop) (shell : Pid) (state : State)
    (run : RunUnder Step (Types typed) (State.initial shell) state) :
    ∀ pid process, state.processes pid = some process →
      (∀ input, process.point = .parse input → afterFork input ≠ none) ∧
      (∀ input sections i, process.point = .stage input sections i →
        stageFreed input sections i = some 0 ∧ stageChild input sections i ≠ none) ∧
      ∀ command, process.point = .execvp command ∨ process.point = .executing command →
        typed command := by
  have obedient : Obedient typed state :=
    RunUnder.invariant (Obedient typed)
      (fun _ _ _ obedient types step => obedient.step types step) (.initial shell) run
  intro pid process isProcess
  have obeys := obedient pid process isProcess
  refine ⟨fun input isPoint => ?_, fun input sections i isPoint => ?_, fun command isPoint => ?_⟩
  · rw [isPoint] at obeys
    rcases obeys with ⟨point, parsed, -⟩
    rw [parsed]
    exact Option.some_ne_none point
  · rw [isPoint] at obeys
    rcases obeys with ⟨inside, carried⟩
    rcases carried i inside with ⟨command, -, freed, carries⟩
    rw [carries]
    exact ⟨freed, Option.some_ne_none _⟩
  · rcases isPoint with isPoint | isPoint
    · rwa [isPoint] at obeys
    · rwa [isPoint] at obeys

def aOrB : PipelineLine where
  first :=
    { lead := 0, words := [[97]], file := none, trail := 0
      someWord := by decide, areWords := by decide }
  between := []
  last :=
    { lead := 0, words := [[98]], file := none, trail := 0
      someWord := by decide, areWords := by decide }
  ended := true
  plain _ none := absurd none List.not_mem_nil

def isAOrB (command : Command) : Prop :=
  command.args = [[97]] ∨ command.args = [[98]]

theorem types_aOrB (state : State) (pid : Pid) :
    Types isAOrB state (pid, .line [97, bar, 98, newline]) := by
  rintro line same
  cases same
  refine ⟨.pipeline aOrB fun i stage isStage => ?_, rfl, ?_⟩
  · have isPlain : stage.lead = 0 ∧ stage.file = none ∧ stage.trail = 0 := by
      rcases List.mem_pair.mp (List.mem_of_getElem? isStage) with rfl | rfl <;> exact ⟨rfl, rfl, rfl⟩
    simp [Stage.Carried, isPlain]
  · rintro command ⟨i, stage, isStage, rfl⟩
    rcases List.mem_pair.mp (List.mem_of_getElem? isStage) with rfl | rfl
    · exact .inl rfl
    · exact .inr rfl

theorem obedientShell_pipeline :
    ∃ state : State, RunUnder Step (Types isAOrB) (State.initial 1) state ∧
      ∃ process command, state.processes 2 = some process ∧
        process.point = .executing command ∧ isAOrB command := by
  have evaluated : ((some (State.initial 1)).bind (follow State.perform pipeline)).any
      (fun state => (state.processes 2).any fun process => process.point = .executing
        { args := [[97]], fileIn := none, fileOut := none }) = true := by
    decide +kernel
  have performed : ∀ action ∈ pipeline, ∀ before after : State, before.perform action = some after →
      Types isAOrB before action ∧ Step before action after := by
    intro action isAction before after step
    refine ⟨?_, step⟩
    rcases List.mem_cons.mp isAction with rfl | isLater
    · exact types_aOrB before 1
    · intro line same
      have noLine : ∀ action ∈ pipeline.tail, action.2 ≠ .line line := by
        simp [pipeline]
      exact absurd same (noLine action isLater)
  rcases exists_run_of_follow performed evaluated with ⟨start, state, started, run, holds⟩
  cases started
  rcases (Option.any_eq_true _ _).mp holds with ⟨process, isProcess, executes⟩
  have executes := of_decide_eq_true executes
  have isTyped := (obedientShell isAOrB 1 state run 2 process isProcess).2.2 _ (.inr executes)
  exact ⟨state, run, process, _, isProcess, executes, isTyped⟩

end EC440.Shell
