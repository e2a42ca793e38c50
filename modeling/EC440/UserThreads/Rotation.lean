import EC440.UserThreads.Selection
import EC440.UserThreads.Turns

/-!
# Round robin

While a thread is `READY` and has not had its turn, each dispatch of another
one is closer to it, so that no thread is dispatched twice and the turn comes
before the 128th dispatch.  This holds of a thread that no search has passed by,
and that is every `READY` thread if `SIGALRM` never interrupts `scheduler`.
-/

namespace EC440.UserThreads

open Threads (maxThreads Tid Value SchedulerPoint)
open CyclicSearch Transition

variable {User : Type} {client : Client User} {state after : State User} {tid : Tid}
  {rest : List SchedulerPoint} {action : Action User}

/-! ## What a step keeps -/

namespace State.Fair

theorem goTo {context : Context User} (fair : state.Fair tid)
    (executes : ExecutesInTurn tid state.status state.currTid context.schedulers) :
    State.Fair { state with cpu := context } tid where
  executes := executes
  saved := fair.saved

theorem scheduler_step {point : SchedulerPoint} (fair : state.Fair tid) (orderly : Orderly state)
    (isReady : state.status tid = .ready) (frames : state.cpu.schedulers = point :: rest)
    (executed : state.scheduler rest point = some after) : after.Fair tid := by
  have fits := orderly.executes
  rw [Context.Fits, frames] at fits
  have executing := fair.executes
  rw [frames] at executing
  rcases executing with ⟨inTurn, below⟩
  cases point with
  | start =>
      cases executed
      exact fair.goTo ⟨inTurn_start, below⟩
  | search next =>
      rcases inTurn.search (.inl isReady) executed with ⟨point, rfl, still, mayStillSave⟩
      exact fair.goTo ⟨still, fun maySave => below (mayStillSave maySave)⟩
  | advance next =>
      cases executed
      exact fair.goTo ⟨inTurn.advance, below⟩
  | chosen next =>
      simp only [State.scheduler] at executed
      split at executed
      all_goals
        cases executed
        exact fair.goTo ⟨inTurn, below⟩
  | ready next =>
      cases executed
      refine ⟨⟨inTurn, fun _ => below fits.1.1⟩, ?_⟩
      intro other context inEntry
      apply fair.saved other context
      rw [← inEntry]
      exact (State.setStatus_reg ..).symm
  | save next =>
      cases executed
      have notRunning : state.status state.currTid ≠ .running := by
        rw [fits.1.1]
        decide
      refine ⟨⟨inTurn, fun isRunning => absurd ?_ notRunning⟩, ?_⟩
      · rw [← isRunning]
        exact (State.setReg_status ..).symm
      · intro other context inEntry
        change ((state.setReg state.currTid _).tcb other).reg = some context at inEntry
        rw [State.setReg_reg] at inEntry
        split at inEntry
        next same =>
            cases inEntry
            rw [same]
            exact ⟨trivial, below trivial⟩
        next => exact fair.saved other context inEntry
  | resumed =>
      cases executed
      exact fair.goTo (below fits.1).executes
  | switch next =>
      cases executed
      refine ⟨⟨trivial, fun isRunning => ?_⟩, fair.saved⟩
      exact absurd (fits.1.2.symm.trans isRunning) (by decide)
  | run next =>
      cases executed
      refine ⟨⟨trivial, False.elim⟩, ?_⟩
      intro other context inEntry
      apply fair.saved other context
      rw [← inEntry]
      exact (State.setStatus_reg ..).symm
  | jump next =>
      rcases (state.longjmp_eq_some_iff).mp executed with ⟨context, inEntry, rfl⟩
      have saved := fair.saved next context inEntry
      rw [fits.1.1] at saved
      exact fair.goTo saved.executes

theorem call_step {frame : Frame} (fair : state.Fair tid) (orderly : Orderly state)
    (noSchedulers : state.cpu.schedulers = []) (called : state.cpu.call = some frame)
    (executed : state.callStatement client frame = some after) : after.Fair tid := by
  have keeps := callStatement_keepsContexts noSchedulers executed
  constructor
  case executes =>
      rcases keeps.executes with none | started | ⟨rfl, -⟩
      · rw [none]
        trivial
      · rw [started]
        exact ⟨trivial, fun _ => trivial⟩
      · have fits := orderly.executes.callFits noSchedulers
        rw [called] at fits
        exact fits.elim
  case saved =>
      intro other context inEntry
      rcases keeps.saved other context inEntry with before | none
      · exact fair.saved other context before
      · rw [none]
        trivial

theorem step (fair : state.Fair tid) (orderly : Orderly state)
    (isReady : state.status tid = .ready) (step : Step client state action after) :
    after.Fair tid := by
  rcases step.cases with ⟨user, rfl, inUserCode, rfl⟩ | ⟨call, user, rfl, inUserCode, rfl⟩ |
    ⟨frame, rfl, noSchedulers, called, executed⟩ | ⟨point, rest, rfl, frames, executed⟩ |
    ⟨rfl, rfl⟩
  · exact fair.goTo fair.executes
  · exact fair.goTo fair.executes
  · exact fair.call_step orderly noSchedulers called executed
  · exact fair.scheduler_step orderly isReady frames executed
  · exact fair.goTo fair.executes.interrupted

end State.Fair

/-! ## Runs without interrupted searches -/

/-- `SIGALRM` does not interrupt `scheduler`. -/
def Unnested (state : State User) : Action User → Prop
  | .own _ | .call .. | .statement => True
  | .alarm => state.cpu.schedulers = []

instance (state : State User) (action : Action User) : Decidable (Unnested state action) :=
  match action with
  | .own _ | .call .. | .statement => inferInstanceAs (Decidable True)
  | .alarm => inferInstanceAs (Decidable (_ = _))

/-- At most one call of `scheduler` is under way, and it has passed by no thread that waits. -/
structure State.Flat (state : State User) : Prop where
  executes : state.cpu.schedulers = [] ∨ ∃ point, state.cpu.schedulers = [point] ∧
    ∀ tid, state.status tid = .ready ∨ tid = state.currTid → InTurn tid state.currTid point
  saved : ∀ other context, (state.tcb other).reg = some context →
    context.schedulers = [] ∨ context.schedulers = [.resumed]

namespace State.Flat

theorem fair (flat : state.Flat) (isReady : state.status tid = .ready) : state.Fair tid where
  executes := by
    rcases flat.executes with none | ⟨point, single, inTurn⟩
    · rw [none]
      trivial
    · rw [single]
      exact ⟨inTurn tid (.inl isReady), fun _ => trivial⟩
  saved := by
    intro other context inEntry
    rcases flat.saved other context inEntry with none | single
    · rw [none]
      trivial
    · rw [single]
      exact ⟨trivial, trivial⟩

theorem single {point : SchedulerPoint} (flat : state.Flat)
    (inTurn : ∀ tid, state.status tid = .ready ∨ tid = state.currTid →
      InTurn tid state.currTid point) :
    (state.inScheduler [] point).Flat where
  executes := .inr ⟨point, rfl, inTurn⟩
  saved := flat.saved

theorem load {context : Context User} (flat : state.Flat)
    (stored : context.schedulers = [] ∨ context.schedulers = [.resumed]) :
    State.Flat { state with cpu := context } where
  executes := stored.imp_right fun single => ⟨.resumed, single, fun _ _ => trivial⟩
  saved := flat.saved

theorem setStatus {point : SchedulerPoint} {changed : Status} (flat : state.Flat)
    (inTurn : ∀ tid, state.status tid = .ready ∨ tid = state.currTid →
      InTurn tid state.currTid point) :
    ((state.setStatus state.currTid changed).inScheduler [] point).Flat where
  executes := by
    refine .inr ⟨point, rfl, ?_⟩
    rintro tid (isReady | isCurr)
    · change (state.setStatus state.currTid changed).status tid = .ready at isReady
      rw [State.setStatus_status] at isReady
      split at isReady
      next isCurr => exact inTurn tid (.inr isCurr)
      next => exact inTurn tid (.inl isReady)
    · exact inTurn tid (.inr isCurr)
  saved := by
    intro other context inEntry
    apply flat.saved other context
    rw [← inEntry]
    exact (State.setStatus_reg ..).symm

theorem scheduler_step {point : SchedulerPoint} (flat : state.Flat)
    (frames : state.cpu.schedulers = point :: rest)
    (executed : state.scheduler rest point = some after) : after.Flat := by
  have executing := flat.executes
  rw [frames] at executing
  rcases executing with none | ⟨point, single, inTurn⟩
  · cases none
  cases single
  cases point with
  | start =>
      cases executed
      exact flat.single fun _ _ => inTurn_start
  | search next =>
      rcases (inTurn state.currTid (.inr rfl)).search (.inr rfl) executed with
        ⟨point, rfl, -, -⟩
      refine flat.single fun tid waits => ?_
      rcases (inTurn tid waits).search waits executed with ⟨same, isPoint, still, -⟩
      cases inScheduler_injective state [] isPoint
      exact still
  | advance next =>
      cases executed
      exact flat.single fun tid waits => (inTurn tid waits).advance
  | chosen next =>
      simp only [State.scheduler] at executed
      split at executed
      all_goals
        cases executed
        exact flat.single inTurn
  | ready next =>
      cases executed
      exact flat.setStatus inTurn
  | save next =>
      cases executed
      constructor
      case executes =>
          refine .inr ⟨_, rfl, ?_⟩
          rintro tid (isReady | isCurr)
          · apply inTurn tid
            rw [← isReady]
            exact .inl (State.setReg_status ..).symm
          · exact inTurn tid (.inr isCurr)
      case saved =>
          intro other context inEntry
          change ((state.setReg state.currTid _).tcb other).reg = some context at inEntry
          rw [State.setReg_reg] at inEntry
          split at inEntry
          next =>
              cases inEntry
              exact .inr rfl
          next => exact flat.saved other context inEntry
  | resumed =>
      cases executed
      exact flat.load (.inl rfl)
  | switch next =>
      cases executed
      exact ⟨.inr ⟨_, rfl, fun _ _ => trivial⟩, flat.saved⟩
  | run next =>
      cases executed
      exact flat.setStatus fun _ _ => trivial
  | jump next =>
      rcases (state.longjmp_eq_some_iff).mp executed with ⟨context, inEntry, rfl⟩
      exact flat.load (flat.saved next context inEntry)

theorem step (flat : state.Flat) (unnested : Unnested state action)
    (step : Step client state action after) : after.Flat := by
  rcases step.cases with ⟨user, rfl, inUserCode, rfl⟩ | ⟨call, user, rfl, inUserCode, rfl⟩ |
    ⟨frame, rfl, noSchedulers, called, executed⟩ | ⟨point, rest, rfl, frames, executed⟩ |
    ⟨rfl, rfl⟩
  · exact ⟨.inl inUserCode.2, flat.saved⟩
  · exact ⟨.inl inUserCode.2, flat.saved⟩
  · have keeps := callStatement_keepsContexts noSchedulers executed
    constructor
    case executes =>
        rcases keeps.executes with none | started | ⟨-, inEntry⟩
        · exact .inl none
        · exact .inr ⟨.start, started, fun _ _ => trivial⟩
        · exact (flat.saved 0 _ inEntry).imp_right fun single =>
            ⟨.resumed, single, fun _ _ => trivial⟩
    case saved =>
        intro other context inEntry
        exact (keeps.saved other context inEntry).elim (flat.saved other context) .inl
  · exact flat.scheduler_step frames executed
  · have interrupted : state.interrupt = state.inScheduler [] .start := by
      rw [State.interrupt, show state.cpu.schedulers = [] from unnested]
    rw [interrupted]
    exact flat.single fun _ _ => trivial

theorem entered (user : User) (routine arg : Value) : (State.entered user routine arg).Flat where
  executes := .inl rfl
  saved := by
    intro other context inEntry
    by_cases main : other = 0
    · subst main
      cases inEntry
      exact .inl rfl
    · simp [State.entered, State.firstCreate, State.initSystem, State.initial, State.inCall,
        State.setReg, State.setStatus, main] at inEntry

/-- Without interrupted searches, no thread that waits has been passed by. -/
theorem of_run {user : User} {start : State User} (boots : Boots client user start)
    (run : RunUnder (Step client) Unnested start state) : state.Flat := by
  rcases boots with ⟨routine, arg, booted⟩
  rw [boot_eq] at booted
  cases booted
  refine run.invariant State.Flat ?_ (entered user routine arg)
  intro before action after flat unnested step
  exact flat.step unnested step

end State.Flat

/-! ## Dispatches -/

/-- The thread that `scheduler` is about to make the current one. -/
def State.dispatching (state : State User) : Option Tid :=
  match state.cpu.schedulers with
  | .switch next :: _ => some next
  | _ => none

/-- Whom the action makes the current thread. -/
def State.dispatches (state : State User) : Action User → List Tid
  | .own _ | .call .. | .alarm => []
  | .statement => state.dispatching.toList

def TracedStep (client : Client User) (before : State User × List Tid) (action : Action User)
    (after : State User × List Tid) : Prop :=
  Step client before.1 action after.1 ∧ after.2 = before.2 ++ before.1.dispatches action

/-- The thread is `READY` and not about to have its turn. -/
def State.Waits (state : State User) (tid : Tid) (action : Action User) : Prop :=
  state.status tid = .ready ∧ tid ∉ state.dispatches action

instance (state : State User) (tid : Tid) (action : Action User) :
    Decidable (state.Waits tid action) :=
  inferInstanceAs (Decidable (_ ∧ _))

/-- Only a dispatch changes the current thread, and it comes closer to a thread that waits. -/
theorem State.Fair.dispatches (fair : state.Fair tid) (step : Step client state action after)
    (notDispatched : tid ∉ state.dispatches action) :
    state.dispatches action = [] ∧ after.currTid = state.currTid ∨
      state.dispatches action = [after.currTid] ∧
        place after.currTid tid < place state.currTid tid := by
  rcases step.cases with ⟨user, rfl, -, rfl⟩ | ⟨call, user, rfl, -, rfl⟩ |
    ⟨frame, rfl, noSchedulers, -, executed⟩ | ⟨point, rest, rfl, frames, executed⟩ |
    ⟨rfl, rfl⟩
  · exact .inl ⟨rfl, rfl⟩
  · exact .inl ⟨rfl, rfl⟩
  · refine .inl ⟨?_, (callStatement_keepsContexts noSchedulers executed).current⟩
    simp [State.dispatches, State.dispatching, noSchedulers]
  · have executing := fair.executes
    rw [frames] at executing
    cases point with
    | switch next =>
        have isNext : state.dispatches (.statement : Action User) = [next] := by
          simp [State.dispatches, State.dispatching, frames]
        rw [isNext] at notDispatched ⊢
        cases executed
        refine .inr ⟨rfl, place_lt_place executing.1 ?_⟩
        rintro rfl
        exact notDispatched (.head _)
    | search next =>
        refine .inl ⟨by simp [State.dispatches, State.dispatching, frames], ?_⟩
        simp only [State.scheduler] at executed
        split at executed
        next =>
            split at executed
            all_goals
              cases executed
              rfl
        next => cases executed
    | chosen next =>
        refine .inl ⟨by simp [State.dispatches, State.dispatching, frames], ?_⟩
        simp only [State.scheduler] at executed
        split at executed
        all_goals
          cases executed
          rfl
    | jump next =>
        refine .inl ⟨by simp [State.dispatches, State.dispatching, frames], ?_⟩
        rcases (state.longjmp_eq_some_iff).mp executed with ⟨context, -, rfl⟩
        rfl
    | start | advance | ready | save | resumed | run =>
        cases executed
        exact .inl ⟨by simp [State.dispatches, State.dispatching, frames], rfl⟩
  · exact .inl ⟨rfl, rfl⟩

/-- The threads that have had the processor, up to the current one. -/
structure Rotates (tid first : Tid) (traced : State User × List Tid) : Prop where
  orderly : Orderly traced.1
  fair : traced.1.Fair tid
  approach : ∃ others, first :: traced.2 = others ++ [traced.1.currTid] ∧
    Approach tid (others ++ [traced.1.currTid])

theorem Rotates.step {first : Tid} {traced tracedAfter : State User × List Tid}
    (rotates : Rotates tid first traced) (undisturbed : Undisturbed traced.1 action)
    (waits : traced.1.Waits tid action) (step : TracedStep client traced action tracedAfter) :
    Rotates tid first tracedAfter := by
  rcases tracedAfter with ⟨after, dispatched⟩
  obtain ⟨step, rfl⟩ : Step client traced.1 action after ∧
    dispatched = traced.2 ++ traced.1.dispatches action := step
  refine ⟨rotates.orderly.step undisturbed step,
    rotates.fair.step rotates.orderly waits.1 step, ?_⟩
  rcases rotates.approach with ⟨others, visited, approach⟩
  rcases rotates.fair.dispatches step waits.2 with ⟨none, same⟩ | ⟨one, closer⟩
  · refine ⟨others, ?_, ?_⟩
    · rw [none, List.append_nil, same]
      exact visited
    · rw [same]
      exact approach
  · refine ⟨others ++ [traced.1.currTid], ?_, approach.append closer⟩
    rw [one, ← List.cons_append, visited]

/-- While a thread waits, other threads are dispatched each closer to it than the one before, none
of them twice and fewer of them than there are places between the current thread and it. -/
theorem roundRobin {client : Client User} {user : User} {start before after : State User}
    {dispatched : List Tid} {tid : Tid} (boots : Boots client user start)
    (run : RunUnder (Step client) Undisturbed start before)
    (fair : before.Fair tid ∨
      before.status tid = .ready ∧ RunUnder (Step client) Unnested start before)
    (waiting : RunUnder (TracedStep client)
      (fun traced action => Undisturbed traced.1 action ∧ traced.1.Waits tid action)
      (before, []) (after, dispatched)) :
    Approach tid (before.currTid :: dispatched) ∧ (before.currTid :: dispatched).Nodup ∧
      dispatched.length < place before.currTid tid ∧
      place before.currTid tid ≤ maxThreads := by
  have isFair : before.Fair tid := by
    rcases fair with isFair | ⟨isReady, unnested⟩
    · exact isFair
    · exact (State.Flat.of_run boots unnested).fair isReady
  have initially : Rotates tid before.currTid (before, []) :=
    ⟨.of_run boots run, isFair, [], rfl, .single _⟩
  have rotates : Rotates tid before.currTid (after, dispatched) := by
    refine waiting.invariant (Rotates tid before.currTid) ?_ initially
    intro traced action tracedAfter rotates allowed step
    exact rotates.step allowed.1 allowed.2 step
  rcases rotates.approach with ⟨others, visited, approach⟩
  rw [← visited] at approach
  exact ⟨approach, approach.nodup, approach.length_le_place, place_le ..⟩

/-! ## A run of three threads -/

/-- Perform an action and note the dispatches, while a thread waits. -/
def attemptWaiting (client : Client User) [∀ user next, Decidable (client.own user next)]
    [∀ user call waiting, Decidable (client.calls user call waiting)] (tid : Tid)
    (traced : State User × List Tid) (action : Action User) : Option (State User × List Tid) :=
  (attemptStep client (fun state action => Undisturbed state action ∧ state.Waits tid action)
    traced.1 action).map (·, traced.2 ++ traced.1.dispatches action)

theorem step_of_attemptWaiting [∀ user next, Decidable (client.own user next)]
    [∀ user call waiting, Decidable (client.calls user call waiting)]
    {traced tracedAfter : State User × List Tid}
    (attempted : attemptWaiting client tid traced action = some tracedAfter) :
    (Undisturbed traced.1 action ∧ traced.1.Waits tid action) ∧
      TracedStep client traced action tracedAfter := by
  rcases Option.map_eq_some_iff.mp attempted with ⟨after, performed, rfl⟩
  rcases step_of_attemptStep performed with ⟨allowed, step⟩
  exact ⟨allowed, step, rfl⟩

def createTwo : List (Action Unit) :=
  List.replicate 7 .statement ++ [.call (.create 0 0) ()] ++ List.replicate 9 .statement

def preemptTwice : List (Action Unit) :=
  [.alarm] ++ List.replicate 8 .statement ++ [.alarm] ++ List.replicate 5 .statement

theorem roundRobin_three :
    ∃ (start before after : State Unit), Boots callsOnly () start ∧
      RunUnder (Step callsOnly) Undisturbed start before ∧
      RunUnder (Step callsOnly) Unnested start before ∧ before.status 2 = .ready ∧
      RunUnder (TracedStep callsOnly)
        (fun traced action => Undisturbed traced.1 action ∧ traced.1.Waits 2 action)
        (before, []) (after, [1]) ∧
      (Approach 2 [before.currTid, 1] ∧ [before.currTid, 1].Nodup ∧
        [(1 : Tid)].length < place before.currTid 2 ∧ place before.currTid 2 ≤ maxThreads) := by
  have evaluated : ((((boot callsOnly () 0 0).bind
      (follow (attemptStep callsOnly fun state action =>
        Undisturbed state action ∧ Unnested state action) createTwo)).map (·, [])).bind
      (follow (attemptWaiting callsOnly 2) preemptTwice)).any
      (fun traced => traced.2 = [1] ∧ traced.1.dispatching = some 2) = true := by
    decide +kernel
  rcases exists_run_of_follow (fun _ _ _ _ attempted => step_of_attemptWaiting attempted)
    evaluated with ⟨traced, ⟨after, dispatched⟩, created, waiting, holds⟩
  rcases Option.map_eq_some_iff.mp created with ⟨before, reached, rfl⟩
  rcases Option.bind_eq_some_iff.mp reached with ⟨start, booted, followed⟩
  have run : RunUnder (Step callsOnly)
      (fun state action => Undisturbed state action ∧ Unnested state action) start before :=
    run_of_follow (fun _ _ _ _ attempted => step_of_attemptStep attempted) followed
  have undisturbed : RunUnder (Step callsOnly) Undisturbed start before :=
    run.weaken fun _ _ => And.left
  have unnested : RunUnder (Step callsOnly) Unnested start before :=
    run.weaken fun _ _ => And.right
  obtain ⟨rfl, -⟩ : dispatched = [1] ∧ after.dispatching = some 2 := of_decide_eq_true holds
  have isReady : before.status 2 = .ready := by
    rcases Relation.ReflTransGen.cases_head waiting with same | ⟨next, first, -⟩
    · cases same
    · rcases first with ⟨action, allowed, -⟩
      exact allowed.2.1
  have boots : Boots callsOnly () start := ⟨0, 0, booted⟩
  exact ⟨start, before, after, boots, undisturbed, unnested, isReady, waiting,
    roundRobin boots undisturbed (.inr ⟨isReady, unnested⟩) waiting⟩

end EC440.UserThreads
