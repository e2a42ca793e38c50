import EC440.UserThreads.Rotation

/-!
# Threads that are lost

Between `TCB[curr_TID].status = RUNNING` and its `longjmp`, `scheduler` executes
for a thread whose context is still in `TCB`.  If `SIGALRM` comes there, the
context is overwritten by one that goes on at the same `longjmp`, so that the
thread jumps to itself whenever it is dispatched and never gets further, as long
as the frames it returns through are intact.
-/

namespace EC440.UserThreads

open Threads (maxThreads Tid Value SchedulerPoint)
open Transition

variable {User : Type} {client : Client User} {state after : State User} {tid : Tid}
  {rest : List SchedulerPoint} {action : Action User}

/-- Above the `longjmp` to the thread there are only searches that have not been saved. -/
def Catching (tid : Tid) : List SchedulerPoint → Prop
  | [] | .resumed :: _ => False
  | .jump next :: _ => next = tid
  | .start :: rest | .search _ :: rest | .advance _ :: rest | .chosen _ :: rest
  | .ready _ :: rest | .save _ :: rest | .switch _ :: rest | .run _ :: rest => Catching tid rest

/-- What executes can be saved for the thread. -/
def State.AtHand (state : State User) (tid : Tid) : Prop :=
  state.currTid = tid ∧
    match state.cpu.schedulers with
    | [] => state.status tid = .running
    | point :: _ => MaySave state.status tid point

/-- The thread's context goes on at the `longjmp` to itself, or is about to be replaced by one
that does. -/
structure State.Lost (state : State User) (tid : Tid) : Prop where
  alive : state.status tid = .ready ∨ state.status tid = .running
  executing : state.AtHand tid → .jump tid ∈ state.cpu.schedulers
  saved : state.AtHand tid ∧ Catching tid state.cpu.schedulers ∨
    ∃ context, (state.tcb tid).reg = some context ∧ .jump tid ∈ context.schedulers

/-- `scheduler` is between its status change and its `setjmp`. -/
def State.beforeSave (state : State User) : Bool :=
  match state.cpu.schedulers with
  | .save _ :: _ => true
  | _ => false

/-- `SIGALRM` does not come between the status change of `scheduler` and its `setjmp`, on behalf
of the thread. -/
def LetsSave (tid : Tid) (state : State User) : Action User → Prop
  | .own _ | .call .. | .statement => True
  | .alarm => state.beforeSave → state.currTid ≠ tid

instance (tid : Tid) (state : State User) (action : Action User) :
    Decidable (LetsSave tid state action) :=
  match action with
  | .own _ | .call .. | .statement => inferInstanceAs (Decidable True)
  | .alarm => inferInstanceAs (Decidable (_ → _))

theorem State.atHand_iff {point : SchedulerPoint} (frames : state.cpu.schedulers = point :: rest) :
    state.AtHand tid ↔ state.currTid = tid ∧ MaySave state.status tid point := by
  rw [State.AtHand, frames]

namespace State.Lost

/-- What could be saved for the thread lies above a `longjmp` to it. -/
theorem below {point : SchedulerPoint} (lost : state.Lost tid)
    (frames : state.cpu.schedulers = point :: rest) (notJump : point ≠ .jump tid)
    (isCurr : state.currTid = tid) (maySave : MaySave state.status tid point) :
    .jump tid ∈ rest := by
  have membership := lost.executing ((atHand_iff frames).mpr ⟨isCurr, maySave⟩)
  rw [frames] at membership
  exact (List.mem_cons.mp membership).resolve_left (Ne.symm notJump)

theorem inScheduler {point next : SchedulerPoint} (lost : state.Lost tid)
    (frames : state.cpu.schedulers = point :: rest) (notJump : point ≠ .jump tid)
    (mayStillSave : MaySave state.status tid next ↔ MaySave state.status tid point)
    (catches : Catching tid (point :: rest) → Catching tid (next :: rest)) :
    (state.inScheduler rest next).Lost tid where
  alive := lost.alive
  executing := by
    rintro ⟨isCurr, maySave⟩
    exact .tail _ (lost.below frames notJump isCurr (mayStillSave.mp maySave))
  saved := by
    refine lost.saved.imp_left ?_
    rintro ⟨atHand, catching⟩
    rw [frames] at catching
    rcases (atHand_iff frames).mp atHand with ⟨isCurr, maySave⟩
    exact ⟨⟨isCurr, mayStillSave.mpr maySave⟩, catches catching⟩

theorem entry (lost : state.Lost tid) (notAtHand : ¬state.AtHand tid) :
    ∃ context, (state.tcb tid).reg = some context ∧ .jump tid ∈ context.schedulers :=
  lost.saved.resolve_left fun caught => notAtHand caught.1

theorem of_entry (lost : state.Lost tid) (notAtHand : ¬state.AtHand tid)
    (sameStatus : after.status tid = state.status tid)
    (sameEntry : (after.tcb tid).reg = (state.tcb tid).reg)
    (executing : after.AtHand tid → .jump tid ∈ after.cpu.schedulers) : after.Lost tid where
  alive := sameStatus ▸ lost.alive
  executing := executing
  saved := .inr (sameEntry ▸ lost.entry notAtHand)

theorem not_current (lost : state.Lost tid) (orderly : Orderly state)
    (noSchedulers : state.cpu.schedulers = []) : state.currTid ≠ tid := by
  rintro rfl
  have fits := orderly.executes.callFits noSchedulers
  have notRunning : state.status state.currTid ≠ .running := by
    intro isRunning
    have atHand : state.AtHand state.currTid := by
      refine ⟨rfl, ?_⟩
      rw [noSchedulers]
      exact isRunning
    have membership := lost.executing atHand
    rw [noSchedulers] at membership
    cases membership
  have notExited : state.status state.currTid ≠ .exited := by
    rw [lost.alive.resolve_right notRunning]
    decide
  rcases called : state.cpu.call with _ | ⟨routine, arg, point⟩ | point
  · rw [called] at fits
    exact notRunning fits.1
  · rw [called] at fits
    exact notRunning fits.1.1
  · rw [called] at fits
    cases point with
    | mark => exact notRunning fits.1
    | free | count | search => exact notExited fits
    | schedule => exact notExited fits.1
    | mainJump | finish => exact fits

theorem notAtHand_of_none (lost : state.Lost tid) (orderly : Orderly state)
    (noSchedulers : state.cpu.schedulers = []) : ¬state.AtHand tid :=
  fun atHand => lost.not_current orderly noSchedulers atHand.1

/-! ## Statements of scheduler -/

section Scheduler

variable {next : Tid} (lost : state.Lost tid) (orderly : Orderly state)

include lost

theorem ready_step (fits : PointFits state.status state.currTid (.ready next))
    (frames : state.cpu.schedulers = .ready next :: rest)
    (executed : state.scheduler rest (.ready next) = some after) : after.Lost tid := by
  cases executed
  have status := State.setStatus_status state state.currTid tid .ready
  have running : state.currTid = tid → MaySave state.status tid (.ready next) := by
    rintro rfl
    exact fits.1
  constructor
  case alive =>
      change (state.setStatus state.currTid .ready).status tid = .ready ∨
        (state.setStatus state.currTid .ready).status tid = .running
      rw [status]
      split
      · exact .inl rfl
      · exact lost.alive
  case executing =>
      rintro ⟨isCurr, -⟩
      exact .tail _ (lost.below frames nofun isCurr (running isCurr))
  case saved =>
      rcases lost.saved with ⟨atHand, catching⟩ | ⟨context, inEntry, circles⟩
      · rw [frames] at catching
        exact .inl ⟨⟨atHand.1, trivial⟩, catching⟩
      · refine .inr ⟨context, ?_, circles⟩
        rw [← inEntry]
        exact State.setStatus_reg ..

theorem save_step (fits : PointFits state.status state.currTid (.save next))
    (frames : state.cpu.schedulers = .save next :: rest)
    (executed : state.scheduler rest (.save next) = some after) : after.Lost tid := by
  cases executed
  have status := State.setReg_status state state.currTid tid
    { state.cpu with schedulers := .resumed :: rest }
  constructor
  case alive => exact lost.alive.imp status.trans status.trans
  case executing =>
      rintro ⟨rfl, isRunning⟩
      have isReady := status.trans fits.1
      exact absurd (isReady.symm.trans isRunning) (by decide)
  case saved =>
      right
      change ∃ context, ((state.setReg state.currTid _).tcb tid).reg = some context ∧ _
      rw [State.setReg_reg]
      split
      next isCurr =>
          exact ⟨_, rfl, .tail _ (lost.below frames nofun isCurr.symm trivial)⟩
      next other => exact lost.entry fun atHand => other atHand.1.symm

theorem jump_step (fits : PointFits state.status state.currTid (.jump next))
    (frames : state.cpu.schedulers = .jump next :: rest)
    (executed : state.scheduler rest (.jump next) = some after) : after.Lost tid := by
  rcases (state.longjmp_eq_some_iff).mp executed with ⟨context, inEntry, rfl⟩
  have notAtHand : ¬state.AtHand tid := fun atHand => ((State.atHand_iff frames).mp atHand).2
  refine lost.of_entry notAtHand rfl rfl ?_
  rintro ⟨isCurr, -⟩
  rcases lost.entry notAtHand with ⟨stored, found, circles⟩
  have isNext : next = tid := fits.1.trans isCurr
  rw [isNext] at inEntry
  cases found.symm.trans inEntry
  exact circles

include orderly

theorem scheduler_step {point : SchedulerPoint} (frames : state.cpu.schedulers = point :: rest)
    (executed : state.scheduler rest point = some after) : after.Lost tid := by
  have fits := orderly.executes
  rw [Context.Fits, frames] at fits
  replace fits := fits.1
  cases point with
  | start =>
      cases executed
      exact lost.inScheduler frames (by simp) .rfl id
  | search index =>
      simp only [State.scheduler] at executed
      split at executed
      next =>
          split at executed
          all_goals
            cases executed
            exact lost.inScheduler frames (by simp) .rfl id
      next => cases executed
  | advance next =>
      cases executed
      exact lost.inScheduler frames (by simp) .rfl id
  | chosen next =>
      simp only [State.scheduler] at executed
      split at executed
      all_goals
        cases executed
        exact lost.inScheduler frames (by simp) .rfl id
  | ready next => exact lost.ready_step fits frames executed
  | save next => exact lost.save_step fits frames executed
  | resumed =>
      cases executed
      have running : state.currTid = tid → MaySave state.status tid .resumed := by
        rintro rfl
        exact fits
      refine ⟨lost.alive, ?_, .inr ?_⟩
      · rintro ⟨isCurr, -⟩
        exact lost.below frames (by simp) isCurr (running isCurr)
      · refine lost.saved.resolve_left fun caught => ?_
        have catching := caught.2
        rw [frames] at catching
        exact catching
  | switch next =>
      cases executed
      have notAtHand : ¬state.AtHand tid := by
        intro atHand
        rcases (State.atHand_iff frames).mp atHand with ⟨rfl, isRunning⟩
        exact fits.1 isRunning
      refine lost.of_entry notAtHand rfl rfl ?_
      rintro ⟨rfl, isRunning⟩
      exact absurd (fits.2.symm.trans isRunning) (by decide)
  | run next =>
      cases executed
      have notAtHand : ¬state.AtHand tid := by
        intro atHand
        rcases (State.atHand_iff frames).mp atHand with ⟨rfl, isRunning⟩
        exact absurd (fits.2.symm.trans isRunning) (by decide)
      refine ⟨?_, fun atHand => atHand.2.elim, .inr ?_⟩
      · change (state.setStatus state.currTid .running).status tid = .ready ∨
          (state.setStatus state.currTid .running).status tid = .running
        rw [State.setStatus_status]
        split
        · exact .inr rfl
        · exact lost.alive
      · rcases lost.entry notAtHand with ⟨context, inEntry, circles⟩
        refine ⟨context, ?_, circles⟩
        rw [← inEntry]
        exact State.setStatus_reg ..
  | jump next => exact lost.jump_step fits frames executed

end Scheduler

/-! ## Statements of the library -/

theorem keepsEntry {frame : Frame} (orderly : Orderly state)
    (noSchedulers : state.cpu.schedulers = []) (called : state.cpu.call = some frame)
    (executed : state.callStatement client frame = some after) (other : tid ≠ state.currTid)
    (notFresh : state.status tid ≠ .fresh) :
    after.status tid = state.status tid ∧ (after.tcb tid).reg = (state.tcb tid).reg := by
  have fits := orderly.executes.callFits noSchedulers
  rw [called] at fits
  cases frame with
  | create routine arg point =>
      change state.pthreadCreate client routine arg point = some after at executed
      cases point with
      | start =>
          simp only [State.pthreadCreate, orderly.started, Bool.false_eq_true, if_false] at executed
          cases executed
          exact ⟨rfl, rfl⟩
      | resumed | count | finish =>
          cases executed
          exact ⟨rfl, rfl⟩
      | limit =>
          simp only [State.pthreadCreate] at executed
          split at executed
          all_goals
            cases executed
            exact ⟨rfl, rfl⟩
      | search index =>
          simp only [State.pthreadCreate] at executed
          split at executed
          next =>
              split at executed
              all_goals
                cases executed
                exact ⟨rfl, rfl⟩
          next => cases executed
      | setup i =>
          cases executed
          have notThis : tid ≠ i := by
            rintro rfl
            exact notFresh fits.2
          constructor
          · exact (State.setReg_status ..).trans (State.setStack_status ..)
          · refine (State.setReg_reg ..).trans ?_
            rw [if_neg notThis]
            exact State.setStack_reg ..
      | publish i =>
          cases executed
          have notThis : tid ≠ i := by
            rintro rfl
            exact notFresh fits.2
          exact ⟨(State.setStatus_status ..).trans (if_neg notThis), State.setStatus_reg ..⟩
  | exit point =>
      change state.pthreadExit point = some after at executed
      cases point with
      | mark =>
          cases executed
          exact ⟨(State.setStatus_status ..).trans (if_neg other), State.setStatus_reg ..⟩
      | free =>
          rcases Option.map_eq_some_iff.mp executed with ⟨freed, freeing, rfl⟩
          rcases State.freeStack_cases freeing with ⟨-, rfl⟩ | ⟨-, rfl⟩
          · exact ⟨rfl, rfl⟩
          · exact ⟨State.setStack_status .., State.setStack_reg ..⟩
      | count | schedule =>
          cases executed
          exact ⟨rfl, rfl⟩
      | search index =>
          simp only [State.pthreadExit] at executed
          split at executed
          · split at executed
            all_goals
              cases executed
              exact ⟨rfl, rfl⟩
          · cases executed
            exact ⟨rfl, rfl⟩
      | mainJump | finish => exact fits.elim

theorem call_step {frame : Frame} (lost : state.Lost tid) (orderly : Orderly state)
    (noSchedulers : state.cpu.schedulers = []) (called : state.cpu.call = some frame)
    (executed : state.callStatement client frame = some after) : after.Lost tid := by
  have notCurr := lost.not_current orderly noSchedulers
  have notFresh : state.status tid ≠ .fresh := by
    intro isFresh
    rcases lost.alive with isReady | isRunning
    · exact absurd (isFresh.symm.trans isReady) (by decide)
    · exact absurd (isFresh.symm.trans isRunning) (by decide)
  rcases keepsEntry orderly noSchedulers called executed notCurr.symm notFresh with
    ⟨sameStatus, sameEntry⟩
  refine lost.of_entry (lost.notAtHand_of_none orderly noSchedulers) sameStatus sameEntry ?_
  rintro ⟨isCurr, -⟩
  have current := (callStatement_keepsContexts noSchedulers executed).current
  exact absurd (current.symm.trans isCurr) notCurr

/-! ## Steps -/

theorem alarm_step (lost : state.Lost tid) (orderly : Orderly state)
    (letsSave : LetsSave tid state .alarm) : state.interrupt.Lost tid := by
  have executes := orderly.executes
  refine ⟨lost.alive, ?_, lost.saved.imp_left ?_⟩
  · rintro ⟨rfl, isRunning⟩
    have isRunning : state.status state.currTid = .running := isRunning
    right
    rcases frames : state.cpu.schedulers with _ | ⟨point, rest⟩
    · exact absurd rfl (lost.not_current orderly frames)
    · rw [Context.Fits, frames] at executes
      have fits := executes.1
      cases point with
      | jump next =>
          rw [fits.1]
          exact .head _
      | save next => exact absurd (fits.1.symm.trans isRunning) (by decide)
      | start | search | advance | chosen | ready | resumed | switch | run =>
          rw [← frames]
          exact lost.executing ((State.atHand_iff frames).mpr ⟨rfl, isRunning⟩)
  · rintro ⟨atHand, catching⟩
    refine ⟨⟨atHand.1, ?_⟩, catching⟩
    rcases frames : state.cpu.schedulers with _ | ⟨point, rest⟩
    · rw [frames] at catching
      exact catching.elim
    · have maySave := ((State.atHand_iff frames).mp atHand).2
      cases point with
      | jump next => exact maySave.elim
      | save next =>
          have beforeSave : state.beforeSave = true := by
            rw [State.beforeSave, frames]
          exact absurd atHand.1 (letsSave beforeSave)
      | start | search | advance | chosen | ready | resumed | switch | run => exact maySave

theorem step (lost : state.Lost tid) (orderly : Orderly state)
    (letsSave : LetsSave tid state action) (step : Step client state action after) :
    after.Lost tid := by
  rcases step.cases with ⟨user, rfl, inUserCode, rfl⟩ | ⟨call, user, rfl, inUserCode, rfl⟩ |
    ⟨frame, rfl, noSchedulers, called, executed⟩ | ⟨point, rest, rfl, frames, executed⟩ |
    ⟨rfl, rfl⟩
  · exact ⟨lost.alive, lost.executing, lost.saved⟩
  · exact ⟨lost.alive, lost.executing, lost.saved⟩
  · exact lost.call_step orderly noSchedulers called executed
  · exact lost.scheduler_step orderly frames executed
  · exact lost.alarm_step orderly letsSave

theorem of_interrupt (orderly : Orderly state)
    (frames : state.cpu.schedulers = .jump tid :: rest) : state.interrupt.Lost tid := by
  have executes := orderly.executes
  rw [Context.Fits, frames] at executes
  rcases executes.1 with ⟨rfl, isRunning⟩
  refine ⟨.inr isRunning, fun _ => ?_, .inl ⟨⟨rfl, isRunning⟩, ?_⟩⟩
  · change _ ∈ .start :: state.cpu.schedulers
    rw [frames]
    exact .tail _ (.head _)
  · change Catching _ (.start :: state.cpu.schedulers)
    rw [frames]
    rfl

end State.Lost

/-- A thread that `SIGALRM` interrupts between `status = RUNNING` and `longjmp` stays `READY` or
`RUNNING` for ever, but no statement of its program or of a call of the library is executed on
its behalf any more: whenever another thread is the current one, the context that is saved for it
returns to the `longjmp` to itself. -/
theorem interruptedJump_lost {client : Client User} {user : User} {start state later : State User}
    {tid : Tid} {rest : List SchedulerPoint} (boots : Boots client user start)
    (run : RunUnder (Step client) Undisturbed start state)
    (frames : state.cpu.schedulers = .jump tid :: rest)
    (further : RunUnder (Step client)
      (fun state action => Undisturbed state action ∧ LetsSave tid state action)
      state.interrupt later) :
    (Undisturbed state .alarm ∧ Step client state .alarm state.interrupt) ∧
      (later.status tid = .ready ∨ later.status tid = .running) ∧
      (later.cpu.schedulers = [] → later.currTid ≠ tid) ∧
      (later.cpu.InUserCode → later.cpu.owner ≠ tid) ∧
      (later.currTid ≠ tid → ∃ context, (later.tcb tid).reg = some context ∧
        .jump tid ∈ context.schedulers) := by
  have orderly := Orderly.of_run boots run
  have undisturbed : Undisturbed state (.alarm : Action User) := by
    have executes := orderly.executes
    rw [Context.Fits, frames] at executes
    refine ⟨by simp [State.InWindow, frames], fun exited => ?_⟩
    exact absurd (executes.1.2.symm.trans exited) (by decide)
  have interrupts : Step client state .alarm state.interrupt :=
    ⟨trivial, if_neg (by simp [orderly.started])⟩
  have kept : Orderly later ∧ later.Lost tid := by
    refine further.invariant (fun state => Orderly state ∧ state.Lost tid) ?_
      ⟨orderly.step undisturbed interrupts, .of_interrupt orderly frames⟩
    intro before action after holds allowed step
    exact ⟨holds.1.step allowed.1 step, holds.2.step holds.1 allowed.2 step⟩
  refine ⟨⟨undisturbed, interrupts⟩, kept.2.alive, kept.2.not_current kept.1, ?_, ?_⟩
  · intro inUserCode isOwner
    apply kept.2.not_current kept.1 inUserCode.2
    exact (kept.1.own_of_inUserCode inUserCode).2.symm.trans isOwner
  · intro notCurrent
    exact kept.2.entry fun atHand => notCurrent atHand.1

/-- Thread 1 is interrupted right before the `longjmp` that starts it. -/
def interruptJump : List (Action Unit) :=
  createTwo ++ [.alarm] ++ List.replicate 7 .statement

theorem interruptedJump_lost_first :
    ∃ (start state later : State Unit), Boots callsOnly () start ∧
      RunUnder (Step callsOnly) Undisturbed start state ∧ state.cpu.schedulers = [.jump 1] ∧
      RunUnder (Step callsOnly) (fun state action => Undisturbed state action ∧
        LetsSave 1 state action) state.interrupt later ∧
      (later.cpu.InUserCode ∧ later.currTid = 2) ∧
      ((Undisturbed state .alarm ∧ Step callsOnly state .alarm state.interrupt) ∧
        (later.status 1 = .ready ∨ later.status 1 = .running) ∧
        (later.cpu.schedulers = [] → later.currTid ≠ 1) ∧
        (later.cpu.InUserCode → later.cpu.owner ≠ 1) ∧
        (later.currTid ≠ 1 → ∃ context, (later.tcb 1).reg = some context ∧
          .jump 1 ∈ context.schedulers)) := by
  have evaluated : ((((boot callsOnly () 0 0).bind
      (follow (attemptStep callsOnly Undisturbed) interruptJump)).bind fun state =>
        if state.cpu.schedulers = [.jump 1] then some state.interrupt else none).bind
      (follow (attemptStep callsOnly fun state action => Undisturbed state action ∧
        LetsSave 1 state action) (List.replicate 8 .statement))).any
      (fun later => later.cpu.InUserCode ∧ later.currTid = 2) = true := by
    decide +kernel
  rcases exists_run_of_follow (fun _ _ _ _ attempted => step_of_attemptStep attempted)
    evaluated with ⟨interrupted, later, reached, further, holds⟩
  rcases Option.bind_eq_some_iff.mp reached with ⟨state, atJump, isInterrupted⟩
  rcases Option.ite_none_right_eq_some.mp isInterrupted with ⟨frames, same⟩
  cases same
  rcases Option.bind_eq_some_iff.mp atJump with ⟨start, booted, followed⟩
  have run : RunUnder (Step callsOnly) Undisturbed start state :=
    run_of_follow (fun _ _ _ _ attempted => step_of_attemptStep attempted) followed
  have boots : Boots callsOnly () start := ⟨0, 0, booted⟩
  exact ⟨start, state, later, boots, run, frames, further, of_decide_eq_true holds,
    interruptedJump_lost boots run frames further⟩

end EC440.UserThreads
