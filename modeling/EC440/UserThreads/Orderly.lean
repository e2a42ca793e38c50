import EC440.UserThreads.Runs

/-!
# What the statuses say about the threads

As long as the steps are undisturbed, only `curr_TID` is `RUNNING`, and its
status tells where the program on the processor can be.  A thread that is
scheduled again goes on from a context that fits a thread that is `RUNNING`.
-/

namespace EC440.UserThreads

open Threads (maxThreads Tid Value Stack SchedulerPoint Ahead ahead_start ahead_advance)

variable {User : Type} {client : Client User} {state after : State User}
  {status : Tid → Status} {curr owner tid : Tid} {call : Option Frame} {context : Context User}

/-! ## Contexts and statuses -/

def CallResumable : Option Frame → Prop
  | none => True
  | some (.create _ _ point) =>
      match point with
      | .setup _ | .publish _ => False
      | .start | .resumed | .limit | .search _ | .count _ | .finish .. => True
  | some (.exit point) => point = .mark

/-- The same for calls of `scheduler`, above a call of the library. -/
def SchedulersResumable (tid owner : Tid) (call : Option Frame) : List SchedulerPoint → Prop
  | [] => owner = tid ∧ CallResumable call
  | point :: rest =>
      match point with
      | .start | .search _ | .advance _ | .resumed => SchedulersResumable tid owner call rest
      | .jump next => next = tid
      | .chosen _ | .ready _ | .save _ | .switch _ | .run _ => False

def CallFits (status : Tid → Status) (curr owner : Tid) : Option Frame → Prop
  | none => status curr = .running ∧ owner = curr
  | some (.create _ _ point) =>
      (status curr = .running ∧ owner = curr) ∧
        match point with
        | .setup i | .publish i => status i = .fresh
        | .start | .resumed | .limit | .search _ | .count _ | .finish .. => True
  | some (.exit point) =>
      match point with
      | .mark => status curr = .running ∧ owner = curr
      | .free | .count | .search _ => status curr = .exited
      | .schedule => status curr = .exited ∧ ∃ tid, status tid = .ready
      | .mainJump | .finish => False

/-- The same for a call of `scheduler`.  On behalf of a thread that has exited, the search has
another thread ahead that is `READY`. -/
def PointFits (status : Tid → Status) (curr : Tid) : SchedulerPoint → Prop
  | .start => status curr = .exited → ∃ tid, status tid = .ready
  | .search next =>
      status curr = .exited → ∃ tid, status tid = .ready ∧ Ahead curr next tid
  | .advance next =>
      status curr = .exited → next ≠ curr ∧ status next ≠ .ready ∧
        ∃ tid, status tid = .ready ∧ Ahead curr next tid
  | .chosen next => status next = .ready ∨ next = curr ∧ status curr ≠ .exited
  | .ready next => status curr = .running ∧ (status next = .ready ∨ next = curr)
  | .save next => status curr = .ready ∧ status next = .ready
  | .resumed => status curr = .running
  | .switch next => status curr ≠ .running ∧ status next = .ready
  | .run next => next = curr ∧ status curr = .ready
  | .jump next => next = curr ∧ status curr = .running

/-- What executes here can still be saved in the entry of the current thread. -/
def MaySave (status : Tid → Status) (curr : Tid) : SchedulerPoint → Prop
  | .save _ => True
  | .jump _ => False
  | .start | .search _ | .advance _ | .chosen _ | .ready _ | .resumed | .switch _ | .run _ =>
      status curr = .running

def SchedulersFit (status : Tid → Status) (curr owner : Tid) (call : Option Frame) :
    List SchedulerPoint → Prop
  | [] => CallFits status curr owner call
  | point :: rest =>
      PointFits status curr point ∧
        (MaySave status curr point → SchedulersResumable curr owner call rest)

def Context.Resumable (context : Context User) (tid : Tid) : Prop :=
  SchedulersResumable tid context.owner context.call context.schedulers

def Context.Fits (context : Context User) (status : Tid → Status) (curr : Tid) : Prop :=
  SchedulersFit status curr context.owner context.call context.schedulers

theorem callFits_of_resumable (resumable : CallResumable call) (running : status curr = .running) :
    CallFits status curr curr call := by
  rcases call with _ | ⟨_, _, point⟩ | point
  · exact ⟨running, rfl⟩
  · refine ⟨⟨running, rfl⟩, ?_⟩
    cases point
    case setup | publish => exact resumable.elim
    all_goals trivial
  · cases resumable
    exact ⟨running, rfl⟩

theorem Context.Resumable.fits (resumable : context.Resumable curr)
    (running : status curr = .running) : context.Fits status curr := by
  have alive : status curr ≠ .exited := by
    rw [running]
    decide
  rcases context with ⟨owner, user, call, schedulers⟩
  cases schedulers with
  | nil =>
      rcases resumable with ⟨rfl, callResumable⟩
      exact callFits_of_resumable callResumable running
  | cons point rest =>
      cases point
      case start | search | advance => exact ⟨fun exited => absurd exited alive, fun _ => resumable⟩
      case resumed => exact ⟨running, fun _ => resumable⟩
      case jump => exact ⟨⟨resumable, running⟩, False.elim⟩
      all_goals exact resumable.elim

theorem Context.fits_of_callFits {next : Option Frame} (noSchedulers : context.schedulers = [])
    (fits : CallFits status curr context.owner next) :
    ({ context with call := next }).Fits status curr := by
  rw [Context.Fits, noSchedulers]
  exact fits

theorem Context.Fits.callFits (fits : context.Fits status curr)
    (noSchedulers : context.schedulers = []) :
    CallFits status curr context.owner context.call := by
  rw [Context.Fits, noSchedulers] at fits
  exact fits

theorem start_fits (fits : PointFits status curr .start) :
    PointFits status curr (.search (curr + 1)) := by
  intro exited
  rcases fits exited with ⟨tid, isReady⟩
  refine ⟨tid, isReady, ahead_start ?_⟩
  rintro rfl
  rw [isReady] at exited
  cases exited

theorem advance_fits {next : Tid} (fits : PointFits status curr (.advance next)) :
    PointFits status curr (.search ((next + 1) % maxThreads)) := by
  intro exited
  rcases fits exited with ⟨notCurr, notReady, tid, isReady, ahead⟩
  refine ⟨tid, isReady, ahead_advance ahead notCurr ?_⟩
  rintro rfl
  exact notReady isReady

/-! ## The invariant -/

structure Orderly (state : State User) : Prop where
  started : state.firstCall = false
  running : ∀ tid, state.status tid = .running → tid = state.currTid
  current : state.status state.currTid ≠ .fresh
  executes : state.cpu.Fits state.status state.currTid
  saved : ∀ tid context, (state.tcb tid).reg = some context → context.Resumable tid
  main : (state.tcb 0).reg.isSome

/-- `pthread_exit` is not about to free the stack or to count. -/
def State.Settled (state : State User) : Prop :=
  state.exiting ≠ some .free ∧ state.exiting ≠ some .count

theorem State.settled_inScheduler (rest : List SchedulerPoint) (point : SchedulerPoint) :
    (state.inScheduler rest point).Settled := by
  constructor <;> exact nofun

theorem State.settled_inExit {point : ExitPoint} (notFree : point ≠ .free)
    (notCount : point ≠ .count) : (state.inCall (.exit point)).Settled := by
  rcases state with ⟨currTid, tcb, totalThreads, firstCall, owner, user, call, schedulers⟩
  constructor
  all_goals
    intro exiting
    cases schedulers with
    | nil =>
        cases exiting
        first
          | exact notFree rfl
          | exact notCount rfl
    | cons => cases exiting

theorem Orderly.settled (orderly : Orderly state)
    (running : state.status state.currTid = .running) : state.Settled := by
  have fits := orderly.executes
  rcases state with ⟨currTid, tcb, totalThreads, firstCall, owner, user, call, schedulers⟩
  constructor
  all_goals
    intro exiting
    rcases schedulers with _ | ⟨point, rest⟩
    · rcases call with _ | _ | point
      · cases exiting
      · cases exiting
      · cases exiting
        exact absurd (running.symm.trans fits) (by decide)
    · cases exiting

/-- How many threads the statement of `pthread_create` counts. -/
def CreatePoint.counted : CreatePoint → Nat
  | .count _ => 1
  | .start | .resumed | .limit | .search _ | .setup _ | .publish _ | .finish .. => 0

/-- No thread exits: the same ones have exited, a stack is only allocated for a `FRESH` entry,
and some threads are counted. -/
structure NoExit (state after : State User) (counted : Nat) : Prop where
  exited : ∀ tid, after.status tid = .exited ↔ state.status tid = .exited
  stack : ∀ tid, (after.tcb tid).stack = (state.tcb tid).stack ∨
    state.status tid = .fresh ∧ (after.tcb tid).stack = .allocated
  total : after.totalThreads = state.totalThreads + counted
  settled : after.Settled

namespace NoExit

theorem of_tcb (tcb : after.tcb = state.tcb) (total : after.totalThreads = state.totalThreads)
    (settled : after.Settled) : NoExit state after 0 where
  exited := fun tid => by rw [State.status, State.status, tcb]
  stack := fun tid => by
    rw [tcb]
    exact .inl rfl
  total := by
    rw [total]
    exact (Int.add_zero _).symm
  settled := settled

theorem setStatus {changed : Status} (before : state.status tid ≠ .exited)
    (behind : changed ≠ .exited)
    (settled : { state.setStatus tid changed with cpu := context }.Settled) :
    NoExit state { state.setStatus tid changed with cpu := context } 0 where
  exited := by
    intro other
    change (state.setStatus tid changed).status other = .exited ↔ _
    rw [State.setStatus_status]
    split
    next same => exact iff_of_false behind (same ▸ before)
    next => rfl
  stack := fun other => .inl (State.setStatus_stack state tid other changed)
  total := (Int.add_zero _).symm
  settled := settled

theorem setReg {stored : Context User}
    (settled : { state.setReg tid stored with cpu := context }.Settled) :
    NoExit state { state.setReg tid stored with cpu := context } 0 where
  exited := fun other => by
    rw [← State.setReg_status state tid other stored]
    rfl
  stack := fun other => .inl (State.setReg_stack state tid other stored)
  total := (Int.add_zero _).symm
  settled := settled

end NoExit

namespace Orderly

theorem goTo (orderly : Orderly state) (fits : context.Fits state.status state.currTid) :
    Orderly { state with cpu := context } where
  started := orderly.started
  running := orderly.running
  current := orderly.current
  executes := fits
  saved := orderly.saved
  main := orderly.main

theorem setStatus {changed : Status} (orderly : Orderly state)
    (single : changed = .running → tid = state.currTid) (notFresh : changed ≠ .fresh)
    (fits : context.Fits (state.setStatus tid changed).status state.currTid) :
    Orderly { state.setStatus tid changed with cpu := context } where
  started := orderly.started
  running := by
    intro other isRunning
    change (state.setStatus tid changed).status other = .running at isRunning
    rw [State.setStatus_status] at isRunning
    split at isRunning
    next same => exact same.trans (single isRunning)
    next => exact orderly.running other isRunning
  current := by
    change (state.setStatus tid changed).status state.currTid ≠ .fresh
    rw [State.setStatus_status]
    split
    · exact notFresh
    · exact orderly.current
  executes := fits
  saved := by
    intro other stored inEntry
    apply orderly.saved other stored
    rw [← inEntry]
    exact (State.setStatus_reg ..).symm
  main := by
    change ((state.setStatus tid changed).tcb 0).reg.isSome
    rw [State.setStatus_reg]
    exact orderly.main

theorem setReg {stored : Context User} (orderly : Orderly state) (resumable : stored.Resumable tid)
    (fits : context.Fits state.status state.currTid) :
    Orderly { state.setReg tid stored with cpu := context } where
  started := orderly.started
  running := by
    intro other isRunning
    apply orderly.running other
    rw [← isRunning]
    exact (State.setReg_status ..).symm
  current := by
    change (state.setReg tid stored).status state.currTid ≠ .fresh
    rw [State.setReg_status]
    exact orderly.current
  executes := by
    change context.Fits (state.setReg tid stored).status state.currTid
    rw [show (state.setReg tid stored).status = state.status from
      funext (State.setReg_status state tid · stored)]
    exact fits
  saved := by
    intro other inEntry found
    change ((state.setReg tid stored).tcb other).reg = some inEntry at found
    rw [State.setReg_reg] at found
    split at found
    next same =>
        cases found
        exact same ▸ resumable
    next => exact orderly.saved other inEntry found
  main := by
    change ((state.setReg tid stored).tcb 0).reg.isSome
    rw [State.setReg_reg]
    split
    · rfl
    · exact orderly.main

theorem setStack (orderly : Orderly state) (stack : Stack) :
    Orderly (state.setStack tid stack) := by
  have sameStatus : (state.setStack tid stack).status = state.status :=
    funext (State.setStack_status state tid · stack)
  constructor
  case started => exact orderly.started
  case running =>
      rw [sameStatus]
      exact orderly.running
  case current =>
      rw [sameStatus]
      exact orderly.current
  case executes =>
      rw [sameStatus]
      exact orderly.executes
  case saved =>
      intro other stored inEntry
      rw [State.setStack_reg] at inEntry
      exact orderly.saved other stored inEntry
  case main =>
      rw [State.setStack_reg]
      exact orderly.main

theorem setTotal (orderly : Orderly state) (totalThreads : Int) :
    Orderly { state with totalThreads } where
  started := orderly.started
  running := orderly.running
  current := orderly.current
  executes := orderly.executes
  saved := orderly.saved
  main := orderly.main

/-! ## scheduler -/

section Scheduler

variable {rest : List SchedulerPoint} {next : Tid} (orderly : Orderly state)

include orderly

theorem inScheduler {point : SchedulerPoint} (fits : PointFits state.status state.currTid point)
    (below : MaySave state.status state.currTid point →
      SchedulersResumable state.currTid state.cpu.owner state.cpu.call rest) :
    Orderly (state.inScheduler rest point) ∧ NoExit state (state.inScheduler rest point) 0 :=
  ⟨orderly.goTo ⟨fits, below⟩, .of_tcb rfl rfl (State.settled_inScheduler ..)⟩

theorem search_step {index : Nat} (fits : PointFits state.status state.currTid (.search index))
    (below : state.status state.currTid = .running →
      SchedulersResumable state.currTid state.cpu.owner state.cpu.call rest)
    (executed : state.scheduler rest (.search index) = some after) :
    Orderly after ∧ NoExit state after 0 := by
  simp only [State.scheduler] at executed
  split at executed
  next inRange =>
      split at executed
      next passes =>
          cases executed
          refine orderly.inScheduler ?_ below
          intro exited
          exact ⟨passes.2, passes.1, fits exited⟩
      next stops =>
          cases executed
          refine orderly.inScheduler ?_ below
          by_cases isReady : state.status ⟨index, inRange⟩ = .ready
          · exact .inl isReady
          · have isCurr : (⟨index, inRange⟩ : Tid) = state.currTid := by
              by_contra other
              exact stops ⟨isReady, other⟩
            refine .inr ⟨isCurr, fun exited => ?_⟩
            rcases fits exited with ⟨tid, -, ahead⟩
            exact ahead.ne_curr (congrArg Fin.val isCurr)
  next => cases executed

theorem chosen_step (fits : PointFits state.status state.currTid (.chosen next))
    (below : state.status state.currTid = .running →
      SchedulersResumable state.currTid state.cpu.owner state.cpu.call rest)
    (executed : state.scheduler rest (.chosen next) = some after) :
    Orderly after ∧ NoExit state after 0 := by
  simp only [State.scheduler] at executed
  split at executed
  next isRunning =>
      cases executed
      exact orderly.inScheduler ⟨isRunning, fits.imp_right And.left⟩ below
  next notRunning =>
      cases executed
      refine orderly.inScheduler ⟨notRunning, ?_⟩ below
      rcases fits with isReady | ⟨rfl, notExited⟩
      · exact isReady
      · -- the current thread is neither running nor exited nor fresh
        have current := orderly.current
        revert notRunning notExited current
        cases state.status state.currTid <;> decide

theorem ready_step (fits : PointFits state.status state.currTid (.ready next))
    (below : state.status state.currTid = .running →
      SchedulersResumable state.currTid state.cpu.owner state.cpu.call rest)
    (executed : state.scheduler rest (.ready next) = some after) :
    Orderly after ∧ NoExit state after 0 := by
  cases executed
  rcases fits with ⟨isRunning, target⟩
  have notExited : state.status state.currTid ≠ .exited := by
    rw [isRunning]
    decide
  refine ⟨orderly.setStatus nofun (by decide) ⟨⟨?_, ?_⟩, fun _ => below isRunning⟩,
    .setStatus notExited (by decide) (State.settled_inScheduler ..)⟩
  · rw [State.setStatus_status, if_pos rfl]
  · rw [State.setStatus_status]
    split
    · rfl
    · exact target.resolve_right ‹_›

theorem save_step (fits : PointFits state.status state.currTid (.save next))
    (below : SchedulersResumable state.currTid state.cpu.owner state.cpu.call rest)
    (executed : state.scheduler rest (.save next) = some after) :
    Orderly after ∧ NoExit state after 0 := by
  cases executed
  have notRunning : state.status state.currTid ≠ .running := by
    rw [fits.1]
    decide
  refine ⟨orderly.setReg ?_ ⟨⟨notRunning, fits.2⟩, fun isRunning => absurd isRunning notRunning⟩,
    .setReg (State.settled_inScheduler ..)⟩
  exact below

theorem switch_step (fits : PointFits state.status state.currTid (.switch next))
    (executed : state.scheduler rest (.switch next) = some after) :
    Orderly after ∧ NoExit state after 0 := by
  cases executed
  rcases fits with ⟨notRunning, isReady⟩
  refine ⟨?_, .of_tcb rfl rfl (State.settled_inScheduler ..)⟩
  constructor
  case started => exact orderly.started
  case running =>
      intro other isRunning
      have isCurr := orderly.running other isRunning
      exact absurd (isCurr ▸ isRunning) notRunning
  case current =>
      intro isFresh
      exact absurd (isReady.symm.trans isFresh) (by decide)
  case executes =>
      refine ⟨⟨rfl, isReady⟩, fun isRunning => ?_⟩
      exact absurd (isReady.symm.trans isRunning) (by decide)
  case saved => exact orderly.saved
  case main => exact orderly.main

theorem run_step (fits : PointFits state.status state.currTid (.run next))
    (executed : state.scheduler rest (.run next) = some after) :
    Orderly after ∧ NoExit state after 0 := by
  cases executed
  rcases fits with ⟨rfl, isReady⟩
  have notExited : state.status state.currTid ≠ .exited := by
    rw [isReady]
    decide
  refine ⟨orderly.setStatus (fun _ => rfl) (by decide) ⟨⟨rfl, ?_⟩, False.elim⟩,
    .setStatus notExited (by decide) (State.settled_inScheduler ..)⟩
  rw [State.setStatus_status, if_pos rfl]

theorem jump_step (fits : PointFits state.status state.currTid (.jump next))
    (executed : state.scheduler rest (.jump next) = some after) :
    Orderly after ∧ NoExit state after 0 := by
  rcases fits with ⟨rfl, isRunning⟩
  rcases (state.longjmp_eq_some_iff).mp executed with ⟨stored, inEntry, rfl⟩
  have orderlyAfter := orderly.goTo ((orderly.saved _ _ inEntry).fits isRunning)
  exact ⟨orderlyAfter, .of_tcb rfl rfl (orderlyAfter.settled isRunning)⟩

theorem scheduler_step {point : SchedulerPoint} (frames : state.cpu.schedulers = point :: rest)
    (executed : state.scheduler rest point = some after) :
    Orderly after ∧ NoExit state after 0 := by
  have executing := orderly.executes
  rw [Context.Fits, frames] at executing
  rcases executing with ⟨fits, below⟩
  cases point with
  | start =>
      cases executed
      exact orderly.inScheduler (start_fits fits) below
  | search index => exact orderly.search_step fits below executed
  | advance next =>
      cases executed
      exact orderly.inScheduler (advance_fits fits) below
  | chosen next => exact orderly.chosen_step fits below executed
  | ready next => exact orderly.ready_step fits below executed
  | save next => exact orderly.save_step fits (below trivial) executed
  | resumed =>
      cases executed
      have resumable : { state.cpu with schedulers := rest }.Resumable state.currTid := below fits
      have orderlyAfter := orderly.goTo (resumable.fits fits)
      exact ⟨orderlyAfter, .of_tcb rfl rfl (orderlyAfter.settled fits)⟩
  | switch next => exact orderly.switch_step fits executed
  | run next => exact orderly.run_step fits executed
  | jump next => exact orderly.jump_step fits executed

end Scheduler

/-! ## pthread_create -/

section Create

variable {routine arg : Value} {i : Tid} (orderly : Orderly state)
  (noSchedulers : state.cpu.schedulers = [])

include orderly noSchedulers

theorem inCreate {point : CreatePoint}
    (fits : CallFits state.status state.currTid state.cpu.owner
      (some (.create routine arg point))) :
    Orderly (state.inCall (.create routine arg point)) ∧
      NoExit state (state.inCall (.create routine arg point)) 0 := by
  have orderlyAfter := orderly.goTo (Context.fits_of_callFits noSchedulers fits)
  exact ⟨orderlyAfter, .of_tcb rfl rfl (orderlyAfter.settled fits.1.1)⟩

theorem create_search_step {index : Nat}
    (own : state.status state.currTid = .running ∧ state.cpu.owner = state.currTid)
    (executed : state.pthreadCreate client routine arg (.search index) = some after) :
    Orderly after ∧ NoExit state after 0 := by
  simp only [State.pthreadCreate] at executed
  split at executed
  next inRange =>
      split at executed
      next =>
          cases executed
          exact orderly.inCreate noSchedulers ⟨own, trivial⟩
      next isFresh =>
          cases executed
          exact orderly.inCreate noSchedulers ⟨own, not_not.mp isFresh⟩
  next => cases executed

theorem create_setup_step
    (own : state.status state.currTid = .running ∧ state.cpu.owner = state.currTid)
    (isFresh : state.status i = .fresh)
    (executed : state.pthreadCreate client routine arg (.setup i) = some after) :
    Orderly after ∧ NoExit state after 0 := by
  cases executed
  have sameStatus : (state.setStack i .allocated).status = state.status :=
    funext (State.setStack_status state i · .allocated)
  have resumable : (State.newContext client i routine arg).Resumable i := ⟨rfl, trivial⟩
  have fits : { state.cpu with call := some (.create routine arg (.publish i)) }.Fits
      (state.setStack i .allocated).status state.currTid := by
    rw [sameStatus]
    exact Context.fits_of_callFits noSchedulers ⟨own, isFresh⟩
  have orderlyAfter := (orderly.setStack .allocated).setReg resumable fits
  have ownAfter : ((state.setStack i .allocated).setReg i
      (State.newContext client i routine arg)).status state.currTid = .running := by
    rw [State.setReg_status, sameStatus]
    exact own.1
  refine ⟨orderlyAfter, ?_⟩
  constructor
  case exited =>
      intro tid
      apply iff_of_eq
      apply congrArg (· = Status.exited)
      exact (State.setReg_status ..).trans (congrFun sameStatus tid)
  case stack =>
      intro tid
      change (((state.setStack i .allocated).setReg i _).tcb tid).stack = _ ∨
        _ ∧ (((state.setStack i .allocated).setReg i _).tcb tid).stack = _
      rw [State.setReg_stack, State.setStack_stack]
      split
      next same => exact .inr ⟨same ▸ isFresh, rfl⟩
      next => exact .inl rfl
  case total => exact (Int.add_zero _).symm
  case settled => exact orderlyAfter.settled ownAfter

theorem create_publish_step
    (own : state.status state.currTid = .running ∧ state.cpu.owner = state.currTid)
    (isFresh : state.status i = .fresh)
    (executed : state.pthreadCreate client routine arg (.publish i) = some after) :
    Orderly after ∧ NoExit state after 0 := by
  cases executed
  have other : i ≠ state.currTid := by
    rintro rfl
    exact absurd (own.1.symm.trans isFresh) (by decide)
  have notExited : state.status i ≠ .exited := by
    rw [isFresh]
    decide
  have ownAfter : (state.setStatus i .ready).status state.currTid = .running := by
    rw [State.setStatus_status, if_neg other.symm]
    exact own.1
  have fits : { state.cpu with call := some (.create routine arg (.count i)) }.Fits
      (state.setStatus i .ready).status state.currTid :=
    Context.fits_of_callFits noSchedulers ⟨⟨ownAfter, own.2⟩, trivial⟩
  have single : Status.ready = .running → i = state.currTid := nofun
  have orderlyAfter := orderly.setStatus single (by decide) fits
  exact ⟨orderlyAfter, .setStatus notExited (by decide) (orderlyAfter.settled ownAfter)⟩

theorem create_step {point : CreatePoint}
    (called : state.cpu.call = some (.create routine arg point))
    (executed : state.pthreadCreate client routine arg point = some after) :
    Orderly after ∧ NoExit state after point.counted := by
  have executing := orderly.executes.callFits noSchedulers
  rw [called] at executing
  rcases executing with ⟨own, fits⟩
  cases point with
  | start =>
      simp only [State.pthreadCreate, orderly.started, Bool.false_eq_true, if_false] at executed
      cases executed
      exact orderly.inCreate noSchedulers ⟨own, trivial⟩
  | resumed =>
      cases executed
      exact orderly.inCreate noSchedulers ⟨own, trivial⟩
  | limit =>
      simp only [State.pthreadCreate] at executed
      split at executed
      all_goals
        cases executed
        exact orderly.inCreate noSchedulers ⟨own, trivial⟩
  | search index => exact orderly.create_search_step noSchedulers own executed
  | setup i => exact orderly.create_setup_step noSchedulers own fits executed
  | publish i => exact orderly.create_publish_step noSchedulers own fits executed
  | count i =>
      cases executed
      have counted : CallFits state.status state.currTid state.cpu.owner
          (some (.create routine arg (.finish 0 (some i)))) := ⟨own, trivial⟩
      have orderlyAfter :=
        ((orderly.setTotal (state.totalThreads + 1)).inCreate noSchedulers counted).1
      exact ⟨orderlyAfter, fun _ => .rfl, fun _ => .inl rfl, rfl, orderlyAfter.settled own.1⟩
  | finish code thread =>
      cases executed
      have returned : { state.cpu with
          user := client.returns state.cpu.user { code, thread }, call := none }.Fits
          state.status state.currTid :=
        Context.fits_of_callFits noSchedulers own
      have orderlyAfter := orderly.goTo returned
      exact ⟨orderlyAfter, .of_tcb rfl rfl (orderlyAfter.settled own.1)⟩

end Create

/-! ## pthread_exit -/

section Exit

variable {point : ExitPoint} (orderly : Orderly state)
  (noSchedulers : state.cpu.schedulers = [])

include orderly noSchedulers

theorem inExit
    (fits : CallFits state.status state.currTid state.cpu.owner (some (.exit point))) :
    Orderly (state.inCall (.exit point)) :=
  orderly.goTo (Context.fits_of_callFits noSchedulers fits)

theorem exit_mark_step :
    Orderly ((state.setStatus state.currTid .exited).inCall (.exit .free)) := by
  have exited : (state.setStatus state.currTid .exited).status state.currTid = .exited := by
    rw [State.setStatus_status, if_pos rfl]
  have fits : { state.cpu with call := some (.exit .free) }.Fits
      (state.setStatus state.currTid .exited).status state.currTid :=
    Context.fits_of_callFits noSchedulers exited
  exact orderly.setStatus nofun (by decide) fits

theorem exit_free_step {freed : State User}
    (exited : state.status state.currTid = .exited)
    (executed : state.freeStack state.currTid = some freed) :
    Orderly (freed.inCall (.exit .count)) := by
  rcases State.freeStack_cases executed with ⟨-, rfl⟩ | ⟨-, rfl⟩
  · exact orderly.inExit noSchedulers exited
  · apply (orderly.setStack .freed).inExit noSchedulers
    exact (State.setStack_status ..).trans exited

theorem exit_search_step {index : Nat} (exited : state.status state.currTid = .exited)
    (ends : index < maxThreads)
    (executed : state.pthreadExit (.search index) = some after) :
    Orderly after ∧ NoExit state after 0 := by
  simp only [State.pthreadExit, dif_pos ends] at executed
  split at executed
  next =>
      cases executed
      exact ⟨orderly.inExit noSchedulers exited, .of_tcb rfl rfl (State.settled_inExit nofun nofun)⟩
  next isReady =>
      cases executed
      exact ⟨orderly.inExit noSchedulers ⟨exited, _, not_not.mp isReady⟩,
        .of_tcb rfl rfl (State.settled_inExit nofun nofun)⟩

omit noSchedulers in
theorem exit_schedule_step
    (fits : state.status state.currTid = .exited ∧ ∃ tid, state.status tid = .ready)
    (executed : state.pthreadExit .schedule = some after) :
    Orderly after ∧ NoExit state after 0 := by
  cases executed
  have started : { state.cpu with call := some (.exit .finish), schedulers := [.start] }.Fits
      state.status state.currTid :=
    ⟨fun _ => fits.2, fun isRunning => absurd (fits.1.symm.trans isRunning) (by decide)⟩
  exact ⟨orderly.goTo started, .of_tcb rfl rfl (State.settled_inScheduler ..)⟩

end Exit

/-! ## Steps -/

section Step

variable {action : Action User} (orderly : Orderly state)

include orderly

/-- Outside the windows, what executes on behalf of a thread can be saved for it. -/
theorem resumable (notInWindow : ¬state.InWindow)
    (isRunning : state.status state.currTid = .running) :
    state.cpu.Resumable state.currTid := by
  have fits := orderly.executes
  have notExited : state.status state.currTid ≠ .exited := by
    rw [isRunning]
    decide
  rcases state with ⟨currTid, tcb, totalThreads, firstCall, owner, user, call, schedulers⟩
  rcases schedulers with _ | ⟨point, rest⟩
  · rcases call with _ | ⟨routine, arg, point⟩ | point
    · exact ⟨fits.2, trivial⟩
    · refine ⟨fits.1.2, ?_⟩
      cases point
      case setup | publish => exact notInWindow trivial
      all_goals trivial
    · cases point
      case mark => exact ⟨fits.2, rfl⟩
      case free | count | search => exact absurd fits notExited
      case schedule => exact absurd fits.1 notExited
      case mainJump | finish => exact fits.elim
  · rcases fits with ⟨fits, below⟩
    cases point
    case start | search | advance | resumed => exact below isRunning
    case chosen => exact notInWindow isRunning
    case ready => exact notInWindow trivial
    case save => exact absurd (isRunning.symm.trans fits.1) (by decide)
    case switch => exact fits.1 isRunning
    case run => exact absurd (isRunning.symm.trans fits.2) (by decide)
    case jump => exact fits.1

theorem interrupt_step (notInWindow : ¬state.InWindow)
    (someReady : state.status state.currTid = .exited → state.SomeReady) :
    Orderly state.interrupt ∧ NoExit state state.interrupt 0 := by
  have fits : PointFits state.status state.currTid .start := someReady
  exact orderly.inScheduler fits (orderly.resumable notInWindow)

theorem own_of_inUserCode (inUserCode : state.cpu.InUserCode) :
    state.status state.currTid = .running ∧ state.cpu.owner = state.currTid := by
  have fits := orderly.executes.callFits inUserCode.2
  rw [inUserCode.1] at fits
  exact fits

theorem own_step {user : User} (inUserCode : state.cpu.InUserCode) :
    Orderly (state.setUser user) ∧ NoExit state (state.setUser user) 0 := by
  have orderlyAfter : Orderly (state.setUser user) := orderly.goTo orderly.executes
  have own := orderly.own_of_inUserCode inUserCode
  exact ⟨orderlyAfter, .of_tcb rfl rfl (orderlyAfter.settled own.1)⟩

theorem call_step {call : Call} {user : User} (inUserCode : state.cpu.InUserCode) :
    Orderly ((state.setUser user).inCall call.entry) ∧
      NoExit state ((state.setUser user).inCall call.entry) 0 := by
  have own := orderly.own_of_inUserCode inUserCode
  have orderlyCaller : Orderly (state.setUser user) := (orderly.own_step inUserCode).1
  cases call with
  | create routine arg =>
      have fits : CallFits state.status state.currTid state.cpu.owner
          (some (.create routine arg .start)) := ⟨own, trivial⟩
      have orderlyAfter := (orderlyCaller.inCreate inUserCode.2 fits).1
      exact ⟨orderlyAfter, .of_tcb rfl rfl (orderlyAfter.settled own.1)⟩
  | exit =>
      exact ⟨orderlyCaller.inExit inUserCode.2 own,
        .of_tcb rfl rfl (State.settled_inExit nofun nofun)⟩

end Step

end Orderly

end EC440.UserThreads
