import EC440.Threads.Runs

/-!
# The running thread

Threads that create, exit, join and are preempted.  As long as `pthread_exit`
jumps directly only to a thread that waits in `pthread_join` or
`pthread_exit`, and not to one that the scheduler preempted, the program on
the processor is that of the only `RUNNING` thread, which is `curr_TID`.
-/

namespace EC440.Threads

open Transition

variable {User : Type} {client : Client User} {state after : State User}
  {status : Status} {curr owner tid : Tid} {context : Context User}

/-- `pthread_create`, `pthread_exit` and `pthread_join` -/
def Call.OfThreads : Call → Prop
  | .create .. | .exit _ | .join _ => True
  | .semWait _ | .semPost _ => False

instance (call : Call) : Decidable call.OfThreads :=
  match call with
  | .create .. | .exit _ | .join _ => inferInstanceAs (Decidable True)
  | .semWait _ | .semPost _ => inferInstanceAs (Decidable False)

def State.pthreadSelf (state : State User) : Tid :=
  state.currTid

/-- Exactly the entry of `curr_TID` is `RUNNING`, and its program is on the processor. -/
def SingleRunning (state : State User) : Prop :=
  (∀ tid, (state.tcb tid).status = .running ↔ tid = state.currTid) ∧
    state.pthreadSelf = state.cpu.owner

/-! ## Direct jumps -/

/-- The context was saved by the `setjmp` of `pthread_join` or `pthread_exit`. -/
def Context.savedWaiting (context : Context User) : Bool :=
  match context.schedulers, context.call with
  | [], some (.join _ .copy) => true
  | [], some (.exit _ .set) => true
  | _, _ => false

/-- The thread that `pthread_exit` is about to jump to without the scheduler. -/
def State.directTarget (state : State User) : Option Tid :=
  match state.cpu.schedulers, state.cpu.call with
  | [], some (.exit _ .jump) => some state.currTid
  | [], some (.exit _ .mainJump) => some 0
  | _, _ => none

/-- `pthread_exit` does not jump directly to a thread that was preempted. -/
def JumpsToWaiting (state : State User) : Action User → Prop
  | .statement => ∀ target ∈ state.directTarget, ∀ context ∈ (state.tcb target).reg,
      context.savedWaiting = true
  | .own _ | .call .. | .alarm => True

instance (state : State User) (action : Action User) : Decidable (JumpsToWaiting state action) :=
  match action with
  | .statement => inferInstanceAs (Decidable (∀ target ∈ _, ∀ context ∈ _, _ = true))
  | .own _ | .call .. | .alarm => inferInstanceAs (Decidable True)

/-! ## Contexts and statuses -/

def CallSafe (status : Status) (curr owner : Tid) : Option Frame → Prop
  | none | some (.create ..) => status = .running ∧ owner = curr
  | some (.exit _ point) =>
      match point with
      | .start => status = .running ∧ owner = curr
      | .set => False
      | .joined _ | .mark _ | .finish => True
      | .mainJump => status ≠ .running ∧ curr = 0
      | .free _ | .count _ | .code _ | .back _ | .unlock | .jump | .schedule | .toMain =>
          status ≠ .running
  | some (.join thread point) =>
      match point with
      | .start | .unlock _ | .finish _ => status = .running ∧ owner = curr
      | .copy | .run _ => owner = curr
      | .schedule => status ≠ .running
      | .jump _ => status = .waiting ∧ thread = curr
  | some (.semWait ..) | some (.semPost ..) => False

/-- The same below calls of `scheduler`, which saves the context of a `RUNNING` thread only,
and after that executes on behalf of nobody. -/
def SchedulersSafe (status : Status) (curr owner : Tid) (call : Option Frame) :
    List SchedulerFrame → Prop
  | [] => CallSafe status curr owner call
  | frame :: rest =>
      match frame.point with
      | .start | .search _ | .advance _ | .chosen _ =>
          status = .running → SchedulersSafe status curr owner call rest
      | .ready _ | .resumed => status = .running ∧ SchedulersSafe status curr owner call rest
      | .save _ => status = .ready ∧ SchedulersSafe .running curr owner call rest
      | .switch _ => status ≠ .running
      | .run next => status ≠ .running ∧ next = curr
      | .jump next => status = .running ∧ next = curr

/-- The context may execute while `curr` is the current thread and has the given status. -/
def Context.Safe (context : Context User) (status : Status) (curr : Tid) : Prop :=
  SchedulersSafe status curr context.owner context.call context.schedulers

theorem Context.safe_of_callSafe {next : Option Frame} (noSchedulers : context.schedulers = [])
    (safe : CallSafe status curr context.owner next) :
    ({ context with call := next }).Safe status curr := by
  rw [Context.Safe, noSchedulers]
  exact safe

theorem Context.Safe.callSafe (safe : context.Safe status curr)
    (noSchedulers : context.schedulers = []) :
    CallSafe status curr context.owner context.call := by
  rw [Context.Safe, noSchedulers] at safe
  exact safe

/-- A thread goes on in `pthread_join` or `pthread_exit` whatever its status is. -/
theorem Context.Safe.of_savedWaiting {value : Nat} (waiting : context.savedWaiting = true)
    (safe : (context.resume value).Safe .running curr) :
    (context.resume value).Safe status curr := by
  rcases context with ⟨owner, user, call, schedulers⟩
  unfold Context.savedWaiting at waiting
  split at waiting
  next noSchedulers inJoin =>
      cases noSchedulers
      cases inJoin
      exact safe
  next noSchedulers inExit =>
      cases noSchedulers
      cases inExit
      exact safe
  next => cases waiting

/-! ## The invariant -/

/-- At most the current thread is `RUNNING`, what executes fits its status, and what is saved
fits a thread that the scheduler makes `RUNNING`. -/
structure Tracked (state : State User) : Prop where
  started : state.firstCall = false
  running : ∀ tid, (state.tcb tid).status = .running → tid = state.currTid
  executes : state.cpu.Safe (state.tcb state.currTid).status state.currTid
  saved : ∀ tid context, (state.tcb tid).reg = some context →
    ∀ value, (context.resume value).Safe .running tid
  waiting : ∀ tid context, (state.tcb tid).status = .waiting →
    (state.tcb tid).reg = some context →
    context.schedulers = [] ∧ ∃ value, context.call = some (.exit value .set)

namespace Tracked

theorem of_agree {middle : State User} (tracked : Tracked state) (agree : state.Agree middle)
    (sameThreads : after.tcb = middle.tcb) (sameCurrent : after.currTid = middle.currTid)
    (sameFirst : after.firstCall = middle.firstCall)
    (executes : after.cpu.Safe (state.tcb state.currTid).status state.currTid) :
    Tracked after := by
  refine ⟨?_, fun tid running => ?_, ?_, fun tid context reg => ?_,
    fun tid context status reg => ?_⟩
  · rw [sameFirst, agree.firstCall]
    exact tracked.started
  · rw [sameThreads, agree.status] at running
    rw [sameCurrent, agree.currTid]
    exact tracked.running tid running
  · rw [sameCurrent, sameThreads, agree.status, agree.currTid]
    exact executes
  · rw [sameThreads, agree.reg] at reg
    exact tracked.saved tid context reg
  · rw [sameThreads, agree.status] at status
    rw [sameThreads, agree.reg] at reg
    exact tracked.waiting tid context status reg

theorem goto (tracked : Tracked state) (sameThreads : after.tcb = state.tcb)
    (sameCurrent : after.currTid = state.currTid) (sameFirst : after.firstCall = state.firstCall)
    (executes : after.cpu.Safe (state.tcb state.currTid).status state.currTid) :
    Tracked after :=
  tracked.of_agree (.refl state) sameThreads sameCurrent sameFirst executes

theorem resume (tracked : Tracked state) {value : Nat}
    (executes : (context.resume value).Safe (state.tcb state.currTid).status state.currTid) :
    Tracked { state with cpu := context.resume value } :=
  tracked.goto rfl rfl rfl executes

theorem updateCurrent (tracked : Tracked state)
    (others : ∀ tid, tid ≠ state.currTid →
      (after.tcb tid).status = (state.tcb tid).status ∧
        (after.tcb tid).reg = (state.tcb tid).reg)
    (sameCurrent : after.currTid = state.currTid) (sameFirst : after.firstCall = state.firstCall)
    (saves : ∀ context, (after.tcb state.currTid).reg = some context →
      ∀ value, (context.resume value).Safe .running state.currTid)
    (fits : ∀ context, (after.tcb state.currTid).status = .waiting →
      (after.tcb state.currTid).reg = some context →
      context.schedulers = [] ∧ ∃ value, context.call = some (.exit value .set))
    (executes : after.cpu.Safe (after.tcb state.currTid).status state.currTid) :
    Tracked after where
  started := sameFirst.trans tracked.started
  running := by
    intro tid running
    rw [sameCurrent]
    by_cases same : tid = state.currTid
    · exact same
    · rw [(others tid same).1] at running
      exact tracked.running tid running
  executes := by
    rw [sameCurrent]
    exact executes
  saved := by
    intro tid context reg
    by_cases same : tid = state.currTid
    · subst same
      exact saves context reg
    · rw [(others tid same).2] at reg
      exact tracked.saved tid context reg
  waiting := by
    intro tid context isWaiting reg
    by_cases same : tid = state.currTid
    · subst same
      exact fits context isWaiting reg
    · rw [(others tid same).1] at isWaiting
      rw [(others tid same).2] at reg
      exact tracked.waiting tid context isWaiting reg

theorem setStatus (tracked : Tracked state) (notWaiting : status ≠ .waiting)
    (sameThreads : after.tcb = (state.setStatus state.currTid status).tcb)
    (sameCurrent : after.currTid = state.currTid) (sameFirst : after.firstCall = state.firstCall)
    (executes : after.cpu.Safe status state.currTid) : Tracked after := by
  refine tracked.updateCurrent (fun tid other => ?_) sameCurrent sameFirst
    (fun context reg => ?_) (fun context waiting => ?_) ?_
  · simp [sameThreads, other]
  · rw [sameThreads, State.setStatus_reg] at reg
    exact tracked.saved _ context reg
  · rw [sameThreads, State.setStatus_status, if_pos rfl] at waiting
    exact absurd waiting notWaiting
  · rw [sameThreads, State.setStatus_status, if_pos rfl]
    exact executes

theorem suspend (tracked : Tracked state) (status : Status) (context : Context User)
    (sameThreads : after.tcb =
      ((state.setStatus state.currTid status).setReg state.currTid context).tcb)
    (sameCurrent : after.currTid = state.currTid) (sameFirst : after.firstCall = state.firstCall)
    (fits : status = .waiting →
      context.schedulers = [] ∧ ∃ value, context.call = some (.exit value .set))
    (saves : ∀ value, (context.resume value).Safe .running state.currTid)
    (executes : after.cpu.Safe status state.currTid) : Tracked after := by
  refine tracked.updateCurrent (fun tid other => ?_) sameCurrent sameFirst
    (fun saved reg => ?_) (fun saved waiting reg => ?_) ?_
  · simp [sameThreads, other]
  · rw [sameThreads, State.setReg_reg, if_pos rfl] at reg
    cases reg
    exact saves
  · rw [sameThreads, State.setReg_reg, if_pos rfl] at reg
    rw [sameThreads, State.setReg_status, State.setStatus_status, if_pos rfl] at waiting
    cases reg
    exact fits waiting
  · rw [sameThreads, State.setReg_status, State.setStatus_status, if_pos rfl]
    exact executes

theorem setCurrent (tracked : Tracked state)
    (stopped : (state.tcb state.currTid).status ≠ .running)
    (sameThreads : after.tcb = state.tcb) (sameFirst : after.firstCall = state.firstCall)
    (executes : (state.tcb after.currTid).status ≠ .running →
      after.cpu.Safe (state.tcb after.currTid).status after.currTid) : Tracked after := by
  have noneRunning : ∀ tid, (state.tcb tid).status ≠ .running := by
    intro tid running
    apply stopped
    rw [← tracked.running tid running]
    exact running
  refine ⟨sameFirst.trans tracked.started, ?_, ?_, ?_, ?_⟩ <;> rw [sameThreads]
  · exact fun tid running => absurd running (noneRunning tid)
  · exact executes (noneRunning after.currTid)
  · exact tracked.saved
  · exact tracked.waiting

theorem newThread (tracked : Tracked state) {routine arg : Value}
    (fresh : (state.tcb tid).status = .fresh)
    (sameThreads : after.tcb = (state.newThread client tid routine arg).tcb)
    (sameCurrent : after.currTid = state.currTid) (sameFirst : after.firstCall = state.firstCall)
    (running : (state.tcb state.currTid).status = .running)
    (executes : after.cpu.Safe .running state.currTid) : Tracked after := by
  have notCurrent : state.currTid ≠ tid := by
    intro same
    rw [same, fresh] at running
    cases running
  refine ⟨sameFirst.trans tracked.started, fun other isRunning => ?_, ?_,
    fun other saved reg => ?_, fun other saved isWaiting reg => ?_⟩
  · by_cases same : other = tid
    · simp [sameThreads, same] at isRunning
    · rw [sameThreads, State.newThread_status, if_neg same] at isRunning
      rw [sameCurrent]
      exact tracked.running other isRunning
  · rw [sameCurrent, sameThreads, State.newThread_status, if_neg notCurrent, running]
    exact executes
  · by_cases same : other = tid
    · rw [sameThreads, State.newThread_reg, if_pos same] at reg
      cases reg
      rw [same]
      exact fun _ => ⟨rfl, rfl⟩
    · rw [sameThreads, State.newThread_reg, if_neg same] at reg
      exact tracked.saved other saved reg
  · by_cases same : other = tid
    · simp [sameThreads, same] at isWaiting
    · rw [sameThreads, State.newThread_status, if_neg same] at isWaiting
      rw [sameThreads, State.newThread_reg, if_neg same] at reg
      exact tracked.waiting other saved isWaiting reg

/-! ## Statements of scheduler -/

theorem scheduler (tracked : Tracked state) {handler : Bool} {point : SchedulerPoint}
    {rest : List SchedulerFrame}
    (frames : state.cpu.schedulers = { handler, point } :: rest)
    (executed : state.scheduler handler rest point = some after) : Tracked after := by
  have safe := tracked.executes
  rw [Context.Safe, frames] at safe
  cases point with
  | start =>
      cases executed
      exact tracked.goto rfl rfl rfl safe
  | search next =>
      simp only [State.scheduler] at executed
      split at executed
      next =>
          split at executed <;> cases executed <;> exact tracked.goto rfl rfl rfl safe
      next => cases executed
  | advance next =>
      cases executed
      exact tracked.goto rfl rfl rfl safe
  | chosen next =>
      simp only [State.scheduler] at executed
      split at executed
      next running =>
          cases executed
          exact tracked.goto rfl rfl rfl ⟨running, safe running⟩
      next stopped =>
          cases executed
          exact tracked.goto rfl rfl rfl stopped
  | ready next =>
      cases executed
      rcases safe with ⟨running, below⟩
      rw [running] at below
      exact tracked.setStatus (by decide) rfl rfl rfl ⟨rfl, below⟩
  | save next =>
      cases executed
      rcases safe with ⟨ready, below⟩
      refine tracked.updateCurrent (fun tid other => by simp [State.inScheduler, other]) rfl rfl
        (fun context reg => ?_) (fun context waiting => ?_) ?_
      · simp only [State.inScheduler, State.setReg_reg, if_pos, Option.some.injEq] at reg
        cases reg
        intro value
        rw [Context.resume_eq_self (fun _ noSchedulers => by cases noSchedulers)]
        exact ⟨rfl, below⟩
      · simp [State.inScheduler, ready] at waiting
      · simp only [State.inScheduler, State.setReg_status, ready]
        exact fun running => by cases running
  | resumed =>
      cases executed
      exact tracked.goto rfl rfl rfl safe.2
  | switch next =>
      cases executed
      exact tracked.setCurrent safe rfl rfl fun stopped => ⟨stopped, rfl⟩
  | run next =>
      cases executed
      exact tracked.setStatus (by decide) rfl rfl rfl ⟨rfl, safe.2⟩
  | jump next =>
      rcases state.longjmp_eq_some_iff.mp executed with ⟨context, reg, rfl⟩
      rcases safe with ⟨running, rfl⟩
      apply tracked.resume
      rw [running]
      exact tracked.saved _ context reg 1

/-! ## Statements of the calls -/

theorem pthreadCreate (tracked : Tracked state) {routine arg : Value} {point : CreatePoint}
    (noSchedulers : state.cpu.schedulers = [])
    (called : state.cpu.call = some (.create routine arg point))
    (executed : state.pthreadCreate client routine arg point = some after) : Tracked after := by
  have safe := tracked.executes.callSafe noSchedulers
  rw [called] at safe
  rcases safe with ⟨running, owns⟩
  have goesOn : ∀ point, ({ state.cpu with call := some (.create routine arg point) }).Safe
      (state.tcb state.currTid).status state.currTid :=
    fun point => Context.safe_of_callSafe noSchedulers ⟨running, owns⟩
  cases point with
  | start =>
      simp only [State.pthreadCreate, tracked.started, State.createThread, Bool.false_eq_true,
        if_false] at executed
      split at executed
      next =>
          cases executed
          exact tracked.goto rfl rfl tracked.started.symm (goesOn _)
      next =>
          rcases Option.map_eq_some_iff.mp executed with ⟨tid, found, rfl⟩
          refine tracked.newThread (state.freshThread_status found) rfl rfl rfl running ?_
          rw [← running]
          exact goesOn _
  | resumed =>
      cases executed
      exact tracked.goto rfl rfl rfl (goesOn _)
  | finish code thread =>
      cases executed
      exact tracked.goto rfl rfl rfl (Context.safe_of_callSafe noSchedulers ⟨running, owns⟩)

theorem exitJoined (tracked : Tracked state) {value : Value} {joiner : Tid}
    (noSchedulers : state.cpu.schedulers = [])
    (executed : state.exitJoined value joiner = some after) : Tracked after := by
  rcases Option.map_eq_some_iff.mp executed with ⟨freed, done, rfl⟩
  have agree := (State.freeStack_agrees _ done).trans (freed.setExitcode_agrees state.currTid value)
  have exited : Tracked
      { state.setStatus state.currTid .exited with
        cpu := { state.cpu with call := some (.exit value .unlock) } } :=
    tracked.setStatus (by decide) rfl rfl rfl
      (Context.safe_of_callSafe noSchedulers (by simp [CallSafe]))
  have stopped : Tracked
      { freed.setExitcode state.currTid value with
        cpu := { state.cpu with call := some (.exit value .unlock) } } :=
    exited.of_agree ⟨agree.status, agree.reg, agree.currTid, agree.firstCall, agree.sems⟩
      rfl rfl rfl exited.executes
  refine stopped.setCurrent ?_ rfl rfl fun notRunning => ?_
  · change ((freed.setExitcode state.currTid value).tcb
      (freed.setExitcode state.currTid value).currTid).status ≠ .running
    rw [agree.status, agree.currTid]
    simp [State.setStatus]
  · have sameCpu : freed.cpu = state.cpu := State.freeStack_cpu (state.setStatus _ _) done
    refine Context.safe_of_callSafe ?_ notRunning
    change freed.cpu.schedulers = []
    rw [sameCpu]
    exact noSchedulers

theorem exitUnjoined (tracked : Tracked state) {value : Value}
    (noSchedulers : state.cpu.schedulers = []) : Tracked (state.exitUnjoined value) := by
  have leaves : ∀ point, point = .schedule ∨ point = .toMain →
      ({ state.cpu with call := some (.exit value point) }).Safe .waiting state.currTid := by
    intro point leaving
    apply Context.safe_of_callSafe noSchedulers
    rcases leaving with rfl | rfl <;> simp [CallSafe]
  refine tracked.suspend .waiting { state.cpu with call := some (.exit value .set) } rfl rfl rfl
    (fun _ => ⟨noSchedulers, value, rfl⟩) ?_ (leaves _ (ite_eq_or_eq _ _ _))
  intro joined
  rw [Context.Safe, Context.resume_schedulers]
  simp [Context.resume, noSchedulers, SchedulersSafe, CallSafe]

theorem pthreadExit (tracked : Tracked state) {value : Value} {point : ExitPoint}
    (noSchedulers : state.cpu.schedulers = [])
    (called : state.cpu.call = some (.exit value point))
    (toWaiting : ∀ target ∈ state.directTarget, ∀ context ∈ (state.tcb target).reg,
      context.savedWaiting = true)
    (executed : state.pthreadExit value point = some after) : Tracked after := by
  have safe := tracked.executes.callSafe noSchedulers
  rw [called] at safe
  have goesOn : ∀ {next} status curr, CallSafe status curr state.cpu.owner (some (.exit value next)) →
      ({ state.cpu with call := some (.exit value next) }).Safe status curr :=
    fun _ _ nextSafe => Context.safe_of_callSafe noSchedulers nextSafe
  cases point with
  | start =>
      simp only [State.pthreadExit] at executed
      split at executed
      next => exact tracked.exitJoined noSchedulers executed
      next =>
          cases executed
          exact tracked.exitUnjoined noSchedulers
  | set => cases safe
  | joined joined =>
      simp only [State.pthreadExit] at executed
      split at executed
      next =>
          cases executed
          exact tracked.goto rfl rfl rfl (goesOn _ _ trivial)
      next exited =>
          cases executed
          refine tracked.goto rfl rfl rfl (goesOn _ _ ?_)
          rw [not_not.mp exited]
          simp [CallSafe]
  | mark joined =>
      cases executed
      exact tracked.setStatus (by decide) rfl rfl rfl (goesOn _ _ (by simp [CallSafe]))
  | free joined =>
      rcases Option.map_eq_some_iff.mp executed with ⟨freed, done, rfl⟩
      refine tracked.of_agree (state.freeStack_agrees done) rfl rfl rfl ?_
      rw [State.inCall, state.freeStack_cpu done]
      exact goesOn _ _ safe
  | count joined =>
      cases executed
      exact tracked.goto rfl rfl rfl (goesOn _ _ safe)
  | code joined =>
      cases executed
      exact tracked.of_agree (state.setExitcode_agrees _ value) rfl rfl rfl (goesOn _ _ safe)
  | back joined =>
      rcases Option.map_eq_some_iff.mp executed with ⟨joiner, _, rfl⟩
      exact tracked.setCurrent safe rfl rfl fun stopped => goesOn _ _ stopped
  | unlock =>
      cases executed
      exact tracked.goto rfl rfl rfl (goesOn _ _ safe)
  | jump =>
      rcases state.longjmp_eq_some_iff.mp executed with ⟨context, reg, rfl⟩
      have target : state.directTarget = some state.currTid := by
        simp [State.directTarget, noSchedulers, called]
      exact tracked.resume
        ((tracked.saved _ context reg 1).of_savedWaiting (toWaiting _ target _ reg))
  | schedule =>
      cases executed
      refine tracked.goto rfl rfl rfl ?_
      exact fun running => absurd running safe
  | toMain =>
      cases executed
      exact tracked.setCurrent safe rfl rfl fun stopped => goesOn _ _ ⟨stopped, rfl⟩
  | mainJump =>
      rcases state.longjmp_eq_some_iff.mp executed with ⟨context, reg, rfl⟩
      have target : state.directTarget = some 0 := by
        simp [State.directTarget, noSchedulers, called]
      have resumes : (context.resume 1).Safe (state.tcb 0).status 0 :=
        (tracked.saved 0 context reg 1).of_savedWaiting (toWaiting 0 target _ reg)
      apply tracked.resume
      rw [safe.2]
      exact resumes
  | finish => cases executed

theorem joinUnexited (tracked : Tracked state) {thread : Tid}
    (noSchedulers : state.cpu.schedulers = []) (owns : state.cpu.owner = state.currTid) :
    Tracked (state.joinUnexited thread) := by
  have goesOn : ∀ {next} status curr,
      CallSafe status curr state.cpu.owner (some (.join thread next)) →
      ({ state.cpu with call := some (.join thread next) }).Safe status curr :=
    fun _ _ nextSafe => Context.safe_of_callSafe noSchedulers nextSafe
  have saves : ∀ value,
      (({ state.cpu with call := some (.join thread .copy) } : Context User).resume value).Safe
        .running state.currTid := by
    intro value
    rw [Context.resume_eq_self (by simp)]
    exact goesOn _ _ owns
  have suspended : Tracked
      { (state.setStatus state.currTid .blocked).setReg state.currTid
          { state.cpu with call := some (.join thread .copy) } with
        cpu := { state.cpu with call := some (.join thread .schedule) } } :=
    tracked.suspend .blocked { state.cpu with call := some (.join thread .copy) } rfl rfl rfl
      (fun waiting => by cases waiting) saves (goesOn _ _ (by simp [CallSafe]))
  have notRunning : (((state.setStatus state.currTid .blocked).setReg state.currTid
      { state.cpu with call := some (.join thread .copy) }).tcb state.currTid).status ≠
        .running := by
    simp
  unfold State.joinUnexited
  simp only
  split
  next waiting =>
      exact suspended.setCurrent notRunning rfl rfl fun _ => goesOn _ _ ⟨waiting, rfl⟩
  next =>
      exact suspended.of_agree (State.setJoining_agrees _ thread state.currTid) rfl rfl rfl
        (goesOn _ _ notRunning)

theorem pthreadJoin (tracked : Tracked state) {thread : Tid} {point : JoinPoint}
    (noSchedulers : state.cpu.schedulers = [])
    (called : state.cpu.call = some (.join thread point))
    (executed : state.pthreadJoin client thread point = some after) : Tracked after := by
  have safe := tracked.executes.callSafe noSchedulers
  rw [called] at safe
  have goesOn : ∀ {next} status curr,
      CallSafe status curr state.cpu.owner (some (.join thread next)) →
      ({ state.cpu with call := some (.join thread next) }).Safe status curr :=
    fun _ _ nextSafe => Context.safe_of_callSafe noSchedulers nextSafe
  cases point with
  | start =>
      simp only [State.pthreadJoin] at executed
      split at executed
      next =>
          cases executed
          exact tracked.joinUnexited noSchedulers safe.2
      next =>
          cases executed
          exact tracked.goto rfl rfl rfl (goesOn _ _ safe)
  | copy =>
      cases executed
      exact tracked.goto rfl rfl rfl (goesOn _ _ safe)
  | run value =>
      cases executed
      exact tracked.setStatus (by decide) rfl rfl rfl (goesOn _ _ ⟨rfl, safe⟩)
  | unlock value =>
      cases executed
      exact tracked.goto rfl rfl rfl (goesOn _ _ safe)
  | schedule =>
      cases executed
      refine tracked.goto rfl rfl rfl ?_
      exact fun running => absurd running safe
  | jump waitingThread =>
      rcases state.longjmp_eq_some_iff.mp executed with ⟨context, reg, rfl⟩
      rcases safe with ⟨isWaiting, rfl⟩
      rcases tracked.waiting _ context isWaiting reg with ⟨noneSaved, value, inExit⟩
      apply tracked.resume
      rw [Context.Safe, Context.resume_schedulers, noneSaved]
      simp [Context.resume, noneSaved, inExit, SchedulersSafe, CallSafe]
  | finish value =>
      cases executed
      exact tracked.goto rfl rfl rfl (Context.safe_of_callSafe noSchedulers safe)

/-! ## Steps and runs -/

theorem callStatement (tracked : Tracked state) {frame : Frame}
    (noSchedulers : state.cpu.schedulers = []) (called : state.cpu.call = some frame)
    (toWaiting : ∀ target ∈ state.directTarget, ∀ context ∈ (state.tcb target).reg,
      context.savedWaiting = true)
    (executed : state.callStatement client frame = some after) : Tracked after := by
  cases frame with
  | create routine arg point => exact tracked.pthreadCreate noSchedulers called executed
  | exit value point => exact tracked.pthreadExit noSchedulers called toWaiting executed
  | join thread point => exact tracked.pthreadJoin noSchedulers called executed
  | semWait sem point | semPost sem point =>
      have safe := tracked.executes.callSafe noSchedulers
      rw [called] at safe
      cases safe

theorem step (onlyThreads : ∀ user call waiting, client.calls user call waiting → call.OfThreads)
    (tracked : Tracked state) {action : Action User} (toWaiting : JumpsToWaiting state action)
    (step : Step client state action after) : Tracked after := by
  rcases step.cases with ⟨user, rfl, inUserCode, _, rfl⟩ | ⟨call, user, rfl, inUserCode, calls, rfl⟩ |
    ⟨frame, rfl, noSchedulers, called, executed⟩ | ⟨handler, point, rest, rfl, frames, executed⟩ |
    ⟨rfl, _, _, rfl⟩
  · exact tracked.goto rfl rfl rfl tracked.executes
  · have safe := tracked.executes.callSafe inUserCode.2
    rw [inUserCode.1] at safe
    have permitted := onlyThreads _ call user calls
    have noSchedulers : (state.setUser user).cpu.schedulers = [] := inUserCode.2
    refine tracked.goto rfl rfl rfl (Context.safe_of_callSafe noSchedulers ?_)
    cases call with
    | create routine arg => exact safe
    | exit value => exact safe
    | join thread => exact safe
    | semWait sem => cases permitted
    | semPost sem => cases permitted
  · exact tracked.callStatement noSchedulers called toWaiting executed
  · exact tracked.scheduler frames executed
  · exact tracked.goto rfl rfl rfl fun _ => tracked.executes

theorem boots {sems : SemId → SemInfo} {user : User} (boots : Boots client sems user state) :
    Tracked state := by
  rcases boots with ⟨routine, arg, executed⟩
  have set : Tracked (State.entered sems user routine arg) := by
    refine ⟨rfl, fun tid running => ?_, ⟨rfl, rfl⟩, fun tid context reg => ?_,
      fun tid context waiting => ?_⟩
    · by_contra other
      change tid ≠ 0 at other
      simp [State.entered, State.firstCreate, State.initSystem, other] at running
    · by_cases main : tid = 0
      · subst main
        simp only [State.entered, State.firstCreate, State.setReg_reg, if_pos,
          Option.some.injEq] at reg
        cases reg
        intro value
        exact ⟨rfl, rfl⟩
      · simp [State.entered, State.firstCreate, State.initSystem, State.initial, State.inCall,
          Thread.zero, main] at reg
    · by_cases main : tid = 0 <;>
        simp [State.entered, State.firstCreate, State.initSystem, main] at waiting
  rw [boot_eq] at executed
  exact set.pthreadCreate rfl rfl executed

end Tracked

/-- As long as `pthread_exit` jumps only to waiting threads, the program on the processor is
that of the only `RUNNING` thread. -/
theorem singleRunning
    (onlyThreads : ∀ user call waiting, client.calls user call waiting → call.OfThreads)
    {sems : SemId → SemInfo} {user : User} {start : State User}
    (boots : Boots client sems user start)
    (run : RunUnder (Step client) JumpsToWaiting start state)
    (inUserCode : state.cpu.InUserCode) : SingleRunning state := by
  have tracked : Tracked state :=
    RunUnder.invariant Tracked
      (fun _ _ _ tracked toWaiting step => tracked.step onlyThreads toWaiting step)
      (Tracked.boots boots) run
  have safe := tracked.executes.callSafe inUserCode.2
  rw [inUserCode.1] at safe
  refine ⟨fun tid => ⟨tracked.running tid, fun current => ?_⟩, safe.2.symm⟩
  rw [current]
  exact safe.1

/-! ## Runs of two threads -/

/-- Threads that do nothing but call `pthread_create`, `pthread_exit` and `pthread_join`. -/
def threadsClient : Client Unit where
  start _ _ := ()
  own _ _ := True
  calls _ call _ := call.OfThreads
  returns _ _ _ := ()

instance (user next : Unit) : Decidable (threadsClient.own user next) :=
  inferInstanceAs (Decidable True)

instance (user : Unit) (call : Call) (waiting : Unit) :
    Decidable (threadsClient.calls user call waiting) :=
  inferInstanceAs (Decidable call.OfThreads)

def joinThenExit : List (Action Unit) :=
  [.statement, .call (.join 1) ()] ++ List.replicate 8 .statement ++ [.call (.exit 7) ()] ++
    List.replicate 6 .statement

theorem singleRunning_joined :
    ∃ start state : State Unit, Boots threadsClient (fun _ => semInit 0) () start ∧
      RunUnder (Step threadsClient) JumpsToWaiting start state ∧
      (state.tcb 1).status = .exited ∧ SingleRunning state := by
  have evaluated : ((boot threadsClient (fun _ => semInit 0) () 0 0).bind
      (follow (State.attempt threadsClient JumpsToWaiting) joinThenExit)).any
      (fun state => state.cpu.InUserCode ∧ (state.tcb 1).status = .exited) = true := by
    decide +kernel
  rcases exists_run_of_follow (fun _ _ _ _ attempted => step_of_attempt attempted) evaluated with
    ⟨start, state, booted, run, holds⟩
  rcases of_decide_eq_true holds with ⟨inUserCode, exited⟩
  exact ⟨start, state, ⟨0, 0, booted⟩, run, exited,
    singleRunning (fun _ _ _ ofThreads => ofThreads) ⟨0, 0, booted⟩ run inUserCode⟩

/-- The main thread is preempted by thread 1, which exits while no other thread is `READY`. -/
def exitToPreempted : List (Action Unit) :=
  [.statement, .alarm] ++ List.replicate 8 .statement ++ [.call (.exit 0) ()] ++
    List.replicate 4 .statement

theorem singleRunning_broken :
    ¬∀ (client : Client Unit) (sems : SemId → SemInfo) (user : Unit) (start state : State Unit),
      (∀ user call waiting, client.calls user call waiting → call.OfThreads) →
      Boots client sems user start →
      RunUnder (Step client) (fun _ _ => True) start state →
      state.cpu.InUserCode → SingleRunning state := by
  intro always
  have evaluated : ((boot threadsClient (fun _ => semInit 0) () 0 0).bind
      (follow (State.attempt threadsClient fun _ _ => True) exitToPreempted)).any
      (fun state => state.cpu.InUserCode ∧
        (state.tcb state.currTid).status ≠ .running) = true := by
    decide +kernel
  rcases exists_run_of_follow (fun _ _ _ _ attempted => step_of_attempt attempted) evaluated with
    ⟨start, state, booted, run, holds⟩
  rcases of_decide_eq_true holds with ⟨inUserCode, notRunning⟩
  have single := always threadsClient _ () start state (fun _ _ _ ofThreads => ofThreads)
    ⟨0, 0, booted⟩ run inUserCode
  exact notRunning ((single.1 state.currTid).mpr rfl)

end EC440.Threads
