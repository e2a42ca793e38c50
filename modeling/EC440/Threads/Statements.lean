import EC440.Threads.State
import Mathlib.Data.List.FinRange

/-!
# Statements of the thread library

For each function of `threads.c`, what its statement at a program point does.
What stands between `lock` and `unlock` cannot be interrupted and is one
statement here, up to the `longjmp` or the call of `scheduler` behind it.
`none` is an access outside an array, a second `free`, an `int` overflow, a
`longjmp` to a context that was never saved, or the end of the process.
-/

namespace EC440.Threads

/-- A call of the library by a program.  The pointer that `pthread_create` and
`pthread_join` store through is left to the caller, who learns what is stored. -/
inductive Call where
  | create (routine arg : Value)
  | exit (value : Value)
  | join (thread : Tid)
  | semWait (sem : SemId)
  | semPost (sem : SemId)
  deriving DecidableEq, Repr

def Call.entry : Call → Frame
  | .create routine arg => .create routine arg .start
  | .exit value => .exit value .start
  | .join thread => .join thread .start
  | .semWait sem => .semWait sem .start
  | .semPost sem => .semPost sem .start

/-- The return value, and what is stored in `*thread` and `*value_ptr`. -/
structure Result where
  code : Int
  thread : Option Tid := none
  value : Option Value := none
  deriving DecidableEq, Repr

/-- The programs of the threads.  `start` is where `start_thunk` enters a new one, `own` are
the steps outside the library, and `returns` is where a program goes on after a call. -/
structure Client (User : Type) where
  start : Value → Value → User
  own : User → User → Prop
  calls : User → Call → User → Prop
  returns : User → Call → Result → User

namespace State

variable {User : Type} (client : Client User) (state : State User)

def finish (call : Call) (result : Result) : State User :=
  { state with
    cpu := { state.cpu with user := client.returns state.cpu.user call result, call := none } }

/-- `scheduler()` in a function of the library, which goes on at `frame` after it. -/
def callScheduler (frame : Frame) : State User :=
  (state.inCall frame).inScheduler false [] .start

/-! ## scheduler -/

def scheduler (handler : Bool) (rest : List SchedulerFrame) :
    SchedulerPoint → Option (State User)
  | .start => some (state.inScheduler handler rest (.search (state.currTid + 1)))
  | .search next =>
      if inRange : next < maxThreads then
        let next : Tid := ⟨next, inRange⟩
        if (state.tcb next).status ≠ .ready ∧ next ≠ state.currTid then
          some (state.inScheduler handler rest (.advance next))
        else
          some (state.inScheduler handler rest (.chosen next))
      else none
  | .advance next => some (state.inScheduler handler rest (.search ((next + 1) % maxThreads)))
  | .chosen next =>
      if (state.tcb state.currTid).status = .running then
        some (state.inScheduler handler rest (.ready next))
      else
        some (state.inScheduler handler rest (.switch next))
  | .ready next =>
      some ((state.setStatus state.currTid .ready).inScheduler handler rest (.save next))
  | .save next =>
      some ((state.setReg state.currTid
        { state.cpu with schedulers := { handler, point := .resumed } :: rest }).inScheduler
          handler rest (.switch next))
  | .resumed =>
      -- returning from a signal handler restores the mask of the moment of the signal
      some { state with
        masked := if handler then false else state.masked
        cpu := { state.cpu with schedulers := rest } }
  | .switch next => some ({ state with currTid := next }.inScheduler handler rest (.run next))
  | .run next =>
      some ((state.setStatus state.currTid .running).inScheduler handler rest (.jump next))
  | .jump next => state.longjmp next 1

/-! ## pthread_create -/

def initSystem : State User :=
  { state with
    tcb := fun tid => { state.tcb tid with status := .fresh, joining := none } }

def firstCreate (routine arg : Value) : State User :=
  ({ state.initSystem with
      firstCall := false, totalThreads := state.totalThreads + 1 }.setStatus 0 .running).setReg 0
    { state.cpu with call := some (.create routine arg .resumed) }

/-- The smallest `FRESH` index. -/
def freshThread : Option Tid :=
  (List.finRange maxThreads).find? fun tid => (state.tcb tid).status = .fresh

/-- The entry of a new thread, whose context is a `setjmp` with `start_thunk` as its program
counter. -/
def newThread (tid : Tid) (routine arg : Value) : State User :=
  { state with
    totalThreads := state.totalThreads + 1
    tcb := Function.update state.tcb tid
      { state.tcb tid with
        status := .ready
        stack := .allocated
        reg := some
          { owner := tid, user := client.start routine arg, call := none, schedulers := [] } } }

@[simp] theorem newThread_status (tid other : Tid) (routine arg : Value) :
    ((state.newThread client tid routine arg).tcb other).status =
      if other = tid then .ready else (state.tcb other).status := by
  by_cases same : other = tid <;> simp [newThread, same]

@[simp] theorem newThread_reg (tid other : Tid) (routine arg : Value) :
    ((state.newThread client tid routine arg).tcb other).reg =
      if other = tid then
        some { owner := tid, user := client.start routine arg, call := none, schedulers := [] }
      else (state.tcb other).reg := by
  by_cases same : other = tid <;> simp [newThread, same]

@[simp] theorem newThread_joining (tid other : Tid) (routine arg : Value) :
    ((state.newThread client tid routine arg).tcb other).joining =
      (state.tcb other).joining := by
  by_cases same : other = tid <;> simp [newThread, same]

@[simp] theorem newThread_exitcode (tid other : Tid) (routine arg : Value) :
    ((state.newThread client tid routine arg).tcb other).exitcode =
      (state.tcb other).exitcode := by
  by_cases same : other = tid <;> simp [newThread, same]

theorem freshThread_status {tid : Tid} (found : state.freshThread = some tid) :
    (state.tcb tid).status = .fresh := by
  simpa using List.find?_some found

def createThread (routine arg : Value) : Option (State User) :=
  if state.totalThreads > maxThreads then
    -- this path returns without `unlock`
    some ({ state with masked := true }.inCall (.create routine arg (.finish (-1) none)))
  else
    state.freshThread.map fun tid =>
      (state.newThread client tid routine arg).unlock.inCall
        (.create routine arg (.finish 0 (some tid)))

def pthreadCreate (routine arg : Value) : CreatePoint → Option (State User)
  | .start =>
      if state.firstCall then (state.firstCreate routine arg).createThread client routine arg
      else state.createThread client routine arg
  | .resumed => some (state.unlock.inCall (.create routine arg (.finish 0 none)))
  | .finish code thread => some (state.finish client (.create routine arg) { code, thread })

/-! ## pthread_exit -/

/-- `free(TCB[tid].stack)` -/
def freeStack (tid : Tid) : Option (State User) :=
  match (state.tcb tid).stack with
  | .freed => none
  | .null => some state
  | .allocated =>
      some { state with tcb := Function.update state.tcb tid { state.tcb tid with stack := .freed } }

theorem freeStack_agrees {tid : Tid} {freed : State User}
    (done : state.freeStack tid = some freed) : Agree state freed := by
  unfold freeStack at done
  split at done
  · cases done
  · cases done
    exact .refl state
  · cases done
    refine ⟨fun other => ?_, fun other => ?_, rfl, rfl, rfl⟩ <;>
      by_cases same : other = tid <;> simp [same]

theorem freeStack_cpu {tid : Tid} {freed : State User}
    (done : state.freeStack tid = some freed) : freed.cpu = state.cpu := by
  unfold freeStack at done
  split at done <;> cases done <;> rfl

theorem freeStack_joining {tid : Tid} {freed : State User}
    (done : state.freeStack tid = some freed) (other : Tid) :
    (freed.tcb other).joining = (state.tcb other).joining := by
  unfold freeStack at done
  split at done
  · cases done
  · cases done
    rfl
  · cases done
    by_cases same : other = tid <;> simp [same]

theorem freeStack_other {tid other : Tid} {freed : State User}
    (done : state.freeStack tid = some freed) (isOther : other ≠ tid) :
    freed.tcb other = state.tcb other := by
  unfold freeStack at done
  split at done
  · cases done
  · cases done
    rfl
  · cases done
    exact Function.update_of_ne isOther ..

def setExitcode (tid : Tid) (value : Value) : State User :=
  { state with tcb := Function.update state.tcb tid { state.tcb tid with exitcode := value } }

theorem setExitcode_agrees (tid : Tid) (value : Value) :
    Agree state (state.setExitcode tid value) := by
  refine ⟨fun other => ?_, fun other => ?_, rfl, rfl, rfl⟩ <;>
    by_cases same : other = tid <;> simp [setExitcode, same]

theorem setExitcode_exitcode (tid : Tid) (value : Value) :
    ((state.setExitcode tid value).tcb tid).exitcode = value := by
  simp [setExitcode]

theorem setExitcode_joining (tid other : Tid) (value : Value) :
    ((state.setExitcode tid value).tcb other).joining = (state.tcb other).joining := by
  by_cases same : other = tid <;> simp [setExitcode, same]

theorem setExitcode_other {tid other : Tid} (isOther : other ≠ tid) (value : Value) :
    (state.setExitcode tid value).tcb other = state.tcb other :=
  Function.update_of_ne isOther ..

/-- Some thread other than the main thread is `READY`. -/
def OtherReady : Prop :=
  ∃ tid, tid ≠ 0 ∧ (state.tcb tid).status = .ready

instance : Decidable state.OtherReady :=
  inferInstanceAs (Decidable (∃ _, _))

/-- A thread that somebody already joined ends: up to `unlock`, on the way to its joiner. -/
def exitJoined (value : Value) (joiner : Tid) : Option (State User) :=
  ((state.setStatus state.currTid .exited).freeStack state.currTid).map fun freed =>
    ({ freed.setExitcode state.currTid value with
        totalThreads := state.totalThreads - 1, currTid := joiner }.unlock).inCall
      (.exit value .jump)

def exitUnjoined (value : Value) : State User :=
  let saved := (state.setStatus state.currTid .waiting).setReg state.currTid
    { state.cpu with call := some (.exit value .set) }
  saved.unlock.inCall (.exit value (if saved.OtherReady then .schedule else .toMain))

theorem exitUnjoined_call (value : Value) :
    ∃ point, (point = .schedule ∨ point = .toMain) ∧
      (state.exitUnjoined value).cpu.call = some (.exit value point) := by
  simp only [exitUnjoined, inCall]
  exact ⟨_, ite_eq_or_eq _ _ _, rfl⟩

/-- `(pthread_t)(joined - MAX_THREADS)`, if it is an index: a thread that the scheduler resumes
with 1 computes 1 − 128. -/
def joinerOf (joined : Nat) : Option Tid :=
  if inRange : maxThreads ≤ joined ∧ joined - maxThreads < maxThreads then
    some ⟨joined - maxThreads, inRange.2⟩
  else none

def pthreadExit (value : Value) : ExitPoint → Option (State User)
  | .start =>
      match (state.tcb state.currTid).joining with
      | some joiner => state.exitJoined value joiner
      | none => some (state.exitUnjoined value)
  | .set => none
  | .joined joined =>
      if (state.tcb state.currTid).status ≠ .exited then
        some (state.inCall (.exit value (.mark joined)))
      else
        some (state.inCall (.exit value (.code joined)))
  | .mark joined =>
      some ((state.setStatus state.currTid .exited).inCall (.exit value (.free joined)))
  | .free joined =>
      (state.freeStack state.currTid).map fun freed => freed.inCall (.exit value (.count joined))
  | .count joined =>
      some ({ state with totalThreads := state.totalThreads - 1 }.inCall
        (.exit value (.code joined)))
  | .code joined =>
      some ((state.setExitcode state.currTid value).inCall (.exit value (.back joined)))
  | .back joined =>
      (joinerOf joined).map fun joiner =>
        { state with currTid := joiner }.inCall (.exit value .unlock)
  | .unlock => some (state.unlock.inCall (.exit value .jump))
  | .jump => state.longjmp state.currTid 1
  | .schedule => some (state.callScheduler (.exit value .finish))
  | .toMain => some ({ state with currTid := 0 }.inCall (.exit value .mainJump))
  | .mainJump => state.longjmp 0 1
  | .finish => none

/-! ## pthread_join -/

def setJoining (tid joiner : Tid) : State User :=
  { state with
    tcb := Function.update state.tcb tid { state.tcb tid with joining := some joiner } }

theorem setJoining_agrees (tid joiner : Tid) : Agree state (state.setJoining tid joiner) := by
  refine ⟨fun other => ?_, fun other => ?_, rfl, rfl, rfl⟩ <;>
    by_cases same : other = tid <;> simp [setJoining, same]

def joinUnexited (thread : Tid) : State User :=
  let saved := (state.setStatus state.currTid .blocked).setReg state.currTid
    { state.cpu with call := some (.join thread .copy) }
  if (saved.tcb thread).status = .waiting then
    ({ saved with currTid := thread }.unlock).inCall (.join thread (.jump state.currTid))
  else
    ((saved.setJoining thread state.currTid).unlock).inCall (.join thread .schedule)

def pthreadJoin (thread : Tid) : JoinPoint → Option (State User)
  | .start =>
      if (state.tcb thread).status ≠ .exited then some (state.joinUnexited thread)
      else some (state.unlock.inCall (.join thread (.finish none)))
  | .copy => some (state.inCall (.join thread (.run (state.tcb thread).exitcode)))
  | .run value =>
      some ((state.setStatus state.currTid .running).inCall (.join thread (.unlock value)))
  | .unlock value => some (state.unlock.inCall (.join thread (.finish value)))
  | .schedule => some (state.callScheduler (.join thread (.unlock none)))
  | .jump waitingThread => state.longjmp thread (waitingThread + maxThreads)
  | .finish value => some (state.finish client (.join thread) { code := 0, value })

/-! ## sem_wait and sem_post -/

/-- `temp->val += delta` within `int` -/
def addVal (sem : SemId) (delta : Int) : Option (State User) :=
  let val := (state.sems sem).val + delta
  if -2 ^ 31 ≤ val ∧ val < 2 ^ 31 then some (state.setSem sem { state.sems sem with val })
  else none

/-- `temp->waiting[slot] = tid` -/
def setWaiting (sem : SemId) (slot tid : Tid) : State User :=
  state.setSem sem
    { state.sems sem with waiting := Function.update (state.sems sem).waiting slot tid }

def semWait (sem : SemId) : SemWaitPoint → Option (State User)
  | .start =>
      if (state.sems sem).status = .initialized then some (state.inCall (.semWait sem .test))
      else some (state.inCall (.semWait sem (.finish (-1))))
  | .test =>
      if (state.sems sem).val ≤ 0 then some (state.inCall (.semWait sem .block))
      else some (state.inCall (.semWait sem .positive))
  | .block =>
      some ((state.setStatus state.currTid .blocked).inCall (.semWait sem (.find 0)))
  | .find slot =>
      if inRange : slot < maxThreads then
        if (state.sems sem).waiting ⟨slot, inRange⟩ ≠ 0 then
          some (state.inCall (.semWait sem (.find (slot + 1))))
        else
          some (state.inCall (.semWait sem (.insert ⟨slot, inRange⟩)))
      else none
  | .insert slot =>
      some ((state.setWaiting sem slot state.currTid).inCall (.semWait sem .schedule))
  | .schedule => some (state.callScheduler (.semWait sem .woken))
  | .woken => some (state.finish client (.semWait sem) { code := 0 })
  | .positive =>
      if (state.sems sem).val > 0 then some (state.inCall (.semWait sem .decrement))
      else some (state.inCall (.semWait sem (.finish 0)))
  | .decrement =>
      (state.addVal sem (-1)).map fun taken => taken.inCall (.semWait sem (.finish 0))
  | .finish code => some (state.finish client (.semWait sem) { code })

def semPost (sem : SemId) : SemPostPoint → Option (State User)
  | .start =>
      if (state.sems sem).status = .initialized then some (state.inCall (.semPost sem .zero))
      else some (state.inCall (.semPost sem (.finish (-1))))
  | .zero =>
      if (state.sems sem).val = 0 then some (state.inCall (.semPost sem (.scan 0)))
      else some (state.inCall (.semPost sem .positive))
  | .scan slot =>
      -- the loop also reads `waiting[128]`, and ends there whatever it reads
      if inRange : slot < maxThreads then
        if (state.sems sem).waiting ⟨slot, inRange⟩ = 0 then
          some (state.inCall (.semPost sem (.scan (slot + 1))))
        else
          some (state.inCall (.semPost sem (.found slot)))
      else some (state.inCall (.semPost sem (.found slot)))
  | .found slot =>
      if inRange : slot < maxThreads then
        some (state.inCall
          (.semPost sem (.clear ⟨slot, inRange⟩ ((state.sems sem).waiting ⟨slot, inRange⟩))))
      else some (state.inCall (.semPost sem .increment))
  | .clear slot nextRun =>
      some ((state.setWaiting sem slot 0).inCall (.semPost sem (.grant nextRun)))
  | .grant nextRun =>
      some ((state.setStatus nextRun .running).inCall (.semPost sem (.jump nextRun)))
  | .jump nextRun => state.longjmp nextRun 1
  | .positive =>
      if (state.sems sem).val > 0 then some (state.inCall (.semPost sem .increment))
      else some (state.inCall (.semPost sem (.finish 0)))
  | .increment =>
      (state.addVal sem 1).map fun given => given.inCall (.semPost sem (.finish 0))
  | .finish code => some (state.finish client (.semPost sem) { code })

/-! ## The next statement -/

/-- A call of the library that is under way, with no `scheduler` above it. -/
def callStatement : Frame → Option (State User)
  | .create routine arg point => state.pthreadCreate client routine arg point
  | .exit value point => state.pthreadExit value point
  | .join thread point => state.pthreadJoin client thread point
  | .semWait sem point => state.semWait client sem point
  | .semPost sem point => state.semPost client sem point

def statement : Option (State User) :=
  match state.cpu.schedulers with
  | { handler, point } :: rest => state.scheduler handler rest point
  | [] => state.cpu.call.bind (state.callStatement client)

end State

end EC440.Threads
