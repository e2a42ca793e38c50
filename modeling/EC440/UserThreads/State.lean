import EC440.Threads.State
import Mathlib.Data.List.FinRange

/-!
# The thread library of Project 2

Its `threads.c` has the same `scheduler` as the later library, but no lock:
`SIGALRM` may call `scheduler` before every statement.  A saved context is
again a value, and an access outside `TCB`, a second `free` or a `longjmp` to a
context that was never saved has no successor state.
-/

namespace EC440.UserThreads

open Threads (maxThreads Tid Value Stack SchedulerPoint)

/-- `enum Status` -/
inductive Status where
  | ready
  | running
  | exited
  | fresh
  deriving DecidableEq, Repr

/-! ## Program points -/

/-- Where `pthread_create` is, named after the statement that comes next. -/
inductive CreatePoint where
  /-- The test of `first_call` and, in the first call, all up to `setjmp(TCB[0].reg)`. -/
  | start
  /-- The same `setjmp` returned 1. -/
  | resumed
  /-- `total_threads > MAX_THREADS` -/
  | limit
  /-- The condition of the search loop. -/
  | search (i : Nat)
  /-- From `setjmp(TCB[i].reg)` to the last change of `TCB[i].reg`. -/
  | setup (i : Tid)
  /-- `TCB[i].status = READY` -/
  | publish (i : Tid)
  /-- `total_threads++` -/
  | count (i : Tid)
  | finish (code : Int) (thread : Option Tid)
  deriving DecidableEq, Repr

inductive ExitPoint where
  /-- `TCB[curr_TID].status = EXITED` -/
  | mark
  /-- `free(TCB[curr_TID].stack)` -/
  | free
  /-- `total_threads--` -/
  | count
  /-- The condition of the search loop, and the test behind it. -/
  | search (i : Nat)
  /-- `longjmp(TCB[0].reg, 1)` -/
  | mainJump
  /-- `scheduler()` -/
  | schedule
  /-- `exit(0)` -/
  | finish
  deriving DecidableEq, Repr

/-- A call of the library by a thread's program. -/
inductive Frame where
  | create (routine arg : Value) (point : CreatePoint)
  | exit (point : ExitPoint)
  deriving DecidableEq, Repr

/-! ## The machine -/

/-- What `setjmp` saves.  `owner` is the thread on whose stack the program runs, `call` its
call of the library and `schedulers` the calls of `scheduler` above it, the latest first. -/
structure Context (User : Type) where
  owner : Tid
  user : User
  call : Option Frame
  schedulers : List SchedulerPoint

/-- The code of the thread's program is executed, not the library's. -/
def Context.InUserCode {User : Type} (context : Context User) : Prop :=
  context.call = none ∧ context.schedulers = []

instance {User : Type} (context : Context User) : Decidable context.InUserCode :=
  inferInstanceAs (Decidable (_ ∧ _))

/-- `thread` -/
structure Thread (User : Type) where
  status : Status
  stack : Stack
  reg : Option (Context User)

/-- `cpu` is the context that executes. -/
structure State (User : Type) where
  currTid : Tid
  tcb : Tid → Thread User
  totalThreads : Int
  firstCall : Bool
  cpu : Context User

namespace State

variable {User : Type} (state : State User)

def initial (user : User) : State User where
  currTid := 0
  tcb := fun _ => { status := .ready, stack := .null, reg := none }
  totalThreads := 0
  firstCall := true
  cpu := { owner := 0, user, call := none, schedulers := [] }

def status (tid : Tid) : Status :=
  (state.tcb tid).status

def setStatus (tid : Tid) (status : Status) : State User :=
  { state with tcb := Function.update state.tcb tid { state.tcb tid with status } }

@[simp] theorem setStatus_status (tid other : Tid) (status : Status) :
    (state.setStatus tid status).status other =
      if other = tid then status else state.status other := by
  by_cases same : other = tid <;> simp [State.status, setStatus, same]

@[simp] theorem setStatus_reg (tid other : Tid) (status : Status) :
    ((state.setStatus tid status).tcb other).reg = (state.tcb other).reg := by
  by_cases same : other = tid <;> simp [setStatus, same]

@[simp] theorem setStatus_stack (tid other : Tid) (status : Status) :
    ((state.setStatus tid status).tcb other).stack = (state.tcb other).stack := by
  by_cases same : other = tid <;> simp [setStatus, same]

def setReg (tid : Tid) (context : Context User) : State User :=
  { state with tcb := Function.update state.tcb tid { state.tcb tid with reg := some context } }

@[simp] theorem setReg_status (tid other : Tid) (context : Context User) :
    (state.setReg tid context).status other = state.status other := by
  by_cases same : other = tid <;> simp [State.status, setReg, same]

@[simp] theorem setReg_reg (tid other : Tid) (context : Context User) :
    ((state.setReg tid context).tcb other).reg =
      if other = tid then some context else (state.tcb other).reg := by
  by_cases same : other = tid <;> simp [setReg, same]

@[simp] theorem setReg_stack (tid other : Tid) (context : Context User) :
    ((state.setReg tid context).tcb other).stack = (state.tcb other).stack := by
  by_cases same : other = tid <;> simp [setReg, same]

def setStack (tid : Tid) (stack : Stack) : State User :=
  { state with tcb := Function.update state.tcb tid { state.tcb tid with stack } }

@[simp] theorem setStack_status (tid other : Tid) (stack : Stack) :
    (state.setStack tid stack).status other = state.status other := by
  by_cases same : other = tid <;> simp [State.status, setStack, same]

@[simp] theorem setStack_reg (tid other : Tid) (stack : Stack) :
    ((state.setStack tid stack).tcb other).reg = (state.tcb other).reg := by
  by_cases same : other = tid <;> simp [setStack, same]

@[simp] theorem setStack_stack (tid other : Tid) (stack : Stack) :
    ((state.setStack tid stack).tcb other).stack =
      if other = tid then stack else (state.tcb other).stack := by
  by_cases same : other = tid <;> simp [setStack, same]

def inCall (frame : Frame) : State User :=
  { state with cpu := { state.cpu with call := some frame } }

def inScheduler (rest : List SchedulerPoint) (point : SchedulerPoint) : State User :=
  { state with cpu := { state.cpu with schedulers := point :: rest } }

/-- `longjmp(TCB[target].reg, 1)` -/
def longjmp (target : Tid) : Option (State User) :=
  (state.tcb target).reg.map fun context => { state with cpu := context }

theorem longjmp_eq_some_iff {target : Tid} {after : State User} :
    state.longjmp target = some after ↔
      ∃ context, (state.tcb target).reg = some context ∧ after = { state with cpu := context } := by
  simp [longjmp, eq_comm]

end State

/-! ## Programs -/

/-- A call of the library.  The pointer that `pthread_create` stores through is left to the
caller, who learns what is stored, and `pthread_exit` does not look at its argument. -/
inductive Call where
  | create (routine arg : Value)
  | exit
  deriving DecidableEq, Repr

def Call.entry : Call → Frame
  | .create routine arg => .create routine arg .start
  | .exit => .exit .mark

/-- The return value of `pthread_create`, and what it stores in `*thread`. -/
structure Result where
  code : Int
  thread : Option Tid
  deriving DecidableEq, Repr

/-- The programs of the threads.  `start` is where `start_thunk` enters a new one, `own` are
the steps outside the library, and `returns` is where a program goes on after a call. -/
structure Client (User : Type) where
  start : Value → Value → User
  own : User → User → Prop
  calls : User → Call → User → Prop
  returns : User → Result → User

namespace State

variable {User : Type} (client : Client User) (state : State User)

/-! ## scheduler -/

def scheduler (rest : List SchedulerPoint) : SchedulerPoint → Option (State User)
  | .start => some (state.inScheduler rest (.search (state.currTid + 1)))
  | .search next =>
      if inRange : next < maxThreads then
        let next : Tid := ⟨next, inRange⟩
        if state.status next ≠ .ready ∧ next ≠ state.currTid then
          some (state.inScheduler rest (.advance next))
        else
          some (state.inScheduler rest (.chosen next))
      else none
  | .advance next => some (state.inScheduler rest (.search ((next + 1) % maxThreads)))
  | .chosen next =>
      if state.status state.currTid = .running then
        some (state.inScheduler rest (.ready next))
      else
        some (state.inScheduler rest (.switch next))
  | .ready next =>
      some ((state.setStatus state.currTid .ready).inScheduler rest (.save next))
  | .save next =>
      some ((state.setReg state.currTid
        { state.cpu with schedulers := .resumed :: rest }).inScheduler rest (.switch next))
  | .resumed => some { state with cpu := { state.cpu with schedulers := rest } }
  | .switch next => some ({ state with currTid := next }.inScheduler rest (.run next))
  | .run next =>
      some ((state.setStatus state.currTid .running).inScheduler rest (.jump next))
  | .jump next => state.longjmp next

/-! ## pthread_create -/

def initSystem : State User :=
  { state with tcb := fun tid => { state.tcb tid with status := .fresh } }

def firstCreate (routine arg : Value) : State User :=
  ({ state.initSystem with
      firstCall := false, totalThreads := state.totalThreads + 1 }.setStatus 0 .running).setReg 0
    { state.cpu with call := some (.create routine arg .resumed) }

/-- The context of a new thread: a `setjmp` with `start_thunk` as its program counter. -/
def newContext (tid : Tid) (routine arg : Value) : Context User :=
  { owner := tid, user := client.start routine arg, call := none, schedulers := [] }

def pthreadCreate (routine arg : Value) : CreatePoint → Option (State User)
  | .start =>
      if state.firstCall then
        some ((state.firstCreate routine arg).inCall (.create routine arg .limit))
      else
        some (state.inCall (.create routine arg .limit))
  | .resumed => some (state.inCall (.create routine arg (.finish 0 none)))
  | .limit =>
      if state.totalThreads > maxThreads then
        some (state.inCall (.create routine arg (.finish (-1) none)))
      else
        some (state.inCall (.create routine arg (.search 0)))
  | .search i =>
      -- without a `FRESH` entry the next statement is `setjmp(TCB[MAX_THREADS].reg)`
      if inRange : i < maxThreads then
        if state.status ⟨i, inRange⟩ ≠ .fresh then
          some (state.inCall (.create routine arg (.search (i + 1))))
        else
          some (state.inCall (.create routine arg (.setup ⟨i, inRange⟩)))
      else none
  | .setup i =>
      some (((state.setStack i .allocated).setReg i (newContext client i routine arg)).inCall
        (.create routine arg (.publish i)))
  | .publish i => some ((state.setStatus i .ready).inCall (.create routine arg (.count i)))
  | .count i =>
      some ({ state with totalThreads := state.totalThreads + 1 }.inCall
        (.create routine arg (.finish 0 (some i))))
  | .finish code thread =>
      some { state with
        cpu := { state.cpu with
          user := client.returns state.cpu.user { code, thread }, call := none } }

/-! ## pthread_exit -/

/-- `free(TCB[tid].stack)` -/
def freeStack (tid : Tid) : Option (State User) :=
  match (state.tcb tid).stack with
  | .freed => none
  | .null => some state
  | .allocated => some (state.setStack tid .freed)

theorem freeStack_cases {state freed : State User} {tid : Tid}
    (executed : state.freeStack tid = some freed) :
    (state.tcb tid).stack = .null ∧ freed = state ∨
      (state.tcb tid).stack = .allocated ∧ freed = state.setStack tid .freed := by
  unfold freeStack at executed
  split at executed
  next => cases executed
  next isNull => exact .inl ⟨isNull, (Option.some.inj executed).symm⟩
  next isAllocated => exact .inr ⟨isAllocated, (Option.some.inj executed).symm⟩

def pthreadExit : ExitPoint → Option (State User)
  | .mark => some ((state.setStatus state.currTid .exited).inCall (.exit .free))
  | .free => (state.freeStack state.currTid).map fun freed => freed.inCall (.exit .count)
  | .count =>
      some ({ state with totalThreads := state.totalThreads - 1 }.inCall (.exit (.search 1)))
  | .search i =>
      if inRange : i < maxThreads then
        if state.status ⟨i, inRange⟩ ≠ .ready then
          some (state.inCall (.exit (.search (i + 1))))
        else
          some (state.inCall (.exit .schedule))
      else
        some (state.inCall (.exit .mainJump))
  | .mainJump => state.longjmp 0
  | .schedule => some ((state.inCall (.exit .finish)).inScheduler [] .start)
  | .finish => none

/-! ## The next statement -/

/-- A call of the library that is under way, with no `scheduler` above it. -/
def callStatement : Frame → Option (State User)
  | .create routine arg point => state.pthreadCreate client routine arg point
  | .exit point => state.pthreadExit point

def statement : Option (State User) :=
  match state.cpu.schedulers with
  | point :: rest => state.scheduler rest point
  | [] => state.cpu.call.bind (state.callStatement client)

end State

end EC440.UserThreads
