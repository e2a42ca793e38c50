import Mathlib.Data.Fin.Basic
import Mathlib.Data.UInt
import Mathlib.Logic.Function.Basic

/-!
# State of the thread library

The static variables of `threads.c` and what the processor executes.  A saved
context (`jmp_buf`) is a value: the thread whose stack it is on, the state of
that thread's program and the calls of the library that are under way there,
each with its next statement.  An access outside `TCB` has no successor state.
-/

namespace EC440.Threads

/-- `MAX_THREADS` -/
abbrev maxThreads : Nat := 128

instance : NeZero maxThreads := ⟨by decide⟩

/-- `pthread_t`, an index of `TCB` -/
abbrev Tid := Fin maxThreads

/-- `sem_t *` -/
abbrev SemId := Nat

/-- `void *` -/
abbrev Value := UInt64

/-- `enum Status` -/
inductive Status where
  | ready
  | running
  | exited
  | waiting
  | fresh
  | blocked
  deriving DecidableEq, Repr

/-! ## Program points -/

/-- Where `scheduler` is, named after the statement that comes next. -/
inductive SchedulerPoint where
  | start
  /-- The condition of the search loop. -/
  | search (next : Nat)
  /-- `next = (next + 1) % MAX_THREADS` -/
  | advance (next : Tid)
  /-- The test whether the current thread is `RUNNING`. -/
  | chosen (next : Tid)
  /-- `TCB[curr_TID].status = READY` -/
  | ready (next : Tid)
  /-- `jumped = setjmp(TCB[curr_TID].reg)` -/
  | save (next : Tid)
  /-- The same `setjmp` returned 1. -/
  | resumed
  /-- `curr_TID = next` -/
  | switch (next : Tid)
  /-- `TCB[curr_TID].status = RUNNING` -/
  | run (next : Tid)
  /-- `longjmp(TCB[next].reg, 1)` -/
  | jump (next : Tid)
  deriving DecidableEq, Repr

/-- `scheduler` is behind its `setjmp`: what executes belongs to no thread any more. -/
def SchedulerPoint.abandoned : SchedulerPoint → Bool
  | .switch _ | .run _ | .jump _ => true
  | .start | .search _ | .advance _ | .chosen _ | .ready _ | .save _ | .resumed => false

/-- A call of `scheduler`, by the kernel as the handler of `SIGALRM` or by the library. -/
structure SchedulerFrame where
  handler : Bool
  point : SchedulerPoint
  deriving DecidableEq, Repr

inductive CreatePoint where
  /-- Everything from `lock` to `unlock`. -/
  | start
  /-- The `setjmp(TCB[0].reg)` of the first call returned 1. -/
  | resumed
  | finish (code : Int) (thread : Option Tid)
  deriving DecidableEq, Repr

inductive ExitPoint where
  /-- Everything from `lock` to `unlock`. -/
  | start
  /-- `joined = (int)setjmp(TCB[curr_TID].reg)`, where the thread waits to be joined. -/
  | set
  /-- That `setjmp` returned `joined`. -/
  | joined (joined : Nat)
  /-- `TCB[curr_TID].status = EXITED` -/
  | mark (joined : Nat)
  /-- `free(TCB[curr_TID].stack)` -/
  | free (joined : Nat)
  /-- `total_threads--` -/
  | count (joined : Nat)
  /-- `TCB[curr_TID].exitcode = (void *)value_ptr` -/
  | code (joined : Nat)
  /-- `curr_TID = (pthread_t)(joined - MAX_THREADS)` -/
  | back (joined : Nat)
  | unlock
  /-- `longjmp(TCB[curr_TID].reg, 1)` -/
  | jump
  /-- `scheduler()` -/
  | schedule
  /-- `curr_TID = 0` -/
  | toMain
  /-- `longjmp(TCB[0].reg, 1)` -/
  | mainJump
  /-- `exit(0)` -/
  | finish
  deriving DecidableEq, Repr

inductive JoinPoint where
  /-- Everything from `lock` to `unlock`. -/
  | start
  /-- The `setjmp` returned; `*value_ptr = (void *) TCB[thread].exitcode` -/
  | copy
  /-- `TCB[curr_TID].status = RUNNING` -/
  | run (value : Value)
  | unlock (value : Option Value)
  /-- `scheduler()` -/
  | schedule
  /-- `longjmp(TCB[thread].reg, (int)waiting_thread + MAX_THREADS)` -/
  | jump (waitingThread : Tid)
  | finish (value : Option Value)
  deriving DecidableEq, Repr

inductive SemWaitPoint where
  | start
  /-- `temp->val <= 0` -/
  | test
  /-- `TCB[curr_TID].status = BLOCKED` -/
  | block
  /-- `temp->waiting[i] != 0` -/
  | find (slot : Nat)
  /-- `temp->waiting[i] = curr_TID` -/
  | insert (slot : Tid)
  /-- `scheduler()` -/
  | schedule
  /-- The `return 0` behind the call of `scheduler`. -/
  | woken
  /-- `temp->val > 0` -/
  | positive
  /-- `temp->val--` -/
  | decrement
  | finish (code : Int)
  deriving DecidableEq, Repr

inductive SemPostPoint where
  | start
  /-- `temp->val == 0` -/
  | zero
  /-- `temp->waiting[i] == 0 && i < MAX_THREADS` -/
  | scan (slot : Nat)
  /-- `i == MAX_THREADS` and, if it is not, `next_run = temp->waiting[i]` -/
  | found (slot : Nat)
  /-- `temp->waiting[i] = 0` -/
  | clear (slot nextRun : Tid)
  /-- `TCB[next_run].status = RUNNING` -/
  | grant (nextRun : Tid)
  /-- `longjmp(TCB[next_run].reg, 1)` -/
  | jump (nextRun : Tid)
  /-- `temp->val > 0` -/
  | positive
  /-- `temp->val++` -/
  | increment
  | finish (code : Int)
  deriving DecidableEq, Repr

/-- A call of the library by a thread's program. -/
inductive Frame where
  | create (routine arg : Value) (point : CreatePoint)
  | exit (value : Value) (point : ExitPoint)
  | join (thread : Tid) (point : JoinPoint)
  | semWait (sem : SemId) (point : SemWaitPoint)
  | semPost (sem : SemId) (point : SemPostPoint)
  deriving DecidableEq, Repr

/-! ## The search of scheduler -/

section Search

variable {curr tid : Tid}

/-- The search from `next` on comes to the thread before it comes to the current one. -/
def Ahead (curr : Tid) (next : Nat) (tid : Tid) : Prop :=
  (next ≤ curr.val → next ≤ tid.val ∧ tid.val < curr.val) ∧
    (curr.val < next → next ≤ tid.val ∨ tid.val < curr.val)

theorem ahead_start (other : tid ≠ curr) : Ahead curr (curr.val + 1) tid := by
  have otherVal : tid.val ≠ curr.val := fun same => other (Fin.ext same)
  constructor <;> intro order <;> omega

theorem ahead_advance {next : Tid} (ahead : Ahead curr next tid) (notNext : next ≠ curr)
    (notHere : tid ≠ next) : Ahead curr ((next.val + 1) % maxThreads) tid := by
  have notNextVal : next.val ≠ curr.val := fun same => notNext (Fin.ext same)
  have notHereVal : tid.val ≠ next.val := fun same => notHere (Fin.ext same)
  have bounds := And.intro next.isLt (And.intro curr.isLt tid.isLt)
  rcases ahead with ⟨before, behind⟩
  rcases Nat.lt_or_ge (next.val + 1) maxThreads with inRange | last
  · rw [Nat.mod_eq_of_lt inRange]
    constructor <;> intro order <;> omega
  · have wraps : (next.val + 1) % maxThreads = 0 := by
      have isLast : next.val + 1 = maxThreads := by omega
      rw [isLast, Nat.mod_self]
    rw [wraps]
    constructor <;> intro order <;> omega

theorem Ahead.ne_curr {next : Nat} (ahead : Ahead curr next tid) : next ≠ curr.val := by
  rintro rfl
  have between := ahead.1 le_rfl
  omega

end Search

/-! ## Contexts -/

/-- What `setjmp` saves.  `owner` is the thread on whose stack the program runs, `call` its
call of the library and `schedulers` the calls of `scheduler` above it, the latest first. -/
structure Context (User : Type) where
  owner : Tid
  user : User
  call : Option Frame
  schedulers : List SchedulerFrame

namespace Context

variable {User : Type}

/-- The code of the thread's program is executed, not the library's. -/
def InUserCode (context : Context User) : Prop :=
  context.call = none ∧ context.schedulers = []

instance (context : Context User) : Decidable context.InUserCode :=
  inferInstanceAs (Decidable (_ ∧ _))

/-- Only the `setjmp` of `pthread_exit` looks at the value that `longjmp` gives it. -/
def resume (context : Context User) (value : Nat) : Context User :=
  match context.schedulers, context.call with
  | [], some (.exit exitValue .set) =>
      { context with call := some (.exit exitValue (.joined value)) }
  | _, _ => context

theorem resume_schedulers (context : Context User) (value : Nat) :
    (context.resume value).schedulers = context.schedulers := by
  unfold resume
  split <;> rfl

/-- Elsewhere than in `pthread_exit`, a thread goes on from what it saved. -/
theorem resume_eq_self {context : Context User}
    (elsewhere : ∀ exitValue, context.schedulers = [] →
      context.call ≠ some (.exit exitValue .set)) (value : Nat) :
    context.resume value = context := by
  unfold resume
  split
  · exact absurd ‹_› (elsewhere _ ‹_›)
  · rfl

end Context

/-! ## The machine -/

inductive Stack where
  | null
  | allocated
  | freed
  deriving DecidableEq, Repr

/-- `thread`.  `joining` is `none` for −1. -/
structure Thread (User : Type) where
  status : Status
  stack : Stack
  reg : Option (Context User)
  exitcode : Value
  joining : Option Tid

/-- An entry of the zero-initialised `TCB`. -/
def Thread.zero (User : Type) : Thread User where
  status := .ready
  stack := .null
  reg := none
  exitcode := 0
  joining := some 0

/-- `enum semStatus` -/
inductive SemStatus where
  | destroyed
  | initialized
  deriving DecidableEq, Repr

/-- `seminfo` -/
structure SemInfo where
  val : Int
  waiting : Tid → Tid
  status : SemStatus

/-- `sem_init(sem, pshared, value)`, with the `unsigned` value stored in an `int` -/
def semInit (value : UInt32) : SemInfo where
  val := value.toBitVec.toInt
  waiting := fun _ => 0
  status := .initialized

/-- `masked` says that `SIGALRM` is blocked; `cpu` is the context that executes. -/
structure State (User : Type) where
  currTid : Tid
  tcb : Tid → Thread User
  totalThreads : Int
  firstCall : Bool
  masked : Bool
  sems : SemId → SemInfo
  cpu : Context User

namespace State

variable {User : Type} (state : State User)

def initial (sems : SemId → SemInfo) (user : User) : State User where
  currTid := 0
  tcb := fun _ => .zero User
  totalThreads := 0
  firstCall := true
  masked := false
  sems := sems
  cpu := { owner := 0, user, call := none, schedulers := [] }

def setStatus (tid : Tid) (status : Status) : State User :=
  { state with tcb := Function.update state.tcb tid { state.tcb tid with status } }

@[simp] theorem setStatus_status (tid other : Tid) (status : Status) :
    ((state.setStatus tid status).tcb other).status =
      if other = tid then status else (state.tcb other).status := by
  by_cases same : other = tid <;> simp [setStatus, same]

@[simp] theorem setStatus_reg (tid other : Tid) (status : Status) :
    ((state.setStatus tid status).tcb other).reg = (state.tcb other).reg := by
  by_cases same : other = tid <;> simp [setStatus, same]

@[simp] theorem setStatus_joining (tid other : Tid) (status : Status) :
    ((state.setStatus tid status).tcb other).joining = (state.tcb other).joining := by
  by_cases same : other = tid <;> simp [setStatus, same]

@[simp] theorem setStatus_exitcode (tid other : Tid) (status : Status) :
    ((state.setStatus tid status).tcb other).exitcode = (state.tcb other).exitcode := by
  by_cases same : other = tid <;> simp [setStatus, same]

def setReg (tid : Tid) (context : Context User) : State User :=
  { state with tcb := Function.update state.tcb tid { state.tcb tid with reg := some context } }

@[simp] theorem setReg_status (tid other : Tid) (context : Context User) :
    ((state.setReg tid context).tcb other).status = (state.tcb other).status := by
  by_cases same : other = tid <;> simp [setReg, same]

@[simp] theorem setReg_reg (tid other : Tid) (context : Context User) :
    ((state.setReg tid context).tcb other).reg =
      if other = tid then some context else (state.tcb other).reg := by
  by_cases same : other = tid <;> simp [setReg, same]

@[simp] theorem setReg_joining (tid other : Tid) (context : Context User) :
    ((state.setReg tid context).tcb other).joining = (state.tcb other).joining := by
  by_cases same : other = tid <;> simp [setReg, same]

@[simp] theorem setReg_exitcode (tid other : Tid) (context : Context User) :
    ((state.setReg tid context).tcb other).exitcode = (state.tcb other).exitcode := by
  by_cases same : other = tid <;> simp [setReg, same]

def setSem (sem : SemId) (info : SemInfo) : State User :=
  { state with sems := Function.update state.sems sem info }

def inCall (frame : Frame) : State User :=
  { state with cpu := { state.cpu with call := some frame } }

def inScheduler (handler : Bool) (rest : List SchedulerFrame) (point : SchedulerPoint) :
    State User :=
  { state with cpu := { state.cpu with schedulers := { handler, point } :: rest } }

/-- `longjmp(TCB[target].reg, value)` -/
def longjmp (target : Tid) (value : Nat) : Option (State User) :=
  (state.tcb target).reg.map fun context => { state with cpu := context.resume value }

theorem longjmp_eq_some_iff {target : Tid} {value : Nat} {after : State User} :
    state.longjmp target value = some after ↔
      ∃ context, (state.tcb target).reg = some context ∧
        after = { state with cpu := context.resume value } := by
  simp [longjmp, eq_comm]

/-- `sigprocmask(SIG_UNBLOCK, &set, &oset)` -/
def unlock : State User :=
  { state with masked := false }

/-- The two states have the same statuses, contexts, current thread and semaphores. -/
structure Agree (state after : State User) : Prop where
  status : ∀ tid, (after.tcb tid).status = (state.tcb tid).status
  reg : ∀ tid, (after.tcb tid).reg = (state.tcb tid).reg
  currTid : after.currTid = state.currTid
  firstCall : after.firstCall = state.firstCall
  sems : after.sems = state.sems

theorem Agree.refl : Agree state state :=
  ⟨fun _ => rfl, fun _ => rfl, rfl, rfl, rfl⟩

theorem Agree.trans {state middle after : State User} (first : Agree state middle)
    (second : Agree middle after) : Agree state after where
  status tid := (second.status tid).trans (first.status tid)
  reg tid := (second.reg tid).trans (first.reg tid)
  currTid := second.currTid.trans first.currTid
  firstCall := second.firstCall.trans first.firstCall
  sems := second.sems.trans first.sems

end State

end EC440.Threads
