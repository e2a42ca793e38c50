import EC440.Threads.Runs

/-!
# Accounting of a semaphore

Calls of `sem_wait` and `sem_post` on one semaphore in a run of the machine,
each executed without interruption up to its return, its call of `scheduler` or
its `longjmp`.  An account counts the posts and the granted waits and remembers
who is blocked.  The queue marks a free slot with 0, which is also the number of
the main thread, and `sem_wait` enters `curr_TID`, which a post leaves behind
when it jumps: everybody who is blocked is in the queue as long as the main
thread does not block and no thread blocks under the number of another one.
-/

namespace EC440.Threads

open Transition

variable {User : Type} {client : Client User} {state before after : State User} {sem : SemId}

/-! ## Uninterrupted calls -/

/-- The call returns, gives up the processor or has woken another thread. -/
def State.callEnds (state : State User) : Bool :=
  match state.cpu.call with
  | some (.semWait _ (.finish _)) | some (.semWait _ .schedule) => true
  | some (.semPost _ (.finish _)) | some (.semPost _ (.jump _)) => true
  | _ => false

/-- One statement of a call that has not ended. -/
def Executes (client : Client User) (before after : State User) : Prop :=
  before.callEnds = false ∧ before.statement client = some after

def ExecutesAll (client : Client User) (before after : State User) : Prop :=
  Relation.ReflTransGen (Executes client) before after ∧ after.callEnds = true

/-- The current thread enters a call on the semaphore. -/
structure Enters (state : State User) (call : Call) (sem : SemId) (info : SemInfo) : Prop where
  called : state.cpu.call = some call.entry
  noSchedulers : state.cpu.schedulers = []
  sems : state.sems sem = info

/-- The machine is inside a call on the semaphore that has not ended. -/
def Frame.within (sem : SemId) : Frame → Bool
  | .semWait _ .schedule | .semWait _ .woken | .semWait _ (.finish _) => false
  | .semPost _ (.jump _) | .semPost _ (.finish _) => false
  | .semWait other _ | .semPost other _ => decide (other = sem)
  | _ => false

def State.within (state : State User) (sem : SemId) : Bool :=
  state.cpu.call.any (Frame.within sem)

/-- What a run has done with a semaphore: the machine, the threads that are blocked in `sem_wait`,
the number of posts and the number of granted waits. -/
structure SemAccount (User : Type) where
  machine : State User
  blocked : Finset Tid
  posts : Nat
  granted : Nat

def SemAccount.start (machine : State User) : SemAccount User where
  machine := machine
  blocked := ∅
  posts := 0
  granted := 0

inductive SemMove where
  | wait
  | post
  | elsewhere
  deriving DecidableEq, Repr

/-- The thread that executes makes a whole call on the semaphore, or the machine takes any step
that is not inside such a call. -/
inductive Turn (client : Client User) (sem : SemId) (account : SemAccount User) :
    SemMove → SemAccount User → Prop
  /-- The wait is granted at once. -/
  | taken {after : State User}
      (enters : Enters account.machine (.semWait sem) sem (account.machine.sems sem))
      (executes : ExecutesAll client account.machine after)
      (ends : after.cpu.call = some (.semWait sem (.finish 0))) :
      Turn client sem account .wait
        { account with machine := after, granted := account.granted + 1 }
  /-- The thread blocks. -/
  | blocks {after : State User}
      (enters : Enters account.machine (.semWait sem) sem (account.machine.sems sem))
      (executes : ExecutesAll client account.machine after)
      (ends : after.cpu.call = some (.semWait sem .schedule)) :
      Turn client sem account .wait
        { account with
          machine := after, blocked := insert account.machine.cpu.owner account.blocked }
  /-- The post returns to its caller. -/
  | given {after : State User}
      (enters : Enters account.machine (.semPost sem) sem (account.machine.sems sem))
      (executes : ExecutesAll client account.machine after)
      (ends : after.cpu.call = some (.semPost sem (.finish 0))) :
      Turn client sem account .post
        { account with machine := after, posts := account.posts + 1 }
  /-- The post wakes a thread, whose wait it grants. -/
  | wakes {after : State User} {nextRun : Tid}
      (enters : Enters account.machine (.semPost sem) sem (account.machine.sems sem))
      (executes : ExecutesAll client account.machine after)
      (ends : after.cpu.call = some (.semPost sem (.jump nextRun))) :
      Turn client sem account .post
        { machine := after
          blocked := account.blocked.erase nextRun
          posts := account.posts + 1
          granted := account.granted + 1 }
  | elsewhere {action : Action User} {after : State User}
      (outside : account.machine.within sem = false)
      (step : Step client account.machine action after) :
      Turn client sem account .elsewhere { account with machine := after }

/-- A thread that has to block is not the main thread, `curr_TID` is its number, and it is not
blocked already. -/
def BlocksAsItself (sem : SemId) (account : SemAccount User) : SemMove → Prop
  | .wait => (account.machine.sems sem).val ≤ 0 →
      account.machine.cpu.owner ≠ 0 ∧ account.machine.currTid = account.machine.cpu.owner ∧
        account.machine.cpu.owner ∉ account.blocked
  | .post | .elsewhere => True

/-- The queue's entry `slot` becomes `tid`. -/
def SemInfo.record (info : SemInfo) (slot tid : Tid) : SemInfo :=
  { info with waiting := Function.update info.waiting slot tid }

theorem SemInfo.record_self (info : SemInfo) (slot tid : Tid) :
    (info.record slot tid).waiting slot = tid :=
  Function.update_self ..

theorem SemInfo.record_of_ne (info : SemInfo) {slot other : Tid} (tid : Tid)
    (elsewhere : other ≠ slot) : (info.record slot tid).waiting other = info.waiting other :=
  Function.update_of_ne elsewhere ..

/-! ## What leaves a semaphore alone -/

section Frame

variable {tid : Tid} {value : Nat}

theorem State.longjmp_sems (done : state.longjmp tid value = some after) :
    after.sems = state.sems := by
  rcases state.longjmp_eq_some_iff.mp done with ⟨context, -, rfl⟩
  rfl

theorem State.scheduler_sems {handler : Bool} {rest : List SchedulerFrame}
    {point : SchedulerPoint} (done : state.scheduler handler rest point = some after) :
    after.sems = state.sems := by
  cases point with
  | search next =>
      simp only [State.scheduler] at done
      split at done
      next => split at done <;> cases done <;> rfl
      next => cases done
  | chosen next =>
      simp only [State.scheduler] at done
      split at done <;> cases done <;> rfl
  | jump next => exact State.longjmp_sems done
  | start | advance next | ready next | save next | resumed | switch next | run next =>
      cases done
      rfl

theorem State.createThread_sems {routine arg : Value}
    (done : state.createThread client routine arg = some after) : after.sems = state.sems := by
  unfold State.createThread at done
  split at done
  next =>
      cases done
      rfl
  next =>
      rcases Option.map_eq_some_iff.mp done with ⟨tid, -, rfl⟩
      rfl

theorem State.pthreadCreate_sems {routine arg : Value} {point : CreatePoint}
    (done : state.pthreadCreate client routine arg point = some after) :
    after.sems = state.sems := by
  cases point with
  | start =>
      simp only [State.pthreadCreate] at done
      split at done
      next => exact (state.firstCreate routine arg).createThread_sems done
      next => exact state.createThread_sems done
  | resumed | finish code thread =>
      cases done
      rfl

theorem State.pthreadExit_sems {exitValue : Value} {point : ExitPoint}
    (done : state.pthreadExit exitValue point = some after) : after.sems = state.sems := by
  cases point with
  | start =>
      simp only [State.pthreadExit] at done
      split at done
      next =>
          rcases Option.map_eq_some_iff.mp done with ⟨freed, isFreed, rfl⟩
          exact (State.freeStack_agrees _ isFreed).sems
      next =>
          cases done
          rfl
  | joined joined =>
      simp only [State.pthreadExit] at done
      split at done <;> cases done <;> rfl
  | free joined =>
      rcases Option.map_eq_some_iff.mp done with ⟨freed, isFreed, rfl⟩
      exact (State.freeStack_agrees _ isFreed).sems
  | back joined =>
      rcases Option.map_eq_some_iff.mp done with ⟨joiner, -, rfl⟩
      rfl
  | jump | mainJump => exact State.longjmp_sems done
  | set | finish => cases done
  | mark joined | count joined | code joined | unlock | schedule | toMain =>
      cases done
      rfl

theorem State.pthreadJoin_sems {thread : Tid} {point : JoinPoint}
    (done : state.pthreadJoin client thread point = some after) : after.sems = state.sems := by
  cases point with
  | start =>
      simp only [State.pthreadJoin, State.joinUnexited] at done
      split at done
      next => split at done <;> cases done <;> rfl
      next =>
          cases done
          rfl
  | jump waitingThread => exact State.longjmp_sems done
  | copy | run value | unlock value | schedule | finish value =>
      cases done
      rfl

theorem State.setSem_of_ne {other : SemId} (distinct : other ≠ sem) (info : SemInfo) :
    (state.setSem other info).sems sem = state.sems sem :=
  Function.update_of_ne distinct.symm ..

theorem State.addVal_sems {other : SemId} {delta : Int} (distinct : other ≠ sem)
    (done : state.addVal other delta = some after) : after.sems sem = state.sems sem := by
  simp only [State.addVal, Option.ite_none_right_eq_some, Option.some.injEq] at done
  rcases done with ⟨-, rfl⟩
  exact State.setSem_of_ne distinct _

/-- Only a call on the semaphore that has not ended changes it. -/
theorem State.semWait_sems {other : SemId} {point : SemWaitPoint}
    (outside : Frame.within sem (.semWait other point) = false)
    (done : state.semWait client other point = some after) : after.sems sem = state.sems sem := by
  cases point with
  | start | test | positive =>
      simp only [State.semWait] at done
      split at done <;> cases done <;> rfl
  | find slot =>
      simp only [State.semWait] at done
      split at done
      next => split at done <;> cases done <;> rfl
      next => cases done
  | insert slot =>
      cases done
      exact State.setSem_of_ne (of_decide_eq_false outside) _
  | decrement =>
      rcases Option.map_eq_some_iff.mp done with ⟨taken, counted, rfl⟩
      have same : taken.sems sem = state.sems sem :=
        State.addVal_sems (of_decide_eq_false outside) counted
      exact same
  | block | schedule | woken | finish code =>
      cases done
      rfl

theorem State.semPost_sems {other : SemId} {point : SemPostPoint}
    (outside : Frame.within sem (.semPost other point) = false)
    (done : state.semPost client other point = some after) : after.sems sem = state.sems sem := by
  cases point with
  | start | zero | positive =>
      simp only [State.semPost] at done
      split at done <;> cases done <;> rfl
  | scan slot =>
      simp only [State.semPost] at done
      split at done
      next => split at done <;> cases done <;> rfl
      next =>
          cases done
          rfl
  | found slot =>
      simp only [State.semPost] at done
      split at done <;> cases done <;> rfl
  | clear slot nextRun =>
      cases done
      exact State.setSem_of_ne (of_decide_eq_false outside) _
  | increment =>
      rcases Option.map_eq_some_iff.mp done with ⟨given, counted, rfl⟩
      have same : given.sems sem = state.sems sem :=
        State.addVal_sems (of_decide_eq_false outside) counted
      exact same
  | jump nextRun => exact congrFun (State.longjmp_sems done) sem
  | grant nextRun | finish code =>
      cases done
      rfl

/-- A step outside the calls on a semaphore leaves it alone. -/
theorem Step.sems_of_outside {action : Action User} (outside : before.within sem = false)
    (step : Step client before action after) : after.sems sem = before.sems sem := by
  rcases step.cases with ⟨user, -, -, -, rfl⟩ | ⟨call, user, -, -, -, rfl⟩ |
    ⟨frame, -, -, called, executed⟩ | ⟨handler, point, rest, -, -, executed⟩ | ⟨-, -, -, rfl⟩
  · rfl
  · rfl
  · rw [State.within, called] at outside
    change frame.within sem = false at outside
    cases frame with
    | create routine arg point => exact congrFun (State.pthreadCreate_sems executed) sem
    | exit value point => exact congrFun (State.pthreadExit_sems executed) sem
    | join thread point => exact congrFun (State.pthreadJoin_sems executed) sem
    | semWait other point => exact State.semWait_sems outside executed
    | semPost other point => exact State.semPost_sems outside executed
  · exact congrFun (State.scheduler_sems executed) sem
  · rfl

end Frame

/-! ## What a call of sem_wait does -/

/-- What has happened to the semaphore at a statement of `sem_wait`. -/
def WaitPoint (info : SemInfo) (tid : Tid) (now : SemInfo) : SemWaitPoint → Prop
  | .start | .test => now = info
  | .block | .find _ => now = info ∧ info.val ≤ 0
  | .insert slot => now = info ∧ info.val ≤ 0 ∧ info.waiting slot = 0
  | .schedule =>
      info.val ≤ 0 ∧ ∃ slot, info.waiting slot = 0 ∧
        now = info.record slot tid
  | .positive | .decrement => now = info ∧ 0 < info.val
  | .finish code => code = 0 → 0 < info.val ∧ now = { info with val := info.val - 1 }
  | .woken => False

/-- The thread executes a call of `sem_wait` that found the semaphore as `info`. -/
structure InWait (sem : SemId) (info : SemInfo) (tid : Tid) (state : State User) : Prop where
  noSchedulers : state.cpu.schedulers = []
  current : state.currTid = tid
  point : ∃ point, state.cpu.call = some (.semWait sem point) ∧
    WaitPoint info tid (state.sems sem) point

theorem State.setSem_self (state : State User) (sem : SemId) (info : SemInfo) :
    (state.setSem sem info).sems sem = info :=
  Function.update_self ..

theorem statement_of_call {frame : Frame} (noSchedulers : state.cpu.schedulers = [])
    (called : state.cpu.call = some frame) :
    state.statement client = state.callStatement client frame := by
  rw [State.statement, noSchedulers, called]
  rfl

theorem InWait.executes {info : SemInfo} {tid : Tid} (inWait : InWait sem info tid before)
    (executes : Executes client before after) : InWait sem info tid after := by
  rcases inWait with ⟨noSchedulers, rfl, point, called, holds⟩
  rcases executes with ⟨goesOn, executed⟩
  rw [statement_of_call noSchedulers called] at executed
  change before.semWait client sem point = some after at executed
  cases point with
  | start =>
      simp only [State.semWait] at executed
      split at executed <;> cases executed
      · exact ⟨noSchedulers, rfl, _, rfl, holds⟩
      · exact ⟨noSchedulers, rfl, _, rfl, fun zero => absurd zero (by decide)⟩
  | test =>
      simp only [State.semWait] at executed
      split at executed <;> cases executed
      next exhausted => exact ⟨noSchedulers, rfl, _, rfl, holds, holds ▸ exhausted⟩
      next available => exact ⟨noSchedulers, rfl, _, rfl, holds, holds ▸ not_le.mp available⟩
  | block =>
      cases executed
      exact ⟨noSchedulers, rfl, _, rfl, holds⟩
  | find slot =>
      simp only [State.semWait] at executed
      split at executed
      next inRange =>
          split at executed <;> cases executed
          next => exact ⟨noSchedulers, rfl, _, rfl, holds⟩
          next free =>
              refine ⟨noSchedulers, rfl, _, rfl, holds.1, holds.2, ?_⟩
              rw [← holds.1]
              exact not_not.mp free
      next => cases executed
  | insert slot =>
      cases executed
      rcases holds with ⟨same, exhausted, free⟩
      refine ⟨noSchedulers, rfl, _, rfl, exhausted, slot, free, ?_⟩
      rw [← same]
      exact State.setSem_self ..
  | positive =>
      simp only [State.semWait] at executed
      split at executed <;> cases executed
      next => exact ⟨noSchedulers, rfl, _, rfl, holds⟩
      next exhausted => exact absurd (holds.1 ▸ holds.2) exhausted
  | decrement =>
      rcases Option.map_eq_some_iff.mp executed with ⟨taken, counted, rfl⟩
      simp only [State.addVal, Option.ite_none_right_eq_some, Option.some.injEq] at counted
      rcases counted with ⟨-, rfl⟩
      refine ⟨noSchedulers, rfl, _, rfl, fun _ => ⟨holds.2, ?_⟩⟩
      rw [← holds.1]
      exact State.setSem_self ..
  | schedule | finish code => simp [State.callEnds, called] at goesOn
  | woken => exact holds.elim

theorem InWait.executesAll {info : SemInfo} (enters : Enters before (.semWait sem) sem info)
    (executes : ExecutesAll client before after) : InWait sem info before.currTid after := by
  have entered : InWait sem info before.currTid before :=
    ⟨enters.noSchedulers, rfl, .start, enters.called, enters.sems⟩
  rcases executes with ⟨run, -⟩
  induction run with
  | refl => exact entered
  | tail _ last inductionHypothesis => exact inductionHypothesis.executes last

/-! ## What a call of sem_post does -/

/-- What has happened to the semaphore at a statement of `sem_post`. -/
def PostPoint (info now : SemInfo) : SemPostPoint → Prop
  | .start | .zero => now = info
  | .positive => now = info ∧ info.val ≠ 0
  | .scan slot =>
      now = info ∧ info.val = 0 ∧ ∀ other : Tid, other.val < slot → info.waiting other = 0
  | .found slot =>
      now = info ∧ info.val = 0 ∧ (∀ other : Tid, other.val < slot → info.waiting other = 0) ∧
        ∀ inRange : slot < maxThreads, info.waiting ⟨slot, inRange⟩ ≠ 0
  | .clear slot nextRun =>
      now = info ∧ info.val = 0 ∧ info.waiting slot = nextRun ∧ nextRun ≠ 0
  | .grant nextRun | .jump nextRun =>
      info.val = 0 ∧ nextRun ≠ 0 ∧ ∃ slot, info.waiting slot = nextRun ∧ now = info.record slot 0
  | .increment => now = info ∧ (0 < info.val ∨ info.val = 0 ∧ ∀ slot, info.waiting slot = 0)
  | .finish code =>
      code = 0 → now = info ∧ info.val < 0 ∨
        now = { info with val := info.val + 1 } ∧
          (0 < info.val ∨ info.val = 0 ∧ ∀ slot, info.waiting slot = 0)

/-- The processor executes a call of `sem_post` that found the semaphore as `info`. -/
structure InPost (sem : SemId) (info : SemInfo) (state : State User) : Prop where
  noSchedulers : state.cpu.schedulers = []
  point : ∃ point, state.cpu.call = some (.semPost sem point) ∧
    PostPoint info (state.sems sem) point

theorem InPost.executes {info : SemInfo} (inPost : InPost sem info before)
    (executes : Executes client before after) : InPost sem info after := by
  rcases inPost with ⟨noSchedulers, point, called, holds⟩
  rcases executes with ⟨goesOn, executed⟩
  rw [statement_of_call noSchedulers called] at executed
  change before.semPost client sem point = some after at executed
  cases point with
  | start =>
      simp only [State.semPost] at executed
      split at executed <;> cases executed
      · exact ⟨noSchedulers, _, rfl, holds⟩
      · exact ⟨noSchedulers, _, rfl, fun zero => absurd zero (by decide)⟩
  | zero =>
      simp only [State.semPost] at executed
      split at executed <;> cases executed
      next zero => exact ⟨noSchedulers, _, rfl, holds, holds ▸ zero, fun _ none => by omega⟩
      next nonzero => exact ⟨noSchedulers, _, rfl, holds, holds ▸ nonzero⟩
  | scan slot =>
      rcases holds with ⟨same, zero, scanned⟩
      simp only [State.semPost] at executed
      split at executed
      next inRange =>
          split at executed <;> cases executed
          next free =>
              refine ⟨noSchedulers, _, rfl, same, zero, fun other below => ?_⟩
              rcases Nat.lt_succ_iff_lt_or_eq.mp below with earlier | here
              · exact scanned other earlier
              · rw [← same, ← free]
                exact congrArg _ (Fin.ext here)
          next taken =>
              refine ⟨noSchedulers, _, rfl, same, zero, scanned, fun _ => ?_⟩
              rw [← same]
              exact taken
      next outside =>
          cases executed
          exact ⟨noSchedulers, _, rfl, same, zero, scanned, fun inRange => absurd inRange outside⟩
  | found slot =>
      rcases holds with ⟨same, zero, scanned, taken⟩
      simp only [State.semPost] at executed
      split at executed <;> cases executed
      next inRange =>
          refine ⟨noSchedulers, _, rfl, same, zero, ?_, ?_⟩ <;> rw [same]
          exact taken inRange
      next outside =>
          refine ⟨noSchedulers, _, rfl, same, .inr ⟨zero, fun other => scanned other ?_⟩⟩
          exact lt_of_lt_of_le other.isLt (not_lt.mp outside)
  | clear slot nextRun =>
      cases executed
      rcases holds with ⟨same, zero, waits, nonzero⟩
      refine ⟨noSchedulers, _, rfl, zero, nonzero, slot, waits, ?_⟩
      rw [← same]
      exact State.setSem_self ..
  | grant nextRun =>
      cases executed
      exact ⟨noSchedulers, _, rfl, holds⟩
  | positive =>
      simp only [State.semPost] at executed
      split at executed <;> cases executed
      next available => exact ⟨noSchedulers, _, rfl, holds.1, .inl (holds.1 ▸ available)⟩
      next exhausted =>
          refine ⟨noSchedulers, _, rfl, fun _ => .inl ⟨holds.1, ?_⟩⟩
          exact lt_of_le_of_ne (holds.1 ▸ not_lt.mp exhausted) holds.2
  | increment =>
      rcases Option.map_eq_some_iff.mp executed with ⟨given, counted, rfl⟩
      simp only [State.addVal, Option.ite_none_right_eq_some, Option.some.injEq] at counted
      rcases counted with ⟨-, rfl⟩
      refine ⟨noSchedulers, _, rfl, fun _ => .inr ⟨?_, holds.2⟩⟩
      rw [← holds.1]
      exact State.setSem_self ..
  | jump nextRun | finish code => simp [State.callEnds, called] at goesOn

theorem InPost.executesAll {info : SemInfo} (enters : Enters before (.semPost sem) sem info)
    (executes : ExecutesAll client before after) : InPost sem info after := by
  have entered : InPost sem info before :=
    ⟨enters.noSchedulers, .start, enters.called, enters.sems⟩
  rcases executes with ⟨run, -⟩
  induction run with
  | refl => exact entered
  | tail _ last inductionHypothesis => exact inductionHypothesis.executes last

theorem executes_post {point : SemPostPoint} (noSchedulers : state.cpu.schedulers = [])
    (called : state.cpu.call = some (.semPost sem point)) (goesOn : state.callEnds = false)
    (executed : state.semPost client sem point = some after) : Executes client state after :=
  ⟨goesOn, (statement_of_call noSchedulers called).trans executed⟩

theorem ExecutesAll.head {middle : State User} (first : Executes client before middle)
    (others : ExecutesAll client middle after) : ExecutesAll client before after :=
  ⟨.head first others.1, others.2⟩

def State.posted (state : State User) (sem : SemId) (slot : Tid) : State User :=
  let nextRun := (state.sems sem).waiting slot
  ((state.setWaiting sem slot 0).setStatus nextRun .running).inCall (.semPost sem (.jump nextRun))

theorem State.posted_running (state : State User) (sem : SemId) (slot : Tid) :
    ((state.posted sem slot).tcb ((state.sems sem).waiting slot)).status = .running :=
  (State.setStatus_status ..).trans (if_pos rfl)

/-- A post that has found an entry of the queue wakes the thread recorded there. -/
theorem executesAll_of_found (client : Client User) (state : State User) (slot : Tid)
    (noSchedulers : state.cpu.schedulers = [])
    (called : state.cpu.call = some (.semPost sem (.found slot.val))) :
    ExecutesAll client state (state.posted sem slot) := by
  let nextRun := (state.sems sem).waiting slot
  let chosen := state.inCall (.semPost sem (.clear slot nextRun))
  let cleared := (chosen.setWaiting sem slot 0).inCall (.semPost sem (.grant nextRun))
  have finds : Executes client state chosen :=
    executes_post noSchedulers called (by simp [State.callEnds, called]) (dif_pos slot.isLt)
  have clears : Executes client chosen cleared := executes_post noSchedulers rfl rfl rfl
  have grants : Executes client cleared (state.posted sem slot) :=
    executes_post noSchedulers rfl rfl rfl
  exact .head finds (.head clears (.head grants ⟨.refl, rfl⟩))

theorem executesAll_of_scan (client : Client User) (state : State User) {slot : Nat} {entry : Tid}
    (noSchedulers : state.cpu.schedulers = [])
    (called : state.cpu.call = some (.semPost sem (.scan slot))) (ahead : slot ≤ entry.val)
    (waits : (state.sems sem).waiting entry ≠ 0) :
    ∃ first : Tid, slot ≤ first.val ∧ (state.sems sem).waiting first ≠ 0 ∧
      (∀ other : Tid, slot ≤ other.val → other < first → (state.sems sem).waiting other = 0) ∧
      ExecutesAll client state (state.posted sem first) := by
  -- by induction on how far the entry still is
  induction distance : entry.val - slot generalizing state slot with
  | zero =>
      have here : slot = entry.val := by omega
      subst here
      have finds : Executes client state (state.inCall (.semPost sem (.found entry.val))) := by
        refine executes_post noSchedulers called (by simp [State.callEnds, called]) ?_
        exact (dif_pos entry.isLt).trans (if_neg waits)
      refine ⟨entry, le_rfl, waits, fun other behind before => ?_, .head finds ?_⟩
      · exact absurd before (not_lt.mpr behind)
      · exact executesAll_of_found client (state.inCall _) entry noSchedulers rfl
  | succ distance inductionHypothesis =>
      have inRange : slot < maxThreads := by have := entry.isLt; omega
      by_cases taken : (state.sems sem).waiting ⟨slot, inRange⟩ = 0
      · have passes : Executes client state (state.inCall (.semPost sem (.scan (slot + 1)))) := by
          refine executes_post noSchedulers called (by simp [State.callEnds, called]) ?_
          exact (dif_pos inRange).trans (if_pos taken)
        rcases inductionHypothesis (state.inCall (.semPost sem (.scan (slot + 1)))) noSchedulers
            rfl (by omega) waits (by omega) with ⟨first, behind, waitsThere, free, executes⟩
        refine ⟨first, by omega, waitsThere, fun other passed before => ?_, .head passes executes⟩
        rcases Nat.eq_or_lt_of_le passed with here | later
        · exact (congrArg _ (Fin.ext here.symm)).trans taken
        · exact free other later before
      · have finds : Executes client state (state.inCall (.semPost sem (.found slot))) := by
          refine executes_post noSchedulers called (by simp [State.callEnds, called]) ?_
          exact (dif_pos inRange).trans (if_neg taken)
        refine ⟨⟨slot, inRange⟩, le_rfl, taken, fun other behind before => ?_, .head finds ?_⟩
        · exact absurd before (not_lt.mpr behind)
        · exact executesAll_of_found client (state.inCall _) ⟨slot, inRange⟩ noSchedulers rfl

/-- A post on a semaphore with value 0 wakes the thread of the first entry of the queue. -/
theorem executesAll_of_waits (client : Client User) {info : SemInfo} {entry : Tid}
    (enters : Enters state (.semPost sem) sem info) (initialized : info.status = .initialized)
    (zero : info.val = 0) (waits : info.waiting entry ≠ 0) :
    ∃ first, info.waiting first ≠ 0 ∧ (∀ other < first, info.waiting other = 0) ∧
      ExecutesAll client state (state.posted sem first) := by
  rcases enters with ⟨called, noSchedulers, rfl⟩
  change state.cpu.call = some (.semPost sem .start) at called
  let checked := state.inCall (.semPost sem .zero)
  have starts : Executes client state checked :=
    executes_post noSchedulers called (by simp [State.callEnds, called]) (if_pos initialized)
  have tests : Executes client checked (checked.inCall (.semPost sem (.scan 0))) :=
    executes_post noSchedulers rfl rfl (if_pos zero)
  rcases executesAll_of_scan client (checked.inCall (.semPost sem (.scan 0))) noSchedulers rfl
      (Nat.zero_le entry.val) waits with ⟨first, -, waitsThere, free, executes⟩
  exact ⟨first, waitsThere, fun other => free other (Nat.zero_le _),
    .head starts (.head tests executes)⟩

theorem exists_wakes {info : SemInfo} {entry : Tid}
    (enters : Enters state (.semPost sem) sem info) (initialized : info.status = .initialized)
    (zero : info.val = 0) (waits : info.waiting entry ≠ 0) :
    ∃ after nextRun, ExecutesAll client state after ∧
      after.cpu.call = some (.semPost sem (.jump nextRun)) ∧
      (after.tcb nextRun).status = .running := by
  rcases executesAll_of_waits client enters initialized zero waits with
    ⟨first, -, -, executes⟩
  exact ⟨_, _, executes, rfl, state.posted_running sem first⟩

/-! ## The ledger -/

/-- The semaphore itself, with what has been done with it. -/
structure Ledger where
  info : SemInfo
  blocked : Finset Tid
  posts : Nat
  granted : Nat

def SemAccount.ledger (account : SemAccount User) (sem : SemId) : Ledger where
  info := account.machine.sems sem
  blocked := account.blocked
  posts := account.posts
  granted := account.granted

/-- What the ledger of a semaphore that started at `initial` says about its value and queue. -/
structure Ledger.Accounted (initial : Int) (ledger : Ledger) : Prop where
  initialized : ledger.info.status = .initialized
  balance : ledger.info.val = initial + ledger.posts - ledger.granted
  nonneg : 0 ≤ ledger.info.val
  exhausted : ledger.blocked.Nonempty → ledger.info.val = 0
  mainFree : 0 ∉ ledger.blocked
  recorded : ∀ tid ∈ ledger.blocked, ∃! slot, ledger.info.waiting slot = tid
  onlyBlocked : ∀ slot, ledger.info.waiting slot ≠ 0 → ledger.info.waiting slot ∈ ledger.blocked

namespace Ledger

variable {initial : Int} {ledger : Ledger}

theorem accounted_start {value : UInt32} {machine : State User} (small : value.toNat < 2 ^ 31)
    (initialized : machine.sems sem = semInit value) :
    ((SemAccount.start machine).ledger sem).Accounted value.toNat := by
  have positive : value.toBitVec.toInt = value.toNat :=
    BitVec.toInt_eq_toNat_of_lt (by simpa using by omega)
  have ledger : (SemAccount.start machine).ledger sem =
      { info := semInit value, blocked := ∅, posts := 0, granted := 0 } := by
    rw [SemAccount.ledger, SemAccount.start, initialized]
  rw [ledger]
  constructor
  case initialized => rfl
  case balance => simp [semInit, positive]
  case nonneg => simp [semInit, positive]
  case exhausted => exact fun nonempty => absurd nonempty Finset.not_nonempty_empty
  case mainFree => exact Finset.notMem_empty 0
  case recorded => exact fun tid membership => absurd membership (Finset.notMem_empty tid)
  case onlyBlocked => exact fun slot waits => absurd rfl waits

theorem Accounted.blocked_eq_empty (accounted : ledger.Accounted initial)
    (available : 0 < ledger.info.val) : ledger.blocked = ∅ := by
  by_contra nonempty
  have zero := accounted.exhausted (Finset.nonempty_iff_ne_empty.mpr nonempty)
  omega

theorem Accounted.ne_zero (accounted : ledger.Accounted initial) {tid : Tid}
    (membership : tid ∈ ledger.blocked) : tid ≠ 0 :=
  fun isMain => accounted.mainFree (isMain ▸ membership)

theorem Accounted.taken (accounted : ledger.Accounted initial)
    (available : 0 < ledger.info.val) :
    ({ ledger with
        info := { ledger.info with val := ledger.info.val - 1 }
        granted := ledger.granted + 1 } : Ledger).Accounted initial where
  __ := accounted
  balance := by
    have balance := accounted.balance
    push_cast
    omega
  nonneg := by
    change 0 ≤ ledger.info.val - 1
    omega
  exhausted nonempty :=
    absurd (accounted.blocked_eq_empty available) (Finset.nonempty_iff_ne_empty.mp nonempty)

theorem Accounted.blocks (accounted : ledger.Accounted initial) {tid slot : Tid}
    (free : tid ∉ ledger.blocked) (notMain : tid ≠ 0) (zero : ledger.info.val = 0)
    (slotFree : ledger.info.waiting slot = 0) :
    ({ ledger with
        info := ledger.info.record slot tid
        blocked := insert tid ledger.blocked } : Ledger).Accounted initial where
  initialized := accounted.initialized
  balance := accounted.balance
  nonneg := accounted.nonneg
  exhausted _ := zero
  mainFree membership := by
    rcases Finset.mem_insert.mp membership with isTid | before
    · exact notMain isTid.symm
    · exact accounted.mainFree before
  recorded other membership := by
    rcases Finset.mem_insert.mp membership with rfl | before
    · refine ⟨slot, ledger.info.record_self slot other, fun another waits => ?_⟩
      by_contra elsewhere
      -- whoever stood in another slot before was blocked
      have stood : ledger.info.waiting another = other :=
        (ledger.info.record_of_ne other elsewhere).symm.trans waits
      exact free (stood ▸ accounted.onlyBlocked another (stood ▸ notMain))
    · rcases accounted.recorded other before with ⟨own, waits, unique⟩
      have ownKept : own ≠ slot := by
        rintro rfl
        exact accounted.ne_zero before (waits.symm.trans slotFree)
      refine ⟨own, (ledger.info.record_of_ne tid ownKept).trans waits, fun another also => ?_⟩
      by_cases isSlot : another = slot
      · subst isSlot
        have isTid : tid = other := (ledger.info.record_self another tid).symm.trans also
        exact absurd (isTid ▸ before) free
      · exact unique another ((ledger.info.record_of_ne tid isSlot).symm.trans also)
  onlyBlocked other waits := by
    change (ledger.info.record slot tid).waiting other ∈ insert tid ledger.blocked
    by_cases isSlot : other = slot
    · subst isSlot
      exact Finset.mem_insert.mpr (.inl (ledger.info.record_self other tid))
    · have same := ledger.info.record_of_ne tid isSlot
      rw [same]
      exact Finset.mem_insert_of_mem (accounted.onlyBlocked other (same ▸ waits))

theorem Accounted.given (accounted : ledger.Accounted initial) (unblocked : ledger.blocked = ∅) :
    ({ ledger with
        info := { ledger.info with val := ledger.info.val + 1 }
        posts := ledger.posts + 1 } : Ledger).Accounted initial where
  __ := accounted
  balance := by
    have balance := accounted.balance
    push_cast
    omega
  nonneg := by
    have nonneg := accounted.nonneg
    change 0 ≤ ledger.info.val + 1
    omega
  exhausted nonempty := absurd unblocked (Finset.nonempty_iff_ne_empty.mp nonempty)

theorem Accounted.wakes (accounted : ledger.Accounted initial) {slot : Tid}
    (waits : ledger.info.waiting slot ≠ 0) :
    ({ info := ledger.info.record slot 0
       blocked := ledger.blocked.erase (ledger.info.waiting slot)
       posts := ledger.posts + 1
       granted := ledger.granted + 1 } : Ledger).Accounted initial where
  initialized := accounted.initialized
  balance := by
    have balance := accounted.balance
    change ledger.info.val = _
    push_cast
    omega
  nonneg := accounted.nonneg
  exhausted nonempty := accounted.exhausted (nonempty.mono (Finset.erase_subset ..))
  mainFree membership := accounted.mainFree (Finset.mem_of_mem_erase membership)
  recorded tid membership := by
    have blocked := Finset.mem_of_mem_erase membership
    rcases accounted.recorded tid blocked with ⟨own, ownWaits, unique⟩
    have ownKept : own ≠ slot := by
      rintro rfl
      exact Finset.ne_of_mem_erase membership ownWaits.symm
    refine ⟨own, (ledger.info.record_of_ne 0 ownKept).trans ownWaits, fun another also => ?_⟩
    by_cases isSlot : another = slot
    · subst isSlot
      have isMain : 0 = tid := (ledger.info.record_self another 0).symm.trans also
      exact absurd isMain.symm (accounted.ne_zero blocked)
    · exact unique another ((ledger.info.record_of_ne 0 isSlot).symm.trans also)
  onlyBlocked other stillWaits := by
    change (ledger.info.record slot 0).waiting other ∈
      ledger.blocked.erase (ledger.info.waiting slot)
    by_cases isSlot : other = slot
    · subst isSlot
      exact absurd (ledger.info.record_self other 0) stillWaits
    · have same := ledger.info.record_of_ne 0 isSlot
      rw [same]
      have blocked := accounted.onlyBlocked other (same ▸ stillWaits)
      refine Finset.mem_erase.mpr ⟨fun twice => isSlot ?_, blocked⟩
      -- nobody is recorded twice
      exact (accounted.recorded _ blocked).unique rfl twice.symm

end Ledger

namespace SemAccount

variable {initial : Int} {account next : SemAccount User}

theorem accounted_turn {move : SemMove} (accounted : (account.ledger sem).Accounted initial)
    (asItself : BlocksAsItself sem account move) (turn : Turn client sem account move next) :
    (next.ledger sem).Accounted initial := by
  cases turn with
  | taken enters executes ends =>
      rcases InWait.executesAll enters executes with ⟨-, -, point, called, holds⟩
      cases Option.some.inj (called.symm.trans ends)
      rcases holds rfl with ⟨available, now⟩
      rw [ledger, now]
      exact accounted.taken available
  | blocks enters executes ends =>
      rcases InWait.executesAll enters executes with ⟨-, -, point, called, holds⟩
      cases Option.some.inj (called.symm.trans ends)
      rcases holds with ⟨exhausted, slot, slotFree, now⟩
      rcases asItself exhausted with ⟨notMain, current, free⟩
      rw [ledger, now, current]
      exact accounted.blocks free notMain (le_antisymm exhausted accounted.nonneg) slotFree
  | given enters executes ends =>
      rcases InPost.executesAll enters executes with ⟨-, point, called, holds⟩
      cases Option.some.inj (called.symm.trans ends)
      rcases holds rfl with ⟨-, negative⟩ | ⟨now, nobodyWaits⟩
      · exact absurd accounted.nonneg (not_le.mpr negative)
      rw [ledger, now]
      refine accounted.given ?_
      rcases nobodyWaits with available | ⟨-, nobody⟩
      · exact accounted.blocked_eq_empty available
      · refine Finset.eq_empty_of_forall_notMem fun tid blocked => ?_
        rcases (accounted.recorded tid blocked).exists with ⟨slot, waits⟩
        exact accounted.ne_zero blocked (waits.symm.trans (nobody slot))
  | wakes enters executes ends =>
      rcases InPost.executesAll enters executes with ⟨-, point, called, holds⟩
      cases Option.some.inj (called.symm.trans ends)
      rcases holds with ⟨-, nonzero, slot, rfl, now⟩
      rw [ledger, now]
      exact accounted.wakes nonzero
  | elsewhere outside step =>
      rw [ledger, step.sems_of_outside outside]
      exact accounted

/-- A post has granted the wait of exactly one blocked thread. -/
def Grants (account next : SemAccount User) : Prop :=
  ∃ tid ∈ account.blocked, next.blocked = account.blocked.erase tid ∧
    next.granted = account.granted + 1 ∧ next.posts = account.posts + 1

theorem grants (accounted : (account.ledger sem).Accounted initial)
    (nonempty : account.blocked.Nonempty) (turn : Turn client sem account .post next) :
    account.Grants next := by
  cases turn with
  | given enters executes ends =>
      rcases InPost.executesAll enters executes with ⟨-, point, called, holds⟩
      cases Option.some.inj (called.symm.trans ends)
      have zero : (account.machine.sems sem).val = 0 := accounted.exhausted nonempty
      rcases nonempty with ⟨waiter, blocked⟩
      rcases (accounted.recorded waiter blocked).exists with ⟨slot, waits⟩
      rcases holds rfl with ⟨-, negative⟩ | ⟨-, available | ⟨-, nobody⟩⟩
      · omega
      · omega
      · exact absurd (waits.symm.trans (nobody slot)) (accounted.ne_zero blocked)
  | wakes enters executes ends =>
      rcases InPost.executesAll enters executes with ⟨-, point, called, holds⟩
      cases Option.some.inj (called.symm.trans ends)
      rcases holds with ⟨-, nonzero, slot, rfl, -⟩
      exact ⟨_, accounted.onlyBlocked slot nonzero, rfl, rfl, rfl⟩

end SemAccount

/-- As long as every thread that blocks is recorded under its own number, and the main thread does
not block, the value is what the posts and the granted waits make it, everybody who is blocked
stands in the queue once, and every post then grants one of their waits. -/
theorem semaphoreAccounting {value : UInt32} (small : value.toNat < 2 ^ 31)
    {machine : State User} (initialized : machine.sems sem = semInit value)
    {account : SemAccount User}
    (run : RunUnder (Turn client sem) (BlocksAsItself sem) (.start machine) account) :
    ((account.machine.sems sem).val = value.toNat + account.posts - account.granted ∧
        0 ≤ (account.machine.sems sem).val) ∧
      (∀ tid ∈ account.blocked, (account.machine.sems sem).val = 0 ∧
        ∃! slot, (account.machine.sems sem).waiting slot = tid) ∧
      (account.blocked.Nonempty →
        (∀ before, Enters before (.semPost sem) sem (account.machine.sems sem) →
          ∃ after nextRun, ExecutesAll client before after ∧
            after.cpu.call = some (.semPost sem (.jump nextRun)) ∧
            (after.tcb nextRun).status = .running) ∧
        ∀ next, Turn client sem account .post next → account.Grants next) := by
  have accounted : (account.ledger sem).Accounted value.toNat :=
    RunUnder.invariant (fun account => (account.ledger sem).Accounted value.toNat)
      (fun _ _ _ accounted asItself turn => SemAccount.accounted_turn accounted asItself turn)
      (Ledger.accounted_start small initialized) run
  refine ⟨⟨accounted.balance, accounted.nonneg⟩, fun tid blocked => ?_, fun nonempty => ?_⟩
  · exact ⟨accounted.exhausted ⟨tid, blocked⟩, accounted.recorded tid blocked⟩
  · refine ⟨fun before enters => ?_, fun next turn => SemAccount.grants accounted nonempty turn⟩
    rcases nonempty with ⟨waiter, blocked⟩
    rcases (accounted.recorded waiter blocked).exists with ⟨slot, waits⟩
    exact exists_wakes enters accounted.initialized (accounted.exhausted ⟨waiter, blocked⟩)
      (waits ▸ accounted.ne_zero blocked)

/-! ## Evaluated calls -/

/-- Execute at most the given number of statements, up to the end of the call. -/
def State.execute (client : Client User) : Nat → State User → Option (State User)
  | 0, state => if state.callEnds then some state else none
  | fuel + 1, state =>
      if state.callEnds then some state else (state.statement client).bind (execute client fuel)

theorem executesAll_of_execute {fuel : Nat} (executed : before.execute client fuel = some after) :
    ExecutesAll client before after := by
  induction fuel generalizing before with
  | zero =>
      rcases Option.ite_none_right_eq_some.mp executed with ⟨ends, isAfter⟩
      cases isAfter
      exact ⟨.refl, ends⟩
  | succ fuel inductionHypothesis =>
      rw [State.execute] at executed
      split at executed
      next ends =>
          cases executed
          exact ⟨.refl, ends⟩
      next goesOn =>
          rcases Option.bind_eq_some_iff.mp executed with ⟨middle, first, others⟩
          exact .head ⟨Bool.eq_false_iff.mpr goesOn, first⟩ (inductionHypothesis others)

theorem exists_executesAll {fuel : Nat} {holds : State User → Bool}
    (evaluated : (before.execute client fuel).any holds = true) :
    ∃ after, ExecutesAll client before after ∧ holds after = true := by
  rcases (Option.any_eq_true _ _).mp evaluated with ⟨after, executed, holdsAfter⟩
  exact ⟨after, executesAll_of_execute executed, holdsAfter⟩

/-! ## Evaluated turns -/

theorem Boots.sems {sems : SemId → SemInfo} {user : User} (boots : Boots client sems user state) :
    state.sems = sems := by
  rcases boots with ⟨routine, arg, booted⟩
  rw [boot_eq] at booted
  exact State.pthreadCreate_sems booted

def State.performOutside (sem : SemId) (state : State Unit) (action : Action Unit) :
    Option (State Unit) :=
  if state.within sem = false then state.perform idleClient action else none

abbrev RunOutside (client : Client User) (sem : SemId) : State User → State User → Prop :=
  RunUnder (Step client) fun state _ => state.within sem = false

theorem step_of_performOutside {before after : State Unit} {action : Action Unit}
    (performed : before.performOutside sem action = some after) :
    before.within sem = false ∧ Step idleClient before action after := by
  rcases Option.ite_none_right_eq_some.mp performed with ⟨outside, performed⟩
  refine ⟨outside, ?_, performed⟩
  cases action <;> trivial

theorem SemAccount.run_elsewhere {allowed : SemAccount User → SemMove → Prop}
    (permits : ∀ account, allowed account .elsewhere) (blocked : Finset Tid) (posts granted : Nat)
    (run : RunOutside client sem before after) :
    RunUnder (Turn client sem) allowed ⟨before, blocked, posts, granted⟩
      ⟨after, blocked, posts, granted⟩ := by
  induction run with
  | refl => exact .refl
  | tail _ last inductionHypothesis =>
      rcases last with ⟨action, outside, step⟩
      exact inductionHypothesis.tail ⟨.elsewhere, permits _, .elsewhere outside step⟩

/-- One thread waits and blocks, and another one posts. -/
structure WaitThenPost (start waiting blocked posting posted : State Unit) : Prop where
  boots : Boots idleClient (fun _ => semInit 0) () start
  first : RunOutside idleClient 0 start waiting
  waits : Enters waiting (.semWait 0) 0 (waiting.sems 0)
  blocks : ExecutesAll idleClient waiting blocked
  blockEnds : blocked.cpu.call = some (.semWait 0 .schedule)
  second : RunOutside idleClient 0 blocked posting
  posts : Enters posting (.semPost 0) 0 (posting.sems 0)
  executes : ExecutesAll idleClient posting posted

theorem WaitThenPost.run {start waiting blocked posting posted : State Unit}
    {allowed : SemAccount Unit → SemMove → Prop}
    (turns : WaitThenPost start waiting blocked posting posted)
    (permits : ∀ account, allowed account .elsewhere)
    (permitsWait : allowed ⟨waiting, ∅, 0, 0⟩ .wait) :
    RunUnder (Turn idleClient 0) allowed (.start start)
      ⟨posting, insert waiting.cpu.owner ∅, 0, 0⟩ := by
  have first : RunUnder (Turn idleClient 0) allowed (.start start) ⟨waiting, ∅, 0, 0⟩ :=
    SemAccount.run_elsewhere permits ∅ 0 0 turns.first
  have blocks : Turn idleClient 0 ⟨waiting, ∅, 0, 0⟩ .wait
      ⟨blocked, insert waiting.cpu.owner ∅, 0, 0⟩ :=
    .blocks turns.waits turns.blocks turns.blockEnds
  have second : RunUnder (Turn idleClient 0) allowed
      ⟨blocked, insert waiting.cpu.owner ∅, 0, 0⟩ ⟨posting, insert waiting.cpu.owner ∅, 0, 0⟩ :=
    SemAccount.run_elsewhere permits _ 0 0 turns.second
  exact (first.tail ⟨.wait, permitsWait, blocks⟩).trans second

theorem exists_waitThenPost {first second : List (Action Unit)} {fuel : Nat}
    {holds : State Unit → State Unit → State Unit → Bool}
    (evaluated : ((boot idleClient (fun _ => semInit 0) () 0 0).bind
      (follow (State.performOutside 0) first)).any (fun waiting =>
        (waiting.cpu.call = some (.semWait 0 .start) ∧ waiting.cpu.schedulers = []) ∧
        (waiting.execute idleClient 5).any fun blocked =>
          blocked.cpu.call = some (.semWait 0 .schedule) ∧
          (follow (State.performOutside 0) second blocked).any fun posting =>
            (posting.cpu.call = some (.semPost 0 .start) ∧ posting.cpu.schedulers = []) ∧
            (posting.execute idleClient fuel).any (holds waiting posting)) = true) :
    ∃ start waiting blocked posting posted,
      WaitThenPost start waiting blocked posting posted ∧ holds waiting posting posted = true := by
  have performed (actions : List (Action Unit)) : ∀ action ∈ actions, ∀ before after : State Unit,
      before.performOutside 0 action = some after →
        before.within 0 = false ∧ Step idleClient before action after :=
    fun _ _ _ _ done => step_of_performOutside done
  rcases exists_run_of_follow (performed first) evaluated with
    ⟨start, waiting, booted, run, holdsAt⟩
  rcases of_decide_eq_true holdsAt with ⟨⟨waits, noSchedulers⟩, blocks⟩
  rcases exists_executesAll blocks with ⟨blocked, executes, holdsThen⟩
  rcases of_decide_eq_true holdsThen with ⟨blockEnds, goesOn⟩
  rcases (Option.any_eq_true _ _).mp goesOn with ⟨posting, followed, holdsAfter⟩
  rcases of_decide_eq_true holdsAfter with ⟨⟨posts, noSchedulers'⟩, posted⟩
  rcases exists_executesAll posted with ⟨last, executesPost, holdsLast⟩
  exact ⟨start, waiting, blocked, posting, last, ⟨⟨0, 0, booted⟩, run, ⟨waits, noSchedulers, rfl⟩,
    executes, blockEnds, run_of_follow (performed second) followed, ⟨posts, noSchedulers', rfl⟩,
    executesPost⟩, holdsLast⟩

/-- The main thread creates thread 2 and is interrupted, and thread 1 calls `sem_wait`. -/
def firstWaits : List (Action Unit) :=
  [.statement, .call (.create 0 0) (), .statement, .statement, .alarm] ++
    List.replicate 8 .statement ++ [.call (.semWait 0) ()]

/-- `sem_wait` calls `scheduler`, and the thread that goes on calls `sem_post`. -/
def otherPosts : List (Action Unit) :=
  List.replicate 7 .statement ++ [.call (.semPost 0) ()]

theorem semaphoreAccounting_blocked :
    ∃ start account next, Boots idleClient (fun _ => semInit 0) () start ∧
      RunUnder (Turn idleClient 0) (BlocksAsItself 0) (.start start) account ∧
      account.blocked = {1} ∧ (account.machine.sems 0).val = 0 ∧
      (∃! slot, (account.machine.sems 0).waiting slot = 1) ∧
      Turn idleClient 0 account .post next ∧ account.Grants next ∧ next.blocked = ∅ := by
  have evaluated : ((boot idleClient (fun _ => semInit 0) () 0 0).bind
      (follow (State.performOutside 0) firstWaits)).any (fun waiting =>
        (waiting.cpu.call = some (.semWait 0 .start) ∧ waiting.cpu.schedulers = []) ∧
        (waiting.execute idleClient 5).any fun blocked =>
          blocked.cpu.call = some (.semWait 0 .schedule) ∧
          (follow (State.performOutside 0) otherPosts blocked).any fun posting =>
            (posting.cpu.call = some (.semPost 0 .start) ∧ posting.cpu.schedulers = []) ∧
            (posting.execute idleClient 6).any fun posted =>
              waiting.cpu.owner = 1 ∧ waiting.currTid = 1 ∧
                posted.cpu.call = some (.semPost 0 (.jump 1))) = true := by
    decide +kernel
  rcases exists_waitThenPost evaluated with
    ⟨start, waiting, blocked, posting, posted, turns, holds⟩
  rcases of_decide_eq_true holds with ⟨owner, current, jumps⟩
  have itself : BlocksAsItself 0 ⟨waiting, ∅, 0, 0⟩ .wait := by
    intro _
    refine ⟨?_, current.trans owner.symm, Finset.notMem_empty _⟩
    rw [owner]
    decide
  have run := turns.run (fun _ => trivial) itself
  rw [owner] at run
  have initialized : start.sems 0 = semInit 0 := congrFun turns.boots.sems 0
  rcases semaphoreAccounting (by decide) initialized run with ⟨-, recorded, grants⟩
  rcases recorded 1 (Finset.mem_insert_self ..) with ⟨zero, once⟩
  have wakes := @Turn.wakes _ idleClient 0 ⟨_, insert 1 ∅, 0, 0⟩ _ _ turns.posts turns.executes jumps
  exact ⟨start, _, _, turns.boots, run, rfl, zero, once, wakes,
    (grants ⟨1, Finset.mem_insert_self ..⟩).2 _ wakes,
    (by decide : (insert 1 (∅ : Finset Tid)).erase 1 = ∅)⟩

/-- The main thread blocks, no slot tells, and the post of thread 1 wakes nobody. -/
theorem semaphoreAccounting_broken :
    ∃ start account next, Boots idleClient (fun _ => semInit 0) () start ∧
      RunUnder (Turn idleClient 0) (fun _ _ => True) (.start start) account ∧
      account.blocked = {0} ∧ account.machine.cpu.owner = 1 ∧
      (¬∃! slot, (account.machine.sems 0).waiting slot = 0) ∧
      Turn idleClient 0 account .post next ∧ next.blocked = {0} ∧
      (next.machine.sems 0).val = 1 ∧ ¬account.Grants next := by
  have evaluated : ((boot idleClient (fun _ => semInit 0) () 0 0).bind
      (follow (State.performOutside 0) [.statement, .call (.semWait 0) ()])).any (fun waiting =>
        (waiting.cpu.call = some (.semWait 0 .start) ∧ waiting.cpu.schedulers = []) ∧
        (waiting.execute idleClient 5).any fun blocked =>
          blocked.cpu.call = some (.semWait 0 .schedule) ∧
          (follow (State.performOutside 0) otherPosts blocked).any fun posting =>
            (posting.cpu.call = some (.semPost 0 .start) ∧ posting.cpu.schedulers = []) ∧
            (posting.execute idleClient 134).any fun posted =>
              waiting.cpu.owner = 0 ∧ posting.cpu.owner = 1 ∧
                ((posting.sems 0).waiting 0 = 0 ∧ (posting.sems 0).waiting 1 = 0) ∧
                posted.cpu.call = some (.semPost 0 (.finish 0)) ∧ (posted.sems 0).val = 1) =
        true := by
    decide +kernel
  rcases exists_waitThenPost evaluated with
    ⟨start, waiting, blocked, posting, posted, turns, holds⟩
  rcases of_decide_eq_true holds with ⟨owner, poster, ⟨first, second⟩, ends, one⟩
  have run : RunUnder (Turn idleClient 0) (fun _ _ => True) (.start start)
      ⟨posting, insert waiting.cpu.owner ∅, 0, 0⟩ := turns.run (fun _ => trivial) trivial
  rw [owner] at run
  have given := @Turn.given _ idleClient 0 ⟨_, insert 0 ∅, 0, 0⟩ _ turns.posts turns.executes ends
  refine ⟨start, _, _, turns.boots, run, rfl, poster, ?_, given, rfl, one, ?_⟩
  · rintro ⟨slot, -, unique⟩
    exact absurd ((unique 0 first).trans (unique 1 second).symm) (by decide)
  · rintro ⟨tid, -, -, counted, -⟩
    exact Nat.zero_ne_one counted

end EC440.Threads
