import EC440.Threads.Runs

/-!
# What a suspended thread has saved

A history records where each thread gave up the processor and how far its
program has come, and `Sheltered` says when a step leaves that alone.
`Faithful` is the invariant behind the integrity of contexts: `TCB` holds what
the history records, whichever call of `scheduler` is under way.
-/

namespace EC440.Threads

open Transition

variable {User : Type} {client : Client User} {state after : State User}
  {tid : Tid} {context : Context User}

/-- `pthread_create`, `sem_wait` and `sem_post` -/
def Call.OfSemaphores : Call → Prop
  | .create .. | .semWait _ | .semPost _ => True
  | .exit _ | .join _ => False

/-! ## Giving up the processor -/

/-- The calls of `scheduler` from the first one that is behind its `setjmp`, which returns when
the thread goes on. -/
def suspendedSchedulers : List SchedulerFrame → Option (List SchedulerFrame)
  | [] => none
  | frame :: rest =>
      match suspendedSchedulers rest with
      | some suspended => some suspended
      | none =>
          if frame.point.abandoned then some ({ frame with point := .resumed } :: rest) else none

/-- Where the thread on the processor goes on, if it gives up the processor now. -/
def Context.suspension (context : Context User) : Context User :=
  match suspendedSchedulers context.schedulers, context.call with
  | some suspended, _ => { context with schedulers := suspended }
  | none, some (.semPost sem (.jump _)) => { context with call := some (.semPost sem (.finish 0)) }
  | none, _ => context

/-- The next statement is a `longjmp`. -/
def Context.atJump (context : Context User) : Bool :=
  match context.schedulers, context.call with
  | { handler := _, point := .jump _ } :: _, _ => true
  | [], some (.semPost _ (.jump _)) => true
  | _, _ => false

/-- For each thread, where it last gave up the processor, and the last state of its program on
the processor. -/
structure History (User : Type) where
  last : Tid → Option (Context User)
  front : Tid → Option User

/-- The program on the processor has come as far as its state says. -/
def History.reach (history : History User) (state : State User) : History User :=
  { history with
    front := Function.update history.front state.cpu.owner (some state.cpu.user) }

@[simp] theorem History.reach_last (history : History User) (state : State User) :
    (history.reach state).last = history.last := rfl

@[simp] theorem History.reach_front_owner (history : History User) (state : State User) :
    (history.reach state).front state.cpu.owner = some state.cpu.user :=
  Function.update_self ..

theorem History.reach_front_of_ne (history : History User) {state : State User}
    (other : tid ≠ state.cpu.owner) : (history.reach state).front tid = history.front tid :=
  Function.update_of_ne other ..

def History.initial (state : State User) : History User :=
  ({ last := fun _ => none, front := fun _ => none } : History User).reach state

/-- A program comes further on the processor only, and not by being resumed. -/
def History.extend (history : History User) (state : State User) (action : Action User)
    (after : State User) : History User :=
  match action, state.cpu.atJump with
  | .statement, true =>
      { last := Function.update history.last state.cpu.owner (some state.cpu.suspension)
        front :=
          if (history.front after.cpu.owner).isSome then history.front
          else Function.update history.front after.cpu.owner (some after.cpu.user) }
  | _, _ => history.reach after

def TracedStep (client : Client User) (before : State User × History User)
    (action : Action User) (after : State User × History User) : Prop :=
  Step client before.1 action after.1 ∧ after.2 = before.2.extend before.1 action after.1

/-- Threads that do not execute are saved where they gave up the processor, the program on the
processor is where it last was, and a thread that is resumed goes on where it gave up. -/
structure ContextIntegrity (client : Client User) (state : State User) (history : History User) :
    Prop where
  saved : ∀ tid context, tid ≠ state.cpu.owner →
    (state.tcb tid).status = .ready ∨ (state.tcb tid).status = .blocked →
    history.last tid = some context → (state.tcb tid).reg = some context
  front : history.front state.cpu.owner = some state.cpu.user
  resumed : ∀ after context, state.cpu.atJump = true → Step client state .statement after →
    (history.extend state .statement after).last after.cpu.owner = some context →
    after.cpu = context

/-! ## The condition -/

/-- The next statement is the test of a `sem_wait` that blocks. -/
def State.blocks (state : State User) : Bool :=
  match state.cpu.schedulers, state.cpu.call with
  | [], some (.semWait sem .test) => (state.sems sem).val ≤ 0
  | _, _ => false

/-- `scheduler` changed the status and is about to `setjmp` or `longjmp`. -/
def SchedulerPoint.exposed : SchedulerPoint → Bool
  | .save _ | .jump _ => true
  | .start | .search _ | .advance _ | .chosen _ | .ready _ | .resumed | .switch _ | .run _ => false

/-- No `sem_wait` blocks, and no signal arrives while `scheduler` is exposed. -/
def Sheltered (state : State User) : Action User → Prop
  | .statement => state.blocks = false
  | .alarm => ∀ frame ∈ state.cpu.schedulers.head?, frame.point.exposed = false
  | .own _ | .call .. => True

instance (state : State User) (action : Action User) : Decidable (Sheltered state action) :=
  match action with
  | .statement => inferInstanceAs (Decidable (_ = _))
  | .alarm => inferInstanceAs (Decidable (∀ frame ∈ _, _ = _))
  | .own _ | .call .. => inferInstanceAs (Decidable True)

/-! ## Calls of scheduler that were interrupted -/

/-- A thread may be preempted here and goes on here. -/
def SchedulerPoint.preemptible (point : SchedulerPoint) : Bool :=
  !point.abandoned && !point.exposed

/-- `scheduler` may be here while no thread is `RUNNING`. -/
def SchedulerPoint.passing : SchedulerPoint → Bool
  | .start | .search _ | .advance _ | .chosen _ | .switch _ | .run _ | .jump _ => true
  | .ready _ | .save _ | .resumed => false

def SchedulerPoint.target : SchedulerPoint → Option Tid
  | .start | .search _ | .advance _ | .resumed => none
  | .chosen next | .ready next | .save next | .switch next | .run next | .jump next => some next

/-- A thread executes these calls of `scheduler`. -/
def Preemptible (frames : List SchedulerFrame) : Prop :=
  ∀ frame ∈ frames, frame.point.preemptible = true

/-- Above the outermost call that is behind its `setjmp` no other call saves anything. -/
inductive Abandons : List SchedulerFrame → List SchedulerFrame → Prop
  | outermost {handler : Bool} {point : SchedulerPoint} {rest : List SchedulerFrame}
      (abandoned : point.abandoned = true) (preemptible : Preemptible rest) :
      Abandons ({ handler, point := .resumed } :: rest) ({ handler, point } :: rest)
  | nested {handler : Bool} {point : SchedulerPoint} {suspended frames : List SchedulerFrame}
      (abandons : Abandons suspended frames) (passing : point.passing = true) :
      Abandons suspended ({ handler, point } :: frames)

theorem Preemptible.tail {frame : SchedulerFrame} {rest : List SchedulerFrame}
    (preemptible : Preemptible (frame :: rest)) : Preemptible rest :=
  fun other membership => preemptible other (.tail _ membership)

theorem Preemptible.cons {frame : SchedulerFrame} {rest : List SchedulerFrame}
    (top : frame.point.preemptible = true) (preemptible : Preemptible rest) :
    Preemptible (frame :: rest) := by
  intro other membership
  cases membership with
  | head => exact top
  | tail _ below => exact preemptible other below

theorem Preemptible.suspendedSchedulers {frames : List SchedulerFrame}
    (preemptible : Preemptible frames) : suspendedSchedulers frames = none := by
  induction frames with
  | nil => rfl
  | cons frame rest inductionHypothesis =>
      have top := preemptible frame (.head _)
      simp only [SchedulerPoint.preemptible, Bool.and_eq_true, Bool.not_eq_true'] at top
      simp [Threads.suspendedSchedulers, inductionHypothesis preemptible.tail, top.1]

theorem Abandons.suspendedSchedulers {suspended frames : List SchedulerFrame}
    (abandons : Abandons suspended frames) : suspendedSchedulers frames = some suspended := by
  induction abandons with
  | outermost abandoned preemptible =>
      simp [Threads.suspendedSchedulers, preemptible.suspendedSchedulers, abandoned]
  | nested _ _ inductionHypothesis =>
      simp [Threads.suspendedSchedulers, inductionHypothesis]

theorem Abandons.preemptible {suspended frames : List SchedulerFrame}
    (abandons : Abandons suspended frames) : Preemptible suspended := by
  induction abandons with
  | outermost _ preemptible => exact .cons rfl preemptible
  | nested _ _ inductionHypothesis => exact inductionHypothesis

theorem Abandons.move {suspended rest : List SchedulerFrame} {handler : Bool}
    {point next : SchedulerPoint} (abandons : Abandons suspended ({ handler, point } :: rest))
    (keeps : point.abandoned = true → next.abandoned = true) (passing : next.passing = true) :
    Abandons suspended ({ handler, point := next } :: rest) := by
  cases abandons with
  | outermost abandoned preemptible => exact .outermost (keeps abandoned) preemptible
  | nested abandons _ => exact .nested abandons passing

theorem Abandons.passing {suspended rest : List SchedulerFrame} {handler : Bool}
    {point : SchedulerPoint} (abandons : Abandons suspended ({ handler, point } :: rest)) :
    point.passing = true := by
  cases abandons with
  | outermost abandoned _ => cases point <;> first | rfl | cases abandoned
  | nested _ passing => exact passing

/-! ## The invariant -/

/-- No `sem_wait` is blocked, and no `sem_post` found a waiting thread. -/
def Unblocked : Option Frame → Prop
  | none | some (.create ..) => True
  | some (.semWait _ point) =>
      match point with
      | .start | .test | .positive | .decrement | .finish _ => True
      | .block | .find _ | .insert _ | .schedule | .woken => False
  | some (.semPost _ point) =>
      match point with
      | .start | .zero | .scan _ | .positive | .increment | .finish _ => True
      | .found slot => maxThreads ≤ slot
      | .clear .. | .grant _ | .jump _ => False
  | some (.exit ..) | some (.join ..) => False

/-- The threads that calls of `scheduler` have chosen exist. -/
def TargetsExist (state : State User) (frames : List SchedulerFrame) : Prop :=
  ∀ frame ∈ frames, ∀ next ∈ frame.point.target, (state.tcb next).status ≠ .fresh

/-- The thread can go on from here when it is made `RUNNING`. -/
structure Resumable (state : State User) (context : Context User) : Prop where
  unblocked : Unblocked context.call
  targets : TargetsExist state context.schedulers
  preemptible : Preemptible context.schedulers

/-- What is saved of the thread is what the history records, if it executed already. -/
def Suspended (state : State User) (history : History User) (tid : Tid) : Prop :=
  ∃ context, (state.tcb tid).reg = some context ∧ context.owner = tid ∧
    Resumable state context ∧
    ((history.last tid = some context ∧ history.front tid = some context.user) ∨
      (history.last tid = none ∧ history.front tid = none))

/-- On whose behalf the processor executes. -/
inductive Processor (state : State User) : Prop
  /-- The current thread, which is `RUNNING`. -/
  | executing (current : state.currTid = state.cpu.owner)
      (running : ∀ tid, (state.tcb tid).status = .running ↔ tid = state.currTid)
      (preemptible : Preemptible state.cpu.schedulers)
  /-- The current thread, which is `READY` but not saved yet. -/
  | saving (handler : Bool) (next : Tid) (rest : List SchedulerFrame)
      (current : state.currTid = state.cpu.owner)
      (ready : (state.tcb state.currTid).status = .ready)
      (noneRunning : ∀ tid, (state.tcb tid).status ≠ .running)
      (frames : state.cpu.schedulers = { handler, point := .save next } :: rest)
      (preemptible : Preemptible rest)
  /-- Nobody; the thread that gave up the processor is saved. -/
  | switching (suspended : List SchedulerFrame)
      (ready : (state.tcb state.currTid).status = .ready)
      (noneRunning : ∀ tid, (state.tcb tid).status ≠ .running)
      (abandons : Abandons suspended state.cpu.schedulers)
      (saved : (state.tcb state.cpu.owner).reg =
        some { state.cpu with schedulers := suspended })
      (sheltered : ∀ frame ∈ state.cpu.schedulers.head?, frame.point.exposed = false)
      (selected : ∀ frame ∈ state.cpu.schedulers.head?, ∀ next, frame.point = .run next →
        next = state.currTid)
  /-- Nobody; the next thread is `RUNNING` already. -/
  | jumping (handler : Bool) (rest suspended : List SchedulerFrame)
      (running : ∀ tid, (state.tcb tid).status = .running ↔ tid = state.currTid)
      (frames : state.cpu.schedulers = { handler, point := .jump state.currTid } :: rest)
      (abandons : Abandons suspended state.cpu.schedulers)
      (saved : (state.tcb state.cpu.owner).reg =
        some { state.cpu with schedulers := suspended })

/-- `TCB` holds what the history records. -/
structure Faithful (state : State User) (history : History User) : Prop where
  started : state.firstCall = false
  queues : ∀ sem slot, (state.sems sem).waiting slot = 0
  statuses : ∀ tid, (state.tcb tid).status = .ready ∨ (state.tcb tid).status = .running ∨
    (state.tcb tid).status = .fresh
  unblocked : Unblocked state.cpu.call
  targets : TargetsExist state state.cpu.schedulers
  processor : Processor state
  owner : (state.tcb state.cpu.owner).status ≠ .fresh
  fresh : ∀ tid, (state.tcb tid).status = .fresh →
    history.last tid = none ∧ history.front tid = none
  front : history.front state.cpu.owner = some state.cpu.user
  suspended : ∀ tid, tid ≠ state.cpu.owner → (state.tcb tid).status ≠ .fresh →
    Suspended state history tid

theorem TargetsExist.move {handler : Bool} {point next : SchedulerPoint}
    {rest : List SchedulerFrame} (targets : TargetsExist state ({ handler, point } :: rest))
    (exists_next : ∀ tid ∈ next.target, (state.tcb tid).status ≠ .fresh) :
    TargetsExist state ({ handler, point := next } :: rest) := by
  intro frame membership
  cases membership with
  | head => exact exists_next
  | tail _ below => exact targets frame (.tail _ below)

theorem TargetsExist.of_fresh_iff {frames : List SchedulerFrame}
    (targets : TargetsExist state frames)
    (sameFresh : ∀ tid, (after.tcb tid).status = .fresh → (state.tcb tid).status = .fresh) :
    TargetsExist after frames :=
  fun frame membership next target fresh =>
    targets frame membership next target (sameFresh next fresh)

theorem Abandons.targetsExist {suspended frames : List SchedulerFrame}
    (abandons : Abandons suspended frames) (targets : TargetsExist state frames) :
    TargetsExist state suspended := by
  induction abandons with
  | outermost _ _ => exact targets.move (fun _ target => by cases target)
  | nested _ _ inductionHypothesis =>
      exact inductionHypothesis fun frame membership => targets frame (.tail _ membership)

theorem Resumable.resume_eq_self (resumable : Resumable state context) (value : Nat) :
    context.resume value = context := by
  apply Context.resume_eq_self
  intro exitValue _ inExit
  have unblocked := resumable.unblocked
  rw [inExit] at unblocked
  exact unblocked

theorem Suspended.mono {history : History User} (suspended : Suspended state history tid)
    (sameReg : (after.tcb tid).reg = (state.tcb tid).reg)
    (sameFresh : ∀ other, (after.tcb other).status = .fresh → (state.tcb other).status = .fresh)
    {later : History User} (sameLast : later.last tid = history.last tid)
    (sameFront : later.front tid = history.front tid) : Suspended after later tid := by
  rcases suspended with ⟨context, reg, owned, resumable, recorded⟩
  refine ⟨context, sameReg.trans reg, owned, ?_, ?_⟩
  · exact ⟨resumable.unblocked, resumable.targets.of_fresh_iff sameFresh, resumable.preemptible⟩
  · rw [sameLast, sameFront]
    exact recorded

end EC440.Threads
