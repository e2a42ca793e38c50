import EC440.Threads.Endings

/-!
# Whom the scheduler and pthread_exit dispatch

The invariant of the statements of `threads.c` that dispatch a thread.  A
thread that is `READY` or `RUNNING` saved a context in which it may go on, a
thread that has blocked in `sem_wait` never executes under its own number
again, and a thread that waits in `pthread_join` is resumed by the end of the
thread it waits for.
-/

namespace EC440.Threads

open Transition

variable {User : Type} {client : Client User} {state after : State User}
  {threads laterThreads : Tid → Thread User} {notes later : Notes}
  {curr laterCurr owner tid : Tid} {call : Option Frame}

/-- The scheduler counts the thread among those that may run. -/
def Active (threads : Tid → Thread User) (tid : Tid) : Prop :=
  (threads tid).status = .running ∨ (threads tid).status = .ready

theorem Active.notEnding (active : Active threads tid) :
    (threads tid).status ≠ .waiting ∧ (threads tid).status ≠ .exited ∧
      (threads tid).status ≠ .blocked := by
  rcases active with running | ready
  · rw [running]
    decide
  · rw [ready]
    decide

/-- `pthread_join` has stored a value and is about to return. -/
def atReturn : Option Frame → Bool
  | some (.join _ (.unlock (some _))) | some (.join _ (.finish (some _))) => true
  | _ => false

/-- What the thread saved is not a `pthread_join` that is about to return. -/
def SavedElsewhere (threads : Tid → Thread User) (tid : Tid) : Prop :=
  ∀ context, (threads tid).reg = some context → atReturn context.call = false

namespace Notes

/-! ## The threads -/

/-- What is known of a thread. -/
structure Entry (notes : Notes) (threads : Tid → Thread User) (curr tid : Tid) : Prop where
  fine : Active threads tid ∨ tid ∈ notes.parked → ∀ context, (threads tid).reg = some context →
    notes.Fine threads context tid
  parked : tid ∈ notes.parked → ¬notes.strict ∧
    ((threads tid).status = .blocked ∨ (threads tid).status = .running ∧ tid ≠ curr)
  waits : (threads tid).status = .waiting → ∃ context value,
    (threads tid).reg = some context ∧ context.schedulers = [] ∧
      context.call = some (.exit value .set) ∧ notes.account.exits tid = some value
  exited : (threads tid).status = .exited →
    notes.account.exits tid ≠ none ∧ 1 ≤ notes.account.joins tid
  ended : notes.account.exits tid ≠ none →
    (threads tid).status = .waiting ∨ (threads tid).status = .exited
  unreleased : (threads tid).status ≠ .exited →
    notes.account.frees tid = 0 ∧ notes.account.counts tid = 0

/-- What is known of the `TCB`. -/
structure Recorded (notes : Notes) (threads : Tid → Thread User) (curr : Tid) : Prop where
  entries : ∀ tid, notes.Entry threads curr tid
  joiner : ∀ thread tid, (threads thread).joining = some tid →
    1 ≤ notes.account.joins thread ∧
      (notes.account.exits thread ≠ none ∨ notes.Awaits threads tid thread)

/-- Nothing happened to the thread. -/
structure Unchanged (notes : Notes) (threads : Tid → Thread User) (later : Notes)
    (laterThreads : Tid → Thread User) (tid : Tid) : Prop where
  status : (laterThreads tid).status = (threads tid).status
  reg : (laterThreads tid).reg = (threads tid).reg
  exits : later.account.exits tid = notes.account.exits tid
  frees : later.account.frees tid = notes.account.frees tid
  counts : later.account.counts tid = notes.account.counts tid
  parked : tid ∈ later.parked → tid ∈ notes.parked

/-- A parked thread does not become the current one while it is `RUNNING`. -/
def Stays (threads : Tid → Thread User) (curr laterCurr : Tid) : Prop :=
  laterCurr = curr ∨ (threads laterCurr).status ≠ .running

theorem Entry.not_parked (entry : notes.Entry threads curr curr) (active : Active threads curr) :
    curr ∉ notes.parked := by
  intro parked
  rcases (entry.parked parked).2 with blocked | ⟨-, elsewhere⟩
  · exact active.notEnding.2.2 blocked
  · exact elsewhere rfl

theorem Entry.exits_eq_none (entry : notes.Entry threads curr tid)
    (notWaiting : (threads tid).status ≠ .waiting)
    (notExited : (threads tid).status ≠ .exited) : notes.account.exits tid = none := by
  by_contra ended
  rcases entry.ended ended with waiting | exited
  · exact notWaiting waiting
  · exact notExited exited

theorem Awaits.unchanged {thread : Tid} (awaits : notes.Awaits threads tid thread)
    (grow : notes.Grow threads later laterThreads)
    (unchanged : notes.Unchanged threads later laterThreads tid) :
    later.Awaits laterThreads tid thread where
  blocked := unchanged.status.trans awaits.blocked
  notParked parked := awaits.notParked (unchanged.parked parked)
  saved := by
    rcases awaits.saved with ⟨context, reg, noSchedulers, called, owner⟩
    exact ⟨context, unchanged.reg.trans reg, noSchedulers, called,
      fun strict => owner (grow.strict.mp strict)⟩

theorem Entry.unchanged (entry : notes.Entry threads curr tid)
    (grow : notes.Grow threads later laterThreads)
    (unchanged : notes.Unchanged threads later laterThreads tid)
    (stays : Stays threads curr laterCurr) : later.Entry laterThreads laterCurr tid where
  fine may context reg := by
    rw [unchanged.reg] at reg
    refine grow.fine (entry.fine ?_ context reg)
    rcases may with active | parked
    · rw [Active, unchanged.status] at active
      exact .inl active
    · exact .inr (unchanged.parked parked)
  parked isParked := by
    rcases entry.parked (unchanged.parked isParked) with ⟨loose, stops⟩
    refine ⟨fun strict => loose (grow.strict.mp strict), ?_⟩
    rw [unchanged.status]
    rcases stops with blocked | ⟨running, elsewhere⟩
    · exact .inl blocked
    · refine .inr ⟨running, ?_⟩
      rintro rfl
      rcases stays with same | stopped
      · exact elsewhere same
      · exact stopped running
  waits waiting := by
    rw [unchanged.status] at waiting
    rw [unchanged.reg, unchanged.exits]
    exact entry.waits waiting
  exited exited := by
    rw [unchanged.status] at exited
    rw [unchanged.exits]
    exact ⟨(entry.exited exited).1, (entry.exited exited).2.trans (grow.joins tid)⟩
  ended exits := by
    rw [unchanged.exits] at exits
    rw [unchanged.status]
    exact entry.ended exits
  unreleased notExited := by
    rw [unchanged.status] at notExited
    rw [unchanged.frees, unchanged.counts]
    exact entry.unreleased notExited

namespace Recorded

theorem change (recorded : notes.Recorded threads curr) (changed : Tid)
    (grow : notes.Grow threads later laterThreads) (stays : Stays threads curr laterCurr)
    (unchanged : ∀ tid, tid ≠ changed → notes.Unchanged threads later laterThreads tid)
    (entry : later.Entry laterThreads laterCurr changed)
    (joiner : ∀ thread tid, (laterThreads thread).joining = some tid →
      (threads thread).joining = some tid ∨
        1 ≤ later.account.joins thread ∧ later.Awaits laterThreads tid thread)
    (released : ∀ thread, notes.Awaits threads changed thread →
      later.account.exits thread ≠ none ∨ later.Awaits laterThreads changed thread) :
    later.Recorded laterThreads laterCurr where
  entries tid := by
    by_cases same : tid = changed
    · exact same ▸ entry
    · exact (recorded.entries tid).unchanged grow (unchanged tid same) stays
  joiner thread tid joining := by
    rcases joiner thread tid joining with before | ⟨joins, awaits⟩
    · rcases recorded.joiner thread tid before with ⟨joins, exits | awaits⟩
      · exact ⟨joins.trans (grow.joins thread), .inl (grow.exits_ne_none exits)⟩
      · refine ⟨joins.trans (grow.joins thread), ?_⟩
        by_cases same : tid = changed
        · subst same
          exact released thread awaits
        · exact .inr (awaits.unchanged grow (unchanged tid same))
    · exact ⟨joins, .inr awaits⟩

theorem setCurrent (recorded : notes.Recorded threads curr)
    (stays : Stays threads curr laterCurr) : notes.Recorded threads laterCurr where
  entries tid := (recorded.entries tid).unchanged (.refl notes)
    ⟨rfl, rfl, rfl, rfl, rfl, fun parked => parked⟩ stays
  joiner := recorded.joiner

end Recorded

/-! ## The processor -/

/-- A thread that may run executes a statement of its call, or one that `pthread_exit` resumed
in `pthread_join` is on its way out of it. -/
structure Normal (notes : Notes) (threads : Tid → Thread User) (curr owner : Tid)
    (call : Option Frame) : Prop where
  may : Active threads curr ∨ ∃ thread, notes.Awaits threads curr thread ∧
    (call = some (.join thread .copy) ∨ ∃ value, call = some (.join thread (.run value)))
  owner : notes.strict → owner = curr
  proceeds : notes.Proceeds threads call
  prompt : notes.strict → (threads curr).status = .running ∨ atReturn call = false

/-- A thread that was joined is on its way out of `pthread_exit`. -/
structure Leaves (notes : Notes) (threads : Tid → Thread User) (curr : Tid) (value : Value)
    (joined : Nat) (status : Status) (frees counts : Nat) : Prop where
  status : (threads curr).status = status
  exits : notes.account.exits curr = some value
  frees : notes.account.frees curr = frees
  counts : notes.account.counts curr = counts
  joins : 1 ≤ notes.account.joins curr
  joiner : ∀ tid, State.joinerOf joined = some tid → notes.Awaits threads tid curr

/-- What is known at a statement of a call, with no `scheduler` above it. -/
def Executes (notes : Notes) (threads : Tid → Thread User) (curr owner : Tid) :
    Option Frame → Prop
  | some (.exit value point) =>
      match point with
      | .start => notes.Normal threads curr owner (some (.exit value .start))
      | .set | .finish => False
      | .joined joined | .mark joined => notes.Leaves threads curr value joined .waiting 0 0
      | .free joined => notes.Leaves threads curr value joined .exited 0 0
      | .count joined => notes.Leaves threads curr value joined .exited 1 0
      | .code joined => notes.Leaves threads curr value joined .exited 1 1
      | .back joined =>
          notes.Leaves threads curr value joined .exited 1 1 ∧ (threads curr).exitcode = value
      | .unlock | .jump => ∃ thread, notes.Awaits threads curr thread ∧ notes.Delivered threads thread
      | .schedule | .toMain => (threads curr).status = .waiting
      | .mainJump =>
          curr = 0 ∧ (threads curr).status = .ready ∧ (notes.strict → SavedElsewhere threads curr)
  | some (.join thread point) =>
      match point with
      | .schedule => (threads curr).status = .blocked
      | .jump waitingThread =>
          thread = curr ∧ (threads curr).status = .waiting ∧ 1 ≤ notes.account.joins curr ∧
            notes.Awaits threads waitingThread curr
      | .start | .copy | .run _ | .unlock _ | .finish _ =>
          notes.Normal threads curr owner (some (.join thread point))
  | some (.semWait sem point) =>
      match point with
      | .find _ | .insert _ | .schedule => (threads curr).status = .blocked ∧ curr ∈ notes.parked
      | .start | .test | .block | .woken | .positive | .decrement | .finish _ =>
          notes.Normal threads curr owner (some (.semWait sem point))
  | some (.semPost sem point) => notes.Normal threads curr owner (some (.semPost sem point))
  | some (.create routine arg point) =>
      notes.Normal threads curr owner (some (.create routine arg point))
  | none => notes.Normal threads curr owner none

/-- Unless the current thread may run, the search finds a thread that is `READY`. -/
def Finds (threads : Tid → Thread User) (curr : Tid) (next : Nat) : Prop :=
  ¬Active threads curr → ∃ tid, (threads tid).status = .ready ∧ Ahead curr next tid

/-- The current thread may go on below these calls of `scheduler`. -/
def Below (notes : Notes) (threads : Tid → Thread User) (curr owner : Tid) (call : Option Frame)
    (frames : List SchedulerFrame) : Prop :=
  notes.GoesOn curr ((notes.strict → owner = curr) ∧ notes.Proceeds threads call) frames

/-- What is known at a statement of `scheduler`, with these calls of it below. -/
def Schedules (notes : Notes) (threads : Tid → Thread User) (curr owner : Tid)
    (call : Option Frame) (rest : List SchedulerFrame) : SchedulerPoint → Prop
  | .start => (threads curr).status = .running → notes.Below threads curr owner call rest
  | .search next =>
      ((threads curr).status = .running → notes.Below threads curr owner call rest) ∧
        Finds threads curr next
  | .advance next =>
      ((threads curr).status = .running → notes.Below threads curr owner call rest) ∧
        Finds threads curr ((next + 1) % maxThreads)
  | .chosen next =>
      ((threads curr).status = .running → notes.Below threads curr owner call rest) ∧
        ((threads next).status = .ready ∨ next = curr ∧ (threads curr).status = .running)
  | .ready next =>
      (threads curr).status = .running ∧ notes.Below threads curr owner call rest ∧
        ((threads next).status = .ready ∨ next = curr)
  | .save next =>
      (threads curr).status = .ready ∧ notes.Below threads curr owner call rest ∧
        (threads next).status = .ready
  | .resumed =>
      Active threads curr ∧ notes.Below threads curr owner call rest ∧
        (notes.strict → (threads curr).status = .running ∨
          atReturn call = false ∧ SavedElsewhere threads curr)
  | .switch next => (threads curr).status ≠ .running ∧ (threads next).status = .ready
  | .run next => next = curr ∧ (threads next).status = .ready
  | .jump next =>
      Active threads curr ∧ (next = curr ∨ next ∈ notes.parked) ∧
        (notes.strict → (threads curr).status = .running ∨ SavedElsewhere threads curr)

def Occupies (notes : Notes) (threads : Tid → Thread User) (curr : Tid) (cpu : Context User) :
    Prop :=
  match cpu.schedulers with
  | [] => notes.Executes threads curr cpu.owner cpu.call
  | { handler := _, point } :: rest => notes.Schedules threads curr cpu.owner cpu.call rest point

/-- Whoever is in the queue of a semaphore is parked. -/
def Queued (notes : Notes) (sems : SemId → SemInfo) : Prop :=
  ∀ sem slot, (sems sem).waiting slot ≠ 0 → (sems sem).waiting slot ∈ notes.parked

/-- The invariant. -/
structure Dispatching (notes : Notes) (state : State User) : Prop where
  started : state.firstCall = false
  recorded : notes.Recorded state.tcb state.currTid
  queued : notes.Queued state.sems
  occupies : notes.Occupies state.tcb state.currTid state.cpu

end Notes

end EC440.Threads
