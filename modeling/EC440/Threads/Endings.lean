import EC440.Threads.Runs
import Mathlib.Data.Set.Insert

/-!
# What the threads have done

An account is kept beside the machine: with which value a thread called
`pthread_exit`, how often its stack was freed, how often `total_threads` was
decremented for it and how often `pthread_join` was executed for it.  What a
thread may be doing when it is resumed is stated by the account, and stays
true while the account grows.
-/

namespace EC440.Threads

variable {User : Type} {client : Client User} {threads laterThreads : Tid → Thread User}

/-! ## The account -/

/-- The statements of `pthread_exit` and `pthread_join` that were executed for each thread. -/
structure Account where
  exits : Tid → Option Value
  frees : Tid → Nat
  counts : Tid → Nat
  joins : Tid → Nat

namespace Account

variable (account : Account)

def initial : Account where
  exits := fun _ => none
  frees := fun _ => 0
  counts := fun _ => 0
  joins := fun _ => 0

def exited (tid : Tid) (value : Value) : Account :=
  { account with exits := Function.update account.exits tid (some value) }

def freed (tid : Tid) : Account :=
  { account with frees := Function.update account.frees tid (account.frees tid + 1) }

def counted (tid : Tid) : Account :=
  { account with counts := Function.update account.counts tid (account.counts tid + 1) }

def joined (tid : Tid) : Account :=
  { account with joins := Function.update account.joins tid (account.joins tid + 1) }

/-- What a statement of a call adds.  It is the thread whose program calls `pthread_exit` that
exits; the other statements are about `curr_TID`, as in the source. -/
def statement (state : State User) : Frame → Account
  | .exit value .start =>
      let exited := account.exited state.cpu.owner value
      if (state.tcb state.currTid).joining.isSome then
        (exited.freed state.currTid).counted state.currTid
      else exited
  | .exit _ (.free _) => account.freed state.currTid
  | .exit _ (.count _) => account.counted state.currTid
  | .join thread .start => account.joined thread
  | _ => account

def extend (state : State User) : Action User → Account
  | .statement =>
      match state.cpu.schedulers, state.cpu.call with
      | [], some frame => account.statement state frame
      | _, _ => account
  | .own _ | .call .. | .alarm => account

end Account

def AccountedStep (client : Client User) (before : State User × Account) (action : Action User)
    (after : State User × Account) : Prop :=
  Step client before.1 action after.1 ∧ after.2 = before.2.extend before.1 action

/-! ## Notes -/

/-- What a proof keeps beside the state: the account, who has blocked in `sem_wait`, and whether
only the calls about threads are made. -/
structure Notes where
  account : Account
  parked : Set Tid
  strict : Prop

/-- The thread has exited with the value in `exitcode`, and was released once. -/
structure Notes.Delivered (notes : Notes) (threads : Tid → Thread User) (tid : Tid) : Prop where
  status : (threads tid).status = .exited
  exits : notes.account.exits tid = some (threads tid).exitcode
  frees : notes.account.frees tid = 1
  counts : notes.account.counts tid = 1

/-- The notes become more. -/
structure Notes.Grow (notes : Notes) (threads : Tid → Thread User) (later : Notes)
    (laterThreads : Tid → Thread User) : Prop where
  strict : later.strict ↔ notes.strict
  parked : notes.parked ⊆ later.parked
  exits : ∀ tid value, notes.account.exits tid = some value →
    later.account.exits tid = some value
  joins : ∀ tid, notes.account.joins tid ≤ later.account.joins tid
  delivered : ∀ tid, notes.Delivered threads tid → later.Delivered laterThreads tid

namespace Notes

variable (notes : Notes) {later : Notes}

theorem Grow.refl : notes.Grow threads notes threads :=
  ⟨.rfl, subset_rfl, fun _ _ exits => exits, fun _ => le_rfl, fun _ delivered => delivered⟩

variable {notes}

theorem Grow.exits_ne_none (grow : notes.Grow threads later laterThreads) {tid : Tid}
    (exits : notes.account.exits tid ≠ none) : later.account.exits tid ≠ none := by
  rcases Option.ne_none_iff_exists'.mp exits with ⟨value, isValue⟩
  rw [grow.exits tid value isValue]
  exact Option.some_ne_none value

variable (notes)

/-! ## Where a thread goes on -/

/-- `pthread_join(thread, _)` has this value for its caller. -/
def Settled (threads : Tid → Thread User) (thread : Tid) : Option Value → Prop
  | some value => notes.Delivered threads thread ∧ notes.account.exits thread = some value
  | none => notes.account.exits thread ≠ none ∧ 2 ≤ notes.account.joins thread

/-- A thread that is running may be at this statement of a call. -/
def Proceeds (threads : Tid → Thread User) : Option Frame → Prop
  | none | some (.create ..) => True
  | some (.exit _ point) =>
      match point with
      | .start => True
      | .set | .joined _ | .mark _ | .free _ | .count _ | .code _ | .back _ | .unlock | .jump
      | .schedule | .toMain | .mainJump | .finish => False
  | some (.join thread point) =>
      match point with
      | .start => True
      | .copy => notes.Delivered threads thread
      | .run value => notes.Settled threads thread (some value)
      | .unlock value | .finish value => notes.Settled threads thread value
      | .schedule | .jump _ => False
  | some (.semWait _ point) =>
      match point with
      | .start | .test | .block | .positive | .decrement | .finish _ => ¬notes.strict
      | .find _ | .insert _ | .schedule | .woken => False
  | some (.semPost _ point) =>
      match point with
      | .start | .zero | .scan _ | .found _ | .positive | .increment | .finish _ => ¬notes.strict
      | .clear _ nextRun | .grant nextRun | .jump nextRun =>
          ¬notes.strict ∧ nextRun ∈ notes.parked

/-- A thread of the given number may be at these calls of `scheduler`, if `call` holds of what is
below them.  A call that is about to jump to the thread itself never returns. -/
def GoesOn (tid : Tid) (call : Prop) : List SchedulerFrame → Prop
  | [] => call
  | frame :: rest =>
      match frame.point with
      | .start | .search _ | .advance _ | .resumed => GoesOn tid call rest
      | .jump next => next = tid ∨ next ∈ notes.parked
      | .chosen _ | .ready _ | .save _ | .switch _ | .run _ => False

/-- The thread of the given number may go on from the context. -/
def Fine (threads : Tid → Thread User) (context : Context User) (tid : Tid) : Prop :=
  notes.GoesOn tid ((notes.strict → context.owner = tid) ∧ notes.Proceeds threads context.call)
    context.schedulers

/-- The thread of the given number waits in `pthread_join` for another one. -/
structure Awaits (threads : Tid → Thread User) (tid thread : Tid) : Prop where
  blocked : (threads tid).status = .blocked
  notParked : tid ∉ notes.parked
  saved : ∃ context, (threads tid).reg = some context ∧ context.schedulers = [] ∧
    context.call = some (.join thread .copy) ∧ (notes.strict → context.owner = tid)

variable {notes}

theorem Grow.settled (grow : notes.Grow threads later laterThreads) {thread : Tid}
    {value : Option Value} (settled : notes.Settled threads thread value) :
    later.Settled laterThreads thread value := by
  cases value with
  | none => exact ⟨grow.exits_ne_none settled.1, settled.2.trans (grow.joins thread)⟩
  | some value => exact ⟨grow.delivered thread settled.1, grow.exits thread value settled.2⟩

theorem Grow.proceeds (grow : notes.Grow threads later laterThreads) {call : Option Frame}
    (proceeds : notes.Proceeds threads call) : later.Proceeds laterThreads call := by
  have strict : ¬notes.strict → ¬later.strict := fun loose strict => loose (grow.strict.mp strict)
  cases call with
  | none => trivial
  | some frame =>
      cases frame with
      | create routine arg point => trivial
      | exit value point => cases point <;> trivial
      | join thread point =>
          cases point with
          | start => trivial
          | copy => exact grow.delivered thread proceeds
          | run value =>
              have settled : notes.Settled threads thread (some value) := proceeds
              exact grow.settled settled
          | unlock value | finish value => exact grow.settled proceeds
          | schedule | jump waitingThread => exact proceeds.elim
      | semWait sem point =>
          cases point with
          | start | test | block | positive | decrement | finish code => exact strict proceeds
          | find slot | insert slot | schedule | woken => exact proceeds.elim
      | semPost sem point =>
          cases point with
          | start | zero | scan slot | found slot | positive | increment | finish code =>
              exact strict proceeds
          | clear slot nextRun | grant nextRun | jump nextRun =>
              exact ⟨strict proceeds.1, grow.parked proceeds.2⟩

theorem GoesOn.imp {tid other : Tid} {call otherCall : Prop} {frames : List SchedulerFrame}
    (goesOn : notes.GoesOn tid call frames) (implies : call → otherCall)
    (parked : notes.parked ⊆ later.parked) (renamed : tid = other ∨ tid ∈ later.parked) :
    later.GoesOn other otherCall frames := by
  induction frames with
  | nil => exact implies goesOn
  | cons frame rest inductionHypothesis =>
      rcases frame with ⟨handler, point⟩
      cases point with
      | start | search next | advance next | resumed => exact inductionHypothesis goesOn
      | jump next =>
          rcases goesOn with rfl | isParked
          · exact renamed
          · exact .inr (parked isParked)
      | chosen next | ready next | save next | switch next | run next => exact goesOn.elim

theorem Grow.fine (grow : notes.Grow threads later laterThreads) {context : Context User} {tid : Tid}
    (fine : notes.Fine threads context tid) : later.Fine laterThreads context tid :=
  GoesOn.imp fine
    (fun holds => ⟨fun strict => holds.1 (grow.strict.mp strict), grow.proceeds holds.2⟩)
    grow.parked (.inl rfl)

/-- What a thread that has blocked in `sem_wait` saved may be executed under any number. -/
theorem Fine.rename {context : Context User} {tid : Tid} (fine : notes.Fine threads context tid)
    (parked : tid ∈ notes.parked) (loose : ¬notes.strict) (other : Tid) :
    notes.Fine threads context other :=
  GoesOn.imp fine (fun holds => ⟨fun strict => absurd strict loose, holds.2⟩) subset_rfl
    (.inr parked)

/-- Only the `setjmp` of `pthread_exit` tells how it was resumed, and no running thread is
there. -/
theorem Fine.resume {context : Context User} {tid : Tid} (fine : notes.Fine threads context tid)
    (value : Nat) : context.resume value = context := by
  refine Context.resume_eq_self (fun exitValue noSchedulers atSet => ?_) value
  rw [Fine, noSchedulers, atSet] at fine
  exact fine.2

theorem Awaits.unique {tid thread other : Tid} (awaits : notes.Awaits threads tid thread)
    (also : notes.Awaits threads tid other) : thread = other := by
  rcases awaits.saved with ⟨context, reg, -, called, -⟩
  rcases also.saved with ⟨sameContext, sameReg, -, sameCalled, -⟩
  cases reg.symm.trans sameReg
  cases called.symm.trans sameCalled
  rfl

end Notes

end EC440.Threads
