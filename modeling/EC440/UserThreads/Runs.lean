import EC440.Library.Transition
import EC440.UserThreads.State

/-!
# Runs of the thread library of Project 2

The programs take steps of their own and call the library, the library executes
one statement at a time, and `SIGALRM` may call `scheduler` at any time.  A run
starts in the first `pthread_create`, when the entry of the main thread is set
up.  A ledger records what `pthread_exit` has done for which thread.
-/

namespace EC440.UserThreads

open Threads (maxThreads Tid Value Stack SchedulerPoint)
open Transition

inductive Action (User : Type) where
  /-- The program goes from its state to another one. -/
  | own (user : User)
  /-- The program calls the library and waits in the given state. -/
  | call (call : Call) (user : User)
  /-- A statement of the library. -/
  | statement
  /-- `SIGALRM` -/
  | alarm

variable {User : Type}

namespace State

variable (client : Client User) (state : State User)

def setUser (user : User) : State User :=
  { state with cpu := { state.cpu with user } }

def interrupt : State User :=
  state.inScheduler state.cpu.schedulers .start

def perform : Action User → Option (State User)
  | .own user => if state.cpu.InUserCode then some (state.setUser user) else none
  | .call call user =>
      if state.cpu.InUserCode then some ((state.setUser user).inCall call.entry) else none
  | .statement => state.statement client
  | .alarm => if state.firstCall then none else some state.interrupt

def Permits : Action User → Prop
  | .own user => client.own state.cpu.user user
  | .call call user => client.calls state.cpu.user call user
  | .statement | .alarm => True

instance [∀ user next, Decidable (client.own user next)]
    [∀ user call waiting, Decidable (client.calls user call waiting)] (action : Action User) :
    Decidable (state.Permits client action) :=
  match action with
  | .own user => inferInstanceAs (Decidable (client.own state.cpu.user user))
  | .call call user => inferInstanceAs (Decidable (client.calls state.cpu.user call user))
  | .statement | .alarm => inferInstanceAs (Decidable True)

end State

def Step (client : Client User) (state : State User) (action : Action User)
    (after : State User) : Prop :=
  state.Permits client action ∧ state.perform client action = some after

/-- The steps of a run by what executes: the program, one statement of a call of the library,
one statement of `scheduler`, or the kernel. -/
theorem Step.cases {client : Client User} {state after : State User} {action : Action User}
    (step : Step client state action after) :
    (∃ user, action = .own user ∧ state.cpu.InUserCode ∧ after = state.setUser user) ∨
    (∃ call user, action = .call call user ∧ state.cpu.InUserCode ∧
      after = (state.setUser user).inCall call.entry) ∨
    (∃ frame, action = .statement ∧ state.cpu.schedulers = [] ∧ state.cpu.call = some frame ∧
      state.callStatement client frame = some after) ∨
    (∃ point rest, action = .statement ∧ state.cpu.schedulers = point :: rest ∧
      state.scheduler rest point = some after) ∨
    (action = .alarm ∧ after = state.interrupt) := by
  rcases step with ⟨-, performed⟩
  cases action with
  | own user =>
      simp only [State.perform, Option.ite_none_right_eq_some, Option.some.injEq] at performed
      exact .inl ⟨user, rfl, performed.1, performed.2.symm⟩
  | call call user =>
      simp only [State.perform, Option.ite_none_right_eq_some, Option.some.injEq] at performed
      exact .inr (.inl ⟨call, user, rfl, performed.1, performed.2.symm⟩)
  | statement =>
      simp only [State.perform, State.statement] at performed
      cases frames : state.cpu.schedulers with
      | nil =>
          rw [frames] at performed
          rcases Option.bind_eq_some_iff.mp performed with ⟨frame, called, executed⟩
          exact .inr (.inr (.inl ⟨frame, rfl, rfl, called, executed⟩))
      | cons point rest =>
          rw [frames] at performed
          exact .inr (.inr (.inr (.inl ⟨point, rest, rfl, rfl, performed⟩)))
  | alarm =>
      simp only [State.perform, Option.ite_none_left_eq_some, Option.some.injEq] at performed
      exact .inr (.inr (.inr (.inr ⟨rfl, performed.2.symm⟩)))

/-- Threads that do nothing but call `pthread_create` and `pthread_exit`. -/
def callsOnly : Client Unit where
  start _ _ := ()
  own _ _ := True
  calls _ _ _ := True
  returns _ _ := ()

instance (user next : Unit) : Decidable (callsOnly.own user next) :=
  inferInstanceAs (Decidable True)

instance (user : Unit) (call : Call) (waiting : Unit) :
    Decidable (callsOnly.calls user call waiting) :=
  inferInstanceAs (Decidable True)

/-- The first `pthread_create(_, _, routine, arg)`, which the main thread calls in the state
`user`. -/
def boot (client : Client User) (user : User) (routine arg : Value) : Option (State User) :=
  ((State.initial user).inCall (.create routine arg .start)).statement client

/-- The main thread in its first `pthread_create`, behind `setjmp(TCB[0].reg)`. -/
def Boots (client : Client User) (user : User) (state : State User) : Prop :=
  ∃ routine arg, boot client user routine arg = some state

/-- Perform an action if the programs and the condition permit it. -/
def attemptStep (client : Client User) [∀ user next, Decidable (client.own user next)]
    [∀ user call waiting, Decidable (client.calls user call waiting)]
    (allowed : State User → Action User → Prop) [∀ state action, Decidable (allowed state action)]
    (state : State User) (action : Action User) : Option (State User) :=
  if allowed state action ∧ state.Permits client action then state.perform client action else none

theorem step_of_attemptStep {client : Client User}
    [∀ user next, Decidable (client.own user next)]
    [∀ user call waiting, Decidable (client.calls user call waiting)]
    {allowed : State User → Action User → Prop} [∀ state action, Decidable (allowed state action)]
    {state after : State User} {action : Action User}
    (attempted : attemptStep client allowed state action = some after) :
    allowed state action ∧ Step client state action after := by
  rcases Option.ite_none_right_eq_some.mp attempted with ⟨⟨isAllowed, permitted⟩, performed⟩
  exact ⟨isAllowed, permitted, performed⟩

/-! ## The ledger -/

/-- How often `pthread_exit` has executed its first three statements for each thread, and
`pthread_create` has executed `total_threads++`. -/
structure Ledger where
  marks : Tid → Nat
  frees : Tid → Nat
  decrements : Tid → Nat
  increments : Nat

/-- When the main thread's entry is set up, it has been counted. -/
def Ledger.start : Ledger where
  marks := fun _ => 0
  frees := fun _ => 0
  decrements := fun _ => 0
  increments := 1

/-- The statement of `pthread_exit` that comes next, when no `scheduler` is above it. -/
def State.exiting (state : State User) : Option ExitPoint :=
  match state.cpu.schedulers, state.cpu.call with
  | [], some (.exit point) => some point
  | _, _ => none

theorem State.exiting_inCall {state : State User} {point : ExitPoint}
    (noSchedulers : state.cpu.schedulers = []) :
    (state.inCall (.exit point)).exiting = some point := by
  simp [exiting, inCall, noSchedulers]

theorem State.exiting_eq_some_iff {state : State User} {point : ExitPoint} :
    state.exiting = some point ↔
      state.cpu.schedulers = [] ∧ state.cpu.call = some (.exit point) := by
  unfold exiting
  split
  next noSchedulers called => simp [noSchedulers, called]
  next elsewhere =>
      refine iff_of_false nofun ?_
      rintro ⟨noSchedulers, called⟩
      exact elsewhere _ noSchedulers called

/-- The same for `pthread_create`. -/
def State.creating (state : State User) : Option CreatePoint :=
  match state.cpu.schedulers, state.cpu.call with
  | [], some (.create _ _ point) => some point
  | _, _ => none

def bump (counts : Tid → Nat) (tid : Tid) : Tid → Nat :=
  Function.update counts tid (counts tid + 1)

theorem bump_apply (counts : Tid → Nat) (tid other : Tid) :
    bump counts tid other = counts other + if other = tid then 1 else 0 := by
  by_cases same : other = tid
  · subst same
    simp [bump]
  · simp [bump, same]

def Ledger.record (ledger : Ledger) (state : State User) : Action User → Ledger
  | .own _ | .call .. | .alarm => ledger
  | .statement =>
      match state.exiting, state.creating with
      | some .mark, _ => { ledger with marks := bump ledger.marks state.currTid }
      | some .free, _ => { ledger with frees := bump ledger.frees state.currTid }
      | some .count, _ => { ledger with decrements := bump ledger.decrements state.currTid }
      | _, some (.count _) => { ledger with increments := ledger.increments + 1 }
      | _, _ => ledger

def RecordedStep (client : Client User) (before : State User × Ledger) (action : Action User)
    (after : State User × Ledger) : Prop :=
  Step client before.1 action after.1 ∧ after.2 = before.2.record before.1 action

/-- Perform an action and record it, if the programs and the condition permit it. -/
def attempt (client : Client User) [∀ user next, Decidable (client.own user next)]
    [∀ user call waiting, Decidable (client.calls user call waiting)]
    (allowed : State User → Action User → Prop) [∀ state action, Decidable (allowed state action)]
    (recorded : State User × Ledger) (action : Action User) : Option (State User × Ledger) :=
  if allowed recorded.1 action ∧ recorded.1.Permits client action then
    (recorded.1.perform client action).map (·, recorded.2.record recorded.1 action)
  else none

theorem step_of_attempt {client : Client User} [∀ user next, Decidable (client.own user next)]
    [∀ user call waiting, Decidable (client.calls user call waiting)]
    {allowed : State User → Action User → Prop} [∀ state action, Decidable (allowed state action)]
    {recorded after : State User × Ledger} {action : Action User}
    (attempted : attempt client allowed recorded action = some after) :
    allowed recorded.1 action ∧ RecordedStep client recorded action after := by
  rcases Option.ite_none_right_eq_some.mp attempted with ⟨⟨isAllowed, permitted⟩, performed⟩
  rcases Option.map_eq_some_iff.mp performed with ⟨next, stepped, rfl⟩
  exact ⟨isAllowed, ⟨permitted, stepped⟩, rfl⟩

/-! ## Undisturbed steps -/

/-- The signal comes between the end of a search and the statement that uses its result, or
while `pthread_exit` is about to free the stack or to count. -/
def State.InWindow (state : State User) : Prop :=
  match state.cpu.schedulers, state.cpu.call with
  | .chosen _ :: _, _ => state.status state.currTid = .running
  | .ready _ :: _, _ => True
  | _ :: _, _ => False
  | [], some (.exit .free) | [], some (.exit .count) => True
  | [], some (.create _ _ (.setup _)) | [], some (.create _ _ (.publish _)) => True
  | [], _ => False

/-- Some entry is `READY`. -/
def State.SomeReady (state : State User) : Prop :=
  ∃ tid, state.status tid = .ready

instance (state : State User) : Decidable state.InWindow := by
  unfold State.InWindow
  split <;> infer_instance

instance (state : State User) : Decidable state.SomeReady :=
  inferInstanceAs (Decidable (∃ _tid, _))

/-- The search of `pthread_exit` has found a thread that is `READY`. -/
def State.SearchEnds (state : State User) : Prop :=
  match state.exiting with
  | some (.search i) => i < maxThreads
  | _ => True

instance (state : State User) : Decidable state.SearchEnds := by
  unfold State.SearchEnds
  split <;> infer_instance

/-- `pthread_exit` finds another thread that is `READY`.  `SIGALRM` comes in none of the windows
and, on behalf of a thread that has exited, only while another one is `READY`. -/
def Undisturbed (state : State User) : Action User → Prop
  | .own _ | .call .. => True
  | .statement => state.SearchEnds
  | .alarm => ¬state.InWindow ∧ (state.status state.currTid = .exited → state.SomeReady)

instance (state : State User) (action : Action User) : Decidable (Undisturbed state action) :=
  match action with
  | .own _ | .call .. => inferInstanceAs (Decidable True)
  | .statement => inferInstanceAs (Decidable state.SearchEnds)
  | .alarm => inferInstanceAs (Decidable (_ ∧ _))

end EC440.UserThreads
