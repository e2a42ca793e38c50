import EC440.Library.Transition
import EC440.Threads.Statements

/-!
# Runs of the thread library

The programs of the threads take steps of their own and call the library, the
library executes one statement at a time, and wherever the signal is not
blocked `SIGALRM` may call `scheduler`.  A run starts behind the first
`pthread_create`, which sets the library up.
-/

namespace EC440.Threads

open Transition

inductive Action (User : Type) where
  /-- The program goes from its state to another one. -/
  | own (user : User)
  /-- The program calls the library and waits in the given state. -/
  | call (call : Call) (user : User)
  /-- A statement of the library. -/
  | statement
  /-- `SIGALRM` -/
  | alarm

variable {User : Type}

namespace State

variable (client : Client User) (state : State User)

def setUser (user : User) : State User :=
  { state with cpu := { state.cpu with user } }

def interrupt : State User :=
  state.inScheduler true state.cpu.schedulers .start

def perform : Action User → Option (State User)
  | .own user => if state.cpu.InUserCode then some (state.setUser user) else none
  | .call call user =>
      if state.cpu.InUserCode then some ((state.setUser user).inCall call.entry) else none
  | .statement => state.statement client
  | .alarm => if state.masked ∨ state.firstCall then none else some state.interrupt

def Permits : Action User → Prop
  | .own user => client.own state.cpu.user user
  | .call call user => client.calls state.cpu.user call user
  | .statement | .alarm => True

end State

def Step (client : Client User) (state : State User) (action : Action User)
    (after : State User) : Prop :=
  state.Permits client action ∧ state.perform client action = some after

/-! ## Evaluating runs -/

def idleClient : Client Unit where
  start _ _ := ()
  own _ _ := True
  calls _ _ _ := True
  returns _ _ _ := ()

section Evaluation

variable {client : Client User} [∀ user next, Decidable (client.own user next)]
  [∀ user call waiting, Decidable (client.calls user call waiting)]

instance (state : State User) (action : Action User) : Decidable (state.Permits client action) :=
  match action with
  | .own user => inferInstanceAs (Decidable (client.own state.cpu.user user))
  | .call call user => inferInstanceAs (Decidable (client.calls state.cpu.user call user))
  | .statement | .alarm => inferInstanceAs (Decidable True)

/-- Perform an action if the programs and the condition permit it. -/
def State.attempt (client : Client User) [∀ user next, Decidable (client.own user next)]
    [∀ user call waiting, Decidable (client.calls user call waiting)]
    (allowed : State User → Action User → Prop) [∀ state action, Decidable (allowed state action)]
    (state : State User) (action : Action User) : Option (State User) :=
  if allowed state action ∧ state.Permits client action then state.perform client action else none

theorem step_of_attempt {allowed : State User → Action User → Prop}
    [∀ state action, Decidable (allowed state action)] {state after : State User}
    {action : Action User} (attempted : state.attempt client allowed action = some after) :
    allowed state action ∧ Step client state action after := by
  rcases Option.ite_none_right_eq_some.mp attempted with ⟨⟨isAllowed, permitted⟩, performed⟩
  exact ⟨isAllowed, permitted, performed⟩

end Evaluation

/-! ## The start of a run -/

/-- The first `pthread_create(_, _, routine, arg)`, which the main thread calls in the state
`user`. -/
def boot (client : Client User) (sems : SemId → SemInfo) (user : User) (routine arg : Value) :
    Option (State User) :=
  ((State.initial sems user).inCall (.create routine arg .start)).statement client

/-- The main thread in its first `pthread_create`, behind `init_system`. -/
def State.entered (sems : SemId → SemInfo) (user : User) (routine arg : Value) : State User :=
  ((State.initial sems user).inCall (.create routine arg .start)).firstCreate routine arg

/-- From there the first call is like the others. -/
theorem boot_eq (client : Client User) (sems : SemId → SemInfo) (user : User)
    (routine arg : Value) :
    boot client sems user routine arg =
      (State.entered sems user routine arg).pthreadCreate client routine arg .start := rfl

theorem boot_owner {client : Client User} {sems : SemId → SemInfo} {user : User}
    {routine arg : Value} {state : State User}
    (booted : boot client sems user routine arg = some state) : state.cpu.owner = 0 := by
  change (State.entered sems user routine arg).createThread client routine arg = some state at booted
  unfold State.createThread at booted
  split at booted
  next =>
      cases booted
      rfl
  next =>
      rcases Option.map_eq_some_iff.mp booted with ⟨tid, _, rfl⟩
      rfl

/-- The state in which the main thread has just executed its first `pthread_create`. -/
def Boots (client : Client User) (sems : SemId → SemInfo) (user : User) (state : State User) :
    Prop :=
  ∃ routine arg, boot client sems user routine arg = some state

/-- The steps of a run by what executes: the program, one statement of a call of the library,
one statement of `scheduler`, or the kernel. -/
theorem Step.cases {client : Client User} {state after : State User} {action : Action User}
    (step : Step client state action after) :
    (∃ user, action = .own user ∧ state.cpu.InUserCode ∧ client.own state.cpu.user user ∧
      after = state.setUser user) ∨
    (∃ call user, action = .call call user ∧ state.cpu.InUserCode ∧
      client.calls state.cpu.user call user ∧
      after = (state.setUser user).inCall call.entry) ∨
    (∃ frame, action = .statement ∧ state.cpu.schedulers = [] ∧ state.cpu.call = some frame ∧
      state.callStatement client frame = some after) ∨
    (∃ handler point rest, action = .statement ∧
      state.cpu.schedulers = { handler, point } :: rest ∧
      state.scheduler handler rest point = some after) ∨
    (action = .alarm ∧ state.masked = false ∧ state.firstCall = false ∧
      after = state.interrupt) := by
  rcases step with ⟨permitted, performed⟩
  cases action with
  | own user =>
      simp only [State.perform, Option.ite_none_right_eq_some, Option.some.injEq] at performed
      exact .inl ⟨user, rfl, performed.1, permitted, performed.2.symm⟩
  | call call user =>
      simp only [State.perform, Option.ite_none_right_eq_some, Option.some.injEq] at performed
      exact .inr (.inl ⟨call, user, rfl, performed.1, permitted, performed.2.symm⟩)
  | statement =>
      simp only [State.perform, State.statement] at performed
      cases frames : state.cpu.schedulers with
      | nil =>
          rw [frames] at performed
          rcases Option.bind_eq_some_iff.mp performed with ⟨frame, called, executed⟩
          exact .inr (.inr (.inl ⟨frame, rfl, rfl, called, executed⟩))
      | cons top rest =>
          rw [frames] at performed
          exact .inr (.inr (.inr (.inl ⟨top.handler, top.point, rest, rfl, rfl, performed⟩)))
  | alarm =>
      simp only [State.perform, Option.ite_none_left_eq_some, Option.some.injEq, not_or,
        Bool.not_eq_true] at performed
      exact .inr (.inr (.inr (.inr ⟨rfl, performed.1.1, performed.1.2, performed.2.symm⟩)))

end EC440.Threads
