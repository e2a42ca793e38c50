import EC440.Threads.FaithfulCalls

/-!
# Where threads give up the processor

Threads that are created, use semaphores and are preempted.  Beside the
machine a history records where each thread gave up the processor and how far
its program has come.  As long as no `sem_wait` blocks, and no signal arrives
while `scheduler` is between a change of a status and the `setjmp` or
`longjmp` that belongs to it, `TCB` holds exactly what the history records.
-/

namespace EC440.Threads

open Transition

variable {User : Type} {client : Client User} {state after : State User}
  {tid : Tid} {context : Context User}

/-! ## Steps and runs -/

namespace Faithful

variable {history : History User}

variable {handler : Bool} {rest : List SchedulerFrame} {next : Tid}

theorem interrupt (faithful : Faithful state history)
    (sheltered : ∀ frame ∈ state.cpu.schedulers.head?, frame.point.exposed = false) :
    Faithful state.interrupt (history.reach state.interrupt) := by
  refine faithful.goto rfl rfl rfl faithful.queues faithful.unblocked ?_ ?_
  · intro frame membership
    cases membership with
    | head => exact fun _ target => by cases target
    | tail _ below => exact faithful.targets frame below
  · cases faithful.processor with
    | executing current running preemptible =>
        exact .executing current running (.cons rfl preemptible)
    | saving handler next rest current ready noneRunning frames preemptible =>
        rw [frames] at sheltered
        cases sheltered _ rfl
    | switching suspended ready noneRunning abandons saved _ selected =>
        refine .switching suspended ready noneRunning (.nested abandons rfl) saved ?_ ?_
        · intro frame membership
          cases membership
          rfl
        · intro frame membership next isRun
          cases membership
          cases isRun
    | jumping handler rest suspended running frames abandons saved =>
        rw [frames] at sheltered
        cases sheltered _ rfl

theorem extend_of_not_jump (history : History User) {action : Action User}
    (stays : state.cpu.atJump = false ∨ action ≠ .statement) :
    history.extend state action after = history.reach after := by
  unfold History.extend
  split
  next atJump =>
      rcases stays with notAtJump | notStatement
      · rw [atJump] at notAtJump
        cases notAtJump
      · exact absurd rfl notStatement
  next => rfl

theorem scheduler (faithful : Faithful state history) {point : SchedulerPoint}
    (frames : state.cpu.schedulers = { handler, point } :: rest)
    (executed : state.scheduler handler rest point = some after) :
    Faithful after (history.extend state .statement after) := by
  have stays : (∀ next, point ≠ .jump next) →
      history.extend state .statement after = history.reach after := by
    intro notJump
    apply extend_of_not_jump
    cases point <;> simp [Context.atJump, frames] at notJump ⊢
  have targets := faithful.targets
  rw [frames] at targets
  cases point with
  | start =>
      cases executed
      rw [stays (by simp)]
      exact faithful.search frames ⟨rfl, rfl⟩ ⟨rfl, rfl⟩ fun _ target => by cases target
  | search next =>
      simp only [State.scheduler] at executed
      rw [stays (by simp)]
      split at executed
      next inRange =>
          split at executed
          next =>
              cases executed
              exact faithful.search frames ⟨rfl, rfl⟩ ⟨rfl, rfl⟩ fun _ target => by cases target
          next found =>
              cases executed
              refine faithful.search frames ⟨rfl, rfl⟩ ⟨rfl, rfl⟩ fun tid target => ?_
              cases target
              intro fresh
              apply found
              refine ⟨by simp [fresh], fun current => ?_⟩
              rw [current] at fresh
              exact faithful.current_exists fresh
      next => cases executed
  | advance next =>
      cases executed
      rw [stays (by simp)]
      exact faithful.search frames ⟨rfl, rfl⟩ ⟨rfl, rfl⟩ fun _ target => by cases target
  | chosen next =>
      rw [stays (by simp)]
      exact faithful.chosen frames executed
  | ready next =>
      rw [stays (by simp)]
      exact faithful.ready frames executed
  | save next =>
      rw [stays (by simp)]
      exact faithful.save frames executed
  | resumed =>
      rw [stays (by simp)]
      exact faithful.resumed frames executed
  | switch next =>
      rw [stays (by simp)]
      exact faithful.switch frames executed
  | run next =>
      rw [stays (by simp)]
      exact faithful.run frames executed
  | jump next => exact (faithful.jump frames executed).1

theorem callStatement (faithful : Faithful state history) {frame : Frame}
    (noSchedulers : state.cpu.schedulers = []) (called : state.cpu.call = some frame)
    (passes : state.blocks = false) (executed : state.callStatement client frame = some after) :
    Faithful after (history.extend state .statement after) := by
  have unblocked := faithful.unblocked
  rw [called] at unblocked
  have stays : history.extend state .statement after = history.reach after := by
    apply extend_of_not_jump
    left
    unfold Context.atJump
    split
    next inScheduler =>
        rw [noSchedulers] at inScheduler
        cases inScheduler
    next inPost =>
        rw [called] at inPost
        cases inPost
        cases unblocked
    next => rfl
  rw [stays]
  cases frame with
  | create routine arg point => exact faithful.pthreadCreate noSchedulers executed
  | semWait sem point => exact faithful.semWait noSchedulers called passes executed
  | semPost sem point => exact faithful.semPost noSchedulers called executed
  | exit value point | join thread point => cases unblocked

theorem step (onlySemaphores : ∀ user call waiting, client.calls user call waiting →
      call.OfSemaphores)
    (faithful : Faithful state history) {action : Action User}
    (sheltered : Sheltered state action) (step : Step client state action after) :
    Faithful after (history.extend state action after) := by
  rcases step.cases with ⟨user, rfl, inUserCode, _, rfl⟩ | ⟨call, user, rfl, inUserCode, calls, rfl⟩ |
    ⟨frame, rfl, noSchedulers, called, executed⟩ | ⟨handler, point, rest, rfl, frames, executed⟩ |
    ⟨rfl, _, _, rfl⟩
  · rw [extend_of_not_jump history (.inr (by simp))]
    exact faithful.proceed inUserCode.2 rfl rfl rfl rfl rfl faithful.queues faithful.unblocked
  · rw [extend_of_not_jump history (.inr (by simp))]
    have ofSemaphores := onlySemaphores _ call user calls
    refine faithful.proceed inUserCode.2 rfl rfl rfl rfl rfl faithful.queues ?_
    cases call with
    | create _ _ | semWait _ | semPost _ => trivial
    | exit _ | join _ => cases ofSemaphores
  · exact faithful.callStatement noSchedulers called sheltered executed
  · exact faithful.scheduler frames executed
  · rw [extend_of_not_jump history (.inr (by simp))]
    exact faithful.interrupt sheltered

/-- A thread that gets the processor goes on where it gave up. -/
theorem resumes (faithful : Faithful state history) (atJump : state.cpu.atJump = true)
    (executed : state.statement client = some after) :
    ∀ context, (history.extend state .statement after).last after.cpu.owner = some context →
      after.cpu = context := by
  have unblocked := faithful.unblocked
  unfold Context.atJump at atJump
  split at atJump
  next frames =>
      rw [State.statement, frames] at executed
      exact (faithful.jump frames executed).2
  next called =>
      rw [called] at unblocked
      cases unblocked
  next => cases atJump

theorem boots {values : SemId → UInt32} {user : User}
    (boots : Boots client (fun sem => semInit (values sem)) user state) :
    Faithful state (.initial state) := by
  rcases boots with ⟨routine, arg, executed⟩
  let sems : SemId → SemInfo := fun sem => semInit (values sem)
  let entered : State User := State.entered sems user routine arg
  have set : Faithful entered (.initial entered) := by
    refine {
      started := rfl
      queues := fun _ _ => rfl
      statuses := fun tid => ?_
      unblocked := trivial
      targets := fun _ membership => by cases membership
      processor := .executing rfl (fun tid => ?_) fun _ membership => by cases membership
      owner := ?_
      fresh := fun tid fresh => ?_
      front := History.reach_front_owner ..
      suspended := fun tid notOwner notFresh => ?_ }
    · by_cases main : tid = 0 <;>
        simp [entered, State.entered, State.firstCreate, State.initSystem, main]
    · change _ ↔ tid = 0
      by_cases main : tid = 0 <;>
        simp [entered, State.entered, State.firstCreate, State.initSystem, main]
    · change (entered.tcb 0).status ≠ .fresh
      simp [entered, State.entered, State.firstCreate]
    · have notMain : tid ≠ 0 := by
        rintro rfl
        simp [entered, State.entered, State.firstCreate] at fresh
      exact ⟨rfl, History.reach_front_of_ne _ notMain⟩
    · have notMain : tid ≠ 0 := notOwner
      simp [entered, State.entered, State.firstCreate, State.initSystem, notMain] at notFresh
  have sameHistory : (History.initial entered).reach state = .initial state := by
    have sameOwner : entered.cpu.owner = state.cpu.owner := (boot_owner executed).symm
    simp [History.initial, History.reach, sameOwner]
  rw [boot_eq] at executed
  rw [← sameHistory]
  exact set.pthreadCreate rfl executed

end Faithful

/-- As long as no `sem_wait` blocks and no signal arrives while `scheduler` is exposed, every
thread goes on where it gave up the processor. -/
theorem contextIntegrity
    (onlySemaphores : ∀ user call waiting, client.calls user call waiting → call.OfSemaphores)
    {values : SemId → UInt32} {user : User} {start : State User}
    (boots : Boots client (fun sem => semInit (values sem)) user start)
    {history : History User}
    (run : RunUnder (TracedStep client) (fun traced action => Sheltered traced.1 action)
      (start, .initial start) (state, history)) :
    ContextIntegrity client state history := by
  have faithful : Faithful state history := by
    refine RunUnder.invariant (fun traced : State User × History User =>
      Faithful traced.1 traced.2) ?_ (Faithful.boots boots) run
    intro before action after faithful sheltered step
    rw [step.2]
    exact faithful.step onlySemaphores sheltered step.1
  refine ⟨fun tid context notOwner stopped recorded => ?_, faithful.front,
    fun after context atJump step recorded => ?_⟩
  · have notFresh : (state.tcb tid).status ≠ .fresh := by
      rcases stopped with ready | blocked
      · rw [ready]
        decide
      · rw [blocked]
        decide
    rcases faithful.suspended tid notOwner notFresh with
      ⟨saved, reg, _, _, ⟨sameLast, _⟩ | ⟨noLast, _⟩⟩
    · rw [sameLast] at recorded
      cases recorded
      exact reg
    · rw [noLast] at recorded
      cases recorded
  · exact faithful.resumes atJump step.2 context recorded

/-! ## Runs of two threads -/

def countingClient : Client Nat where
  start _ _ := 10
  own user next := next = user + 1
  calls user call waiting := call.OfSemaphores ∧ waiting = user
  returns user _ _ := user + 1

/-- The machine with its history, as long as the condition holds and programs wait where they
call. -/
def traced (allowed : State Nat → Action Nat → Bool) (before : State Nat × History Nat)
    (action : Action Nat) : Option (State Nat × History Nat) :=
  let permitted := match action with
    | .own next => decide (next = before.1.cpu.user + 1)
    | .call call waiting =>
        decide (call ∈ [.create 0 0, .semWait 0, .semPost 0] ∧ waiting = before.1.cpu.user)
    | .statement | .alarm => true
  if permitted && allowed before.1 action then
    (before.1.perform countingClient action).map fun after =>
      (after, before.2.extend before.1 action after)
  else none

theorem tracedStep_of_traced {allowed : State Nat → Action Nat → Bool}
    {before after : State Nat × History Nat} {action : Action Nat}
    (stepped : traced allowed before action = some after) :
    allowed before.1 action = true ∧ TracedStep countingClient before action after := by
  simp only [traced, Option.ite_none_right_eq_some, Bool.and_eq_true] at stepped
  rcases stepped with ⟨⟨permitted, isAllowed⟩, performed⟩
  rcases Option.map_eq_some_iff.mp performed with ⟨next, stepped, rfl⟩
  refine ⟨isAllowed, ⟨?_, stepped⟩, rfl⟩
  cases action with
  | own user =>
      have counts := of_decide_eq_true permitted
      exact counts
  | call call waiting =>
      rcases of_decide_eq_true permitted with ⟨semaphore, waits⟩
      refine ⟨?_, waits⟩
      simp only [List.mem_cons, List.not_mem_nil, or_false] at semaphore
      rcases semaphore with rfl | rfl | rfl <;> trivial
  | statement => trivial
  | alarm => trivial

def takeAndReturn : List (Action Nat) :=
  [.statement, .call (.semWait 0) 1] ++ List.replicate 5 .statement ++ [.alarm] ++
    List.replicate 8 .statement ++ [.call (.semPost 0) 10] ++ List.replicate 5 .statement

theorem contextIntegrity_taken :
    ∃ (start state : State Nat) (history : History Nat),
      Boots countingClient (fun _ => semInit 2) 0 start ∧
      RunUnder (TracedStep countingClient) (fun traced action => Sheltered traced.1 action)
        (start, .initial start) (state, history) ∧
      (state.sems 0).val = 2 ∧ history.front 0 = some 2 ∧ state.cpu.user = 11 ∧
      ContextIntegrity countingClient state history := by
  have evaluated : (((boot countingClient (fun _ => semInit 2) 0 0 0).map fun start =>
      (start, History.initial start)).bind
        (follow (traced fun state action => Sheltered state action) takeAndReturn)).any
      (fun reached => (reached.1.sems 0).val = 2 ∧ reached.2.front 0 = some 2 ∧
        reached.1.cpu.user = 11) = true := by
    decide +kernel
  have performed : ∀ action ∈ takeAndReturn, ∀ before after,
      traced (fun state action => Sheltered state action) before action = some after →
        Sheltered before.1 action ∧ TracedStep countingClient before action after :=
    fun _ _ _ _ stepped => (tracedStep_of_traced stepped).imp_left of_decide_eq_true
  rcases exists_run_of_follow performed evaluated with
    ⟨first, ⟨state, history⟩, started, run, holds⟩
  rcases Option.map_eq_some_iff.mp started with ⟨start, booted, rfl⟩
  rcases of_decide_eq_true holds with ⟨val, front, user⟩
  have onlySemaphores : ∀ user call waiting, countingClient.calls user call waiting →
      call.OfSemaphores := fun _ _ _ calls => calls.1
  have boots : Boots countingClient (fun sem => semInit ((fun _ => 2) sem)) 0 start :=
    ⟨0, 0, booted⟩
  exact ⟨start, state, history, boots, run, val, front, user,
    contextIntegrity onlySemaphores boots run⟩

def blockAndGrant : List (Action Nat) :=
  [.statement, .call (.create 0 0) 1, .statement, .statement, .alarm] ++
    List.replicate 8 .statement ++ [.own 11, .call (.semWait 0) 11] ++
    List.replicate 12 .statement ++ [.call (.semPost 0) 10] ++ List.replicate 7 .statement

theorem contextIntegrity_broken :
    ¬∀ (client : Client Nat) (values : SemId → UInt32) (user : Nat) (start state : State Nat)
      (history : History Nat),
      (∀ user call waiting, client.calls user call waiting → call.OfSemaphores) →
      Boots client (fun sem => semInit (values sem)) user start →
      RunUnder (TracedStep client) (fun _ _ => True) (start, .initial start) (state, history) →
      ContextIntegrity client state history := by
  intro always
  have evaluated : (((boot countingClient (fun _ => semInit 0) 0 0 0).map fun start =>
      (start, History.initial start)).bind
        (follow (traced fun _ _ => true) blockAndGrant)).any
      (fun reached => reached.2.front reached.1.cpu.owner ≠ some reached.1.cpu.user) = true := by
    decide +kernel
  have performed : ∀ action ∈ blockAndGrant, ∀ before after,
      traced (fun _ _ => true) before action = some after →
        True ∧ TracedStep countingClient before action after :=
    fun _ _ _ _ stepped => (tracedStep_of_traced stepped).imp_left fun _ => trivial
  rcases exists_run_of_follow performed evaluated with
    ⟨first, ⟨state, history⟩, started, run, holds⟩
  rcases Option.map_eq_some_iff.mp started with ⟨start, booted, rfl⟩
  have onlySemaphores : ∀ user call waiting, countingClient.calls user call waiting →
      call.OfSemaphores := fun _ _ _ calls => calls.1
  have boots : Boots countingClient (fun sem => semInit ((fun _ => 0) sem)) 0 start :=
    ⟨0, 0, booted⟩
  have integrity := always countingClient _ 0 start state history onlySemaphores boots run
  exact of_decide_eq_true holds integrity.front

end EC440.Threads
