import EC440.Threads.JoinSteps
import EC440.Threads.Running
import EC440.Threads.Semaphores

/-!
# Dispatching and joining

Threads that are created, exit, join each other, use semaphores and are
preempted.  Under the conditions stated here the scheduler dispatches only
threads that are `READY`, and `pthread_join` returns behind the `pthread_exit`
it waits for; if semaphores are left alone, it returns with its value.
-/

namespace EC440.Threads

open Transition

variable {User : Type} {client : Client User} {state after : State User} {notes : Notes}

/-! ## The conditions -/

/-- Where `scheduler` is. -/
def State.schedulerPoint (state : State User) : Option SchedulerPoint :=
  state.cpu.schedulers.head?.map SchedulerFrame.point

/-- Where `pthread_exit` is, with no `scheduler` above it. -/
def State.exitPoint (state : State User) : Option ExitPoint :=
  match state.cpu.schedulers, state.cpu.call with
  | [], some (.exit _ point) => some point
  | _, _ => none

/-- The slot of a queue that `sem_post` has found and reads next. -/
def State.foundSlot (state : State User) : Option (SemId × Tid) :=
  match state.cpu.schedulers, state.cpu.call with
  | [], some (.semPost sem (.found slot)) =>
      if inRange : slot < maxThreads then some (sem, ⟨slot, inRange⟩) else none
  | _, _ => none

/-- Whoever calls `scheduler` without being able to go on leaves a thread that is `READY`,
`pthread_exit` returns to the main thread only if that is `READY`, and no signal arrives while
`scheduler` has chosen a thread and not yet saved the one that is `RUNNING`. -/
def Prompt (state : State User) : Action User → Prop
  | .statement =>
      (state.schedulerPoint = some .start →
        Active state.tcb state.currTid ∨ ∃ tid, (state.tcb tid).status = .ready) ∧
      (state.exitPoint = some .toMain → (state.tcb 0).status = .ready)
  | .alarm =>
      ∀ point ∈ state.schedulerPoint, point.choosing = true →
        (state.tcb state.currTid).status ≠ .running
  | .own _ | .call .. => True

/-- Nobody calls `pthread_exit` under the number of another thread, whose `sem_post` resumed it,
and nobody empties the slot of a queue that a `sem_post` has found before it reads it. -/
def Undisguised (state : State User) : Action User → Prop
  | .statement =>
      (state.exitPoint = some .start → state.cpu.owner = state.currTid) ∧
      ∀ place ∈ state.foundSlot, (state.sems place.1).waiting place.2 ≠ 0
  | .own _ | .call .. | .alarm => True

/-- When `pthread_exit` returns to the main thread, that is not returning from `pthread_join`. -/
def MainElsewhere (state : State User) : Action User → Prop
  | .statement => state.exitPoint = some .toMain →
      ∀ context ∈ (state.tcb 0).reg, atReturn context.call = false
  | .own _ | .call .. | .alarm => True

instance (threads : Tid → Thread User) (tid : Tid) : Decidable (Active threads tid) :=
  inferInstanceAs (Decidable (_ ∨ _))

instance (state : State User) (action : Action User) : Decidable (Prompt state action) :=
  match action with
  | .statement =>
      inferInstanceAs (Decidable ((_ = _ → Active _ _ ∨ Exists _) ∧ (_ = _ → _ = _)))
  | .alarm => inferInstanceAs (Decidable (∀ point ∈ _, _ = true → _ ≠ _))
  | .own _ | .call .. => inferInstanceAs (Decidable True)

instance (state : State User) (action : Action User) : Decidable (Undisguised state action) :=
  match action with
  | .statement => inferInstanceAs (Decidable ((_ = _ → _ = _) ∧ ∀ place ∈ _, _ ≠ _))
  | .own _ | .call .. | .alarm => inferInstanceAs (Decidable True)

instance (state : State User) (action : Action User) : Decidable (MainElsewhere state action) :=
  match action with
  | .statement => inferInstanceAs (Decidable (_ = _ → ∀ context ∈ _, _ = false))
  | .own _ | .call .. | .alarm => inferInstanceAs (Decidable True)

/-- The conditions under which threads are dispatched as they should be. -/
def Dispatches (before : State User × Account) (action : Action User) : Prop :=
  Prompt before.1 action ∧ Undisguised before.1 action

/-- The conditions under which the handshake of `pthread_exit` and `pthread_join` is right. -/
def Handshakes (before : State User × Account) (action : Action User) : Prop :=
  Prompt before.1 action ∧ MainElsewhere before.1 action

instance (before : State User × Account) (action : Action User) :
    Decidable (Dispatches before action) :=
  inferInstanceAs (Decidable (_ ∧ _))

instance (before : State User × Account) (action : Action User) :
    Decidable (Handshakes before action) :=
  inferInstanceAs (Decidable (_ ∧ _))

/-! ## Steps and runs -/

namespace Notes.Dispatching

theorem interrupt (dispatching : notes.Dispatching state)
    (prompt : Prompt state .alarm) : notes.Dispatching state.interrupt := by
  refine dispatching.goto rfl rfl rfl rfl fun running => ?_
  refine dispatching.occupies.below running fun frame top => ?_
  cases choosing : frame.point.choosing with
  | false => rfl
  | true =>
      have atPoint : frame.point ∈ state.schedulerPoint := by
        rw [State.schedulerPoint, Option.mem_def.mp top]
        rfl
      exact absurd running (prompt frame.point atPoint choosing)

theorem callStatement (dispatching : notes.Dispatching state) {frame : Frame}
    (noSchedulers : state.cpu.schedulers = []) (called : state.cpu.call = some frame)
    (prompt : Prompt state .statement) (undisguised : notes.strict ∨ Undisguised state .statement)
    (elsewhere : notes.strict → MainElsewhere state .statement)
    (executed : state.callStatement client frame = some after) :
    ∃ parked, ({ notes with parked, account := notes.account.statement state frame } :
      Notes).Dispatching after := by
  have executes := dispatching.occupies.executes noSchedulers
  rw [called] at executes
  cases frame with
  | create routine arg point =>
      exact ⟨notes.parked, dispatching.pthreadCreate noSchedulers called executed⟩
  | exit value point =>
      have atPoint : state.exitPoint = some point := by
        rw [State.exitPoint, noSchedulers, called]
      refine ⟨notes.parked, dispatching.pthreadExit noSchedulers called ?_ ?_ executed⟩
      · rintro rfl
        rcases undisguised with strict | honest
        · exact Normal.owner executes strict
        · exact honest.1 atPoint
      · rintro rfl
        exact ⟨prompt.2 atPoint, fun strict => elsewhere strict atPoint⟩
  | join thread point =>
      exact ⟨notes.parked, dispatching.pthreadJoin noSchedulers called executed⟩
  | semWait sem point => exact dispatching.semWait noSchedulers called executed
  | semPost sem point =>
      refine ⟨notes.parked, dispatching.semPost noSchedulers called ?_ executed⟩
      rintro slot inRange rfl
      have normal : notes.Normal state.tcb state.currTid state.cpu.owner
        (some (.semPost sem (.found slot))) := executes
      rcases undisguised with strict | honest
      · exact absurd strict normal.proceeds
      · refine honest.2 (sem, ⟨slot, inRange⟩) ?_
        rw [State.foundSlot, noSchedulers, called]
        exact dif_pos inRange

theorem step (dispatching : notes.Dispatching state) {action : Action User}
    (ofThreads : notes.strict → ∀ user call waiting, client.calls user call waiting →
      call.OfThreads)
    (prompt : Prompt state action) (undisguised : notes.strict ∨ Undisguised state action)
    (elsewhere : notes.strict → MainElsewhere state action) (step : Step client state action after) :
    ∃ parked, ({ notes with parked, account := notes.account.extend state action } :
      Notes).Dispatching after := by
  rcases step.cases with ⟨user, rfl, inUserCode, -, rfl⟩ |
    ⟨call, user, rfl, inUserCode, permitted, rfl⟩ |
    ⟨frame, rfl, noSchedulers, called, executed⟩ |
    ⟨handler, point, rest, rfl, frames, executed⟩ | ⟨rfl, -, -, rfl⟩
  · exact ⟨notes.parked, dispatching.goto rfl rfl rfl rfl dispatching.occupies⟩
  · have executes := dispatching.occupies.executes inUserCode.2
    rw [inUserCode.1] at executes
    have normal : notes.Normal state.tcb state.currTid state.cpu.owner none := executes
    refine ⟨notes.parked, dispatching.proceed normal
      (normal.active fun _ => ⟨by simp, by simp⟩) rfl rfl rfl dispatching.queued rfl inUserCode.2
      ?_ fun _ => .inr ?_⟩
    · cases call with
      | create routine arg | exit value | join thread => trivial
      | semWait sem | semPost sem => exact fun strict => ofThreads strict _ _ _ permitted
    · cases call <;> rfl
  · have added : notes.account.extend state .statement =
        notes.account.statement state frame := by
      rw [Account.extend, noSchedulers, called]
    rw [added]
    exact dispatching.callStatement noSchedulers called prompt undisguised elsewhere executed
  · have added : notes.account.extend state .statement = notes.account := by
      rw [Account.extend, frames]
    rw [added]
    refine ⟨notes.parked, dispatching.scheduler frames (fun atStart => prompt.1 ?_) executed⟩
    rw [State.schedulerPoint, frames, atStart]
    rfl
  · exact ⟨notes.parked, dispatching.interrupt prompt⟩

end Notes.Dispatching

def Notes.start (strict : Prop) : Notes where
  account := .initial
  parked := ∅
  strict := strict

theorem dispatching_entered {values : SemId → UInt32} {user : User} {routine arg : Value}
    (strict : Prop) :
    (Notes.start strict).Dispatching
      (State.entered (fun sem => semInit (values sem)) user routine arg) := by
  let entered := State.entered (fun sem => semInit (values sem)) user routine arg
  have mainRunning : (entered.tcb 0).status = .running := by
    simp [entered, State.entered, State.firstCreate]
  have othersFresh (tid : Tid) (other : tid ≠ 0) : (entered.tcb tid).status = .fresh := by
    simp [entered, State.entered, State.firstCreate, State.initSystem, other]
  have notEnding (tid : Tid) : (entered.tcb tid).status ≠ .waiting ∧
      (entered.tcb tid).status ≠ .exited := by
    by_cases main : tid = 0
    · subst main
      rw [mainRunning]
      decide
    · rw [othersFresh tid main]
      decide
  refine ⟨rfl, ⟨fun tid => ?_, fun thread tid joining => ?_⟩, fun sem slot waits => ?_, ?_⟩
  · refine ⟨fun may context reg => ?_, fun parked => parked.elim,
      fun waiting => absurd waiting (notEnding tid).1, fun exited => absurd exited (notEnding tid).2,
      fun ended => absurd rfl ended, fun _ => ⟨rfl, rfl⟩⟩
    by_cases main : tid = 0
    · subst main
      simp only [State.entered, State.firstCreate, State.setReg_reg, if_pos,
        Option.some.injEq] at reg
      cases reg
      exact ⟨fun _ => rfl, trivial⟩
    · simp [State.entered, State.firstCreate, State.initSystem, State.initial, State.inCall,
        Thread.zero, main] at reg
  · simp [State.entered, State.firstCreate, State.initSystem] at joining
  · exact absurd rfl waits
  · exact Notes.occupies_of_executes rfl
      (Notes.Normal.executes ⟨.inl (.inl mainRunning), fun _ => rfl, trivial, fun _ => .inr rfl⟩)

theorem dispatching_start {values : SemId → UInt32} {user : User} (strict : Prop)
    (boots : Boots client (fun sem => semInit (values sem)) user state) :
    (Notes.start strict).Dispatching state := by
  rcases boots with ⟨routine, arg, executed⟩
  rw [boot_eq] at executed
  exact (dispatching_entered strict).pthreadCreate rfl rfl executed

theorem dispatching_run (strict : Prop) (allowed : State User → Action User → Prop)
    {values : SemId → UInt32} {user : User} {start : State User} {account : Account}
    (ofThreads : strict → ∀ user call waiting, client.calls user call waiting → call.OfThreads)
    (prompt : ∀ state action, allowed state action → Prompt state action)
    (undisguised : ∀ state action, allowed state action → strict ∨ Undisguised state action)
    (elsewhere : strict → ∀ state action, allowed state action → MainElsewhere state action)
    (boots : Boots client (fun sem => semInit (values sem)) user start)
    (run : RunUnder (AccountedStep client) (fun before action => allowed before.1 action)
      (start, .initial) (state, account)) :
    ∃ parked, ({ account, parked, strict } : Notes).Dispatching state := by
  refine RunUnder.invariant
    (fun now : State User × Account =>
      ∃ parked, ({ account := now.2, parked, strict } : Notes).Dispatching now.1)
    (fun before action after dispatching permitted stepped => ?_)
    ⟨∅, dispatching_start strict boots⟩ run
  rcases dispatching with ⟨parked, dispatching⟩
  rcases stepped with ⟨stepped, accounted⟩
  rw [accounted]
  exact dispatching.step ofThreads (prompt _ _ permitted) (undisguised _ _ permitted)
    (fun isStrict => elsewhere isStrict _ _ permitted) stepped

/-! ## Dispatching -/

/-- The scheduler dispatches a thread that is `READY` (a caller that was `RUNNING` has been made
`READY`), and a thread that returns from `pthread_join` was preceded by the `pthread_exit` of the
thread it joined. -/
theorem dispatchedInTurn {values : SemId → UInt32} {user : User} {start : State User}
    {account : Account} (boots : Boots client (fun sem => semInit (values sem)) user start)
    (run : RunUnder (AccountedStep client) Dispatches (start, .initial) (state, account)) :
    (∀ next, state.schedulerPoint = some (.switch next) → (state.tcb next).status = .ready) ∧
      ∀ thread value, state.cpu.schedulers = [] →
        state.cpu.call = some (.join thread (.finish value)) →
        account.exits thread ≠ none := by
  rcases dispatching_run False (fun state action => Prompt state action ∧ Undisguised state action)
      False.elim (fun _ _ permitted => permitted.1) (fun _ _ permitted => .inr permitted.2)
      False.elim boots run with ⟨parked, dispatching⟩
  refine ⟨fun next atSwitch => ?_, fun thread value noSchedulers returns => ?_⟩
  · rcases Option.map_eq_some_iff.mp atSwitch with ⟨⟨handler, point⟩, top, rfl⟩
    rcases List.head?_eq_some_iff.mp top with ⟨rest, frames⟩
    exact (dispatching.occupies.schedules frames).2
  · have executes := dispatching.occupies.executes noSchedulers
    rw [returns] at executes
    have settled := Notes.Normal.proceeds executes
    cases value with
    | none => exact settled.1
    | some value =>
        intro none
        exact absurd (none.symm.trans settled.2) (by simp)

/-! ## Evaluating runs -/

section Evaluation

variable {client : Client User} [∀ user next, Decidable (client.own user next)]
  [∀ user call waiting, Decidable (client.calls user call waiting)]
  {allowed : State User × Account → Action User → Prop}
  [∀ before action, Decidable (allowed before action)]

/-- Perform an action with its account if the programs and the condition permit it. -/
def accountedAttempt (client : Client User) [∀ user next, Decidable (client.own user next)]
    [∀ user call waiting, Decidable (client.calls user call waiting)]
    (allowed : State User × Account → Action User → Prop)
    [∀ before action, Decidable (allowed before action)]
    (before : State User × Account) (action : Action User) : Option (State User × Account) :=
  if allowed before action ∧ before.1.Permits client action then
    (before.1.perform client action).map fun after => (after, before.2.extend before.1 action)
  else none

theorem accountedStep_of_attempt {before after : State User × Account} {action : Action User}
    (attempted : accountedAttempt client allowed before action = some after) :
    allowed before action ∧ AccountedStep client before action after := by
  rcases Option.ite_none_right_eq_some.mp attempted with ⟨⟨isAllowed, permitted⟩, performed⟩
  rcases Option.map_eq_some_iff.mp performed with ⟨next, isNext, rfl⟩
  exact ⟨isAllowed, ⟨permitted, isNext⟩, rfl⟩

/-- What is evaluated after some actions holds at the end of a run. -/
theorem exists_accountedRun {values : SemId → UInt32} {user : User} {routine arg : Value}
    {actions : List (Action User)} {holds : State User × Account → Bool}
    (evaluated : (((boot client (fun sem => semInit (values sem)) user routine arg).map
      fun start => (start, Account.initial)).bind
        (follow (accountedAttempt client allowed) actions)).any holds = true) :
    ∃ start state account, Boots client (fun sem => semInit (values sem)) user start ∧
      RunUnder (AccountedStep client) allowed (start, .initial) (state, account) ∧
      holds (state, account) = true := by
  rcases exists_run_of_follow (fun _ _ _ _ attempted => accountedStep_of_attempt attempted)
    evaluated with ⟨start, ⟨state, account⟩, started, run, holdsAtLast⟩
  rcases Option.map_eq_some_iff.mp started with ⟨booted, isBooted, rfl⟩
  exact ⟨booted, state, account, ⟨routine, arg, isBooted⟩, run, holdsAtLast⟩

end Evaluation

instance (user next : Unit) : Decidable (idleClient.own user next) :=
  inferInstanceAs (Decidable True)

instance (user : Unit) (call : Call) (waiting : Unit) :
    Decidable (idleClient.calls user call waiting) :=
  inferInstanceAs (Decidable True)

def joinAndReturn : List (Action Unit) :=
  [.statement, .call (.join 1) ()] ++ List.replicate 8 .statement ++ [.call (.exit 7) ()] ++
    List.replicate 5 .statement

theorem dispatchedInTurn_joined :
    ∃ (start state : State Unit) (account : Account),
      Boots idleClient (fun _ => semInit 0) () start ∧
      RunUnder (AccountedStep idleClient) Dispatches (start, .initial) (state, account) ∧
      state.cpu.call = some (.join 1 (.finish (some 7))) ∧ account.exits 1 ≠ none := by
  have evaluated : (((boot idleClient (fun sem => semInit ((fun _ => 0) sem)) () 0 0).map
      fun start => (start, Account.initial)).bind
        (follow (accountedAttempt idleClient Dispatches) joinAndReturn)).any
      (fun now => now.1.cpu.schedulers = [] ∧
        now.1.cpu.call = some (.join 1 (.finish (some 7)))) = true := by
    decide +kernel
  rcases exists_accountedRun evaluated with ⟨start, state, account, boots, run, holds⟩
  rcases of_decide_eq_true holds with ⟨noSchedulers, returns⟩
  exact ⟨start, state, account, boots, run, returns,
    (dispatchedInTurn boots run).2 1 (some 7) noSchedulers returns⟩

/-- The main thread is preempted by thread 1, which blocks in `sem_wait`, and joins it then. -/
def joinBlocked : List (Action Unit) :=
  [.statement, .alarm] ++ List.replicate 8 .statement ++ [.call (.semWait 0) ()] ++
    List.replicate 265 .statement ++ [.call (.join 1) ()] ++ List.replicate 265 .statement

theorem dispatchedInTurn_broken :
    ¬∀ (client : Client Unit) (values : SemId → UInt32) (user : Unit) (start state : State Unit)
      (account : Account), Boots client (fun sem => semInit (values sem)) user start →
      RunUnder (AccountedStep client) (fun _ _ => True) (start, .initial) (state, account) →
      (∀ next, state.schedulerPoint = some (.switch next) → (state.tcb next).status = .ready) ∧
        ∀ thread value, state.cpu.schedulers = [] →
          state.cpu.call = some (.join thread (.finish value)) →
          account.exits thread ≠ none := by
  intro always
  have evaluated : (((boot idleClient (fun sem => semInit ((fun _ => 0) sem)) () 0 0).map
      fun start => (start, Account.initial)).bind
        (follow (accountedAttempt idleClient fun _ _ => True) joinBlocked)).any
      (fun now => now.1.cpu.schedulers = [] ∧
        now.1.cpu.call = some (.join 1 (.finish (some 0))) ∧ now.2.exits 1 = none) = true := by
    decide +kernel
  rcases exists_accountedRun evaluated with ⟨start, state, account, boots, run, holds⟩
  rcases of_decide_eq_true holds with ⟨noSchedulers, returns, never⟩
  exact (always idleClient (fun _ => 0) () start state account boots run).2 1 (some 0) noSchedulers
    returns never

/-! ## Joining -/

theorem Account.counts_le_counted (account : Account) (tid other : Tid) :
    account.counts tid ≤ (account.counted other).counts tid := by
  by_cases same : tid = other <;> simp [Account.counted, same]

theorem Account.counts_le_statement (account : Account) (state : State User) (frame : Frame)
    (tid : Tid) : account.counts tid ≤ (account.statement state frame).counts tid := by
  cases frame with
  | exit value point =>
      cases point with
      | start =>
          simp only [Account.statement]
          split
          · exact counts_le_counted ((account.exited _ value).freed _) tid state.currTid
          · exact le_rfl
      | count joined => exact account.counts_le_counted tid state.currTid
      | _ => exact le_rfl
  | join thread point => cases point <;> exact le_rfl
  | create routine arg point | semWait sem point | semPost sem point => exact le_rfl

theorem Account.counts_le (account : Account) (state : State User) (action : Action User)
    (tid : Tid) : account.counts tid ≤ (account.extend state action).counts tid := by
  cases action with
  | statement =>
      simp only [Account.extend]
      split
      · exact account.counts_le_statement state _ tid
      · exact le_rfl
  | own user | call call user | alarm => exact le_rfl

theorem counts_le_of_run {allowed : State User × Account → Action User → Prop}
    {before last : State User × Account} (run : RunUnder (AccountedStep client) allowed before last)
    (tid : Tid) : before.2.counts tid ≤ last.2.counts tid := by
  refine RunUnder.invariant (fun now : State User × Account =>
    before.2.counts tid ≤ now.2.counts tid) (fun middle action after below _ stepped => ?_) le_rfl run
  rw [stepped.2]
  exact below.trans (middle.2.counts_le middle.1 action tid)

/-- A thread that returns from `pthread_join` with a value is the `RUNNING` one, and the thread
that it alone joined called `pthread_exit` with that value, was released once and is `EXITED`
for ever. -/
theorem joinHandshake
    (onlyThreads : ∀ user call waiting, client.calls user call waiting → call.OfThreads)
    {values : SemId → UInt32} {user : User} {start : State User} {account : Account}
    (boots : Boots client (fun sem => semInit (values sem)) user start)
    (run : RunUnder (AccountedStep client) Handshakes (start, .initial) (state, account))
    {thread : Tid} {stored : Option Value} (noSchedulers : state.cpu.schedulers = [])
    (returns : state.cpu.call = some (.join thread (.finish stored)))
    (onlyJoiner : account.joins thread ≤ 1) :
    (∃ value, account.exits thread = some value ∧ stored = some value) ∧
      account.frees thread = 1 ∧ account.counts thread = 1 ∧
      state.pthreadSelf = state.cpu.owner ∧ (state.tcb state.currTid).status = .running ∧
      ∀ last lastAccount,
        RunUnder (AccountedStep client) Handshakes (state, account) (last, lastAccount) →
        (last.tcb thread).status = .exited := by
  have invariant {last : State User} {lastAccount : Account}
      (run : RunUnder (AccountedStep client) Handshakes (start, .initial) (last, lastAccount)) :
      ∃ parked, ({ account := lastAccount, parked, strict := True } : Notes).Dispatching last :=
    dispatching_run True (fun state action => Prompt state action ∧ MainElsewhere state action)
      (fun _ => onlyThreads) (fun _ _ permitted => permitted.1) (fun _ _ _ => .inl trivial)
      (fun _ _ _ permitted => permitted.2) boots run
  rcases invariant run with ⟨parked, dispatching⟩
  have executes := dispatching.occupies.executes noSchedulers
  rw [returns] at executes
  have normal : Notes.Normal _ state.tcb state.currTid state.cpu.owner
    (some (.join thread (.finish stored))) := executes
  have settled := normal.proceeds
  cases stored with
  | none => exact absurd settled.2 (Nat.not_le.mpr (Nat.lt_succ_of_le onlyJoiner))
  | some value =>
      rcases settled with ⟨delivered, exits⟩
      refine ⟨⟨value, exits, rfl⟩, delivered.frees, delivered.counts,
        (normal.owner trivial).symm, ?_, fun last lastAccount later => ?_⟩
      · exact (normal.prompt trivial).resolve_right (by simp [atReturn])
      · rcases invariant (run.trans later) with ⟨laterParked, laterDispatching⟩
        by_contra notExited
        have released := ((laterDispatching.recorded.entries thread).unreleased notExited).2
        have counted := counts_le_of_run later thread
        have counted : account.counts thread ≤ lastAccount.counts thread := counted
        have once : account.counts thread = 1 := delivered.counts
        have none : lastAccount.counts thread = 0 := released
        omega

/-- The main thread is preempted by thread 1, which exits with 7 and is joined by thread 2. -/
def returnThenJoin : List (Action Unit) :=
  [.statement, .call (.create 0 0) (), .statement, .statement, .alarm] ++
    List.replicate 8 .statement ++ [.call (.exit 7) ()] ++ List.replicate 8 .statement ++
    [.call (.join 1) ()] ++ List.replicate 13 .statement

/-- The joiner comes first in one run, and the exit in the other. -/
theorem joinHandshake_bothOrders :
    (∃ (start state : State Unit) (account : Account),
      Boots threadsClient (fun _ => semInit 0) () start ∧
      RunUnder (AccountedStep threadsClient) Handshakes (start, .initial) (state, account) ∧
      (account.exits 1 = some 7 ∧ account.frees 1 = 1 ∧ account.counts 1 = 1) ∧
      state.currTid = 0 ∧ (state.tcb 0).status = .running) ∧
    ∃ (start state : State Unit) (account : Account),
      Boots threadsClient (fun _ => semInit 0) () start ∧
      RunUnder (AccountedStep threadsClient) Handshakes (start, .initial) (state, account) ∧
      (account.exits 1 = some 7 ∧ account.frees 1 = 1 ∧ account.counts 1 = 1) ∧
      state.currTid = 2 ∧ (state.tcb 2).status = .running := by
  have joined (joiner : Tid) (actions : List (Action Unit))
      (evaluated : (((boot threadsClient (fun sem => semInit ((fun _ => 0) sem)) () 0 0).map
        fun start => (start, Account.initial)).bind
          (follow (accountedAttempt threadsClient Handshakes) actions)).any
        (fun now => now.1.cpu.schedulers = [] ∧
          now.1.cpu.call = some (.join 1 (.finish (some 7))) ∧ now.2.joins 1 ≤ 1 ∧
          now.1.currTid = joiner) = true) :
      ∃ (start state : State Unit) (account : Account),
        Boots threadsClient (fun _ => semInit 0) () start ∧
        RunUnder (AccountedStep threadsClient) Handshakes (start, .initial) (state, account) ∧
        (account.exits 1 = some 7 ∧ account.frees 1 = 1 ∧ account.counts 1 = 1) ∧
        state.currTid = joiner ∧ (state.tcb joiner).status = .running := by
    rcases exists_accountedRun evaluated with ⟨start, state, account, boots, run, holds⟩
    rcases of_decide_eq_true holds with ⟨noSchedulers, returns, once, rfl⟩
    rcases joinHandshake (fun _ _ _ ofThreads => ofThreads) boots run noSchedulers returns once
      with ⟨⟨value, exits, isValue⟩, frees, counts, -, running, -⟩
    cases isValue
    exact ⟨start, state, account, boots, run, ⟨exits, frees, counts⟩, rfl, running⟩
  constructor
  · exact joined 0 joinAndReturn (by decide +kernel)
  · exact joined 2 returnThenJoin (by decide +kernel)

/-- The main thread is preempted in `scheduler`, when it has chosen thread 1.  Thread 1 joins
thread 2, and the main thread dispatches thread 1 as it had chosen. -/
def staleChoice : List (Action Unit) :=
  [.statement, .call (.create 0 0) (), .statement, .statement, .alarm, .statement, .statement,
    .alarm] ++ List.replicate 8 .statement ++ [.call (.join 2) ()] ++
    List.replicate 8 .statement ++ [.alarm] ++ List.replicate 258 .statement ++
    List.replicate 7 .statement ++ List.replicate 3 .statement

theorem joinHandshake_broken :
    ¬∀ (client : Client Unit) (values : SemId → UInt32) (user : Unit) (start state : State Unit)
      (account : Account) (thread : Tid) (stored : Option Value),
      (∀ user call waiting, client.calls user call waiting → call.OfThreads) →
      Boots client (fun sem => semInit (values sem)) user start →
      RunUnder (AccountedStep client) (fun _ _ => True) (start, .initial) (state, account) →
      state.cpu.schedulers = [] → state.cpu.call = some (.join thread (.finish stored)) →
      account.joins thread ≤ 1 →
      (∃ value, account.exits thread = some value ∧ stored = some value) ∧
        account.frees thread = 1 ∧ account.counts thread = 1 ∧
        state.pthreadSelf = state.cpu.owner ∧ (state.tcb state.currTid).status = .running ∧
        (state.tcb thread).status = .exited := by
  intro always
  have evaluated : (((boot threadsClient (fun sem => semInit ((fun _ => 0) sem)) () 0 0).map
      fun start => (start, Account.initial)).bind
        (follow (accountedAttempt threadsClient fun _ _ => True) staleChoice)).any
      (fun now => now.1.cpu.schedulers = [] ∧
        now.1.cpu.call = some (.join 2 (.finish (some 0))) ∧ now.2.joins 2 ≤ 1 ∧
        now.2.exits 2 = none) = true := by
    decide +kernel
  rcases exists_accountedRun evaluated with ⟨start, state, account, boots, run, holds⟩
  rcases of_decide_eq_true holds with ⟨noSchedulers, returns, once, never⟩
  rcases (always threadsClient (fun _ => 0) () start state account 2 (some 0)
    (fun _ _ _ ofThreads => ofThreads) boots run noSchedulers returns once).1 with
    ⟨value, exits, -⟩
  exact absurd (never.symm.trans exits) (by simp)

end EC440.Threads
