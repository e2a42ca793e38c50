import EC440.Threads.Semaphores

/-!
# The hand-over of sem_post

A post that finds a thread in the queue makes it `RUNNING` and jumps to it.
`curr_TID` still names the thread that posts, whose entry is neither made
`READY` nor saved: it is lost.
-/

namespace EC440.Threads

open Transition

variable {User : Type} {client : Client User} {before after : State User} {sem : SemId}
  {info : SemInfo}

/-! ## A call is executed in one way -/

theorem executes_rightUnique : Relator.RightUnique (Executes client) := by
  intro state after other first second
  exact Option.some.inj (first.2.symm.trans second.2)

theorem ExecutesAll.unique {other : State User} (executes : ExecutesAll client before after)
    (also : ExecutesAll client before other) : after = other := by
  have stuck : ∀ {ended next : State User}, ended.callEnds = true →
      Relation.ReflTransGen (Executes client) ended next → ended = next := by
    intro ended next ends run
    rcases Relation.ReflTransGen.cases_head run with same | ⟨middle, goesOn, -⟩
    · exact same
    · exact absurd (ends.symm.trans goesOn.1) (by decide)
  rcases Relation.ReflTransGen.total_of_right_unique executes_rightUnique executes.1 also.1 with
    behind | ahead
  · exact stuck executes.2 behind
  · exact (stuck also.2 ahead).symm

/-! ## Handing over -/

/-- The woken thread goes on behind the `longjmp` of a post. -/
structure Resumes (client : Client User) (sem : SemId) (waiter : Tid)
    (jumping landed : State User) : Prop where
  noSchedulers : jumping.cpu.schedulers = []
  called : jumping.cpu.call = some (.semPost sem (.jump waiter))
  executed : jumping.statement client = some landed

/-- A post by the thread `poster`, whose program is in the state `program`, has handed the
processor and the semaphore over to the thread `waiter`. -/
structure HandedOver (sem : SemId) (info : SemInfo) (poster waiter : Tid) (program : User)
    (landed : State User) : Prop where
  queue : ∃ slot, info.waiting slot = waiter ∧ waiter ≠ 0 ∧ landed.sems sem = info.record slot 0
  zero : (landed.sems sem).val = 0
  current : landed.currTid = waiter
  running : ∀ tid, (landed.tcb tid).status = .running ↔ tid = waiter
  ready : (landed.tcb poster).status = .ready
  /-- The thread will go on inside its post. -/
  saved : ∃ context point, (landed.tcb poster).reg = some context ∧ context.user = program ∧
    context.call = some (.semPost sem point)

/-- A post that nothing interrupts hands over. -/
def HandsOver (client : Client User) (before : State User) (sem : SemId) (info : SemInfo) : Prop :=
  ∃ waiter jumping landed, ExecutesAll client before jumping ∧
    Resumes client sem waiter jumping landed ∧
    HandedOver sem info before.currTid waiter before.cpu.user landed

theorem Resumes.landed {waiter : Tid} {jumping landed : State User}
    (resumes : Resumes client sem waiter jumping landed) :
    ∃ context, (jumping.tcb waiter).reg = some context ∧
      landed = { jumping with cpu := context.resume 1 } := by
  have executed := resumes.executed
  rw [statement_of_call resumes.noSchedulers resumes.called] at executed
  exact (State.longjmp_eq_some_iff _).mp executed

/-- Whoever posts, `curr_TID` is still its number and cannot be the number of another thread. -/
theorem Resumes.not_handedOver {waiter : Tid} {jumping landed : State User}
    (resumes : Resumes client sem waiter jumping landed) (program : User) :
    ¬HandedOver sem info jumping.currTid waiter program landed := by
  intro handed
  rcases resumes.landed with ⟨context, -, rfl⟩
  have isWaiter : jumping.currTid = waiter := handed.current
  have running := (handed.running waiter).mpr rfl
  have ready := handed.ready
  rw [isWaiter, running] at ready
  cases ready

theorem not_handsOver {entry : Tid} (enters : Enters before (.semPost sem) sem info)
    (initialized : info.status = .initialized) (zero : info.val = 0)
    (waits : info.waiting entry ≠ 0) : ¬HandsOver client before sem info := by
  rintro ⟨waiter, jumping, landed, also, resumes, handed⟩
  rcases executesAll_of_waits client enters initialized zero waits with
    ⟨first, -, -, executes⟩
  cases also.unique executes
  exact resumes.not_handedOver _ handed

/-- A post on an initialised semaphore with value 0 and an entry in its queue makes the thread of
the first entry `RUNNING`, takes it out of the queue and jumps to it.  It never hands over,
whatever comes between its statements. -/
theorem semPost_losesPoster {entry : Tid} (enters : Enters before (.semPost sem) sem info)
    (initialized : info.status = .initialized) (zero : info.val = 0)
    (waits : info.waiting entry ≠ 0) :
    (∃ first, info.waiting first ≠ 0 ∧ (∀ other < first, info.waiting other = 0) ∧
      ∀ jumping, ExecutesAll client before jumping ↔ jumping = before.posted sem first) ∧
    ¬HandsOver client before sem info ∧
    ∀ waiter jumping landed program, Resumes client sem waiter jumping landed →
      ¬HandedOver sem info jumping.currTid waiter program landed := by
  refine ⟨?_, not_handsOver enters initialized zero waits, fun _ _ _ program resumes =>
    resumes.not_handedOver program⟩
  rcases executesAll_of_waits client enters initialized zero waits with
    ⟨first, waitsThere, free, executes⟩
  refine ⟨first, waitsThere, free, fun jumping => ?_⟩
  constructor
  · exact fun also => also.unique executes
  · rintro rfl
    exact executes

/-! ## A run of three threads -/

/-- Thread 1 blocks on the semaphore, and thread 2 is about to post. -/
def blockAndPost : List (Action Unit) :=
  [.statement, .call (.create 0 0) (), .statement, .statement, .alarm] ++
    List.replicate 8 .statement ++ [.call (.semWait 0) ()] ++
    List.replicate 12 .statement ++ [.call (.semPost 0) ()]

theorem step_of_perform {state : State Unit} {action : Action Unit} {next : State Unit}
    (performed : state.perform idleClient action = some next) :
    True ∧ Step idleClient state action next := by
  refine ⟨trivial, ?_, performed⟩
  cases action <;> trivial

/-- Thread 2 posts while thread 1 waits. -/
structure AboutToPost (state : State Unit) : Prop where
  enters : Enters state (.semPost 0) 0 (state.sems 0)
  initialized : (state.sems 0).status = .initialized
  zero : (state.sems 0).val = 0
  waits : (state.sems 0).waiting 0 = 1
  current : state.currTid = 2

theorem exists_aboutToPost :
    ∃ start before, Boots idleClient (fun _ => semInit 0) () start ∧
      RunUnder (Step idleClient) (fun _ _ => True) start before ∧ AboutToPost before ∧
      ∃ jumping landed, ExecutesAll idleClient before jumping ∧
        Resumes idleClient 0 1 jumping landed ∧ landed.cpu.owner = 1 ∧ landed.currTid = 2 ∧
        (landed.tcb 1).status = .running ∧ (landed.tcb 2).status = .running := by
  have evaluated : ((boot idleClient (fun _ => semInit 0) () 0 0).bind
      (follow (State.perform idleClient) blockAndPost)).any
      (fun before => (before.cpu.call = some (.semPost 0 .start) ∧ before.cpu.schedulers = [] ∧
          (before.sems 0).status = .initialized ∧ (before.sems 0).val = 0 ∧
          (before.sems 0).waiting 0 = 1 ∧ before.currTid = 2) ∧
        (before.execute idleClient 6).any fun jumping =>
          (jumping.cpu.schedulers = [] ∧ jumping.cpu.call = some (.semPost 0 (.jump 1))) ∧
          (jumping.statement idleClient).any fun landed =>
            landed.cpu.owner = 1 ∧ landed.currTid = 2 ∧
            (landed.tcb 1).status = .running ∧ (landed.tcb 2).status = .running) = true := by
    decide +kernel
  have performed : ∀ action ∈ blockAndPost, ∀ state after : State Unit,
      state.perform idleClient action = some after → True ∧ Step idleClient state action after :=
    fun _ _ _ _ performed => step_of_perform performed
  rcases exists_run_of_follow performed evaluated with
    ⟨start, before, booted, run, holds⟩
  rcases of_decide_eq_true holds with
    ⟨⟨called, noSchedulers, initialized, zero, waits, current⟩, posts⟩
  rcases exists_executesAll posts with ⟨jumping, executes, holdsThere⟩
  rcases of_decide_eq_true holdsThere with ⟨⟨noScheduler, jumps⟩, lands⟩
  rcases (Option.any_eq_true _ _).mp lands with ⟨landed, executed, holdsAfter⟩
  have facts := of_decide_eq_true holdsAfter
  exact ⟨start, before, ⟨0, 0, booted⟩, run,
    ⟨⟨called, noSchedulers, rfl⟩, initialized, zero, waits, current⟩,
    jumping, landed, executes, ⟨noScheduler, jumps, executed⟩, facts⟩

theorem semPost_losesPoster_second :
    ∃ start before, Boots idleClient (fun _ => semInit 0) () start ∧
      RunUnder (Step idleClient) (fun _ _ => True) start before ∧ before.currTid = 2 ∧
      (∃ first, (before.sems 0).waiting first ≠ 0 ∧
        ExecutesAll idleClient before (before.posted 0 first)) ∧
      ¬HandsOver idleClient before 0 (before.sems 0) := by
  rcases exists_aboutToPost with ⟨start, before, boots, run, posting, -⟩
  have waits : (before.sems 0).waiting 0 ≠ 0 := by
    rw [posting.waits]
    decide
  rcases @semPost_losesPoster Unit idleClient _ _ _ _ posting.enters posting.initialized
    posting.zero waits with ⟨⟨first, waitsThere, -, only⟩, never, -⟩
  exact ⟨start, before, boots, run, posting.current, ⟨first, waitsThere, (only _).mpr rfl⟩, never⟩

/-- The woken thread 1 executes as thread 2, and both are `RUNNING`. -/
theorem semPost_losesPoster_broken :
    ∃ start before, Boots idleClient (fun _ => semInit 0) () start ∧
      RunUnder (Step idleClient) (fun _ _ => True) start before ∧ AboutToPost before ∧
      (∃ jumping landed, ExecutesAll idleClient before jumping ∧
        Resumes idleClient 0 1 jumping landed ∧ landed.cpu.owner = 1 ∧ landed.currTid = 2 ∧
        (landed.tcb 1).status = .running ∧ (landed.tcb 2).status = .running) ∧
      ¬HandsOver idleClient before 0 (before.sems 0) := by
  rcases exists_aboutToPost with ⟨start, before, boots, run, posting, lands⟩
  have waits : (before.sems 0).waiting 0 ≠ 0 := by
    rw [posting.waits]
    decide
  exact ⟨start, before, boots, run, posting, lands,
    not_handsOver posting.enters posting.initialized posting.zero waits⟩

end EC440.Threads
