import EC440.Threads.ExclusiveCalls

/-!
# Mutual exclusion

Programs that keep to the discipline of a mutex.  As long as no signal falls
into the windows of `sem_wait`, `scheduler` and `pthread_exit` where what was
just read of a shared variable is acted on, and `pthread_exit` jumps only to
waiting threads, the semaphore is free or at one place, although contexts are
resumed that are out of date.
-/

namespace EC440.Threads

open Transition

variable {User : Type} {client : Client User} {mutex : SemId} {critical : User → Prop}
  {state after : State User} {context : Context User} {tid : Tid}

/-! ## Steps and runs -/

namespace Exclusive

theorem callStatement (discipline : Discipline client mutex critical)
    (exclusive : Exclusive mutex critical state) {frame : Frame}
    (idle : state.cpu.schedulers = []) (called : state.cpu.call = some frame)
    (toWaiting : ∀ target ∈ state.directTarget, ∀ context ∈ (state.tcb target).reg,
      context.savedWaiting = true)
    (executed : state.callStatement client frame = some after) :
    Exclusive mutex critical after := by
  cases frame with
  | create routine arg point => exact exclusive.pthreadCreate discipline idle called executed
  | exit value point => exact exclusive.pthreadExit idle called toWaiting executed
  | join thread point => exact exclusive.pthreadJoin discipline idle called executed
  | semWait sem point => exact exclusive.semWait discipline idle called executed
  | semPost sem point => exact exclusive.semPost discipline idle called executed

theorem enter (discipline : Discipline client mutex critical)
    (exclusive : Exclusive mutex critical state) (inUserCode : state.cpu.InUserCode)
    {call : Call} {user : User} (calls : client.calls state.cpu.user call user) :
    Exclusive mutex critical ((state.setUser user).inCall call.entry) := by
  have running : (state.tcb state.currTid).status = .running := by
    have fits := exclusive.current_fits inUserCode.2
    rw [inUserCode.1] at fits
    exact fits
  have holds : state.cpu.Holds critical ↔ critical state.cpu.user := by
    simp [Context.Holds, inUserCode.1]
  have allowed := discipline.calls _ call _ calls
  cases call with
  | create routine arg =>
      exact exclusive.goto inUserCode.2 state.masked user _ rfl
        (fun held => holds.mpr (allowed.mp held)) trivial running
  | exit value =>
      exact exclusive.goto inUserCode.2 state.masked user _ rfl (fun held => by cases held)
        allowed.2 running
  | join thread =>
      exact exclusive.goto inUserCode.2 state.masked user _ rfl (fun held => by cases held)
        allowed.2 running
  | semWait sem =>
      exact exclusive.goto inUserCode.2 state.masked user _ rfl (fun held => by cases held)
        ⟨allowed.1, allowed.2.2⟩ running
  | semPost sem =>
      exact exclusive.goto inUserCode.2 state.masked user _ rfl
        (fun _ => holds.mpr allowed.2.1) ⟨allowed.1, allowed.2.2⟩ running

theorem step (discipline : Discipline client mutex critical)
    (exclusive : Exclusive mutex critical state) {action : Action User}
    (undisturbed : Undisturbed state action) (step : Step client state action after) :
    Exclusive mutex critical after := by
  rcases step.cases with ⟨user, rfl, inUserCode, own, rfl⟩ |
    ⟨call, user, rfl, inUserCode, calls, rfl⟩ |
    ⟨frame, rfl, idle, called, executed⟩ | ⟨handler, point, rest, rfl, frames, executed⟩ |
    ⟨rfl, _, _, rfl⟩
  · have running := exclusive.current_fits inUserCode.2
    rw [inUserCode.1] at running
    have sameCall : state.setUser user =
        { state with
          masked := state.masked, cpu := { state.cpu with user, call := none } } := by
      rw [State.setUser, ← inUserCode.1]
    refine exclusive.goto inUserCode.2 state.masked user none sameCall (fun held => ?_) ?_ running
    · have inside : critical user := by
        rw [sameCall] at held
        exact held
      rw [Context.Holds, inUserCode.1]
      exact (discipline.own _ user own).mp inside
    · rw [sameCall]
      trivial
  · exact exclusive.enter discipline inUserCode calls
  · exact exclusive.callStatement discipline idle called undisturbed executed
  · exact exclusive.scheduler frames executed
  · exact exclusive.interrupt undisturbed

theorem boots (discipline : Discipline client mutex critical) {sems : SemId → SemInfo}
    (isMutex : sems mutex = semInit 1) {user : User} (outside : ¬critical user)
    (boots : Boots client sems user state) : Exclusive mutex critical state := by
  rcases boots with ⟨routine, arg, executed⟩
  have statuses : ∀ tid, ((State.entered sems user routine arg).tcb tid).status =
      if tid = 0 then .running else .fresh := by
    intro tid
    simp [State.entered, State.firstCreate, State.initSystem]
  have val : (sems mutex).val = 1 := by
    rw [isMutex]
    rfl
  have regs : ∀ tid, ((State.entered sems user routine arg).tcb tid).reg =
      if tid = 0 then
        some { owner := 0, user, call := some (.create routine arg .resumed), schedulers := [] }
      else none := by
    intro tid
    simp [State.entered, State.firstCreate, State.initSystem, State.initial, State.inCall,
      Thread.zero]
  have entered : Exclusive mutex critical (State.entered sems user routine arg) := by
    have nobody : ∀ place context, Place (State.entered sems user routine arg) place context →
        ¬context.Holds critical := by
      intro place context atPlace
      cases atPlace with
      | processor _ => exact outside
      | preempted ready _ _ =>
          rw [statuses] at ready
          split at ready <;> cases ready
      | chosen next _ => cases next
    refine of_call (.inl rfl) rfl ?_
      ⟨.inr val, fun _ => nobody, fun place context _ _ atPlace _ held _ =>
        absurd held (nobody place context atPlace)⟩ trivial (fun tid context reg => ?_)
      (fun tid context waiting _ => ?_) ?_
    · change (sems mutex).status = .initialized
      rw [isMutex]
      rfl
    · rw [regs] at reg
      split at reg
      next =>
          cases reg
          exact ⟨trivial, trivial, fun _ membership => by cases membership⟩
      next => cases reg
    · rw [statuses] at waiting
      split at waiting <;> cases waiting
    · exact (statuses 0).trans (if_pos rfl)
  rw [boot_eq] at executed
  exact entered.pthreadCreate discipline rfl rfl executed

end Exclusive

/-- As long as nothing is disturbed, no two threads are inside their critical sections, and `val`
is not negative. -/
theorem mutualExclusion (discipline : Discipline client mutex critical)
    {sems : SemId → SemInfo} (isMutex : sems mutex = semInit 1) {user : User}
    (outside : ¬critical user) {start : State User} (boots : Boots client sems user start)
    (run : RunUnder (Step client) Undisturbed start state) :
    (∀ tid other, Inside critical state tid → Inside critical state other → tid = other) ∧
      0 ≤ (state.sems mutex).val := by
  have exclusive : Exclusive mutex critical state :=
    RunUnder.invariant (Exclusive mutex critical)
      (fun _ _ _ exclusive undisturbed step => exclusive.step discipline undisturbed step)
      (Exclusive.boots discipline isMutex outside boots) run
  constructor
  · intro tid other inside otherInside
    refine exclusive.owned.inside_eq (fun place context atPlace => ?_) inside otherInside
    cases atPlace with
    | processor _ => exact exclusive.obeys
    | preempted _ _ reg => exact (exclusive.saved _ context reg).obeys
    | chosen _ reg => exact (exclusive.saved _ context reg).obeys
  · rcases exclusive.owned.range with zero | one
    · rw [zero]
    · rw [one]
      decide

/-! ## Runs of three threads -/

/-- Programs that take semaphore 0 and return it; `true` is the critical section. -/
def lockClient : Client Bool where
  start _ _ := false
  own user next := next = user
  calls user call waiting :=
    match call with
    | .create .. => waiting = user
    | .exit _ | .join _ => user = false ∧ waiting = false
    | .semWait sem => sem = 0 ∧ user = false ∧ waiting = false
    | .semPost sem => sem = 0 ∧ user = true ∧ waiting = false
  returns user call _ :=
    match call with
    | .semWait _ => true
    | .create .. | .exit _ | .join _ | .semPost _ => user

instance (user next : Bool) : Decidable (lockClient.own user next) :=
  inferInstanceAs (Decidable (_ = _))

instance (user : Bool) (call : Call) (waiting : Bool) :
    Decidable (lockClient.calls user call waiting) :=
  match call with
  | .create .. => inferInstanceAs (Decidable (_ = _))
  | .exit _ | .join _ => inferInstanceAs (Decidable (_ ∧ _))
  | .semWait _ | .semPost _ => inferInstanceAs (Decidable (_ ∧ _ ∧ _))

theorem lockClient_discipline : Discipline lockClient 0 (fun user => user = true) where
  start := fun _ _ inside => by cases inside
  own := by
    intro user next own
    rw [show next = user from own]
  calls := by
    intro user call waiting calls
    cases call with
    | create routine arg => rw [show waiting = user from calls]
    | exit value | join thread =>
        rcases calls with ⟨rfl, rfl⟩
        exact ⟨by simp, by simp⟩
    | semWait sem | semPost sem =>
        rcases calls with ⟨rfl, rfl, rfl⟩
        exact ⟨rfl, by simp, by simp⟩
  returns := by
    intro user call result
    cases call with
    | create routine arg | exit value | join thread | semPost sem => exact Iff.rfl
    | semWait sem => exact fun _ => rfl

def takeAndBlock : List (Action Bool) :=
  [.statement, .call (.semWait 0) false] ++ List.replicate 5 .statement ++ [.alarm] ++
    List.replicate 8 .statement ++ [.call (.semWait 0) false] ++ List.replicate 5 .statement

theorem mutualExclusion_taken :
    ∃ start state : State Bool, Boots lockClient (fun _ => semInit 1) false start ∧
      RunUnder (Step lockClient) Undisturbed start state ∧
      Inside (fun user => user = true) state 0 ∧ (state.tcb 1).status = .blocked ∧
      (∀ tid other, Inside (fun user => user = true) state tid →
        Inside (fun user => user = true) state other → tid = other) ∧
      0 ≤ (state.sems 0).val := by
  have evaluated : ((boot lockClient (fun _ => semInit 1) false 0 0).bind
      (follow (State.attempt lockClient Undisturbed) takeAndBlock)).any
      (fun state => state.cpu.atSave = false ∧ (state.tcb 0).status = .ready ∧
        (∃ context ∈ (state.tcb 0).reg, context.owner = 0 ∧ context.user = true) ∧
        (state.tcb 1).status = .blocked) = true := by
    decide +kernel
  rcases exists_run_of_follow (fun _ _ _ _ attempted => step_of_attempt attempted) evaluated with
    ⟨start, state, booted, run, holds⟩
  rcases of_decide_eq_true holds with
    ⟨notSaving, ready, ⟨context, reg, owner, inside⟩, blocked⟩
  exact ⟨start, state, ⟨0, 0, booted⟩, run,
    ⟨_, context, .of_ready notSaving ready reg, owner, inside⟩, blocked,
    mutualExclusion lockClient_discipline rfl (by simp) ⟨0, 0, booted⟩ run⟩

/-- Thread 1 finds the semaphore free and is preempted in front of the decrement, and thread 2
takes the semaphore meanwhile. -/
def interruptedTake : List (Action Bool) :=
  [.statement, .call (.create 0 0) false, .statement, .statement, .alarm] ++
    List.replicate 8 .statement ++ [.call (.semWait 0) false] ++ List.replicate 3 .statement ++
    [.alarm] ++ List.replicate 8 .statement ++ [.call (.semWait 0) false] ++
    List.replicate 5 .statement ++ [.alarm] ++ List.replicate 258 .statement ++ [.alarm] ++
    List.replicate 11 .statement

theorem mutualExclusion_broken :
    ¬∀ (client : Client Bool) (mutex : SemId) (critical : Bool → Prop) (sems : SemId → SemInfo)
      (user : Bool) (start state : State Bool), Discipline client mutex critical →
      sems mutex = semInit 1 → ¬critical user → Boots client sems user start →
      RunUnder (Step client) (fun _ _ => True) start state →
      (∀ tid other, Inside critical state tid → Inside critical state other → tid = other) ∧
        0 ≤ (state.sems mutex).val := by
  intro always
  have evaluated : ((boot lockClient (fun _ => semInit 1) false 0 0).bind
      (follow (State.attempt lockClient fun _ _ => True) interruptedTake)).any
      (fun state => state.cpu.abandoned = false ∧ state.cpu.owner = 1 ∧ state.cpu.user = true ∧
        state.cpu.atSave = false ∧ (state.tcb 2).status = .ready ∧
        ∃ context ∈ (state.tcb 2).reg, context.owner = 2 ∧ context.user = true) = true := by
    decide +kernel
  rcases exists_run_of_follow (fun _ _ _ _ attempted => step_of_attempt attempted) evaluated with
    ⟨start, state, booted, run, holds⟩
  rcases of_decide_eq_true holds with
    ⟨live, owner, inside, notSaving, ready, context, reg, otherOwner, otherInside⟩
  have exclusion := (always lockClient 0 (fun user => user = true) (fun _ => semInit 1) false
    start state lockClient_discipline rfl (by simp) ⟨0, 0, booted⟩ run).1
  have first : Inside (fun user => user = true) state 1 :=
    ⟨none, state.cpu, .processor live, owner, inside⟩
  have second : Inside (fun user => user = true) state 2 :=
    ⟨_, context, .of_ready notSaving ready reg, otherOwner, otherInside⟩
  have same := exclusion 1 2 first second
  exact absurd same (by decide)

end EC440.Threads
