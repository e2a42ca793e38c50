import EC440.Threads.DispatchSteps

/-!
# Exiting and joining

The statements of `pthread_join` and `pthread_exit` keep the invariant: a
thread that waits in `pthread_join` is named by the thread it waits for, and
goes on when that has ended with its value stored, its stack freed and its
place in `total_threads` given up.
-/

namespace EC440.Threads

open Transition

variable {User : Type} {client : Client User} {state after : State User}
  {threads laterThreads : Tid → Thread User} {notes : Notes} {curr laterCurr tid : Tid}

namespace Notes.Dispatching

/-! ## Statements of pthread_join -/

theorem grow_joined (thread : Tid) :
    notes.Grow threads { notes with account := notes.account.joined thread } threads := by
  refine ⟨.rfl, subset_rfl, fun _ _ exits => exits, fun tid => ?_, fun tid delivered => ?_⟩
  · by_cases same : tid = thread <;> simp [Account.joined, same]
  · exact ⟨delivered.status, delivered.exits, delivered.frees, delivered.counts⟩

theorem joins_joined (thread : Tid) :
    (notes.account.joined thread).joins thread = notes.account.joins thread + 1 :=
  Function.update_self ..

/-- The account learns of a call of `pthread_join`. -/
theorem recorded_joined (dispatching : notes.Dispatching state) (thread : Tid) :
    ({ notes with account := notes.account.joined thread } : Notes).Recorded state.tcb
      state.currTid := by
  have entry := dispatching.recorded.entries state.currTid
  have unchanged (tid : Tid) : notes.Unchanged state.tcb
      { notes with account := notes.account.joined thread } state.tcb tid :=
    ⟨rfl, rfl, rfl, rfl, rfl, fun isParked => isParked⟩
  exact dispatching.recorded.change state.currTid (grow_joined thread) (.inl rfl)
    (fun tid _ => unchanged tid) (entry.unchanged (grow_joined thread) (unchanged _) (.inl rfl))
    (fun _ _ joining => .inl joining)
    (fun _ awaits => .inr (awaits.unchanged (grow_joined thread) (unchanged _)))

/-- What a thread saves before it waits in `pthread_join`. -/
abbrev joinContext (state : State User) (thread : Tid) : Context User :=
  { state.cpu with call := some (.join thread .copy) }

theorem awaits_saved (recorded : notes.Recorded state.tcb state.currTid)
    (active : Active state.tcb state.currTid) (thread : Tid)
    (noSchedulers : state.cpu.schedulers = [])
    (isOwner : notes.strict → state.cpu.owner = state.currTid) :
    notes.Awaits ((state.setStatus state.currTid .blocked).setReg state.currTid
      (joinContext state thread)).tcb state.currTid thread where
  blocked := by simp
  notParked := (recorded.entries state.currTid).not_parked active
  saved := ⟨joinContext state thread, by simp, noSchedulers, rfl, isOwner⟩

theorem recorded_saved (recorded : notes.Recorded state.tcb state.currTid)
    (active : Active state.tcb state.currTid) (thread : Tid) :
    notes.Recorded ((state.setStatus state.currTid .blocked).setReg state.currTid
      (joinContext state thread)).tcb state.currTid := by
  have entry := recorded.entries state.currTid
  have notEnding := active.notEnding
  have grow : notes.Grow state.tcb notes ((state.setStatus state.currTid .blocked).setReg
      state.currTid (joinContext state thread)).tcb := by
    refine grow_of_delivered fun tid delivered => ?_
    have other : tid ≠ state.currTid := by
      rintro rfl
      exact notEnding.2.1 delivered.status
    simp [other]
  refine recorded.change state.currTid grow (.inl rfl) (fun tid other => ?_) ?_
    (fun _ _ joining => .inl (by simpa using joining)) (fun _ awaits => ?_)
  · exact ⟨by simp [other], by simp [other], rfl, rfl, rfl, fun isParked => isParked⟩
  · refine ⟨fun may => ?_, fun parked => absurd parked (entry.not_parked active),
      fun waiting => ?_, fun exited => ?_, fun ended => ?_, fun _ => entry.unreleased notEnding.2.1⟩
    · rcases may with running | parked
      · simp [Active] at running
      · exact absurd parked (entry.not_parked active)
    · simp at waiting
    · simp at exited
    · exact absurd (entry.exits_eq_none notEnding.1 notEnding.2.1) ended
  · exact absurd awaits.blocked notEnding.2.2

theorem recorded_setJoining {thread : Tid} (recorded : notes.Recorded state.tcb curr)
    (joins : 1 ≤ notes.account.joins thread) (awaits : notes.Awaits state.tcb tid thread) :
    notes.Recorded (state.setJoining thread tid).tcb curr := by
  have agree := state.setJoining_agrees thread tid
  have unchanged (other : Tid) : notes.Unchanged state.tcb notes
      (state.setJoining thread tid).tcb other :=
    ⟨agree.status other, agree.reg other, rfl, rfl, rfl, fun isParked => isParked⟩
  have grow : notes.Grow state.tcb notes (state.setJoining thread tid).tcb := by
    refine grow_of_delivered fun other _ => ⟨agree.status other, ?_⟩
    by_cases same : other = thread <;> simp [State.setJoining, same]
  refine recorded.change thread grow (.inl rfl) (fun other _ => unchanged other)
    ((recorded.entries thread).unchanged grow (unchanged thread) (.inl rfl))
    (fun other joiner joining => ?_)
    (fun other also => .inr (also.unchanged grow (unchanged thread)))
  by_cases same : other = thread
  · subst same
    simp only [State.setJoining, Function.update_self, Option.some.injEq] at joining
    subst joining
    exact .inr ⟨joins, awaits.unchanged grow (unchanged tid)⟩
  · simp only [State.setJoining, Function.update_of_ne same] at joining
    exact .inl joining

theorem joinUnexited (dispatching : notes.Dispatching state) {thread : Tid}
    (normal : notes.Normal state.tcb state.currTid state.cpu.owner (some (.join thread .start)))
    (noSchedulers : state.cpu.schedulers = []) :
    ({ notes with account := notes.account.joined thread } : Notes).Dispatching
      (state.joinUnexited thread) := by
  have active := normal.active fun _ => ⟨by simp, by simp⟩
  have noted := dispatching.recorded_joined thread
  have saved := recorded_saved noted active thread
  have awaits := awaits_saved noted active thread noSchedulers normal.owner
  have joins : 1 ≤ (notes.account.joined thread).joins thread := by
    rw [joins_joined]
    exact Nat.le_add_left ..
  simp only [State.joinUnexited]
  split
  next waiting =>
      refine ⟨dispatching.started, saved.setCurrent (.inr ?_), dispatching.queued,
        occupies_of_executes noSchedulers ⟨rfl, waiting, joins, awaits⟩⟩
      exact fun running => absurd (waiting.symm.trans running) (by decide)
  next =>
      refine ⟨dispatching.started, recorded_setJoining saved joins awaits, dispatching.queued,
        occupies_of_executes noSchedulers ?_⟩
      exact ((State.setJoining_agrees ..).status _).trans awaits.blocked

theorem joinRun (dispatching : notes.Dispatching state) {thread : Tid} {value : Value}
    (normal : notes.Normal state.tcb state.currTid state.cpu.owner
      (some (.join thread (.run value))))
    (noSchedulers : state.cpu.schedulers = []) :
    notes.Dispatching
      ((state.setStatus state.currTid .running).inCall (.join thread (.unlock (some value)))) := by
  have entry := dispatching.recorded.entries state.currTid
  have settled : notes.Settled state.tcb thread (some value) := normal.proceeds
  have waitsForThis (other : Tid) (awaits : notes.Awaits state.tcb state.currTid other) :
      other = thread := by
    rcases normal.may with active | ⟨same, also, atCopy | ⟨_, atRun⟩⟩
    · exact absurd awaits.blocked active.notEnding.2.2
    · cases atCopy
    · cases atRun
      exact awaits.unique also
  have notEnding : (state.tcb state.currTid).status ≠ .waiting ∧
      (state.tcb state.currTid).status ≠ .exited := by
    rcases normal.may with active | ⟨_, awaits, -⟩
    · exact ⟨active.notEnding.1, active.notEnding.2.1⟩
    · rw [awaits.blocked]
      decide
  have isRunning : ((state.setStatus state.currTid .running).tcb state.currTid).status =
      .running := (state.setStatus_status ..).trans (if_pos rfl)
  refine ⟨dispatching.started, ?_, dispatching.queued, occupies_of_executes noSchedulers
    (Normal.executes ⟨.inl (.inl isRunning), normal.owner, ?_, fun _ => .inl isRunning⟩)⟩
  · refine dispatching.recorded.setStatus (entry.exits_eq_none notEnding.1 notEnding.2)
      (by decide) (fun context reg _ => ?_) (fun parked => ?_) (fun other awaits => ?_)
    · rcases normal.may with active | ⟨same, awaits, -⟩
      · exact entry.fine (.inl active) context reg
      · rcases awaits.saved with ⟨saved, isSaved, below, called, isOwner⟩
        cases reg.symm.trans isSaved
        rw [Fine, below, called, waitsForThis same awaits]
        exact ⟨isOwner, settled.1⟩
    · rcases normal.may with active | ⟨_, awaits, -⟩
      · exact absurd parked (entry.not_parked active)
      · exact absurd parked awaits.notParked
    · rw [waitsForThis other awaits, settled.2]
      exact Option.some_ne_none value
  · have grow : notes.Grow state.tcb notes (state.setStatus state.currTid .running).tcb :=
      grow_setStatus notEnding.2
    exact grow.settled settled

theorem pthreadJoin (dispatching : notes.Dispatching state) {thread : Tid} {point : JoinPoint}
    (noSchedulers : state.cpu.schedulers = [])
    (called : state.cpu.call = some (.join thread point))
    (executed : state.pthreadJoin client thread point = some after) :
    ({ notes with account := notes.account.statement state (.join thread point) } :
      Notes).Dispatching after := by
  have executes := dispatching.occupies.executes noSchedulers
  rw [called] at executes
  cases point with
  | start =>
      have normal : notes.Normal state.tcb state.currTid state.cpu.owner
        (some (.join thread .start)) := executes
      simp only [State.pthreadJoin] at executed
      split at executed <;> cases executed
      next => exact dispatching.joinUnexited normal noSchedulers
      next exited =>
          have known := (dispatching.recorded.entries thread).exited (not_not.mp exited)
          refine ⟨dispatching.started, dispatching.recorded_joined thread, dispatching.queued,
            occupies_of_executes noSchedulers (Normal.executes
              ⟨.inl (normal.active fun _ => ⟨by simp, by simp⟩), normal.owner, ?_,
                fun _ => .inr rfl⟩)⟩
          refine ⟨known.1, ?_⟩
          rw [Account.statement, joins_joined]
          exact Nat.succ_le_succ known.2
  | copy =>
      cases executed
      have normal : notes.Normal state.tcb state.currTid state.cpu.owner
        (some (.join thread .copy)) := executes
      have delivered : notes.Delivered state.tcb thread := normal.proceeds
      refine dispatching.goto rfl rfl rfl rfl (occupies_of_executes noSchedulers
        (Normal.executes ⟨?_, normal.owner, ⟨delivered, delivered.exits⟩, fun _ => .inr rfl⟩))
      rcases normal.may with active | ⟨same, awaits, atCopy | ⟨_, atRun⟩⟩
      · exact .inl active
      · cases atCopy
        exact .inr ⟨thread, awaits, .inr ⟨_, rfl⟩⟩
      · cases atRun
  | run value =>
      cases executed
      exact dispatching.joinRun executes noSchedulers
  | unlock value =>
      cases executed
      have normal : notes.Normal state.tcb state.currTid state.cpu.owner
        (some (.join thread (.unlock value))) := executes
      refine dispatching.proceed normal (normal.active fun _ => ⟨by simp, by simp⟩) rfl rfl rfl
        dispatching.queued rfl noSchedulers normal.proceeds (fun strict => ?_)
      cases value with
      | none => exact .inr rfl
      | some value => exact .inl ((normal.prompt strict).resolve_right (by simp [atReturn]))
  | schedule =>
      cases executed
      refine dispatching.goto rfl rfl rfl rfl fun running => ?_
      exact absurd (running.symm.trans executes) (by decide)
  | jump waitingThread =>
      rcases executes with ⟨rfl, waiting, joins, awaits⟩
      rcases (State.longjmp_eq_some_iff ..).mp executed with ⟨context, reg, rfl⟩
      have entry := dispatching.recorded.entries state.currTid
      rcases entry.waits waiting with ⟨saved, value, isSaved, below, atSet, exits⟩
      cases reg.symm.trans isSaved
      have unreleased := entry.unreleased (by rw [waiting]; decide)
      have resumed : context.resume (waitingThread + maxThreads) =
          { context with call := some (.exit value (.joined (waitingThread + maxThreads))) } := by
        rw [Context.resume, below, atSet]
      rw [resumed]
      refine dispatching.goto rfl rfl rfl rfl (occupies_of_executes below
        ⟨waiting, exits, unreleased.1, unreleased.2, joins, fun tid isJoiner => ?_⟩)
      have isWaiting : State.joinerOf (waitingThread + maxThreads) = some waitingThread := by
        simp [State.joinerOf, waitingThread.isLt]
      cases isWaiting.symm.trans isJoiner
      exact awaits
  | finish value =>
      cases executed
      have normal : notes.Normal state.tcb state.currTid state.cpu.owner
        (some (.join thread (.finish value))) := executes
      exact dispatching.proceed normal (normal.active fun _ => ⟨by simp, by simp⟩) rfl rfl rfl
        dispatching.queued rfl noSchedulers trivial (fun _ => .inr rfl)

/-! ## Statements of pthread_exit -/

/-- Only the current thread changes, which is not `RUNNING` or `READY` afterwards and whose
end the account learns of. -/
theorem end_current (recorded : notes.Recorded threads curr) (account : Account) (value : Value)
    (laterThreads : Tid → Thread User) (laterCurr : Tid)
    (notDelivered : ¬notes.Delivered threads curr ∨
      ({ notes with account } : Notes).Delivered laterThreads curr)
    (exits : account.exits = Function.update notes.account.exits curr (some value))
    (known : notes.account.exits curr = none ∨ notes.account.exits curr = some value)
    (joins : account.joins = notes.account.joins)
    (others : ∀ tid, tid ≠ curr → account.frees tid = notes.account.frees tid ∧
      account.counts tid = notes.account.counts tid ∧ laterThreads tid = threads tid)
    (joining : (laterThreads curr).joining = (threads curr).joining)
    (wasNotBlocked : (threads curr).status ≠ .blocked) (notParked : curr ∉ notes.parked)
    (stays : Stays threads curr laterCurr)
    (ends : (laterThreads curr).status = .exited ∧ 1 ≤ notes.account.joins curr ∨
      (laterThreads curr).status = .waiting ∧
        account.frees curr = 0 ∧ account.counts curr = 0 ∧
        ∃ context, (laterThreads curr).reg = some context ∧ context.schedulers = [] ∧
          context.call = some (.exit value .set)) :
    notes.Grow threads { notes with account } laterThreads ∧
      ({ notes with account } : Notes).Recorded laterThreads laterCurr ∧
      ∀ tid thread, notes.Awaits threads tid thread →
        ({ notes with account } : Notes).Awaits laterThreads tid thread := by
  have exitsCurr : account.exits curr = some value := by rw [exits, Function.update_self]
  have exitsOther (tid : Tid) (other : tid ≠ curr) :
      account.exits tid = notes.account.exits tid := by
    rw [exits, Function.update_of_ne other]
  have grow : notes.Grow threads { notes with account } laterThreads := by
    refine ⟨.rfl, subset_rfl, fun tid isValue was => ?_, fun tid => (congrFun joins tid).ge,
      fun tid delivered => ?_⟩
    · by_cases same : tid = curr
      · subst same
        rcases known with none | some
        · rw [none] at was
          cases was
        · exact exitsCurr.trans (some.symm.trans was)
      · exact (exitsOther tid same).trans was
    · by_cases same : tid = curr
      · subst same
        exact notDelivered.resolve_left (not_not.mpr delivered)
      · rcases others tid same with ⟨sameFrees, sameCounts, sameThread⟩
        refine ⟨?_, ?_, sameFrees.trans delivered.frees, sameCounts.trans delivered.counts⟩ <;>
          rw [sameThread]
        · exact delivered.status
        · exact (exitsOther tid same).trans delivered.exits
  have unchanged (tid : Tid) (other : tid ≠ curr) :
      notes.Unchanged threads { notes with account } laterThreads tid := by
    rcases others tid other with ⟨sameFrees, sameCounts, sameThread⟩
    exact ⟨by rw [sameThread], by rw [sameThread], exitsOther tid other, sameFrees, sameCounts,
      fun isParked => isParked⟩
  refine ⟨grow, recorded.change curr grow stays unchanged ?_ (fun thread tid is => ?_)
    (fun _ awaits => absurd awaits.blocked wasNotBlocked), fun tid thread awaits => ?_⟩
  · have notActive : ¬Active laterThreads curr := by
      rcases ends with ⟨exited, -⟩ | ⟨waiting, -⟩
      · rw [Active, exited]
        decide
      · rw [Active, waiting]
        decide
    refine ⟨fun may => ?_, fun parked => absurd parked notParked, fun waiting => ?_,
      fun exited => ⟨?_, ?_⟩, fun _ => ?_, fun notExited => ?_⟩
    · rcases may with active | parked
      · exact absurd active notActive
      · exact absurd parked notParked
    · rcases ends with ⟨exited, -⟩ | ⟨-, -, -, context, reg, below, atSet⟩
      · exact absurd (waiting.symm.trans exited) (by decide)
      · exact ⟨context, value, reg, below, atSet, exitsCurr⟩
    · change account.exits curr ≠ none
      rw [exitsCurr]
      exact Option.some_ne_none value
    · rcases ends with ⟨-, joined⟩ | ⟨waiting, -⟩
      · exact joined.trans (congrFun joins curr).ge
      · exact absurd (exited.symm.trans waiting) (by decide)
    · exact ends.symm.imp And.left And.left
    · rcases ends with ⟨exited, -⟩ | ⟨-, frees, counts, -⟩
      · exact absurd exited notExited
      · exact ⟨frees, counts⟩
  · by_cases same : thread = curr
    · subst same
      exact .inl (joining ▸ is)
    · rw [(others thread same).2.2] at is
      exact .inl is
  · refine awaits.unchanged grow (unchanged tid ?_)
    rintro rfl
    exact wasNotBlocked awaits.blocked

theorem exits_update {value : Value} (exits : notes.account.exits curr = some value) :
    notes.account.exits = Function.update notes.account.exits curr (some value) := by
  rw [← exits, Function.update_eq_self]

theorem exitUnjoined (dispatching : notes.Dispatching state) {value : Value}
    (normal : notes.Normal state.tcb state.currTid state.cpu.owner (some (.exit value .start)))
    (noSchedulers : state.cpu.schedulers = []) :
    ({ notes with account := notes.account.exited state.currTid value } : Notes).Dispatching
      (state.exitUnjoined value) := by
  have active := normal.active fun _ => ⟨by simp, by simp⟩
  have entry := dispatching.recorded.entries state.currTid
  have notEnding := active.notEnding
  have unreleased := entry.unreleased notEnding.2.1
  have isWaiting : ((state.exitUnjoined value).tcb state.currTid).status = .waiting := by
    simp [State.exitUnjoined, State.unlock, State.inCall]
  rcases end_current dispatching.recorded (notes.account.exited state.currTid value) value
      (state.exitUnjoined value).tcb state.currTid
      (.inl fun delivered => notEnding.2.1 delivered.status) rfl
      (.inl (entry.exits_eq_none notEnding.1 notEnding.2.1)) rfl
      (fun tid other => ⟨rfl, rfl, by
        simp [State.exitUnjoined, State.unlock, State.inCall, State.setReg, State.setStatus,
          other]⟩)
      (by simp [State.exitUnjoined, State.unlock, State.inCall]) notEnding.2.2
      (entry.not_parked active) (.inl rfl)
      (.inr ⟨isWaiting, unreleased.1, unreleased.2,
        { state.cpu with call := some (.exit value .set) },
        by simp [State.exitUnjoined, State.unlock, State.inCall], noSchedulers, rfl⟩) with
    ⟨-, recorded, -⟩
  rcases state.exitUnjoined_call value with ⟨point, leaves, inExit⟩
  refine ⟨dispatching.started, recorded, dispatching.queued,
    occupies_of_executes noSchedulers ?_⟩
  rw [inExit]
  rcases leaves with rfl | rfl
  · exact isWaiting
  · exact isWaiting

theorem exitJoined (dispatching : notes.Dispatching state) {value : Value} {joiner : Tid}
    (normal : notes.Normal state.tcb state.currTid state.cpu.owner (some (.exit value .start)))
    (noSchedulers : state.cpu.schedulers = [])
    (joining : (state.tcb state.currTid).joining = some joiner)
    (executed : state.exitJoined value joiner = some after) :
    ({ notes with
        account := ((notes.account.exited state.currTid value).freed state.currTid).counted
          state.currTid } : Notes).Dispatching after := by
  have active := normal.active fun _ => ⟨by simp, by simp⟩
  have entry := dispatching.recorded.entries state.currTid
  have notEnding := active.notEnding
  have unended := entry.exits_eq_none notEnding.1 notEnding.2.1
  have unreleased := entry.unreleased notEnding.2.1
  rcases dispatching.recorded.joiner _ _ joining with ⟨joins, joinerWaits⟩
  have awaits := joinerWaits.resolve_left (not_not.mpr unended)
  rcases Option.map_eq_some_iff.mp executed with ⟨freed, done, rfl⟩
  have agree := State.freeStack_agrees _ done
  have sameStatus : (((freed.setExitcode state.currTid value).tcb state.currTid).status) =
      .exited := by
    rw [((freed.setExitcode_agrees state.currTid value).status _).trans (agree.status _)]
    simp
  have others (tid : Tid) (other : tid ≠ state.currTid) :
      (freed.setExitcode state.currTid value).tcb tid = state.tcb tid := by
    rw [State.setExitcode_other _ other, State.freeStack_other _ done other]
    exact Function.update_of_ne other ..
  rcases end_current dispatching.recorded
      (((notes.account.exited state.currTid value).freed state.currTid).counted state.currTid)
      value (freed.setExitcode state.currTid value).tcb joiner
      (.inl fun delivered => notEnding.2.1 delivered.status) rfl (.inl unended) rfl
      (fun tid other => ⟨Function.update_of_ne other .., Function.update_of_ne other ..,
        others tid other⟩)
      (by rw [State.setExitcode_joining, State.freeStack_joining _ done, State.setStatus_joining])
      notEnding.2.2 (entry.not_parked active) (.inr (by rw [awaits.blocked]; decide))
      (.inl ⟨sameStatus, joins⟩) with ⟨-, recorded, stillAwaits⟩
  refine ⟨agree.firstCall.trans dispatching.started, recorded, ?_, occupies_of_executes ?_
    ⟨state.currTid, stillAwaits _ _ awaits, ?_⟩⟩
  · change notes.Queued freed.sems
    rw [agree.sems]
    exact dispatching.queued
  · exact (congrArg Context.schedulers (State.freeStack_cpu _ done)).trans noSchedulers
  · refine ⟨sameStatus, ?_, ?_, ?_⟩
    · exact (Function.update_self ..).trans
        (congrArg some (freed.setExitcode_exitcode state.currTid value).symm)
    · exact (Function.update_self ..).trans (congrArg (· + 1) unreleased.1)
    · exact (Function.update_self ..).trans (congrArg (· + 1) unreleased.2)

theorem exitStart (dispatching : notes.Dispatching state) {value : Value}
    (noSchedulers : state.cpu.schedulers = [])
    (called : state.cpu.call = some (.exit value .start))
    (isOwner : state.cpu.owner = state.currTid)
    (executed : state.pthreadExit value .start = some after) :
    ({ notes with account := notes.account.statement state (.exit value .start) } :
      Notes).Dispatching after := by
  have executes := dispatching.occupies.executes noSchedulers
  rw [called] at executes
  have normal : notes.Normal state.tcb state.currTid state.cpu.owner
    (some (.exit value .start)) := executes
  rw [Account.statement, isOwner]
  unfold State.pthreadExit at executed
  cases joining : (state.tcb state.currTid).joining with
  | none =>
      simp only [joining, Option.some.injEq] at executed
      subst executed
      exact dispatching.exitUnjoined normal noSchedulers
  | some joiner =>
      simp only [joining] at executed
      exact dispatching.exitJoined normal noSchedulers joining executed

theorem leave (dispatching : notes.Dispatching state) {value : Value} {joined : Nat}
    {status : Status} {frees counts laterFrees laterCounts : Nat} {point : ExitPoint}
    {account : Account} (leaves : notes.Leaves state.tcb state.currTid value joined status frees
      counts)
    (noSchedulers : after.cpu.schedulers = [])
    (atPoint : after.cpu.call = some (.exit value point))
    (notDelivered : ¬notes.Delivered state.tcb state.currTid ∨
      ({ notes with account } : Notes).Delivered after.tcb state.currTid)
    (ending : status = .waiting ∨ status = .exited)
    (exits : account.exits = notes.account.exits) (joins : account.joins = notes.account.joins)
    (isLater : (after.tcb state.currTid).status = .exited)
    (isFrees : account.frees state.currTid = laterFrees)
    (isCounts : account.counts state.currTid = laterCounts)
    (others : ∀ tid, tid ≠ state.currTid → account.frees tid = notes.account.frees tid ∧
      account.counts tid = notes.account.counts tid ∧ after.tcb tid = state.tcb tid)
    (joining : (after.tcb state.currTid).joining = (state.tcb state.currTid).joining)
    (sameCurrent : after.currTid = state.currTid) (sameFirst : after.firstCall = state.firstCall)
    (sameSems : after.sems = state.sems)
    (executes : ({ notes with account } : Notes).Leaves after.tcb state.currTid value joined
        .exited laterFrees laterCounts →
      ({ notes with account } : Notes).Executes after.tcb state.currTid after.cpu.owner
        (some (.exit value point))) :
    ({ notes with account } : Notes).Dispatching after := by
  have notBlocked : (state.tcb state.currTid).status ≠ .blocked := by
    rw [leaves.status]
    rcases ending with rfl | rfl <;> decide
  have notParked : state.currTid ∉ notes.parked := by
    intro parked
    have stops := ((dispatching.recorded.entries _).parked parked).2
    rw [leaves.status] at stops
    rcases ending with rfl | rfl
    · rcases stops with blocked | ⟨running, -⟩
      · cases blocked
      · cases running
    · rcases stops with blocked | ⟨running, -⟩
      · cases blocked
      · cases running
  rcases end_current dispatching.recorded account value after.tcb state.currTid notDelivered
      (exits.trans (exits_update leaves.exits)) (.inr leaves.exits) joins others joining notBlocked
      notParked (.inl rfl) (.inl ⟨isLater, leaves.joins⟩) with ⟨-, recorded, stillAwaits⟩
  refine ⟨sameFirst.trans dispatching.started, sameCurrent ▸ recorded, sameSems ▸
    dispatching.queued, ?_⟩
  rw [sameCurrent]
  refine occupies_of_executes noSchedulers ?_
  rw [atPoint]
  exact executes ⟨isLater, (congrFun exits _).trans leaves.exits, isFrees, isCounts,
    leaves.joins.trans (congrFun joins _).ge,
    fun tid isJoiner => stillAwaits _ _ (leaves.joiner tid isJoiner)⟩

theorem pthreadExit (dispatching : notes.Dispatching state) {value : Value} {point : ExitPoint}
    (noSchedulers : state.cpu.schedulers = [])
    (called : state.cpu.call = some (.exit value point))
    (isOwner : point = .start → state.cpu.owner = state.currTid)
    (mainReady : point = .toMain →
      (state.tcb 0).status = .ready ∧ (notes.strict → SavedElsewhere state.tcb 0))
    (executed : state.pthreadExit value point = some after) :
    ({ notes with account := notes.account.statement state (.exit value point) } :
      Notes).Dispatching after := by
  have executes := dispatching.occupies.executes noSchedulers
  rw [called] at executes
  cases point with
  | start => exact dispatching.exitStart noSchedulers called (isOwner rfl) executed
  | set | finish => exact executes.elim
  | joined joined =>
      have leaves : notes.Leaves state.tcb state.currTid value joined .waiting 0 0 := executes
      have notExited : (state.tcb state.currTid).status ≠ .exited := by
        rw [leaves.status]
        decide
      simp only [State.pthreadExit, if_pos notExited, Option.some.injEq] at executed
      subst executed
      exact dispatching.goto rfl rfl rfl rfl (occupies_of_executes noSchedulers leaves)
  | mark joined =>
      cases executed
      have leaves : notes.Leaves state.tcb state.currTid value joined .waiting 0 0 := executes
      refine dispatching.leave leaves noSchedulers rfl (.inl ?_)
        (.inl rfl) rfl rfl ?_ leaves.frees leaves.counts (fun tid other => ⟨rfl, rfl, ?_⟩) ?_ rfl rfl
        rfl id
      · intro delivered
        exact absurd (leaves.status.symm.trans delivered.status) (by decide)
      · exact (State.setStatus_status ..).trans (if_pos rfl)
      · exact Function.update_of_ne other ..
      · exact State.setStatus_joining ..
  | free joined =>
      have leaves : notes.Leaves state.tcb state.currTid value joined .exited 0 0 := executes
      rcases Option.map_eq_some_iff.mp executed with ⟨freed, done, rfl⟩
      have agree := State.freeStack_agrees _ done
      refine dispatching.leave leaves ?_ rfl (.inl ?_) (.inr rfl) rfl rfl
        ?_ ?_ leaves.counts (fun tid other => ⟨Function.update_of_ne other .., rfl, ?_⟩) ?_
        agree.currTid agree.firstCall agree.sems id
      · exact (congrArg Context.schedulers (State.freeStack_cpu _ done)).trans noSchedulers
      · intro delivered
        exact absurd (leaves.frees.symm.trans delivered.frees) (by decide)
      · exact (agree.status _).trans leaves.status
      · exact (Function.update_self ..).trans (congrArg (· + 1) leaves.frees)
      · change freed.tcb tid = state.tcb tid
        exact State.freeStack_other _ done other
      · change (freed.tcb state.currTid).joining = (state.tcb state.currTid).joining
        exact State.freeStack_joining _ done _
  | count joined =>
      cases executed
      have leaves : notes.Leaves state.tcb state.currTid value joined .exited 1 0 := executes
      refine dispatching.leave leaves noSchedulers rfl (.inl ?_) (.inr rfl)
        rfl rfl leaves.status leaves.frees ?_
        (fun tid other => ⟨rfl, Function.update_of_ne other .., rfl⟩) rfl rfl rfl rfl id
      · intro delivered
        exact absurd (leaves.counts.symm.trans delivered.counts) (by decide)
      · exact (Function.update_self ..).trans (congrArg (· + 1) leaves.counts)
  | code joined =>
      cases executed
      have leaves : notes.Leaves state.tcb state.currTid value joined .exited 1 1 := executes
      have agree := state.setExitcode_agrees state.currTid value
      have isValue := state.setExitcode_exitcode state.currTid value
      have status := (agree.status state.currTid).trans leaves.status
      refine dispatching.leave leaves noSchedulers rfl (.inr ?_) (.inr rfl)
        rfl rfl status leaves.frees leaves.counts
        (fun tid other => ⟨rfl, rfl, State.setExitcode_other _ other value⟩)
        (State.setExitcode_joining ..) rfl rfl rfl (fun later => ⟨later, isValue⟩)
      exact ⟨status, leaves.exits.trans (congrArg some isValue.symm), leaves.frees, leaves.counts⟩
  | back joined =>
      rcases executes with ⟨leaves, isValue⟩
      rcases Option.map_eq_some_iff.mp executed with ⟨joiner, isJoiner, rfl⟩
      have awaits := leaves.joiner joiner isJoiner
      have delivered : notes.Delivered state.tcb state.currTid :=
        ⟨leaves.status, leaves.exits.trans (congrArg some isValue.symm), leaves.frees,
          leaves.counts⟩
      have notRunning : (state.tcb joiner).status ≠ .running := by
        rw [awaits.blocked]
        decide
      exact ⟨dispatching.started, dispatching.recorded.setCurrent (.inr notRunning),
        dispatching.queued, occupies_of_executes noSchedulers ⟨state.currTid, awaits, delivered⟩⟩
  | unlock =>
      cases executed
      exact dispatching.goto rfl rfl rfl rfl (occupies_of_executes noSchedulers executes)
  | jump =>
      rcases executes with ⟨thread, awaits, delivered⟩
      rcases (State.longjmp_eq_some_iff ..).mp executed with ⟨context, reg, rfl⟩
      rcases awaits.saved with ⟨saved, isSaved, below, atCopy, owner⟩
      cases reg.symm.trans isSaved
      have resumed : context.resume 1 = context := by
        refine Context.resume_eq_self (fun exitValue _ atSet => ?_) 1
        rw [atCopy] at atSet
        cases atSet
      rw [resumed]
      refine dispatching.goto rfl rfl rfl rfl (occupies_of_executes below ?_)
      rw [atCopy]
      exact ⟨.inr ⟨thread, awaits, .inl rfl⟩, owner, delivered, fun _ => .inr rfl⟩
  | schedule =>
      cases executed
      refine dispatching.goto rfl rfl rfl rfl fun running => ?_
      exact absurd (running.symm.trans executes) (by decide)
  | toMain =>
      cases executed
      rcases mainReady rfl with ⟨ready, elsewhere⟩
      have notRunning : (state.tcb 0).status ≠ .running := by
        rw [ready]
        decide
      exact ⟨dispatching.started, dispatching.recorded.setCurrent (.inr notRunning),
        dispatching.queued, occupies_of_executes noSchedulers ⟨rfl, ready, elsewhere⟩⟩
  | mainJump =>
      rcases executes with ⟨isMain, ready, elsewhere⟩
      rcases (State.longjmp_eq_some_iff ..).mp executed with ⟨context, reg, rfl⟩
      have active : Active state.tcb state.currTid := .inr ready
      rw [← isMain] at reg
      have fine := (dispatching.recorded.entries state.currTid).fine (.inl active) context reg
      rw [fine.resume]
      exact dispatching.goto rfl rfl rfl rfl (fine.occupies active fun strict =>
        .inr ⟨elsewhere strict context reg, elsewhere strict⟩)

end Notes.Dispatching

end EC440.Threads
