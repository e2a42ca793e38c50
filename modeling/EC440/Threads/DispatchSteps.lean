import EC440.Threads.Dispatch

/-!
# Statements that dispatch

Each statement of `threads.c` keeps the invariant, if whoever calls
`scheduler` without being able to go on finds a thread that is `READY`, if
`pthread_exit` returns to the main thread only when that is `READY`, and if
no signal arrives between the choice of a thread and the `setjmp`.
-/

namespace EC440.Threads

open Transition

variable {User : Type} {client : Client User} {state after : State User}
  {threads laterThreads : Tid → Thread User} {notes later : Notes}
  {curr laterCurr owner tid changed : Tid} {call : Option Frame} {context : Context User}
  {handler : Bool} {point : SchedulerPoint} {rest : List SchedulerFrame}

/-- A thread is chosen, and its predecessor is not saved yet. -/
def SchedulerPoint.choosing : SchedulerPoint → Bool
  | .chosen _ | .ready _ => true
  | .start | .search _ | .advance _ | .save _ | .resumed | .switch _ | .run _ | .jump _ => false

namespace Notes

/-! ## The processor -/

theorem Occupies.executes (occupies : notes.Occupies threads curr context)
    (noSchedulers : context.schedulers = []) :
    notes.Executes threads curr context.owner context.call := by
  rw [Occupies, noSchedulers] at occupies
  exact occupies

theorem Occupies.schedules (occupies : notes.Occupies threads curr context)
    (frames : context.schedulers = { handler, point } :: rest) :
    notes.Schedules threads curr context.owner context.call rest point := by
  rw [Occupies, frames] at occupies
  exact occupies

theorem occupies_of_executes (noSchedulers : context.schedulers = [])
    (executes : notes.Executes threads curr context.owner context.call) :
    notes.Occupies threads curr context := by
  rw [Occupies, noSchedulers]
  exact executes

theorem Normal.executes (normal : notes.Normal threads curr owner call) :
    notes.Executes threads curr owner call := by
  cases call with
  | none => exact normal
  | some frame =>
      cases frame with
      | create routine arg point => exact normal
      | exit value point => cases point <;> first | exact normal | exact normal.proceeds.elim
      | join thread point => cases point <;> first | exact normal | exact normal.proceeds.elim
      | semWait sem point => cases point <;> first | exact normal | exact normal.proceeds.elim
      | semPost sem point => exact normal

theorem Normal.active (normal : notes.Normal threads curr owner call)
    (elsewhere : ∀ thread, call ≠ some (.join thread .copy) ∧
      ∀ value, call ≠ some (.join thread (.run value))) : Active threads curr := by
  rcases normal.may with active | ⟨thread, -, atCopy | ⟨value, atRun⟩⟩
  · exact active
  · exact absurd atCopy (elsewhere thread).1
  · exact absurd atRun ((elsewhere thread).2 value)

theorem Below.occupies (below : notes.Below threads curr context.owner context.call
      context.schedulers) (active : Active threads curr)
    (prompt : notes.strict → (threads curr).status = .running ∨
      atReturn context.call = false ∧ SavedElsewhere threads curr) :
    notes.Occupies threads curr context := by
  unfold Below at below
  unfold Occupies
  cases frames : context.schedulers with
  | nil =>
      rw [frames] at below
      refine Normal.executes ⟨.inl active, below.1, below.2, fun strict => ?_⟩
      exact (prompt strict).imp id And.left
  | cons frame rest =>
      rw [frames] at below
      rcases frame with ⟨handler, point⟩
      cases point with
      | start => exact fun _ => below
      | search next | advance next => exact ⟨fun _ => below, fun inactive => absurd active inactive⟩
      | resumed => exact ⟨active, below, prompt⟩
      | jump next =>
          refine ⟨active, below, fun strict => ?_⟩
          exact (prompt strict).imp id And.right
      | chosen next | ready next | save next | switch next | run next => exact below.elim

theorem Fine.occupies (fine : notes.Fine threads context curr) (active : Active threads curr)
    (prompt : notes.strict → (threads curr).status = .running ∨
      atReturn context.call = false ∧ SavedElsewhere threads curr) :
    notes.Occupies threads curr context :=
  Below.occupies fine active prompt

theorem Executes.normal (executes : notes.Executes threads curr owner call)
    (running : (threads curr).status = .running) : notes.Normal threads curr owner call := by
  have stopped {status : Status} (is : (threads curr).status = status)
      (isNot : status ≠ .running) : False := isNot (is.symm.trans running)
  cases call with
  | none => exact executes
  | some frame =>
      cases frame with
      | create routine arg point => exact executes
      | exit value point =>
          cases point with
          | start => exact executes
          | set | finish => exact executes.elim
          | joined joined | mark joined | free joined | count joined | code joined =>
              exact (stopped executes.status (by decide)).elim
          | back joined => exact (stopped executes.1.status (by decide)).elim
          | unlock | jump =>
              rcases executes with ⟨thread, awaits, -⟩
              exact (stopped awaits.blocked (by decide)).elim
          | schedule | toMain => exact (stopped executes (by decide)).elim
          | mainJump => exact (stopped executes.2.1 (by decide)).elim
      | join thread point =>
          cases point with
          | start | copy | run value | unlock value | finish value => exact executes
          | schedule => exact (stopped executes (by decide)).elim
          | jump waitingThread => exact (stopped executes.2.1 (by decide)).elim
      | semWait sem point =>
          cases point with
          | start | test | block | woken | positive | decrement | finish code => exact executes
          | find slot | insert slot | schedule => exact (stopped executes.1 (by decide)).elim
      | semPost sem point => exact executes

theorem Occupies.below (occupies : notes.Occupies threads curr context)
    (running : (threads curr).status = .running)
    (unexposed : ∀ frame ∈ context.schedulers.head?, frame.point.choosing = false) :
    notes.Below threads curr context.owner context.call context.schedulers := by
  cases frames : context.schedulers with
  | nil =>
      have normal := (occupies.executes frames).normal running
      exact ⟨normal.owner, normal.proceeds⟩
  | cons frame others =>
      rcases frame with ⟨handler, point⟩
      have schedules := occupies.schedules frames
      rw [frames] at unexposed
      have top := unexposed _ rfl
      cases point with
      | start => exact schedules running
      | search next | advance next => exact schedules.1 running
      | resumed => exact schedules.2.1
      | chosen next | ready next => cases top
      | save next => exact absurd (running.symm.trans schedules.1) (by decide)
      | switch next => exact absurd running schedules.1
      | run next =>
          rcases schedules with ⟨rfl, ready⟩
          exact absurd (running.symm.trans ready) (by decide)
      | jump next => exact schedules.2.1

/-! ## Changes of an entry -/

/-- What is known stays known, if nobody who was delivered changes. -/
theorem grow_of_delivered (same : ∀ tid, notes.Delivered threads tid →
      (laterThreads tid).status = (threads tid).status ∧
        (laterThreads tid).exitcode = (threads tid).exitcode) :
    notes.Grow threads notes laterThreads := by
  refine ⟨.rfl, subset_rfl, fun _ _ exits => exits, fun _ => le_rfl, fun tid delivered => ?_⟩
  rcases same tid delivered with ⟨sameStatus, sameCode⟩
  exact ⟨sameStatus.trans delivered.status, by rw [sameCode]; exact delivered.exits,
    delivered.frees, delivered.counts⟩

theorem grow_setStatus {status : Status} (notExited : (state.tcb changed).status ≠ .exited) :
    notes.Grow state.tcb notes (state.setStatus changed status).tcb := by
  refine grow_of_delivered fun tid delivered => ⟨?_, state.setStatus_exitcode ..⟩
  have other : tid ≠ changed := by
    rintro rfl
    exact notExited delivered.status
  rw [State.setStatus_status, if_neg other]

theorem grow_setReg {context : Context User} :
    notes.Grow state.tcb notes (state.setReg changed context).tcb :=
  grow_of_delivered fun _ _ => ⟨state.setReg_status .., state.setReg_exitcode ..⟩

theorem Recorded.setStatus {status : Status} (recorded : notes.Recorded state.tcb curr)
    (notEnding : notes.account.exits changed = none)
    (notFinal : status ≠ .waiting ∧ status ≠ .exited)
    (fine : ∀ context, (state.tcb changed).reg = some context →
      status = .running ∨ status = .ready → notes.Fine state.tcb context changed)
    (parked : changed ∈ notes.parked → status = .blocked ∨ status = .running ∧ changed ≠ curr)
    (released : ∀ thread, notes.Awaits state.tcb changed thread →
      notes.account.exits thread ≠ none) :
    notes.Recorded (state.setStatus changed status).tcb curr := by
  have entry := recorded.entries changed
  have notExited : (state.tcb changed).status ≠ .exited :=
    fun exited => (entry.exited exited).1 notEnding
  have grow : notes.Grow state.tcb notes (state.setStatus changed status).tcb :=
    grow_setStatus notExited
  refine recorded.change changed grow (.inl rfl) (fun tid other => ?_) ?_
    (fun thread tid joining => ?_) (fun thread awaits => .inl (released thread awaits))
  · refine ⟨?_, state.setStatus_reg .., rfl, rfl, rfl, fun isParked => isParked⟩
    rw [State.setStatus_status, if_neg other]
  · have is : ((state.setStatus changed status).tcb changed).status = status := by
      rw [State.setStatus_status, if_pos rfl]
    refine ⟨fun may context reg => ?_, fun isParked => ?_, fun waiting => ?_, fun exited => ?_,
      fun ended => absurd notEnding ended, fun _ => entry.unreleased notExited⟩
    · rw [State.setStatus_reg] at reg
      refine grow.fine ?_
      rcases may with active | isParked
      · rw [Active, is] at active
        exact fine context reg active
      · exact entry.fine (.inr isParked) context reg
    · rw [is]
      exact ⟨(entry.parked isParked).1, parked isParked⟩
    · exact absurd (is.symm.trans waiting) notFinal.1
    · exact absurd (is.symm.trans exited) notFinal.2
  · rw [State.setStatus_joining] at joining
    exact .inl joining

theorem Recorded.setActive {status : Status} (recorded : notes.Recorded state.tcb curr)
    (active : Active state.tcb curr) (notFinal : status ≠ .waiting ∧ status ≠ .exited) :
    notes.Recorded (state.setStatus curr status).tcb curr := by
  have entry := recorded.entries curr
  have notEnding := active.notEnding
  exact recorded.setStatus (entry.exits_eq_none notEnding.1 notEnding.2.1) notFinal
    (fun context reg _ => entry.fine (.inl active) context reg)
    (fun parked => absurd parked (entry.not_parked active))
    (fun thread awaits => absurd awaits.blocked notEnding.2.2)

theorem Recorded.save (recorded : notes.Recorded state.tcb curr)
    (ready : (state.tcb curr).status = .ready) (fine : notes.Fine state.tcb context curr) :
    notes.Recorded (state.setReg curr context).tcb curr := by
  have entry := recorded.entries curr
  have is : ((state.setReg curr context).tcb curr).status = .ready := by
    rw [State.setReg_status, ready]
  have notParked := entry.not_parked (.inr ready)
  refine recorded.change curr grow_setReg (.inl rfl) (fun tid other => ?_) ?_
    (fun thread tid joining => ?_) (fun thread awaits => ?_)
  · refine ⟨state.setReg_status .., ?_, rfl, rfl, rfl, fun isParked => isParked⟩
    rw [State.setReg_reg, if_neg other]
  · refine ⟨fun _ saved reg => ?_, fun parked => absurd parked notParked, fun waiting => ?_,
      fun exited => ?_, fun ended => ?_, fun _ => entry.unreleased (by rw [ready]; decide)⟩
    · rw [State.setReg_reg, if_pos rfl] at reg
      cases reg
      exact grow_setReg.fine fine
    · exact absurd (is.symm.trans waiting) (by decide)
    · exact absurd (is.symm.trans exited) (by decide)
    · rw [State.setReg_status]
      exact entry.ended ended
  · rw [State.setReg_joining] at joining
    exact .inl joining
  · exact absurd (ready.symm.trans awaits.blocked) (by decide)

end Notes

namespace Notes.Dispatching

theorem goto (dispatching : notes.Dispatching state) (sameThreads : after.tcb = state.tcb)
    (sameCurrent : after.currTid = state.currTid) (sameFirst : after.firstCall = state.firstCall)
    (sameSems : after.sems = state.sems)
    (occupies : notes.Occupies state.tcb state.currTid after.cpu) : notes.Dispatching after where
  started := sameFirst.trans dispatching.started
  recorded := by
    rw [sameThreads, sameCurrent]
    exact dispatching.recorded
  queued := by
    rw [sameSems]
    exact dispatching.queued
  occupies := by
    rw [sameThreads, sameCurrent]
    exact occupies

/-! ## Statements of scheduler -/

theorem schedulerStart (dispatching : notes.Dispatching state)
    (frames : state.cpu.schedulers = { handler, point := .start } :: rest)
    (finds : Active state.tcb state.currTid ∨ ∃ tid, (state.tcb tid).status = .ready)
    (executed : state.scheduler handler rest .start = some after) : notes.Dispatching after := by
  have schedules := dispatching.occupies.schedules frames
  cases executed
  refine dispatching.goto rfl rfl rfl rfl ⟨schedules, fun inactive => ?_⟩
  rcases finds with active | ⟨tid, ready⟩
  · exact absurd active inactive
  · have other : tid ≠ state.currTid := fun same => inactive (.inr (same ▸ ready))
    exact ⟨tid, ready, ahead_start other⟩

theorem schedulerSearch (dispatching : notes.Dispatching state) {next : Nat}
    (frames : state.cpu.schedulers = { handler, point := .search next } :: rest)
    (executed : state.scheduler handler rest (.search next) = some after) :
    notes.Dispatching after := by
  rcases dispatching.occupies.schedules frames with ⟨below, found⟩
  simp only [State.scheduler] at executed
  split at executed
  next inRange =>
      split at executed <;> cases executed
      next goesOn =>
          refine dispatching.goto rfl rfl rfl rfl ⟨below, fun inactive => ?_⟩
          rcases found inactive with ⟨tid, ready, ahead⟩
          refine ⟨tid, ready, ahead_advance ahead goesOn.2 ?_⟩
          rintro rfl
          exact goesOn.1 ready
      next stops =>
          refine dispatching.goto rfl rfl rfl rfl ⟨below, ?_⟩
          by_cases ready : (state.tcb ⟨next, inRange⟩).status = .ready
          · exact .inl ready
          have same : (⟨next, inRange⟩ : Tid) = state.currTid := by
            by_contra other
            exact stops ⟨ready, other⟩
          by_cases active : Active state.tcb state.currTid
          · rcases active with running | isReady
            · exact .inr ⟨same, running⟩
            · exact .inl (same ▸ isReady)
          · rcases found active with ⟨tid, -, ahead⟩
            exact absurd (congrArg Fin.val same) ahead.ne_curr
  next => cases executed

theorem schedulerJump (dispatching : notes.Dispatching state) {next : Tid}
    (frames : state.cpu.schedulers = { handler, point := .jump next } :: rest)
    (executed : state.scheduler handler rest (.jump next) = some after) :
    notes.Dispatching after := by
  have entry := dispatching.recorded.entries
  rcases dispatching.occupies.schedules frames with ⟨active, target, prompt⟩
  rcases (State.longjmp_eq_some_iff ..).mp executed with ⟨context, reg, rfl⟩
  have fine : notes.Fine state.tcb context state.currTid := by
    rcases target with rfl | parked
    · exact (entry _).fine (.inl active) context reg
    · exact ((entry next).fine (.inr parked) context reg).rename parked
        ((entry next).parked parked).1 _
  rw [fine.resume]
  refine dispatching.goto rfl rfl rfl rfl (fine.occupies active fun strict => ?_)
  rcases prompt strict with running | elsewhere
  · exact .inl running
  · rcases target with rfl | parked
    · exact .inr ⟨elsewhere context reg, elsewhere⟩
    · exact absurd strict ((entry next).parked parked).1

theorem scheduler (dispatching : notes.Dispatching state)
    (frames : state.cpu.schedulers = { handler, point } :: rest)
    (finds : point = .start → Active state.tcb state.currTid ∨
      ∃ tid, (state.tcb tid).status = .ready)
    (executed : state.scheduler handler rest point = some after) : notes.Dispatching after := by
  have schedules := dispatching.occupies.schedules frames
  cases point with
  | start => exact dispatching.schedulerStart frames (finds rfl) executed
  | search next => exact dispatching.schedulerSearch frames executed
  | advance next =>
      cases executed
      exact dispatching.goto rfl rfl rfl rfl schedules
  | chosen next =>
      rcases schedules with ⟨below, chosen⟩
      simp only [State.scheduler] at executed
      split at executed <;> cases executed
      next running =>
          exact dispatching.goto rfl rfl rfl rfl ⟨running, below running, chosen.imp id And.left⟩
      next stopped =>
          refine dispatching.goto rfl rfl rfl rfl ⟨stopped, ?_⟩
          exact chosen.resolve_right fun isCurrent => stopped isCurrent.2
  | ready next =>
      cases executed
      rcases schedules with ⟨running, below, chosen⟩
      have grow : notes.Grow state.tcb notes (state.setStatus state.currTid .ready).tcb :=
        grow_setStatus (by rw [running]; decide)
      refine ⟨dispatching.started, dispatching.recorded.setActive (.inl running) (by decide),
        dispatching.queued, ?_, GoesOn.imp below
          (fun holds => ⟨holds.1, grow.proceeds holds.2⟩) subset_rfl (.inl rfl), ?_⟩
      · exact (state.setStatus_status ..).trans (if_pos rfl)
      · change ((state.setStatus state.currTid .ready).tcb next).status = .ready
        rw [State.setStatus_status]
        split
        · rfl
        · exact chosen.resolve_right ‹_›
  | save next =>
      cases executed
      rcases schedules with ⟨ready, below, nextReady⟩
      refine ⟨dispatching.started, dispatching.recorded.save ready below, dispatching.queued, ?_⟩
      refine ⟨fun running => ?_, (state.setReg_status ..).trans nextReady⟩
      have wasRunning : (state.tcb state.currTid).status = .running :=
        (state.setReg_status ..).symm.trans running
      exact absurd (ready.symm.trans wasRunning) (by decide)
  | resumed =>
      cases executed
      rcases schedules with ⟨active, below, prompt⟩
      exact dispatching.goto rfl rfl rfl rfl (below.occupies active prompt)
  | switch next =>
      cases executed
      rcases schedules with ⟨-, ready⟩
      have notRunning : (state.tcb next).status ≠ .running := by
        rw [ready]
        decide
      exact ⟨dispatching.started, dispatching.recorded.setCurrent (.inr notRunning),
        dispatching.queued, rfl, ready⟩
  | run next =>
      cases executed
      rcases schedules with ⟨rfl, ready⟩
      have running : ((state.setStatus state.currTid .running).tcb state.currTid).status =
          .running := (state.setStatus_status ..).trans (if_pos rfl)
      exact ⟨dispatching.started, dispatching.recorded.setActive (.inr ready) (by decide),
        dispatching.queued, .inl running, .inl rfl, fun _ => .inl running⟩
  | jump next => exact dispatching.schedulerJump frames executed

/-! ## Statements of the calls -/

theorem proceed (dispatching : notes.Dispatching state)
    (normal : notes.Normal state.tcb state.currTid state.cpu.owner call)
    (active : Active state.tcb state.currTid) (sameThreads : after.tcb = state.tcb)
    (sameCurrent : after.currTid = state.currTid) (sameFirst : after.firstCall = state.firstCall)
    (queued : notes.Queued after.sems) (sameOwner : after.cpu.owner = state.cpu.owner)
    (noSchedulers : after.cpu.schedulers = [])
    (proceeds : notes.Proceeds state.tcb after.cpu.call)
    (prompt : notes.strict → (state.tcb state.currTid).status = .running ∨
      atReturn after.cpu.call = false) : notes.Dispatching after where
  started := sameFirst.trans dispatching.started
  recorded := by
    rw [sameThreads, sameCurrent]
    exact dispatching.recorded
  queued := queued
  occupies := by
    rw [sameThreads, sameCurrent]
    refine occupies_of_executes noSchedulers (Normal.executes ⟨.inl active, ?_, proceeds, prompt⟩)
    rw [sameOwner]
    exact normal.owner

theorem newThread (dispatching : notes.Dispatching state)
    (normal : notes.Normal state.tcb state.currTid state.cpu.owner call)
    (active : Active state.tcb state.currTid) {routine arg : Value}
    (fresh : (state.tcb tid).status = .fresh)
    (sameThreads : after.tcb = (state.newThread client tid routine arg).tcb)
    (sameCurrent : after.currTid = state.currTid) (sameFirst : after.firstCall = state.firstCall)
    (sameSems : after.sems = state.sems) (sameOwner : after.cpu.owner = state.cpu.owner)
    (noSchedulers : after.cpu.schedulers = [])
    (proceeds : ∀ threads : Tid → Thread User, notes.Proceeds threads after.cpu.call)
    (elsewhere : atReturn after.cpu.call = false) : notes.Dispatching after := by
  have entry := dispatching.recorded.entries tid
  have notCurrent : state.currTid ≠ tid := by
    rintro rfl
    rcases active with running | ready
    · exact absurd (fresh.symm.trans running) (by decide)
    · exact absurd (fresh.symm.trans ready) (by decide)
  have notParked : tid ∉ notes.parked := by
    intro parked
    rcases (entry.parked parked).2 with blocked | ⟨running, -⟩
    · exact absurd (fresh.symm.trans blocked) (by decide)
    · exact absurd (fresh.symm.trans running) (by decide)
  have notExited : (state.tcb tid).status ≠ .exited := by
    rw [fresh]
    decide
  have grow : notes.Grow state.tcb notes (state.newThread client tid routine arg).tcb := by
    refine grow_of_delivered fun other delivered => ⟨?_, state.newThread_exitcode client ..⟩
    have isOther : other ≠ tid := by
      rintro rfl
      exact notExited delivered.status
    rw [State.newThread_status, if_neg isOther]
  have isReady : ((state.newThread client tid routine arg).tcb tid).status = .ready := by
    rw [State.newThread_status, if_pos rfl]
  refine ⟨sameFirst.trans dispatching.started, ?_, sameSems ▸ dispatching.queued, ?_⟩ <;>
    rw [sameThreads, sameCurrent]
  · refine dispatching.recorded.change tid grow (.inl rfl) (fun other isOther => ?_) ?_
      (fun thread other joining => ?_) (fun thread awaits => ?_)
    · refine ⟨?_, ?_, rfl, rfl, rfl, fun parked => parked⟩
      · rw [State.newThread_status, if_neg isOther]
      · rw [State.newThread_reg, if_neg isOther]
    · refine ⟨fun _ context reg => ?_, fun parked => absurd parked notParked, fun waiting => ?_,
        fun exited => ?_, fun ended => ?_, fun _ => entry.unreleased notExited⟩
      · rw [State.newThread_reg, if_pos rfl] at reg
        cases reg
        exact ⟨fun _ => rfl, trivial⟩
      · exact absurd (isReady.symm.trans waiting) (by decide)
      · exact absurd (isReady.symm.trans exited) (by decide)
      · exact absurd (entry.exits_eq_none (by rw [fresh]; decide) notExited) ended
    · rw [State.newThread_joining] at joining
      exact .inl joining
    · exact absurd (fresh.symm.trans awaits.blocked) (by decide)
  · refine occupies_of_executes noSchedulers
      (Normal.executes ⟨.inl ?_, ?_, proceeds _, fun _ => .inr elsewhere⟩)
    · rw [Active, State.newThread_status, if_neg notCurrent]
      exact active
    · rw [sameOwner]
      exact normal.owner

theorem pthreadCreate (dispatching : notes.Dispatching state) {routine arg : Value}
    {point : CreatePoint} (noSchedulers : state.cpu.schedulers = [])
    (called : state.cpu.call = some (.create routine arg point))
    (executed : state.pthreadCreate client routine arg point = some after) :
    notes.Dispatching after := by
  have executes := dispatching.occupies.executes noSchedulers
  rw [called] at executes
  have normal : notes.Normal state.tcb state.currTid state.cpu.owner
    (some (.create routine arg point)) := executes
  have active := normal.active fun _ => ⟨by simp, by simp⟩
  cases point with
  | start =>
      simp only [State.pthreadCreate, dispatching.started, Bool.false_eq_true, if_false] at executed
      unfold State.createThread at executed
      split at executed
      next =>
          cases executed
          exact dispatching.proceed normal active rfl rfl rfl dispatching.queued rfl noSchedulers
            trivial (fun _ => .inr rfl)
      next =>
          rcases Option.map_eq_some_iff.mp executed with ⟨tid, found, rfl⟩
          exact dispatching.newThread normal active (state.freshThread_status found) rfl rfl rfl
            rfl rfl noSchedulers (fun _ => trivial) rfl
  | resumed =>
      cases executed
      exact dispatching.proceed normal active rfl rfl rfl dispatching.queued rfl noSchedulers
        trivial (fun _ => .inr rfl)
  | finish code thread =>
      cases executed
      exact dispatching.proceed normal active rfl rfl rfl dispatching.queued rfl noSchedulers
        trivial (fun _ => .inr rfl)

/-! ## Statements of sem_wait and sem_post -/

theorem queued_setSem (dispatching : notes.Dispatching state) {sem : SemId} {info : SemInfo}
    (waiting : ∀ slot, info.waiting slot ≠ 0 → info.waiting slot ∈ notes.parked) :
    notes.Queued (state.setSem sem info).sems := by
  intro other slot
  by_cases same : other = sem
  · subst same
    simp only [State.setSem, Function.update_self]
    exact waiting slot
  · simp only [State.setSem, Function.update_of_ne same]
    exact dispatching.queued other slot

theorem queued_setWaiting (dispatching : notes.Dispatching state) {sem : SemId} {slot : Tid}
    (isParked : tid ≠ 0 → tid ∈ notes.parked) :
    notes.Queued (state.setWaiting sem slot tid).sems := by
  refine dispatching.queued_setSem fun other waits => ?_
  by_cases same : other = slot
  · subst same
    simp only [Function.update_self] at waits ⊢
    exact isParked waits
  · simp only [Function.update_of_ne same] at waits ⊢
    exact dispatching.queued sem other waits

theorem park (dispatching : notes.Dispatching state) {sem : SemId}
    (active : Active state.tcb state.currTid) (loose : ¬notes.strict)
    (noSchedulers : state.cpu.schedulers = []) :
    ({ notes with parked := insert state.currTid notes.parked } : Notes).Dispatching
      ((state.setStatus state.currTid .blocked).inCall (.semWait sem (.find 0))) := by
  have entry := dispatching.recorded.entries state.currTid
  have blocked : ((state.setStatus state.currTid .blocked).tcb state.currTid).status = .blocked :=
    (state.setStatus_status ..).trans (if_pos rfl)
  have notEnding := active.notEnding
  have grow : notes.Grow state.tcb { notes with parked := insert state.currTid notes.parked }
      (state.setStatus state.currTid .blocked).tcb := by
    refine ⟨.rfl, Set.subset_insert .., fun _ _ exits => exits, fun _ => le_rfl,
      fun tid delivered => ?_⟩
    rcases grow_setStatus notEnding.2.1 |>.delivered tid delivered with
      ⟨status, exits, frees, counts⟩
    exact ⟨status, exits, frees, counts⟩
  refine ⟨dispatching.started, ?_, fun other slot waits => ?_, ?_⟩
  · refine dispatching.recorded.change state.currTid grow (.inl rfl) (fun tid other => ?_) ?_
      (fun thread tid joining => ?_) (fun thread awaits => ?_)
    · refine ⟨?_, state.setStatus_reg .., rfl, rfl, rfl,
        fun isParked => isParked.resolve_left other⟩
      exact (state.setStatus_status ..).trans (if_neg other)
    · refine ⟨fun _ context reg => ?_, fun _ => ⟨loose, .inl blocked⟩, fun waiting => ?_,
        fun exited => ?_, fun ended => ?_, fun _ => entry.unreleased notEnding.2.1⟩
      · exact grow.fine (entry.fine (.inl active) context ((state.setStatus_reg ..).symm.trans reg))
      · exact absurd (blocked.symm.trans waiting) (by decide)
      · exact absurd (blocked.symm.trans exited) (by decide)
      · exact absurd (entry.exits_eq_none notEnding.1 notEnding.2.1) ended
    · exact .inl ((state.setStatus_joining ..).symm.trans joining)
    · exact absurd awaits.blocked notEnding.2.2
  · exact .inr (dispatching.queued other slot waits)
  · exact occupies_of_executes noSchedulers ⟨blocked, .inl rfl⟩

theorem semWait (dispatching : notes.Dispatching state) {sem : SemId} {point : SemWaitPoint}
    (noSchedulers : state.cpu.schedulers = [])
    (called : state.cpu.call = some (.semWait sem point))
    (executed : state.semWait client sem point = some after) :
    ∃ parked, ({ notes with parked } : Notes).Dispatching after := by
  have executes := dispatching.occupies.executes noSchedulers
  rw [called] at executes
  have goesOn (normal : notes.Normal state.tcb state.currTid state.cpu.owner
        (some (.semWait sem point))) {next : State User} (sameThreads : next.tcb = state.tcb)
      (sameCurrent : next.currTid = state.currTid) (sameFirst : next.firstCall = state.firstCall)
      (queued : notes.Queued next.sems) (sameOwner : next.cpu.owner = state.cpu.owner)
      (nextNoSchedulers : next.cpu.schedulers = [])
      (proceeds : ¬notes.strict → notes.Proceeds state.tcb next.cpu.call) :
      ∃ parked, ({ notes with parked } : Notes).Dispatching next := by
    have loose : ¬notes.strict := by
      have proceeds := normal.proceeds
      cases point <;> first | exact proceeds | exact proceeds.elim
    exact ⟨notes.parked, dispatching.proceed normal (normal.active fun _ => ⟨by simp, by simp⟩)
      sameThreads sameCurrent sameFirst queued sameOwner nextNoSchedulers (proceeds loose)
      (fun strict => absurd strict loose)⟩
  cases point with
  | start =>
      simp only [State.semWait] at executed
      split at executed <;> cases executed <;>
        exact goesOn executes rfl rfl rfl dispatching.queued rfl noSchedulers id
  | test =>
      simp only [State.semWait] at executed
      split at executed <;> cases executed <;>
        exact goesOn executes rfl rfl rfl dispatching.queued rfl noSchedulers id
  | block =>
      cases executed
      have normal : notes.Normal state.tcb state.currTid state.cpu.owner
        (some (.semWait sem .block)) := executes
      exact ⟨_, dispatching.park (normal.active fun _ => ⟨by simp, by simp⟩) normal.proceeds
        noSchedulers⟩
  | find slot =>
      simp only [State.semWait] at executed
      split at executed
      next =>
          split at executed <;> cases executed <;>
            exact ⟨notes.parked, dispatching.goto rfl rfl rfl rfl
              (occupies_of_executes noSchedulers executes)⟩
      next => cases executed
  | insert slot =>
      cases executed
      exact ⟨notes.parked, dispatching.started, dispatching.recorded,
        dispatching.queued_setWaiting fun _ => executes.2,
        occupies_of_executes noSchedulers executes⟩
  | schedule =>
      cases executed
      refine ⟨notes.parked, dispatching.goto rfl rfl rfl rfl fun running => ?_⟩
      exact absurd (running.symm.trans executes.1) (by decide)
  | woken => exact executes.proceeds.elim
  | positive =>
      simp only [State.semWait] at executed
      split at executed <;> cases executed <;>
        exact goesOn executes rfl rfl rfl dispatching.queued rfl noSchedulers id
  | decrement =>
      rcases Option.map_eq_some_iff.mp executed with ⟨taken, counted, rfl⟩
      simp only [State.addVal, Option.ite_none_right_eq_some, Option.some.injEq] at counted
      rcases counted with ⟨-, rfl⟩
      exact goesOn executes rfl rfl rfl
        (dispatching.queued_setSem fun slot => dispatching.queued sem slot) rfl noSchedulers id
  | finish code =>
      cases executed
      exact goesOn executes rfl rfl rfl dispatching.queued rfl noSchedulers fun _ => trivial

theorem semPost (dispatching : notes.Dispatching state) {sem : SemId} {point : SemPostPoint}
    (noSchedulers : state.cpu.schedulers = [])
    (called : state.cpu.call = some (.semPost sem point))
    (stillWaits : ∀ slot (inRange : slot < maxThreads), point = .found slot →
      (state.sems sem).waiting ⟨slot, inRange⟩ ≠ 0)
    (executed : state.semPost client sem point = some after) : notes.Dispatching after := by
  have executes := dispatching.occupies.executes noSchedulers
  rw [called] at executes
  have normal : notes.Normal state.tcb state.currTid state.cpu.owner
    (some (.semPost sem point)) := executes
  have active := normal.active fun _ => ⟨by simp, by simp⟩
  have loose : ¬notes.strict := by
    have proceeds := normal.proceeds
    cases point <;> first | exact proceeds | exact proceeds.1
  have goesOn {next : State User} (sameThreads : next.tcb = state.tcb)
      (sameCurrent : next.currTid = state.currTid) (sameFirst : next.firstCall = state.firstCall)
      (queued : notes.Queued next.sems) (sameOwner : next.cpu.owner = state.cpu.owner)
      (nextNoSchedulers : next.cpu.schedulers = [])
      (proceeds : notes.Proceeds state.tcb next.cpu.call) : notes.Dispatching next :=
    dispatching.proceed normal active sameThreads sameCurrent sameFirst queued sameOwner
      nextNoSchedulers proceeds (fun strict => absurd strict loose)
  cases point with
  | start =>
      simp only [State.semPost] at executed
      split at executed <;> cases executed <;>
        exact goesOn rfl rfl rfl dispatching.queued rfl noSchedulers loose
  | zero =>
      simp only [State.semPost] at executed
      split at executed <;> cases executed <;>
        exact goesOn rfl rfl rfl dispatching.queued rfl noSchedulers loose
  | scan slot =>
      simp only [State.semPost] at executed
      split at executed
      next =>
          split at executed <;> cases executed <;>
            exact goesOn rfl rfl rfl dispatching.queued rfl noSchedulers loose
      next =>
          cases executed
          exact goesOn rfl rfl rfl dispatching.queued rfl noSchedulers loose
  | found slot =>
      simp only [State.semPost] at executed
      split at executed <;> cases executed
      next inRange =>
          exact goesOn rfl rfl rfl dispatching.queued rfl noSchedulers
            ⟨loose, dispatching.queued sem _ (stillWaits slot inRange rfl)⟩
      next => exact goesOn rfl rfl rfl dispatching.queued rfl noSchedulers loose
  | clear slot nextRun =>
      cases executed
      exact goesOn rfl rfl rfl (dispatching.queued_setWaiting fun nonzero => absurd rfl nonzero)
        rfl noSchedulers normal.proceeds
  | grant nextRun =>
      cases executed
      have parked : nextRun ∈ notes.parked := normal.proceeds.2
      have entry := dispatching.recorded.entries nextRun
      have notCurrent : nextRun ≠ state.currTid := by
        rintro rfl
        exact entry.not_parked active parked
      have notEnding : (state.tcb nextRun).status ≠ .waiting ∧
          (state.tcb nextRun).status ≠ .exited := by
        rcases (entry.parked parked).2 with blocked | ⟨running, -⟩
        · rw [blocked]
          decide
        · rw [running]
          decide
      have grow : notes.Grow state.tcb notes (state.setStatus nextRun .running).tcb :=
        grow_setStatus notEnding.2
      refine ⟨dispatching.started, ?_, dispatching.queued, ?_⟩
      · refine dispatching.recorded.setStatus (entry.exits_eq_none notEnding.1 notEnding.2)
          (by decide) (fun context reg _ => entry.fine (.inr parked) context reg)
          (fun _ => .inr ⟨rfl, notCurrent⟩) (fun thread awaits => absurd parked awaits.notParked)
      · refine occupies_of_executes noSchedulers
          (Normal.executes ⟨.inl ?_, normal.owner, ⟨loose, parked⟩, fun _ => .inr rfl⟩)
        change Active (state.setStatus nextRun .running).tcb state.currTid
        rw [Active, State.setStatus_status, if_neg notCurrent.symm]
        exact active
  | jump nextRun =>
      rcases (State.longjmp_eq_some_iff ..).mp executed with ⟨context, reg, rfl⟩
      have parked : nextRun ∈ notes.parked := normal.proceeds.2
      have fine := ((dispatching.recorded.entries nextRun).fine (.inr parked) context reg).rename
        parked loose state.currTid
      rw [fine.resume]
      exact dispatching.goto rfl rfl rfl rfl
        (fine.occupies active fun strict => absurd strict loose)
  | positive =>
      simp only [State.semPost] at executed
      split at executed <;> cases executed <;>
        exact goesOn rfl rfl rfl dispatching.queued rfl noSchedulers loose
  | increment =>
      rcases Option.map_eq_some_iff.mp executed with ⟨given, counted, rfl⟩
      simp only [State.addVal, Option.ite_none_right_eq_some, Option.some.injEq] at counted
      rcases counted with ⟨-, rfl⟩
      exact goesOn rfl rfl rfl
        (dispatching.queued_setSem fun slot => dispatching.queued sem slot) rfl noSchedulers loose
  | finish code =>
      cases executed
      exact goesOn rfl rfl rfl dispatching.queued rfl noSchedulers trivial

end Notes.Dispatching

end EC440.Threads
