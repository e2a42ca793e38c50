import EC440.Threads.ExclusiveScheduler

/-!
# The invariant of mutual exclusion in the calls

`of_call` says what a statement of a call has to keep, `proceed`, `mark` and
`suspend` what the usual statements are, and then every call keeps `Exclusive`
for programs that keep to the discipline of the mutex.
-/

namespace EC440.Threads

variable {User : Type} {client : Client User} {mutex : SemId} {critical : User → Prop}
  {state after : State User} {context : Context User} {tid : Tid}

namespace Exclusive

theorem current_fits (exclusive : Exclusive mutex critical state)
    (idle : state.cpu.schedulers = []) :
    CallFits mutex critical state (state.tcb state.currTid).status state.cpu.call := by
  have live : state.cpu.abandoned = false := by simp [Context.abandoned, idle]
  have fits := exclusive.fits live
  simpa [State.effective, Context.atSave, idle] using fits

/-- The frames behind a statement of a call: none, or that of a `scheduler` which it calls. -/
def Begins (frames : List SchedulerFrame) : Prop :=
  frames = [] ∨ frames = [{ handler := false, point := .start }]

theorem Begins.calm {cpu : Context User} (begins : Begins cpu.schedulers) :
    cpu.abandoned = false ∧ cpu.atSave = false ∧ cpu.jumpTarget = none := by
  rcases begins with none | start
  · simp [Context.abandoned, Context.atSave, Context.jumpTarget, none]
  · simp [Context.abandoned, Context.atSave, Context.jumpTarget, start, SchedulerPoint.abandoned]

theorem of_call (begins : Begins after.cpu.schedulers) (started : after.firstCall = false)
    (initialized : (after.sems mutex).status = .initialized)
    (owned : Owned mutex critical after) (obeys : after.cpu.Obeys mutex critical)
    (saved : ∀ tid context, (after.tcb tid).reg = some context →
      Suspendable mutex critical context)
    (waiting : ∀ tid context, (after.tcb tid).status = .waiting →
      (after.tcb tid).reg = some context →
      context.schedulers = [] ∧ ∃ value, context.call = some (.exit value .set))
    (fits : CallFits mutex critical after (after.tcb after.currTid).status after.cpu.call) :
    Exclusive mutex critical after where
  started := started
  initialized := initialized
  owned := owned
  obeys := obeys
  saved := saved
  waiting := waiting
  fits := by
    intro _
    simpa [State.effective, begins.calm.2.1] using fits
  below := by
    intro _ _ frame membership
    rcases begins with none | start
    · simp [none] at membership
    · simp [start] at membership
  left := by
    intro left
    rw [begins.calm.1] at left
    cases left
  top := by
    intro frame membership
    rcases begins with none | start
    · simp [none] at membership
    · simp only [start, List.head?_cons, Option.mem_def, Option.some.injEq] at membership
      subst membership
      trivial

theorem owned_of_call (exclusive : Exclusive mutex critical state)
    (idle : state.cpu.schedulers = []) (begins : Begins after.cpu.schedulers)
    (sameVal : (after.sems mutex).val = (state.sems mutex).val)
    (slots : ∀ slot context, (after.tcb slot).status = .ready →
      (after.tcb slot).reg = some context → context.Holds critical →
      (state.tcb slot).status = .ready ∧ (state.tcb slot).reg = some context)
    (holds : after.cpu.Holds critical → state.cpu.Holds critical) :
    Owned mutex critical after := by
  have calm : Begins state.cpu.schedulers := .inl idle
  refine exclusive.owned.of_subset sameVal fun place context atPlace held => ?_
  cases atPlace with
  | processor _ => exact ⟨_, .processor calm.calm.1, holds held⟩
  | preempted ready isSaved reg =>
      rcases slots _ _ ready reg held with ⟨wasReady, sameReg⟩
      exact ⟨context, .of_ready calm.calm.2.1 wasReady sameReg, held⟩
  | chosen next reg =>
      rw [begins.calm.2.2] at next
      cases next

/-- Statements of calls that save nothing and make no thread `READY` or `WAITING`. -/
theorem proceed (exclusive : Exclusive mutex critical state)
    (idle : state.cpu.schedulers = []) (begins : Begins after.cpu.schedulers)
    (regs : ∀ tid, (after.tcb tid).reg = (state.tcb tid).reg)
    (statuses : ∀ tid, (after.tcb tid).status = (state.tcb tid).status ∨
      (after.tcb tid).status ≠ .ready ∧ (after.tcb tid).status ≠ .waiting)
    (sameFirst : after.firstCall = state.firstCall)
    (sameVal : (after.sems mutex).val = (state.sems mutex).val)
    (sameInitialized : (after.sems mutex).status = (state.sems mutex).status)
    (holds : after.cpu.Holds critical → state.cpu.Holds critical)
    (obeys : after.cpu.Obeys mutex critical)
    (fits : CallFits mutex critical after (after.tcb after.currTid).status after.cpu.call) :
    Exclusive mutex critical after := by
  refine of_call begins (sameFirst.trans exclusive.started)
    (sameInitialized.trans exclusive.initialized)
    (exclusive.owned_of_call idle begins sameVal (fun slot context ready reg _ => ?_) holds) obeys
    (fun tid context reg => ?_) (fun tid context waiting reg => ?_) fits
  · rcases statuses slot with same | ⟨notReady, _⟩
    · exact ⟨same.symm.trans ready, (regs slot).symm.trans reg⟩
    · exact absurd ready notReady
  · exact exclusive.saved tid context ((regs tid).symm.trans reg)
  · rcases statuses tid with same | ⟨_, notWaiting⟩
    · exact exclusive.waiting tid context (same.symm.trans waiting) ((regs tid).symm.trans reg)
    · exact absurd waiting notWaiting

theorem goto (exclusive : Exclusive mutex critical state) (idle : state.cpu.schedulers = [])
    (masked : Bool) (user : User) (call : Option Frame)
    (moved : after = { state with masked, cpu := { state.cpu with user, call } })
    (holds : after.cpu.Holds critical → state.cpu.Holds critical)
    (obeys : after.cpu.Obeys mutex critical)
    (fits : CallFits mutex critical after (state.tcb state.currTid).status call) :
    Exclusive mutex critical after := by
  subst moved
  exact exclusive.proceed idle (.inl idle) (fun _ => rfl) (fun _ => .inl rfl) rfl rfl rfl holds
    obeys fits

theorem mark (exclusive : Exclusive mutex critical state) (idle : state.cpu.schedulers = [])
    (tid : Tid) {status : Status} (notReady : status ≠ .ready) (notWaiting : status ≠ .waiting)
    {frame : Frame} (moved : after = (state.setStatus tid status).inCall frame)
    (holds : after.cpu.Holds critical → state.cpu.Holds critical)
    (obeys : after.cpu.Obeys mutex critical)
    (fits : CallFits mutex critical after ((state.setStatus tid status).tcb state.currTid).status
      (some frame)) :
    Exclusive mutex critical after := by
  subst moved
  refine exclusive.proceed idle (.inl idle) (fun other => State.setStatus_reg ..) (fun other => ?_)
    rfl rfl rfl holds obeys fits
  rw [State.inCall, State.setStatus_status]
  split
  next => exact .inr ⟨notReady, notWaiting⟩
  next => exact .inl rfl

theorem guarded_setStatus (guarded : Guarded mutex critical state) (tid : Tid) (status : Status)
    (frame : Frame) : Guarded mutex critical ((state.setStatus tid status).inCall frame) := by
  refine Or.imp_right (fun safe context reg => ?_) guarded
  rw [State.inCall, State.setStatus_reg] at reg
  exact safe context reg

theorem suspend (exclusive : Exclusive mutex critical state) (idle : state.cpu.schedulers = [])
    (status : Status) (notReady : status ≠ .ready)
    (suspendable : Suspendable mutex critical context)
    (fitting : status = .waiting →
      context.schedulers = [] ∧ ∃ value, context.call = some (.exit value .set))
    (begins : Begins after.cpu.schedulers)
    (regs : ∀ tid, (after.tcb tid).reg =
      if tid = state.currTid then some context else (state.tcb tid).reg)
    (statuses : ∀ tid, (after.tcb tid).status =
      if tid = state.currTid then status else (state.tcb tid).status)
    (sameFirst : after.firstCall = state.firstCall) (sameSems : after.sems = state.sems)
    (notHolds : ¬after.cpu.Holds critical) (obeys : after.cpu.Obeys mutex critical)
    (fits : CallFits mutex critical after (after.tcb after.currTid).status after.cpu.call) :
    Exclusive mutex critical after := by
  refine of_call begins (sameFirst.trans exclusive.started)
    (by rw [sameSems]; exact exclusive.initialized)
    (exclusive.owned_of_call idle begins (by rw [sameSems]) (fun slot other ready reg _ => ?_)
      fun held => absurd held notHolds) obeys
    (fun tid other reg => ?_) (fun tid other waiting reg => ?_) fits
  · rw [statuses] at ready
    rw [regs] at reg
    split at ready
    next => exact absurd ready notReady
    next notCurrent =>
        rw [if_neg notCurrent] at reg
        exact ⟨ready, reg⟩
  · rw [regs] at reg
    split at reg
    next =>
        cases reg
        exact suspendable
    next => exact exclusive.saved tid other reg
  · rw [statuses] at waiting
    rw [regs] at reg
    split at waiting
    next current =>
        rw [if_pos current] at reg
        cases reg
        exact fitting waiting
    next notCurrent =>
        rw [if_neg notCurrent] at reg
        exact exclusive.waiting tid other waiting reg

theorem resume_idle (exclusive : Exclusive mutex critical state)
    (idle : state.cpu.schedulers = []) {target : Tid} (value : Nat)
    (reg : (state.tcb target).reg = some context) (current : target = state.currTid)
    (noSchedulers : context.schedulers = [])
    (inCall : (∃ thread, context.call = some (.join thread .copy)) ∨
      ∃ exitValue, context.call = some (.exit exitValue .set)) :
    Exclusive mutex critical { state with cpu := context.resume value } := by
  have suspendable := exclusive.saved target context reg
  have notHolds : ¬context.Holds critical := by
    rcases inCall with ⟨thread, inJoin⟩ | ⟨exitValue, inExit⟩
    · simp [Context.Holds, inJoin]
    · simp [Context.Holds, inExit]
  have begins : Begins (context.resume value).schedulers := by
    rw [Context.resume_schedulers]
    exact .inl noSchedulers
  have guarded : Guarded mutex critical { state with cpu := context.resume value } := by
    right
    intro other otherReg
    have otherReg : (state.tcb state.currTid).reg = some other := otherReg
    rw [← current, reg] at otherReg
    cases otherReg
    exact notHolds
  refine exclusive.resume value suspendable
    (exclusive.owned_of_call idle begins rfl (fun _ _ ready reg _ => ⟨ready, reg⟩)
      fun held => absurd ((context.holds_resume value).mp held) notHolds) ?_ (.inl noSchedulers)
  rcases inCall with ⟨thread, inJoin⟩ | ⟨exitValue, inExit⟩
  · rw [Context.resume_eq_self (by simp [inJoin]), inJoin]
    rw [Context.resume_eq_self (by simp [inJoin])] at guarded
    exact fun _ => guarded
  · have resumed : (context.resume value).call = some (.exit exitValue (.joined value)) := by
      simp [Context.resume, noSchedulers, inExit]
    rw [resumed]
    exact guarded

theorem pthreadCreate (discipline : Discipline client mutex critical)
    (exclusive : Exclusive mutex critical state) (idle : state.cpu.schedulers = [])
    {routine arg : Value} {point : CreatePoint}
    (called : state.cpu.call = some (.create routine arg point))
    (executed : state.pthreadCreate client routine arg point = some after) :
    Exclusive mutex critical after := by
  have running : (state.tcb state.currTid).status = .running := by
    have fits := exclusive.current_fits idle
    rw [called] at fits
    exact fits
  have sameHolds : state.cpu.Holds critical = critical state.cpu.user := by
    simp [Context.Holds, called]
  cases point with
  | start =>
      simp only [State.pthreadCreate, exclusive.started, State.createThread, Bool.false_eq_true,
        if_false] at executed
      split at executed
      next =>
          cases executed
          refine exclusive.proceed idle (.inl idle) (fun _ => rfl) (fun _ => .inl rfl)
            exclusive.started.symm rfl rfl (fun held => ?_) trivial running
          rw [sameHolds]
          exact held
      next =>
          rcases Option.map_eq_some_iff.mp executed with ⟨tid, found, rfl⟩
          have fresh := state.freshThread_status found
          have notCurrent : state.currTid ≠ tid := by
            rintro rfl
            rw [running] at fresh
            cases fresh
          have starts : ¬(⟨tid, client.start routine arg, none, []⟩ : Context User).Holds critical :=
            discipline.start routine arg
          refine of_call (.inl idle) exclusive.started exclusive.initialized
            (exclusive.owned_of_call idle (.inl idle) rfl (fun slot context ready reg held => ?_)
              fun held => ?_) trivial (fun other context reg => ?_)
            (fun other context waiting reg => ?_) ?_
          · have ready := (state.newThread_status client tid slot routine arg).symm.trans ready
            have reg := (state.newThread_reg client tid slot routine arg).symm.trans reg
            by_cases created : slot = tid
            · rw [if_pos created] at reg
              cases reg
              exact absurd held starts
            · rw [if_neg created] at ready reg
              exact ⟨ready, reg⟩
          · rw [sameHolds]
            exact held
          · have reg := (state.newThread_reg client tid other routine arg).symm.trans reg
            split at reg
            next =>
                cases reg
                exact ⟨trivial, trivial, fun _ membership => by cases membership⟩
            next => exact exclusive.saved other context reg
          · have waiting := (state.newThread_status client tid other routine arg).symm.trans waiting
            have reg := (state.newThread_reg client tid other routine arg).symm.trans reg
            split at waiting
            next => cases waiting
            next notCreated =>
                rw [if_neg notCreated] at reg
                exact exclusive.waiting other context waiting reg
          · have status := state.newThread_status client tid state.currTid routine arg
            rw [if_neg notCurrent, running] at status
            exact status
  | resumed =>
      cases executed
      refine exclusive.goto idle false state.cpu.user _ rfl (fun held => ?_) trivial running
      rw [sameHolds]
      exact held
  | finish code thread =>
      cases executed
      refine exclusive.goto idle state.masked _ none rfl (fun held => ?_) trivial running
      rw [sameHolds]
      exact (discipline.returns _ (.create routine arg) _).mp held

theorem exitUnjoined (exclusive : Exclusive mutex critical state)
    (idle : state.cpu.schedulers = []) {value : Value}
    (called : state.cpu.call = some (.exit value .start)) :
    Exclusive mutex critical (state.exitUnjoined value) := by
  have outside : ¬critical state.cpu.user := by
    simpa [Context.Obeys, called] using exclusive.obeys
  have suspendable : Suspendable mutex critical
      { state.cpu with call := some (.exit value .set) } := by
    refine ⟨outside, idle, fun frame membership => ?_⟩
    rw [idle] at membership
    cases membership
  have guarded : Guarded mutex critical (state.exitUnjoined value) := by
    right
    intro context reg
    have reg := (State.setReg_reg _ state.currTid state.currTid _).symm.trans reg
    rw [if_pos rfl] at reg
    cases reg
    exact fun held => held
  have status : ((state.exitUnjoined value).tcb state.currTid).status = .waiting := by
    simp [State.exitUnjoined, State.inCall, State.unlock]
  rcases state.exitUnjoined_call value with ⟨point, leaving, inExit⟩
  refine exclusive.suspend idle .waiting (by decide) suspendable (fun _ => ⟨idle, value, rfl⟩)
    (.inl idle) (fun tid => ?_) (fun tid => ?_) rfl rfl ?_ ?_ ?_
  · simp [State.exitUnjoined, State.inCall, State.unlock]
  · simp [State.exitUnjoined, State.inCall, State.unlock]
  · rw [Context.Holds, inExit]
    exact fun held => held
  · rw [Context.Obeys, inExit]
    exact outside
  · have current : (state.exitUnjoined value).currTid = state.currTid := rfl
    rw [current, status, inExit]
    have stops : Status.waiting ≠ .running := by decide
    rcases leaving with rfl | rfl
    · exact And.intro stops guarded
    · exact And.intro stops guarded

theorem exitJoined (exclusive : Exclusive mutex critical state)
    (idle : state.cpu.schedulers = []) {value : Value} {joiner : Tid}
    (called : state.cpu.call = some (.exit value .start))
    (executed : state.exitJoined value joiner = some after) : Exclusive mutex critical after := by
  rcases Option.map_eq_some_iff.mp executed with ⟨freed, done, rfl⟩
  have agree := (State.freeStack_agrees _ done).trans (freed.setExitcode_agrees state.currTid value)
  have sameCpu : freed.cpu = state.cpu := State.freeStack_cpu (state.setStatus _ _) done
  have outside : ¬critical state.cpu.user := by
    simpa [Context.Obeys, called] using exclusive.obeys
  have stays : freed.cpu.schedulers = [] := by rw [sameCpu, idle]
  refine exclusive.proceed idle (.inl stays) (fun tid => ?_) (fun tid => ?_) agree.firstCall
    ?_ ?_ (fun held => by cases held) ?_ stays
  · exact (agree.reg tid).trans (State.setStatus_reg ..)
  · have status := (agree.status tid).trans (State.setStatus_status ..)
    by_cases current : tid = state.currTid
    · right
      rw [if_pos current] at status
      change ((freed.setExitcode state.currTid value).tcb tid).status ≠ _ ∧
        ((freed.setExitcode state.currTid value).tcb tid).status ≠ _
      rw [status]
      decide
    · left
      rw [if_neg current] at status
      exact status
  · exact congrArg (fun sems => (sems mutex).val) agree.sems
  · exact congrArg (fun sems => (sems mutex).status) agree.sems
  · change ¬critical freed.cpu.user
    rw [sameCpu]
    exact outside

theorem pthreadExit (exclusive : Exclusive mutex critical state)
    (idle : state.cpu.schedulers = []) {value : Value} {point : ExitPoint}
    (called : state.cpu.call = some (.exit value point))
    (toWaiting : ∀ target ∈ state.directTarget, ∀ context ∈ (state.tcb target).reg,
      context.savedWaiting = true)
    (executed : state.pthreadExit value point = some after) : Exclusive mutex critical after := by
  have fits := exclusive.current_fits idle
  rw [called] at fits
  have outside : ¬critical state.cpu.user := by
    simpa [Context.Obeys, called] using exclusive.obeys
  have directly : ∀ target, state.directTarget = some target → target = state.currTid →
      state.longjmp target 1 = some after → Exclusive mutex critical after := by
    intro target isTarget current jumped
    rcases state.longjmp_eq_some_iff.mp jumped with ⟨context, reg, rfl⟩
    have waits := toWaiting target isTarget context reg
    unfold Context.savedWaiting at waits
    split at waits
    next noSchedulers inJoin =>
        exact exclusive.resume_idle idle 1 reg current noSchedulers (.inl ⟨_, inJoin⟩)
    next noSchedulers inExit =>
        exact exclusive.resume_idle idle 1 reg current noSchedulers (.inr ⟨_, inExit⟩)
    next => cases waits
  cases point with
  | start =>
      simp only [State.pthreadExit] at executed
      split at executed
      next => exact exclusive.exitJoined idle called executed
      next =>
          cases executed
          exact exclusive.exitUnjoined idle called
  | set => cases fits
  | joined joined =>
      simp only [State.pthreadExit] at executed
      split at executed
      next =>
          cases executed
          exact exclusive.goto idle state.masked state.cpu.user _ rfl (fun held => by cases held)
            outside fits
      next exited =>
          cases executed
          refine exclusive.goto idle state.masked state.cpu.user _ rfl
            (fun held => by cases held) outside ⟨?_, fits⟩
          rw [not_not.mp exited]
          decide
  | mark joined =>
      cases executed
      refine exclusive.mark idle _ (by decide) (by decide) rfl (fun held => by cases held) outside
        ⟨?_, guarded_setStatus fits _ _ _⟩
      rw [State.setStatus_status, if_pos rfl]
      decide
  | free joined =>
      rcases Option.map_eq_some_iff.mp executed with ⟨freed, done, rfl⟩
      have agree := state.freeStack_agrees done
      have sameCpu := state.freeStack_cpu done
      have stays : freed.cpu.schedulers = [] := by rw [sameCpu, idle]
      refine exclusive.proceed idle (.inl stays) agree.reg (fun tid => .inl (agree.status tid))
        agree.firstCall (by rw [← agree.sems]; rfl) (by rw [← agree.sems]; rfl)
        (fun held => by cases held) ?_ ⟨?_, ?_⟩
      · change ¬critical freed.cpu.user
        rw [sameCpu]
        exact outside
      · change (freed.tcb freed.currTid).status ≠ _
        rw [agree.currTid, agree.status]
        exact fits.1
      · change (freed.sems mutex).val = 0 ∨ ∀ context, (freed.tcb freed.currTid).reg = some context →
          ¬context.Holds critical
        rw [agree.currTid, agree.reg, agree.sems]
        exact fits.2
  | count joined =>
      cases executed
      exact exclusive.proceed idle (.inl idle) (fun _ => rfl) (fun _ => .inl rfl) rfl rfl rfl
        (fun held => by cases held) outside fits
  | code joined =>
      cases executed
      have agree := state.setExitcode_agrees state.currTid value
      refine exclusive.proceed idle (.inl idle) agree.reg (fun tid => .inl (agree.status tid))
        rfl rfl rfl (fun held => by cases held) outside ⟨?_, ?_⟩
      · change ((state.setExitcode state.currTid value).tcb state.currTid).status ≠ _
        rw [agree.status]
        exact fits.1
      · refine Or.imp_right (fun safe context reg => ?_) fits.2
        exact safe context ((agree.reg state.currTid).symm.trans reg)
  | back joined =>
      rcases Option.map_eq_some_iff.mp executed with ⟨joiner, _, rfl⟩
      exact exclusive.proceed idle (.inl idle) (fun _ => rfl) (fun _ => .inl rfl) rfl rfl rfl
        (fun held => by cases held) outside idle
  | unlock =>
      cases executed
      exact exclusive.goto idle false state.cpu.user _ rfl (fun held => by cases held) outside idle
  | jump =>
      refine directly state.currTid ?_ rfl executed
      simp [State.directTarget, idle, called]
  | schedule =>
      cases executed
      exact exclusive.proceed idle (.inr rfl) (fun _ => rfl) (fun _ => .inl rfl) rfl rfl rfl
        (fun held => by cases held) outside fits
  | toMain =>
      cases executed
      have toMain : CallFits mutex critical
          ({ state with currTid := 0 }.inCall (.exit value .mainJump)) (state.tcb 0).status
          (some (.exit value .mainJump)) := ⟨idle, rfl⟩
      exact exclusive.proceed idle (.inl idle) (fun _ => rfl) (fun _ => .inl rfl) rfl rfl rfl
        (fun held => by cases held) outside toMain
  | mainJump =>
      refine directly 0 ?_ fits.2.symm executed
      simp [State.directTarget, idle, called]
  | finish => cases executed

theorem joinUnexited (exclusive : Exclusive mutex critical state)
    (idle : state.cpu.schedulers = []) {thread : Tid}
    (called : state.cpu.call = some (.join thread .start)) :
    Exclusive mutex critical (state.joinUnexited thread) := by
  have outside : ¬critical state.cpu.user := by
    simpa [Context.Obeys, called] using exclusive.obeys
  have suspendable : Suspendable mutex critical
      { state.cpu with call := some (.join thread .copy) } := by
    refine ⟨outside, trivial, fun frame membership => ?_⟩
    rw [idle] at membership
    cases membership
  unfold State.joinUnexited
  simp only
  split
  next waiting =>
      have other : thread ≠ state.currTid := by
        rintro rfl
        simp at waiting
      have isWaiting : (state.tcb thread).status = .waiting := by
        simpa [other] using waiting
      refine exclusive.suspend idle .blocked (by decide) suspendable (fun same => by cases same)
        (.inl idle) (fun tid => ?_) (fun tid => ?_) rfl rfl (fun held => held) outside
        ⟨waiting, ?_, rfl⟩
      · simp [State.inCall, State.unlock]
      · simp [State.inCall, State.unlock]
      · right
        intro context reg
        have reg : (state.tcb thread).reg = some context := by
          simpa [State.inCall, State.unlock, other] using reg
        rcases (exclusive.waiting thread context isWaiting reg).2 with ⟨value, inExit⟩
        simp [Context.Holds, inExit]
  next =>
      have agree := (((state.setStatus state.currTid .blocked).setReg state.currTid
        { state.cpu with call := some (.join thread .copy) }).setJoining_agrees thread
          state.currTid)
      have status : ((((state.setStatus state.currTid .blocked).setReg state.currTid
          { state.cpu with call := some (.join thread .copy) }).setJoining thread
            state.currTid).tcb state.currTid).status = .blocked := by
        rw [agree.status]
        simp
      refine exclusive.suspend idle .blocked (by decide) suspendable (fun same => by cases same)
        (.inl idle) (fun tid => (agree.reg tid).trans (by simp))
        (fun tid => (agree.status tid).trans (by simp)) rfl rfl (fun held => held) outside
        ⟨?_, ?_⟩
      · change ((((state.setStatus state.currTid .blocked).setReg state.currTid _).setJoining thread
          state.currTid).tcb state.currTid).status ≠ _
        rw [status]
        decide
      · right
        intro context reg
        have reg := (agree.reg state.currTid).symm.trans reg
        rw [State.setReg_reg, if_pos rfl] at reg
        cases reg
        exact fun held => held

theorem pthreadJoin (discipline : Discipline client mutex critical)
    (exclusive : Exclusive mutex critical state) (idle : state.cpu.schedulers = [])
    {thread : Tid} {point : JoinPoint} (called : state.cpu.call = some (.join thread point))
    (executed : state.pthreadJoin client thread point = some after) :
    Exclusive mutex critical after := by
  have fits := exclusive.current_fits idle
  rw [called] at fits
  have outside : ¬critical state.cpu.user := by
    simpa [Context.Obeys, called] using exclusive.obeys
  cases point with
  | start =>
      simp only [State.pthreadJoin] at executed
      split at executed
      next =>
          cases executed
          exact exclusive.joinUnexited idle called
      next =>
          cases executed
          exact exclusive.goto idle false state.cpu.user _ rfl (fun held => by cases held) outside
            fits
  | copy =>
      cases executed
      exact exclusive.goto idle state.masked state.cpu.user _ rfl (fun held => by cases held)
        outside fits
  | run value =>
      cases executed
      exact exclusive.mark idle _ (by decide) (by decide) rfl (fun held => by cases held) outside
        (State.setStatus_status .. |>.trans (if_pos rfl))
  | unlock value =>
      cases executed
      cases value with
      | none => exact absurd idle fits.2.2
      | some value =>
          exact exclusive.goto idle false state.cpu.user _ rfl (fun held => by cases held) outside
            fits
  | schedule =>
      cases executed
      exact exclusive.proceed idle (.inr rfl) (fun _ => rfl) (fun _ => .inl rfl) rfl rfl rfl
        (fun held => by cases held) outside ⟨fits.1, fits.2, by simp [State.callScheduler,
          State.inScheduler]⟩
  | jump waitingThread =>
      rcases state.longjmp_eq_some_iff.mp executed with ⟨context, reg, rfl⟩
      rcases fits with ⟨waiting, _, current⟩
      subst current
      rcases exclusive.waiting _ context waiting reg with ⟨noSchedulers, inExit⟩
      exact exclusive.resume_idle idle _ reg rfl noSchedulers (.inr inExit)
  | finish value =>
      cases executed
      refine exclusive.goto idle state.masked _ none rfl (fun held => ?_) trivial fits
      exact absurd ((discipline.returns _ (.join thread) _).mp held) outside

theorem semWait (discipline : Discipline client mutex critical)
    (exclusive : Exclusive mutex critical state) (idle : state.cpu.schedulers = [])
    {sem : SemId} {point : SemWaitPoint} (called : state.cpu.call = some (.semWait sem point))
    (executed : state.semWait client sem point = some after) : Exclusive mutex critical after := by
  have fits := exclusive.current_fits idle
  rw [called] at fits
  obtain ⟨rfl, outside⟩ : sem = mutex ∧ ¬critical state.cpu.user := by
    simpa [Context.Obeys, called] using exclusive.obeys
  have goesOn : ∀ next, ¬Context.Holds critical
        { state.cpu with call := some (.semWait sem next) } →
      CallFits sem critical (state.inCall (.semWait sem next)) (state.tcb state.currTid).status
        (some (.semWait sem next)) →
      Exclusive sem critical (state.inCall (.semWait sem next)) :=
    fun next notHolds nextFits => exclusive.goto idle state.masked state.cpu.user _ rfl
      (fun held => absurd held notHolds) ⟨rfl, outside⟩ nextFits
  cases point with
  | start =>
      simp only [State.semWait, exclusive.initialized, if_true] at executed
      cases executed
      exact goesOn _ (fun held => held) fits
  | test =>
      simp only [State.semWait] at executed
      split at executed
      next empty =>
          cases executed
          refine goesOn _ (fun held => held) ⟨fits, .inl ?_⟩
          rcases exclusive.owned.range with zero | one
          · exact zero
          · rw [one] at empty
            exact absurd empty (by decide)
      next positive =>
          cases executed
          refine goesOn _ (fun held => held) ⟨fits, ?_, idle⟩
          rcases exclusive.owned.range with zero | one
          · rw [zero] at positive
            exact absurd (le_refl 0) positive
          · exact one
  | block =>
      cases executed
      refine exclusive.mark idle _ (by decide) (by decide) rfl (fun held => by cases held)
        ⟨rfl, outside⟩ ⟨?_, guarded_setStatus fits.2 _ _ _⟩
      rw [State.setStatus_status, if_pos rfl]
      decide
  | find slot =>
      simp only [State.semWait] at executed
      split at executed
      next =>
          split at executed <;> cases executed <;> exact goesOn _ (fun held => held) fits
      next => cases executed
  | insert slot =>
      cases executed
      refine exclusive.proceed idle (.inl idle) (fun _ => rfl) (fun _ => .inl rfl) rfl ?_ ?_
        (fun held => by cases held) ⟨rfl, outside⟩ ⟨fits.1, ?_⟩
      · simp [State.inCall, State.setWaiting, State.setSem]
      · simp [State.inCall, State.setWaiting, State.setSem]
      · refine Or.imp_left (fun taken => ?_) fits.2
        simpa [State.inCall, State.setWaiting, State.setSem] using taken
  | schedule =>
      cases executed
      exact exclusive.proceed idle (.inr rfl) (fun _ => rfl) (fun _ => .inl rfl) rfl rfl rfl
        (fun held => by cases held) ⟨rfl, outside⟩
        ⟨fits.1, fits.2, by simp [State.callScheduler, State.inScheduler]⟩
  | woken => exact absurd idle fits.2.2
  | positive =>
      have positive : (state.sems sem).val > 0 := by rw [fits.2.1]; decide
      simp only [State.semWait, if_pos positive] at executed
      cases executed
      exact goesOn _ (fun held => held) fits
  | decrement =>
      rcases Option.map_eq_some_iff.mp executed with ⟨taken, added, rfl⟩
      simp only [State.addVal, fits.2.1, Option.ite_none_right_eq_some, Option.some.injEq] at added
      rcases added with ⟨_, rfl⟩
      refine of_call (.inl idle) exclusive.started ?_
        (exclusive.owned.taken fits.2.1 ?_ fun slot context => Place.of_setSem) ⟨rfl, outside⟩
        exclusive.saved exclusive.waiting ⟨fits.1, rfl⟩
      · simpa [State.inCall, State.setSem] using exclusive.initialized
      · simp [State.inCall, State.setSem]
  | finish code =>
      cases executed
      refine exclusive.goto idle state.masked _ none rfl (fun _ => ?_) trivial fits.1
      rw [Context.Holds, called]
      exact fits.2

theorem semPost (discipline : Discipline client mutex critical)
    (exclusive : Exclusive mutex critical state) (idle : state.cpu.schedulers = [])
    {sem : SemId} {point : SemPostPoint} (called : state.cpu.call = some (.semPost sem point))
    (executed : state.semPost client sem point = some after) : Exclusive mutex critical after := by
  have running := exclusive.current_fits idle
  rw [called] at running
  have running : (state.tcb state.currTid).status = .running := running
  obtain ⟨rfl, outside⟩ : sem = mutex ∧ ¬critical state.cpu.user := by
    simpa [Context.Obeys, called] using exclusive.obeys
  have held : (∀ code, point ≠ .finish code) → state.cpu.Holds critical := by
    intro notFinished
    rw [Context.Holds, called]
    cases point <;> first | trivial | exact absurd rfl (notFinished _)
  have goesOn : ∀ next, (∀ code, point ≠ .finish code) →
      Exclusive sem critical (state.inCall (.semPost sem next)) :=
    fun next notFinished => exclusive.goto idle state.masked state.cpu.user _ rfl
      (fun _ => held notFinished) ⟨rfl, outside⟩ running
  have begins : Begins state.cpu.schedulers := .inl idle
  cases point with
  | start =>
      simp only [State.semPost, exclusive.initialized, if_true] at executed
      cases executed
      exact goesOn _ (by simp)
  | zero | positive =>
      simp only [State.semPost] at executed
      split at executed <;> cases executed <;> exact goesOn _ (by simp)
  | scan slot =>
      simp only [State.semPost] at executed
      split at executed
      next => split at executed <;> cases executed <;> exact goesOn _ (by simp)
      next =>
          cases executed
          exact goesOn _ (by simp)
  | found slot =>
      simp only [State.semPost] at executed
      split at executed <;> cases executed <;> exact goesOn _ (by simp)
  | clear slot nextRun =>
      cases executed
      refine exclusive.proceed idle (.inl idle) (fun _ => rfl) (fun _ => .inl rfl) rfl ?_ ?_
        (fun _ => held (by simp)) ⟨rfl, outside⟩ running
      · simp [State.inCall, State.setWaiting, State.setSem]
      · simp [State.inCall, State.setWaiting, State.setSem]
  | grant nextRun =>
      cases executed
      refine exclusive.mark idle _ (by decide) (by decide) rfl (fun _ => held (by simp))
        ⟨rfl, outside⟩ ?_
      have status := state.setStatus_status nextRun state.currTid .running
      rw [running, ite_self] at status
      exact status
  | jump nextRun =>
      rcases state.longjmp_eq_some_iff.mp executed with ⟨context, reg, rfl⟩
      have suspendable := exclusive.saved nextRun context reg
      have holds := held (by simp)
      have taken : (state.sems sem).val = 0 :=
        exclusive.owned.val_of_holds (.processor begins.calm.1) holds
      have interruptible : Interruptible (context.resume 1).schedulers := by
        rw [Context.resume_schedulers]
        exact suspendable.interruptible
      have noTarget := (not_atSave_of_interruptible interruptible).2
      refine exclusive.resume 1 suspendable (exclusive.owned.of_subset rfl ?_) ?_ (.inr running)
      · -- the poster gives the semaphore away, if the old context takes it
        intro place other atPlace otherHolds
        cases atPlace with
        | processor _ => exact ⟨_, .processor begins.calm.1, holds⟩
        | preempted ready isSaved otherReg =>
            exact ⟨other, .of_ready begins.calm.2.1 ready otherReg, otherHolds⟩
        | chosen next otherReg =>
            rw [noTarget] at next
            cases next
      · rw [running]
        exact suspendable.savable.fits fun _ => .inl taken
  | increment =>
      rcases Option.map_eq_some_iff.mp executed with ⟨given, added, rfl⟩
      have holds := held (by simp)
      have taken : (state.sems sem).val = 0 :=
        exclusive.owned.val_of_holds (.processor begins.calm.1) holds
      simp only [State.addVal, taken, Option.ite_none_right_eq_some, Option.some.injEq] at added
      rcases added with ⟨_, rfl⟩
      refine of_call (.inl idle) exclusive.started ?_
        (exclusive.owned.given begins.calm.1 holds ?_ (fun held => by cases held)
          fun slot context => Place.of_setSem) ⟨rfl, outside⟩
        exclusive.saved exclusive.waiting running
      · simpa [State.inCall, State.setSem] using exclusive.initialized
      · simp [State.inCall, State.setSem]
  | finish code =>
      cases executed
      refine exclusive.goto idle state.masked _ none rfl (fun inside => ?_) trivial running
      exact absurd ((discipline.returns _ (.semPost sem) _).mp inside) outside

end Exclusive

end EC440.Threads
