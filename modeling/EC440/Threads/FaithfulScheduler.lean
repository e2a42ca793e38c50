import EC440.Threads.Faithful

/-!
# The invariant of contexts in scheduler

From every statement of `scheduler` that is executed in a `Faithful` state the
history goes on to a `Faithful` one; only its `longjmp` takes another thread.
-/

namespace EC440.Threads

variable {User : Type} {client : Client User} {state after : State User}
  {tid : Tid} {context : Context User}

namespace Faithful

variable {history : History User}

theorem stay (faithful : Faithful state history) (sameOwner : after.cpu.owner = state.cpu.owner)
    (sameFirst : after.firstCall = state.firstCall)
    (queues : ∀ sem slot, (after.sems sem).waiting slot = 0)
    (sameReg : ∀ tid, tid ≠ state.cpu.owner → (after.tcb tid).reg = (state.tcb tid).reg)
    (sameFresh : ∀ tid, (after.tcb tid).status = .fresh ↔ (state.tcb tid).status = .fresh)
    (statuses : ∀ tid, (after.tcb tid).status = .ready ∨ (after.tcb tid).status = .running ∨
      (after.tcb tid).status = .fresh)
    (unblocked : Unblocked after.cpu.call)
    (targets : TargetsExist state after.cpu.schedulers) (processor : Processor after) :
    Faithful after (history.reach after) where
  started := sameFirst.trans faithful.started
  queues := queues
  statuses := statuses
  unblocked := unblocked
  targets := targets.of_fresh_iff fun tid => (sameFresh tid).mp
  processor := processor
  owner := by
    rw [sameOwner]
    exact fun fresh => faithful.owner ((sameFresh _).mp fresh)
  fresh := by
    intro tid fresh
    have wasFresh := (sameFresh tid).mp fresh
    have notOwner : tid ≠ after.cpu.owner := by
      intro same
      rw [same, sameOwner] at wasFresh
      exact faithful.owner wasFresh
    rw [history.reach_front_of_ne notOwner]
    exact faithful.fresh tid wasFresh
  front := history.reach_front_owner after
  suspended := by
    intro tid notOwner notFresh
    have stillOther : tid ≠ state.cpu.owner := by
      rw [← sameOwner]
      exact notOwner
    have suspended := faithful.suspended tid stillOther
      fun fresh => notFresh ((sameFresh tid).mpr fresh)
    exact suspended.mono (sameReg tid stillOther) (fun other => (sameFresh other).mp) rfl
      (history.reach_front_of_ne notOwner)

theorem goto (faithful : Faithful state history) (sameThreads : after.tcb = state.tcb)
    (sameOwner : after.cpu.owner = state.cpu.owner)
    (sameFirst : after.firstCall = state.firstCall)
    (queues : ∀ sem slot, (after.sems sem).waiting slot = 0)
    (unblocked : Unblocked after.cpu.call)
    (targets : TargetsExist state after.cpu.schedulers) (processor : Processor after) :
    Faithful after (history.reach after) :=
  faithful.stay sameOwner sameFirst queues (fun tid _ => by rw [sameThreads])
    (fun tid => by rw [sameThreads]) (by simpa only [sameThreads] using faithful.statuses)
    unblocked targets processor

theorem setStatus (faithful : Faithful state history) (status : Status)
    (schedules : status = .ready ∨ status = .running)
    (exists_current : (state.tcb state.currTid).status ≠ .fresh)
    (sameThreads : after.tcb = (state.setStatus state.currTid status).tcb)
    (sameOwner : after.cpu.owner = state.cpu.owner)
    (sameFirst : after.firstCall = state.firstCall) (sameSems : after.sems = state.sems)
    (sameCall : after.cpu.call = state.cpu.call)
    (targets : TargetsExist state after.cpu.schedulers) (processor : Processor after) :
    Faithful after (history.reach after) := by
  refine faithful.stay sameOwner sameFirst ?_ (fun tid _ => ?_) (fun tid => ?_) (fun tid => ?_) ?_
    targets processor
  · rw [sameSems]
    exact faithful.queues
  · rw [sameThreads, State.setStatus_reg]
  · rw [sameThreads, State.setStatus_status]
    split
    next same =>
        subst same
        rcases schedules with rfl | rfl <;> simp [exists_current]
    next => rfl
  · rw [sameThreads, State.setStatus_status]
    split
    next =>
        rcases schedules with rfl | rfl
        · exact .inl rfl
        · exact .inr (.inl rfl)
    next => exact faithful.statuses tid
  · rw [sameCall]
    exact faithful.unblocked

theorem search (faithful : Faithful state history) {handler : Bool} {point next : SchedulerPoint}
    {rest : List SchedulerFrame} (frames : state.cpu.schedulers = { handler, point } :: rest)
    (from_search : point.preemptible = true ∧ point.passing = true)
    (to_search : next.preemptible = true ∧ next.passing = true)
    (target : ∀ tid ∈ next.target, (state.tcb tid).status ≠ .fresh) :
    Faithful (state.inScheduler handler rest next)
      (history.reach (state.inScheduler handler rest next)) := by
  have targets := faithful.targets
  rw [frames] at targets
  have notExposed : ∀ {point : SchedulerPoint}, point.preemptible = true →
      point.abandoned = false ∧ point.exposed = false := by
    intro point preemptible
    simpa [SchedulerPoint.preemptible] using preemptible
  refine faithful.goto rfl rfl rfl faithful.queues faithful.unblocked (targets.move target) ?_
  cases faithful.processor with
  | executing current running preemptible =>
      rw [frames] at preemptible
      exact .executing current running (.cons to_search.1 preemptible.tail)
  | saving savingHandler savingNext savingRest current ready noneRunning saving preemptible =>
      rw [frames] at saving
      cases saving
      cases from_search.1
  | switching suspended ready noneRunning abandons saved sheltered selected =>
      rw [frames] at abandons
      refine .switching suspended ready noneRunning (abandons.move ?_ to_search.2) saved ?_ ?_
      · intro abandoned
        rw [(notExposed from_search.1).1] at abandoned
        cases abandoned
      · intro frame membership
        cases membership
        exact (notExposed to_search.1).2
      · intro frame membership selectedNext isRun
        cases membership
        simp only at isRun
        rw [isRun] at to_search
        cases to_search.1
  | jumping jumpHandler jumpRest suspended running jumping abandons saved =>
      rw [frames] at jumping
      cases jumping
      cases from_search.1

theorem current_exists (faithful : Faithful state history) :
    (state.tcb state.currTid).status ≠ .fresh := by
  intro fresh
  cases faithful.processor with
  | executing current running preemptible =>
      have isRunning := (running state.currTid).mpr rfl
      rw [fresh] at isRunning
      cases isRunning
  | saving handler next rest current ready noneRunning frames preemptible =>
      rw [fresh] at ready
      cases ready
  | switching suspended ready noneRunning abandons saved sheltered selected =>
      rw [fresh] at ready
      cases ready
  | jumping handler rest suspended running frames abandons saved =>
      have isRunning := (running state.currTid).mpr rfl
      rw [fresh] at isRunning
      cases isRunning

/-- The thread that `scheduler` has chosen can be switched to. -/
theorem ready_of_noneRunning (faithful : Faithful state history)
    (noneRunning : ∀ tid, (state.tcb tid).status ≠ .running)
    (exists_tid : (state.tcb tid).status ≠ .fresh) : (state.tcb tid).status = .ready := by
  rcases faithful.statuses tid with ready | running | fresh
  · exact ready
  · exact absurd running (noneRunning tid)
  · exact absurd fresh exists_tid

variable {handler : Bool} {rest : List SchedulerFrame} {next : Tid}

theorem chosen (faithful : Faithful state history)
    (frames : state.cpu.schedulers = { handler, point := .chosen next } :: rest)
    (executed : state.scheduler handler rest (.chosen next) = some after) :
    Faithful after (history.reach after) := by
  have targets := faithful.targets
  rw [frames] at targets
  have exists_next := targets _ (.head _) next rfl
  simp only [State.scheduler] at executed
  cases faithful.processor with
  | executing current running preemptible =>
      rw [if_pos ((running state.currTid).mpr rfl)] at executed
      cases executed
      rw [frames] at preemptible
      refine faithful.goto rfl rfl rfl faithful.queues faithful.unblocked
        (targets.move fun tid target => ?_)
        (.executing current running (.cons rfl preemptible.tail))
      cases target
      exact exists_next
  | saving savingHandler savingNext savingRest current ready noneRunning saving preemptible =>
      rw [frames] at saving
      cases saving
  | switching suspended ready noneRunning abandons saved sheltered selected =>
      rw [if_neg (noneRunning _)] at executed
      cases executed
      rw [frames] at abandons
      refine faithful.goto rfl rfl rfl faithful.queues faithful.unblocked
        (targets.move fun tid target => ?_)
        (.switching suspended ready noneRunning
          (abandons.move (fun abandoned => by cases abandoned) rfl) saved ?_ ?_)
      · cases target
        exact exists_next
      · intro frame membership
        cases membership
        rfl
      · intro frame membership selectedNext isRun
        cases membership
        cases isRun
  | jumping jumpHandler jumpRest suspended running jumping abandons saved =>
      rw [frames] at jumping
      cases jumping

theorem executing (faithful : Faithful state history) {point : SchedulerPoint}
    (frames : state.cpu.schedulers = { handler, point } :: rest)
    (preemptible : point.preemptible = true) (acts : point.passing = false) :
    state.currTid = state.cpu.owner ∧
      (∀ tid, (state.tcb tid).status = .running ↔ tid = state.currTid) ∧ Preemptible rest := by
  cases faithful.processor with
  | executing current running preemptible =>
      rw [frames] at preemptible
      exact ⟨current, running, preemptible.tail⟩
  | saving savingHandler savingNext savingRest current ready noneRunning saving _ =>
      rw [frames] at saving
      cases saving
      cases preemptible
  | switching suspended ready noneRunning abandons saved sheltered selected =>
      rw [frames] at abandons
      rw [abandons.passing] at acts
      cases acts
  | jumping jumpHandler jumpRest suspended running jumping abandons saved =>
      rw [frames] at jumping
      cases jumping
      cases preemptible

theorem ready (faithful : Faithful state history)
    (frames : state.cpu.schedulers = { handler, point := .ready next } :: rest)
    (executed : state.scheduler handler rest (.ready next) = some after) :
    Faithful after (history.reach after) := by
  have targets := faithful.targets
  rw [frames] at targets
  rcases faithful.executing frames rfl rfl with ⟨current, running, preemptible⟩
  cases executed
  refine faithful.setStatus .ready (.inl rfl) faithful.current_exists rfl rfl rfl rfl rfl
    (targets.move fun tid target => ?_)
    (.saving handler next rest current ?_ (fun tid => ?_) rfl preemptible)
  · exact targets _ (.head _) tid target
  · exact State.setStatus_status .. |>.trans (if_pos rfl)
  · intro isRunning
    rw [State.inScheduler, State.setStatus_status] at isRunning
    split at isRunning
    next => cases isRunning
    next other => exact other ((running tid).mp isRunning)

theorem save (faithful : Faithful state history)
    (frames : state.cpu.schedulers = { handler, point := .save next } :: rest)
    (executed : state.scheduler handler rest (.save next) = some after) :
    Faithful after (history.reach after) := by
  have targets := faithful.targets
  rw [frames] at targets
  cases executed
  cases faithful.processor with
  | executing current running preemptible =>
      rw [frames] at preemptible
      cases preemptible _ (.head _)
  | saving savingHandler savingNext savingRest current ready noneRunning saving preemptible =>
      rw [frames] at saving
      cases saving
      refine faithful.stay rfl rfl faithful.queues (fun tid notOwner => ?_) (fun tid => ?_)
        (fun tid => ?_) faithful.unblocked (targets.move fun tid target => ?_)
        (.switching _ ?_ (fun tid => ?_) (.outermost rfl preemptible) ?_ ?_ ?_)
      · rw [← current] at notOwner
        simp [State.inScheduler, notOwner]
      · simp [State.inScheduler]
      · simpa [State.inScheduler] using faithful.statuses tid
      · exact targets _ (.head _) tid target
      · simpa [State.inScheduler, State.setReg] using ready
      · simpa [State.inScheduler] using noneRunning tid
      · simp [State.inScheduler, State.setReg, current]
      · intro frame membership
        cases membership
        rfl
      · intro frame membership selectedNext isRun
        cases membership
        cases isRun
  | switching suspended ready noneRunning abandons saved sheltered selected =>
      rw [frames] at abandons
      cases abandons.passing
  | jumping jumpHandler jumpRest suspended running jumping abandons saved =>
      rw [frames] at jumping
      cases jumping

theorem resumed (faithful : Faithful state history)
    (frames : state.cpu.schedulers = { handler, point := .resumed } :: rest)
    (executed : state.scheduler handler rest .resumed = some after) :
    Faithful after (history.reach after) := by
  have targets := faithful.targets
  rw [frames] at targets
  rcases faithful.executing frames rfl rfl with ⟨current, running, preemptible⟩
  cases executed
  exact faithful.goto rfl rfl rfl faithful.queues faithful.unblocked
    (fun frame membership => targets frame (.tail _ membership))
    (.executing current running preemptible)

/-- Behind the `setjmp` nobody is `RUNNING` until the next thread is. -/
theorem switching (faithful : Faithful state history) {point : SchedulerPoint}
    (frames : state.cpu.schedulers = { handler, point } :: rest)
    (abandoned : point.abandoned = true) (sheltered : point.exposed = false) :
    (∀ tid, (state.tcb tid).status ≠ .running) ∧
      (∀ next, point = .run next → next = state.currTid) ∧
      ∃ suspended, Abandons suspended ({ handler, point } :: rest) ∧
        (state.tcb state.cpu.owner).reg = some { state.cpu with schedulers := suspended } := by
  cases faithful.processor with
  | executing current running preemptible =>
      rw [frames] at preemptible
      have top := preemptible _ (.head _)
      rw [SchedulerPoint.preemptible, abandoned] at top
      cases top
  | saving savingHandler savingNext savingRest current ready noneRunning saving preemptible =>
      rw [frames] at saving
      cases saving
      cases sheltered
  | switching suspended ready noneRunning abandons saved _ selected =>
      rw [frames] at abandons selected
      exact ⟨noneRunning, selected _ rfl, suspended, abandons, saved⟩
  | jumping jumpHandler jumpRest suspended running jumping abandons saved =>
      rw [frames] at jumping
      cases jumping
      cases sheltered

theorem switch (faithful : Faithful state history)
    (frames : state.cpu.schedulers = { handler, point := .switch next } :: rest)
    (executed : state.scheduler handler rest (.switch next) = some after) :
    Faithful after (history.reach after) := by
  have targets := faithful.targets
  rw [frames] at targets
  rcases faithful.switching frames rfl rfl with ⟨noneRunning, _, suspended, abandons, saved⟩
  have exists_next := targets _ (.head _) next rfl
  cases executed
  refine faithful.goto rfl rfl rfl faithful.queues faithful.unblocked
    (targets.move fun tid target => ?_)
    (.switching suspended (faithful.ready_of_noneRunning noneRunning exists_next) noneRunning
      (abandons.move (fun _ => rfl) rfl) saved ?_ ?_)
  · cases target
    exact exists_next
  · intro frame membership
    cases membership
    rfl
  · intro frame membership selectedNext isRun
    cases membership
    cases isRun
    rfl

theorem run (faithful : Faithful state history)
    (frames : state.cpu.schedulers = { handler, point := .run next } :: rest)
    (executed : state.scheduler handler rest (.run next) = some after) :
    Faithful after (history.reach after) := by
  have targets := faithful.targets
  rw [frames] at targets
  rcases faithful.switching frames rfl rfl with ⟨noneRunning, selected, suspended, abandons, saved⟩
  have current := selected next rfl
  subst current
  cases executed
  refine faithful.setStatus .running (.inr rfl) faithful.current_exists rfl rfl rfl rfl rfl
    (targets.move fun tid target => ?_)
    (.jumping handler rest suspended (fun tid => ?_) rfl (abandons.move (fun _ => rfl) rfl) ?_)
  · exact targets _ (.head _) tid target
  · rw [State.inScheduler, State.setStatus_status]
    split
    next same => simp [State.setStatus, same]
    next other => simp [State.setStatus, noneRunning tid, other]
  · rw [State.inScheduler, State.setStatus_reg]
    exact saved

/-- Before the `longjmp` the chosen thread is the `RUNNING` one. -/
theorem jumping (faithful : Faithful state history)
    (frames : state.cpu.schedulers = { handler, point := .jump next } :: rest) :
    next = state.currTid ∧
      (∀ tid, (state.tcb tid).status = .running ↔ tid = state.currTid) ∧
      ∃ suspended, Abandons suspended state.cpu.schedulers ∧
        (state.tcb state.cpu.owner).reg = some { state.cpu with schedulers := suspended } := by
  cases faithful.processor with
  | executing current running preemptible =>
      rw [frames] at preemptible
      cases preemptible _ (.head _)
  | saving savingHandler savingNext savingRest current ready noneRunning saving preemptible =>
      rw [frames] at saving
      cases saving
  | switching suspended ready noneRunning abandons saved sheltered selected =>
      rw [frames] at sheltered
      cases sheltered _ rfl
  | jumping jumpHandler jumpRest suspended running jumping abandons saved =>
      rw [frames] at jumping
      cases jumping
      exact ⟨rfl, running, suspended, abandons, saved⟩

theorem jump_back (faithful : Faithful state history) (atJump : state.cpu.atJump = true)
    (same : state.currTid = state.cpu.owner)
    (running : ∀ tid, (state.tcb tid).status = .running ↔ tid = state.currTid)
    (resumable : Resumable state state.cpu.suspension)
    (sameOwner : state.cpu.suspension.owner = state.cpu.owner)
    (sameUser : state.cpu.suspension.user = state.cpu.user)
    (executed : after = { state with cpu := state.cpu.suspension }) :
    Faithful after (history.extend state .statement after) ∧
      (history.extend state .statement after).last after.cpu.owner = some after.cpu := by
  subst executed
  have extended : history.extend state .statement { state with cpu := state.cpu.suspension } =
      { history with
        last := Function.update history.last state.cpu.owner (some state.cpu.suspension) } := by
    simp [History.extend, atJump, sameOwner, faithful.front]
  rw [extended]
  refine ⟨{
    started := faithful.started
    queues := faithful.queues
    statuses := faithful.statuses
    unblocked := resumable.unblocked
    targets := resumable.targets
    processor := .executing (same.trans sameOwner.symm) running resumable.preemptible
    owner := ?_
    fresh := fun tid fresh => ?_
    front := ?_
    suspended := fun tid notOwner notFresh => ?_ }, ?_⟩
  · change (state.tcb state.cpu.suspension.owner).status ≠ .fresh
    rw [sameOwner]
    exact faithful.owner
  · have notOwner : tid ≠ state.cpu.owner := by
      rintro rfl
      exact faithful.owner fresh
    simpa [notOwner] using faithful.fresh tid fresh
  · change history.front state.cpu.suspension.owner = some state.cpu.suspension.user
    rw [sameOwner, sameUser]
    exact faithful.front
  · have stillOther : tid ≠ state.cpu.owner := by
      rw [← sameOwner]
      exact notOwner
    rcases faithful.suspended tid stillOther notFresh with ⟨context, reg, owned, resumes, recorded⟩
    refine ⟨context, reg, owned, ⟨resumes.unblocked, resumes.targets, resumes.preemptible⟩, ?_⟩
    simpa [stillOther] using recorded
  · simp [sameOwner]

theorem jump_away (faithful : Faithful state history) (atJump : state.cpu.atJump = true)
    (other : state.currTid ≠ state.cpu.owner)
    (running : ∀ tid, (state.tcb tid).status = .running ↔ tid = state.currTid)
    (saved : (state.tcb state.cpu.owner).reg = some state.cpu.suspension)
    (left : Resumable state state.cpu.suspension)
    (sameOwner : state.cpu.suspension.owner = state.cpu.owner)
    (sameUser : state.cpu.suspension.user = state.cpu.user)
    (owned : context.owner = state.currTid) (resumable : Resumable state context)
    (recorded : (history.last state.currTid = some context ∧
        history.front state.currTid = some context.user) ∨
      (history.last state.currTid = none ∧ history.front state.currTid = none))
    (executed : after = { state with cpu := context }) :
    Faithful after (history.extend state .statement after) ∧
      (history.extend state .statement after).last after.cpu.owner =
        history.last state.currTid := by
  subst executed
  have last : ∀ tid, tid ≠ state.cpu.owner →
      (history.extend state .statement { state with cpu := context }).last tid =
        history.last tid := by
    intro tid notOwner
    simp [History.extend, atJump, notOwner]
  have front : ∀ tid, tid ≠ state.currTid →
      (history.extend state .statement { state with cpu := context }).front tid =
        history.front tid := by
    intro tid notNext
    simp only [History.extend, atJump, owned]
    split
    next => rfl
    next => exact Function.update_of_ne notNext ..
  refine ⟨{
    started := faithful.started
    queues := faithful.queues
    statuses := faithful.statuses
    unblocked := resumable.unblocked
    targets := resumable.targets
    processor := .executing owned.symm running resumable.preemptible
    owner := ?_
    fresh := fun tid fresh => ?_
    front := ?_
    suspended := fun tid notOwner notFresh => ?_ }, ?_⟩
  · change (state.tcb context.owner).status ≠ .fresh
    rw [owned]
    exact faithful.current_exists
  · have notOwner : tid ≠ state.cpu.owner := by
      rintro rfl
      exact faithful.owner fresh
    have notNext : tid ≠ state.currTid := by
      rintro rfl
      exact faithful.current_exists fresh
    rw [last tid notOwner, front tid notNext]
    exact faithful.fresh tid fresh
  · rcases recorded with ⟨_, sameFront⟩ | ⟨_, noFront⟩
    · simp [History.extend, atJump, owned, sameFront]
    · simp [History.extend, atJump, owned, noFront]
  · have notNext : tid ≠ state.currTid := by
      rw [← owned]
      exact notOwner
    by_cases leftBehind : tid = state.cpu.owner
    · subst leftBehind
      refine ⟨_, saved, sameOwner, ⟨left.unblocked, left.targets, left.preemptible⟩, .inl ⟨?_, ?_⟩⟩
      · simp [History.extend, atJump]
      · rw [front _ notNext, sameUser]
        exact faithful.front
    · rcases faithful.suspended tid leftBehind notFresh with
        ⟨context, reg, owned, resumes, recorded⟩
      refine ⟨context, reg, owned, ⟨resumes.unblocked, resumes.targets, resumes.preemptible⟩, ?_⟩
      rw [last tid leftBehind, front tid notNext]
      exact recorded
  · change (history.extend state .statement { state with cpu := context }).last context.owner = _
    rw [owned]
    exact last _ other

theorem jump (faithful : Faithful state history)
    (frames : state.cpu.schedulers = { handler, point := .jump next } :: rest)
    (executed : state.scheduler handler rest (.jump next) = some after) :
    Faithful after (history.extend state .statement after) ∧
      ∀ context, (history.extend state .statement after).last after.cpu.owner = some context →
        after.cpu = context := by
  rcases faithful.jumping frames with ⟨rfl, running, suspended, abandons, saved⟩
  rcases state.longjmp_eq_some_iff.mp executed with ⟨context, reg, resumes⟩
  have gaveUp : state.cpu.suspension = { state.cpu with schedulers := suspended } := by
    simp [Context.suspension, abandons.suspendedSchedulers]
  have atJump : state.cpu.atJump = true := by
    simp [Context.atJump, frames]
  have left : Resumable state state.cpu.suspension := by
    rw [gaveUp]
    exact ⟨faithful.unblocked, abandons.targetsExist faithful.targets, abandons.preemptible⟩
  have sameOwner : state.cpu.suspension.owner = state.cpu.owner := by rw [gaveUp]
  have sameUser : state.cpu.suspension.user = state.cpu.user := by rw [gaveUp]
  rw [← gaveUp] at saved
  by_cases same : state.currTid = state.cpu.owner
  · rw [same, saved] at reg
    cases reg
    rw [left.resume_eq_self] at resumes
    rcases faithful.jump_back atJump same running left sameOwner sameUser resumes with
      ⟨faithfulAfter, recorded⟩
    refine ⟨faithfulAfter, fun context isLast => ?_⟩
    exact Option.some.inj (recorded.symm.trans isLast)
  · rcases faithful.suspended _ same faithful.current_exists with
      ⟨next, nextReg, owned, resumable, recorded⟩
    rw [nextReg] at reg
    cases reg
    rw [resumable.resume_eq_self] at resumes
    rcases faithful.jump_away atJump same running saved left sameOwner sameUser owned
      resumable recorded resumes with ⟨faithfulAfter, sameLast⟩
    refine ⟨faithfulAfter, fun other isLast => ?_⟩
    rw [sameLast] at isLast
    rcases recorded with ⟨recordedLast, _⟩ | ⟨noLast, _⟩
    · rw [recordedLast] at isLast
      rw [resumes]
      exact Option.some.inj isLast
    · rw [noLast] at isLast
      cases isLast

end Faithful

end EC440.Threads
