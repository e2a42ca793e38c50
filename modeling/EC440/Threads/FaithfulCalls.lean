import EC440.Threads.FaithfulScheduler

/-!
# The invariant of contexts in the calls

The statements of `pthread_create`, `sem_wait` and `sem_post` keep `Faithful`
while no thread blocks.
-/

namespace EC440.Threads

variable {User : Type} {client : Client User} {state after : State User}
  {tid : Tid} {context : Context User}

namespace Faithful

variable {history : History User}

theorem current (faithful : Faithful state history) (noSchedulers : state.cpu.schedulers = []) :
    state.currTid = state.cpu.owner ∧
      ∀ tid, (state.tcb tid).status = .running ↔ tid = state.currTid := by
  cases faithful.processor with
  | executing current running _ => exact ⟨current, running⟩
  | saving handler next rest current ready noneRunning frames preemptible =>
      rw [noSchedulers] at frames
      cases frames
  | switching suspended ready noneRunning abandons saved sheltered selected =>
      rw [noSchedulers] at abandons
      cases abandons
  | jumping handler rest suspended running frames abandons saved =>
      rw [noSchedulers] at frames
      cases frames

theorem proceed (faithful : Faithful state history) (noSchedulers : state.cpu.schedulers = [])
    (sameThreads : after.tcb = state.tcb) (sameCurrent : after.currTid = state.currTid)
    (sameOwner : after.cpu.owner = state.cpu.owner)
    (sameFirst : after.firstCall = state.firstCall)
    (sameSchedulers : after.cpu.schedulers = state.cpu.schedulers)
    (queues : ∀ sem slot, (after.sems sem).waiting slot = 0)
    (unblocked : Unblocked after.cpu.call) : Faithful after (history.reach after) := by
  rcases faithful.current noSchedulers with ⟨current, running⟩
  refine faithful.goto sameThreads sameOwner sameFirst queues unblocked ?_ (.executing ?_ ?_ ?_)
  · rw [sameSchedulers]
    exact faithful.targets
  · rw [sameCurrent, sameOwner]
    exact current
  · rw [sameThreads, sameCurrent]
    exact running
  · rw [sameSchedulers, noSchedulers]
    exact fun _ membership => by cases membership

theorem newThread (faithful : Faithful state history) (noSchedulers : state.cpu.schedulers = [])
    {routine arg : Value} (fresh : (state.tcb tid).status = .fresh)
    (sameThreads : after.tcb = (state.newThread client tid routine arg).tcb)
    (sameCurrent : after.currTid = state.currTid)
    (sameOwner : after.cpu.owner = state.cpu.owner)
    (sameFirst : after.firstCall = state.firstCall)
    (sameSchedulers : after.cpu.schedulers = state.cpu.schedulers)
    (sameSems : after.sems = state.sems) (unblocked : Unblocked after.cpu.call) :
    Faithful after (history.reach after) := by
  rcases faithful.current noSchedulers with ⟨current, running⟩
  have notOwner : state.cpu.owner ≠ tid := by
    rintro rfl
    exact faithful.owner fresh
  have stillFresh : ∀ other, (after.tcb other).status = .fresh →
      (state.tcb other).status = .fresh := by
    intro other isFresh
    rw [sameThreads, State.newThread_status] at isFresh
    split at isFresh
    next => cases isFresh
    next => exact isFresh
  refine {
    started := sameFirst.trans faithful.started
    queues := ?_
    statuses := fun other => ?_
    unblocked := unblocked
    targets := ?_
    processor := .executing ?_ (fun other => ?_) ?_
    owner := ?_
    fresh := fun other isFresh => ?_
    front := history.reach_front_owner after
    suspended := fun other isOther notFresh => ?_ }
  · rw [sameSems]
    exact faithful.queues
  · rw [sameThreads, State.newThread_status]
    split
    next => exact .inl rfl
    next => exact faithful.statuses other
  · rw [sameSchedulers]
    exact faithful.targets.of_fresh_iff stillFresh
  · rw [sameCurrent, sameOwner]
    exact current
  · rw [sameThreads, sameCurrent, State.newThread_status]
    split
    next created =>
        subst created
        have notCurrent : other ≠ state.currTid := by
          rw [current]
          exact notOwner.symm
        simp [notCurrent]
    next => exact running other
  · rw [sameSchedulers, noSchedulers]
    exact fun _ membership => by cases membership
  · rw [sameOwner]
    exact fun isFresh => faithful.owner (stillFresh _ isFresh)
  · have wasFresh := stillFresh other isFresh
    have isOther : other ≠ after.cpu.owner := by
      rw [sameOwner]
      rintro rfl
      exact faithful.owner wasFresh
    rw [history.reach_last, history.reach_front_of_ne isOther]
    exact faithful.fresh other wasFresh
  · by_cases created : other = tid
    · subst created
      have starts : Resumable after
          { owner := other, user := client.start routine arg, call := none, schedulers := [] } :=
        ⟨trivial, by simp [TargetsExist], by simp [Preemptible]⟩
      refine ⟨_, ?_, rfl, starts, .inr ?_⟩
      · rw [sameThreads, State.newThread_reg, if_pos rfl]
      · rw [history.reach_last, history.reach_front_of_ne isOther]
        exact faithful.fresh other fresh
    · have stillOther : other ≠ state.cpu.owner := by
        rw [← sameOwner]
        exact isOther
      have exists_other : (state.tcb other).status ≠ .fresh := by
        intro isFresh
        rw [sameThreads, State.newThread_status, if_neg created] at notFresh
        exact notFresh isFresh
      refine (faithful.suspended other stillOther exists_other).mono ?_ stillFresh rfl
        (history.reach_front_of_ne isOther)
      rw [sameThreads, State.newThread_reg, if_neg created]

theorem pthreadCreate (faithful : Faithful state history)
    (noSchedulers : state.cpu.schedulers = []) {routine arg : Value} {point : CreatePoint}
    (executed : state.pthreadCreate client routine arg point = some after) :
    Faithful after (history.reach after) := by
  cases point with
  | start =>
      simp only [State.pthreadCreate, faithful.started, State.createThread, Bool.false_eq_true,
        if_false] at executed
      split at executed
      next =>
          cases executed
          exact faithful.proceed noSchedulers rfl rfl rfl faithful.started.symm rfl
            faithful.queues trivial
      next =>
          rcases Option.map_eq_some_iff.mp executed with ⟨tid, found, rfl⟩
          exact faithful.newThread noSchedulers (state.freshThread_status found) rfl rfl rfl rfl
            rfl rfl trivial
  | resumed =>
      cases executed
      exact faithful.proceed noSchedulers rfl rfl rfl rfl rfl faithful.queues trivial
  | finish code thread =>
      cases executed
      exact faithful.proceed noSchedulers rfl rfl rfl rfl rfl faithful.queues trivial

theorem addVal (faithful : Faithful state history) (noSchedulers : state.cpu.schedulers = [])
    {sem : SemId} {delta : Int} {counted : State User} {frame : Frame}
    (added : state.addVal sem delta = some counted) (unblocked : Unblocked (some frame)) :
    Faithful (counted.inCall frame) (history.reach (counted.inCall frame)) := by
  simp only [State.addVal, Option.ite_none_right_eq_some, Option.some.injEq] at added
  rcases added with ⟨_, rfl⟩
  refine faithful.proceed noSchedulers rfl rfl rfl rfl rfl (fun other slot => ?_) unblocked
  by_cases same : other = sem
  · simp [State.setSem, State.inCall, same, faithful.queues]
  · simp [State.setSem, State.inCall, same, faithful.queues]

theorem semWait (faithful : Faithful state history) (noSchedulers : state.cpu.schedulers = [])
    {sem : SemId} {point : SemWaitPoint} (called : state.cpu.call = some (.semWait sem point))
    (passes : state.blocks = false) (executed : state.semWait client sem point = some after) :
    Faithful after (history.reach after) := by
  have goesOn : ∀ next, Unblocked (some (.semWait sem next)) →
      Faithful (state.inCall (.semWait sem next))
        (history.reach (state.inCall (.semWait sem next))) :=
    fun next unblocked =>
      faithful.proceed noSchedulers rfl rfl rfl rfl rfl faithful.queues unblocked
  have unblocked := faithful.unblocked
  rw [called] at unblocked
  cases point with
  | start =>
      simp only [State.semWait] at executed
      split at executed <;> cases executed <;> exact goesOn _ trivial
  | test =>
      simp only [State.blocks, noSchedulers, called, decide_eq_false_iff_not] at passes
      simp only [State.semWait, if_neg passes] at executed
      cases executed
      exact goesOn _ trivial
  | positive =>
      simp only [State.semWait] at executed
      split at executed <;> cases executed <;> exact goesOn _ trivial
  | decrement =>
      rcases Option.map_eq_some_iff.mp executed with ⟨counted, added, rfl⟩
      exact faithful.addVal noSchedulers added trivial
  | finish code =>
      cases executed
      exact faithful.proceed noSchedulers rfl rfl rfl rfl rfl faithful.queues trivial
  | block | find _ | insert _ | schedule | woken => cases unblocked

theorem semPost (faithful : Faithful state history) (noSchedulers : state.cpu.schedulers = [])
    {sem : SemId} {point : SemPostPoint} (called : state.cpu.call = some (.semPost sem point))
    (executed : state.semPost client sem point = some after) :
    Faithful after (history.reach after) := by
  have goesOn : ∀ next, Unblocked (some (.semPost sem next)) →
      Faithful (state.inCall (.semPost sem next))
        (history.reach (state.inCall (.semPost sem next))) :=
    fun next unblocked =>
      faithful.proceed noSchedulers rfl rfl rfl rfl rfl faithful.queues unblocked
  have unblocked := faithful.unblocked
  rw [called] at unblocked
  cases point with
  | start | zero | positive =>
      simp only [State.semPost] at executed
      split at executed <;> cases executed <;> exact goesOn _ trivial
  | scan slot =>
      simp only [State.semPost, faithful.queues, if_true] at executed
      split at executed
      next =>
          cases executed
          exact goesOn _ trivial
      next outside =>
          cases executed
          exact goesOn _ (not_lt.mp outside)
  | found slot =>
      have outside : ¬slot < maxThreads := not_lt.mpr unblocked
      simp only [State.semPost, dif_neg outside] at executed
      cases executed
      exact goesOn _ trivial
  | increment =>
      rcases Option.map_eq_some_iff.mp executed with ⟨counted, added, rfl⟩
      exact faithful.addVal noSchedulers added trivial
  | finish code =>
      cases executed
      exact faithful.proceed noSchedulers rfl rfl rfl rfl rfl faithful.queues trivial
  | clear _ _ | grant _ | jump _ => cases unblocked

end Faithful

end EC440.Threads
