import EC440.Threads.Exclusive

/-!
# The invariant of mutual exclusion in scheduler

Every statement of `scheduler` keeps `Exclusive`, and so does a signal that
finds nothing exposed.
-/

namespace EC440.Threads

variable {User : Type} {client : Client User} {mutex : SemId} {critical : User → Prop}
  {state after : State User} {context : Context User} {tid : Tid}

theorem Owned.move (owned : Owned mutex critical state) (sameThreads : after.tcb = state.tcb)
    (sameSems : after.sems = state.sems)
    (sameHolds : after.cpu.Holds critical ↔ state.cpu.Holds critical)
    (live : after.cpu.abandoned = false → state.cpu.abandoned = false)
    (notSaving : state.cpu.atSave = false) (notJumping : after.cpu.jumpTarget = none) :
    Owned mutex critical after := by
  apply owned.of_subset (by rw [sameSems])
  intro place context atPlace holds
  cases atPlace with
  | processor isLive => exact ⟨_, .processor (live isLive), sameHolds.mp holds⟩
  | preempted ready isSaved reg =>
      rw [sameThreads] at ready reg
      exact ⟨context, .of_ready notSaving ready reg, holds⟩
  | chosen next reg =>
      rw [notJumping] at next
      cases next

namespace Exclusive

variable {handler : Bool} {rest : List SchedulerFrame} {next : Tid}

theorem topFits (exclusive : Exclusive mutex critical state) {point : SchedulerPoint}
    (frames : state.cpu.schedulers = { handler, point } :: rest) : PointFits state point := by
  have top := exclusive.top
  rw [frames] at top
  exact top _ rfl

theorem live (exclusive : Exclusive mutex critical state) (noTarget : state.cpu.jumpTarget = none)
    (running : (state.tcb state.currTid).status = .running) : state.cpu.abandoned = false := by
  by_contra left
  exact (exclusive.left (Bool.not_eq_false _ ▸ left) noTarget).1 running

theorem waiting_setStatus (exclusive : Exclusive mutex critical state) {status : Status}
    (notWaiting : status ≠ .waiting) (slot : Tid) :
    ∀ tid context, ((state.setStatus slot status).tcb tid).status = .waiting →
      ((state.setStatus slot status).tcb tid).reg = some context →
      context.schedulers = [] ∧ ∃ value, context.call = some (.exit value .set) := by
  intro tid context waiting reg
  rw [State.setStatus_reg] at reg
  rw [State.setStatus_status] at waiting
  split at waiting
  next => exact absurd waiting notWaiting
  next => exact exclusive.waiting tid context waiting reg

theorem move (exclusive : Exclusive mutex critical state) (masked : Bool)
    (frames : List SchedulerFrame)
    (moved : after = { state with masked, cpu := { state.cpu with schedulers := frames } })
    (owned : Owned mutex critical after)
    (fits : after.cpu.abandoned = false →
      CallFits mutex critical after after.effective after.cpu.call)
    (below : after.cpu.abandoned = false → after.effective = .running →
      Interruptible after.cpu.schedulers.tail)
    (left : after.cpu.abandoned = true → after.cpu.jumpTarget = none →
      (after.tcb after.currTid).status ≠ .running ∧
        ((after.tcb after.currTid).status = .ready ∨ Guarded mutex critical after))
    (top : ∀ frame ∈ after.cpu.schedulers.head?, PointFits after frame.point) :
    Exclusive mutex critical after := by
  subst moved
  exact {
    started := exclusive.started
    initialized := exclusive.initialized
    owned := owned
    obeys := exclusive.obeys
    saved := exclusive.saved
    waiting := exclusive.waiting
    fits := fits
    below := below
    left := left
    top := top }

/-- `scheduler` looks for the next thread. -/
def Looks : SchedulerPoint → Prop
  | .start | .search _ | .advance _ | .chosen _ => True
  | .ready _ | .save _ | .resumed | .switch _ | .run _ | .jump _ => False

theorem Looks.not_abandoned {point : SchedulerPoint} (looks : Looks point) :
    point.abandoned = false := by
  cases point <;> first | rfl | cases looks

theorem Looks.atSave {point : SchedulerPoint} (looks : Looks point) (cpu : Context User)
    (frames : cpu.schedulers = { handler, point } :: rest) :
    cpu.atSave = false ∧ cpu.jumpTarget = none := by
  rw [Context.atSave, Context.jumpTarget, frames]
  cases point <;> first | exact ⟨rfl, rfl⟩ | cases looks

theorem look (exclusive : Exclusive mutex critical state) {point target : SchedulerPoint}
    (frames : state.cpu.schedulers = { handler, point } :: rest) (looks : Looks point)
    (looksNext : Looks target) (fitsNext : PointFits state target) :
    Exclusive mutex critical (state.inScheduler handler rest target) := by
  have before := looks.atSave state.cpu frames
  have next := looksNext.atSave (state.inScheduler handler rest target).cpu rfl
  have sameAbandoned : (state.inScheduler handler rest target).cpu.abandoned =
      state.cpu.abandoned := by
    simp [State.inScheduler, Context.abandoned, frames, looks.not_abandoned,
      looksNext.not_abandoned]
  have sameEffective : (state.inScheduler handler rest target).effective = state.effective := by
    simp only [State.effective, next.1, before.1]
    rfl
  refine exclusive.move state.masked ({ handler, point := target } :: rest) rfl
    (exclusive.owned.move rfl rfl Iff.rfl ?_ before.1 next.2) ?_ ?_ ?_ ?_
  · rw [sameAbandoned]
    exact fun live => live
  · intro live
    rw [sameAbandoned] at live
    rw [sameEffective]
    refine (exclusive.fits live).congr (fun guarded => guarded) rfl rfl ?_ ?_ <;>
      simp [State.inScheduler, frames]
  · intro live running
    rw [sameAbandoned] at live
    rw [sameEffective] at running
    have below := exclusive.below live running
    rw [frames] at below
    exact below
  · intro left _
    rw [sameAbandoned] at left
    exact exclusive.left left before.2
  · intro frame membership
    cases membership
    cases target with
    | start => trivial
    | search next => exact fitsNext
    | advance next => exact fitsNext
    | chosen next => exact fitsNext
    | ready _ | save _ | resumed | switch _ | run _ | jump _ => cases looksNext

theorem chosen (exclusive : Exclusive mutex critical state)
    (frames : state.cpu.schedulers = { handler, point := .chosen next } :: rest)
    (executed : state.scheduler handler rest (.chosen next) = some after) :
    Exclusive mutex critical after := by
  have atSave : state.cpu.atSave = false := by simp [Context.atSave, frames]
  have noTarget : state.cpu.jumpTarget = none := by simp [Context.jumpTarget, frames]
  have effective : state.effective = (state.tcb state.currTid).status := by
    simp [State.effective, atSave]
  have choice : PointFits state (.chosen next) := exclusive.topFits frames
  simp only [State.scheduler] at executed
  split at executed
  next running =>
      cases executed
      have live := exclusive.live noTarget running
      refine exclusive.move state.masked ({ handler, point := .ready next } :: rest) rfl
        (exclusive.owned.move rfl rfl Iff.rfl (fun _ => live) atSave rfl) ?_ ?_ ?_ ?_
      · intro _
        have fits := exclusive.fits live
        rw [effective] at fits
        refine fits.congr (fun guarded => guarded) rfl rfl ?_ ?_ <;>
          simp [State.inScheduler, frames]
      · intro _ _
        have below := exclusive.below live (effective.trans running)
        rw [frames] at below
        exact below
      · intro left
        have notLeft : (state.inScheduler handler rest (.ready next)).cpu.abandoned = false := by
          rw [Context.abandoned, frames] at live
          exact live
        rw [notLeft] at left
        cases left
      · intro frame membership
        cases membership
        exact ⟨running, choice.imp_right fun same => same.1⟩
  next stopped =>
      cases executed
      refine exclusive.move state.masked ({ handler, point := .switch next } :: rest) rfl
        (exclusive.owned.move rfl rfl Iff.rfl (fun live => by cases live) atSave rfl)
        (fun live => by cases live) (fun live => by cases live) ?_ ?_
      · intro _ _
        refine ⟨stopped, ?_⟩
        by_cases ready : (state.tcb state.currTid).status = .ready
        · exact .inl ready
        · right
          cases live : state.cpu.abandoned with
          | false =>
              have fits := exclusive.fits live
              rw [effective] at fits
              exact fits.guarded stopped (by simp [frames])
          | true => exact (exclusive.left live noTarget).2.resolve_left ready
      · intro frame membership
        cases membership
        rcases choice with ready | ⟨rfl, noneReady⟩
        · exact .inl ready
        · by_cases ready : (state.tcb state.currTid).status = .ready
          · exact .inl ready
          · exact .inr ⟨rfl, noneReady ⟨stopped, ready⟩⟩

theorem ready (exclusive : Exclusive mutex critical state)
    (frames : state.cpu.schedulers = { handler, point := .ready next } :: rest)
    (executed : state.scheduler handler rest (.ready next) = some after) :
    Exclusive mutex critical after := by
  have atSave : state.cpu.atSave = false := by simp [Context.atSave, frames]
  have noTarget : state.cpu.jumpTarget = none := by simp [Context.jumpTarget, frames]
  have choice : PointFits state (.ready next) := exclusive.topFits frames
  rcases choice with ⟨running, target⟩
  have live := exclusive.live noTarget running
  have effective : state.effective = .running := by
    simp [State.effective, atSave, running]
  have sameAbandoned : after.cpu.abandoned = false := by
    cases executed
    rw [Context.abandoned, frames] at live
    exact live
  have guarded : Guarded mutex critical state → Guarded mutex critical after := by
    cases executed
    intro guarded
    refine guarded.imp_right fun safe context reg => ?_
    rw [State.inScheduler, State.setStatus_reg] at reg
    exact safe context reg
  cases executed
  exact {
    started := exclusive.started
    initialized := exclusive.initialized
    owned := by
      refine exclusive.owned.of_subset ?_ fun place context atPlace holds => ?_
      · rfl
      cases atPlace with
      | processor _ => exact ⟨_, .processor live, holds⟩
      | @preempted slot _ ready isSaved reg =>
          have other : slot ≠ state.currTid := isSaved rfl
          simp only [State.inScheduler, State.setStatus_status, if_neg other] at ready
          rw [State.inScheduler, State.setStatus_reg] at reg
          exact ⟨context, .of_ready atSave ready reg, holds⟩
      | chosen next reg => cases next
    obeys := exclusive.obeys
    saved := by
      intro tid context reg
      rw [State.inScheduler, State.setStatus_reg] at reg
      exact exclusive.saved tid context reg
    waiting := exclusive.waiting_setStatus (by decide) _
    fits := by
      intro _
      have fits := exclusive.fits live
      rw [effective] at fits
      refine fits.congr guarded rfl rfl ?_ ?_ <;> simp [State.inScheduler, frames]
    below := by
      intro _ _
      have below := exclusive.below live effective
      rw [frames] at below
      exact below
    left := by
      intro left
      rw [sameAbandoned] at left
      cases left
    top := by
      intro frame membership
      cases membership
      refine ⟨?_, ?_, sameAbandoned⟩
      · exact State.setStatus_status .. |>.trans (if_pos rfl)
      · rw [State.inScheduler, State.setStatus_status]
        split
        next => rfl
        next other => exact target.resolve_right other }

theorem owned_save (owned : Owned mutex critical state) (live : state.cpu.abandoned = false) :
    Owned mutex critical ((state.setReg state.currTid
      { state.cpu with schedulers := { handler, point := .resumed } :: rest }).inScheduler handler
        rest (.switch next)) := by
  refine owned.of_places rfl
    (fun place => if place = some state.currTid then none else place) ?_ ?_
  · intro place context other second atPlace atOther same
    cases atPlace with
    | processor live => cases live
    | chosen next reg => cases next
    | preempted ready isSaved reg =>
        cases atOther with
        | processor live => cases live
        | chosen next reg => cases next
        | preempted otherReady otherSaved otherReg =>
            split at same <;> split at same
            · simp_all
            · cases same
            · cases same
            · exact same
  · intro place context atPlace holds
    cases atPlace with
    | processor live => cases live
    | chosen next reg => cases next
    | @preempted slot _ ready isSaved reg =>
        simp only [State.inScheduler, State.setReg_status] at ready
        simp only [State.inScheduler, State.setReg_reg] at reg
        by_cases current : slot = state.currTid
        · rw [if_pos current] at reg
          cases reg
          rw [if_pos (congrArg some current)]
          exact ⟨_, .processor live, holds⟩
        · rw [if_neg current] at reg
          have other : some slot ≠ some state.currTid :=
            fun same => current (Option.some.inj same)
          rw [if_neg other]
          exact ⟨context, .preempted ready (fun _ => current) reg, holds⟩

theorem save (exclusive : Exclusive mutex critical state)
    (frames : state.cpu.schedulers = { handler, point := .save next } :: rest)
    (executed : state.scheduler handler rest (.save next) = some after) :
    Exclusive mutex critical after := by
  have atSave : state.cpu.atSave = true := by simp [Context.atSave, frames]
  have effective : state.effective = .running := by simp [State.effective, atSave]
  have choice : PointFits state (.save next) := exclusive.topFits frames
  rcases choice with ⟨ready, target, live⟩
  have fits := exclusive.fits live
  rw [effective] at fits
  have below := exclusive.below live effective
  rw [frames] at below
  have suspendable : Suspendable mutex critical
      { state.cpu with schedulers := { handler, point := .resumed } :: rest } := by
    refine ⟨exclusive.obeys, fits.savable (by simp [frames]) _, ?_⟩
    intro frame membership
    cases membership with
    | head => rfl
    | tail _ deeper => exact below frame deeper
  cases executed
  exact {
    started := exclusive.started
    initialized := exclusive.initialized
    owned := owned_save exclusive.owned live
    obeys := exclusive.obeys
    saved := by
      intro tid context reg
      rw [State.inScheduler, State.setReg_reg] at reg
      split at reg
      next =>
          cases reg
          exact suspendable
      next => exact exclusive.saved tid context reg
    waiting := by
      intro tid context waiting reg
      rw [State.inScheduler, State.setReg_status] at waiting
      rw [State.inScheduler, State.setReg_reg] at reg
      split at reg
      next current =>
          rw [current, ready] at waiting
          cases waiting
      next => exact exclusive.waiting tid context waiting reg
    fits := fun live => by cases live
    below := fun live => by cases live
    left := by
      intro _ _
      change ((state.setReg state.currTid _).tcb state.currTid).status ≠ _ ∧
        (((state.setReg state.currTid _).tcb state.currTid).status = _ ∨ _)
      rw [State.setReg_status, ready]
      exact ⟨by decide, .inl rfl⟩
    top := by
      intro frame membership
      cases membership
      left
      rw [State.inScheduler, State.setReg_status]
      exact target }

/-- A search that another thread interrupted relies on nothing. -/
theorem scanned_of_running {next : Nat}
    (running : (state.tcb state.currTid).status = .running) : Scanned state next := by
  refine ⟨next + 127 * (state.currTid + 1), ?_, fun stopped => absurd running stopped.1⟩
  simp only [maxThreads]
  omega

theorem pointFits_of_interruptible {frames : List SchedulerFrame}
    (interruptible : Interruptible frames)
    (running : (state.tcb state.currTid).status = .running) :
    ∀ frame ∈ frames.head?, PointFits state frame.point := by
  intro frame membership
  cases frames with
  | nil => cases membership
  | cons topmost below =>
      have stays := interruptible topmost (.head _)
      cases membership
      rcases frame with ⟨handler, point⟩
      cases point with
      | start => trivial
      | search next => exact scanned_of_running running
      | advance next =>
          exact ⟨scanned_of_running running, fun stopped => absurd running stopped.1⟩
      | resumed => exact running
      | chosen _ | ready _ | save _ | switch _ | run _ | jump _ => cases stays

theorem not_abandoned_of_interruptible {frames : List SchedulerFrame}
    (interruptible : Interruptible frames) :
    (frames.any fun frame => frame.point.abandoned) = false := by
  rw [List.any_eq_false]
  intro frame membership abandoned
  have stays := interruptible frame membership
  rcases frame with ⟨handler, point⟩
  cases point with
  | start | search _ | advance _ | resumed | chosen _ | ready _ | save _ => cases abandoned
  | switch _ | run _ | jump _ => cases stays

theorem not_atSave_of_interruptible {cpu : Context User}
    (interruptible : Interruptible cpu.schedulers) :
    cpu.atSave = false ∧ cpu.jumpTarget = none := by
  rcases cpu with ⟨owner, user, call, schedulers⟩
  cases schedulers with
  | nil => exact ⟨rfl, rfl⟩
  | cons topmost below =>
      have stays := interruptible topmost (.head _)
      rcases topmost with ⟨handler, point⟩
      cases point <;> first | exact ⟨rfl, rfl⟩ | cases stays

theorem resumed (exclusive : Exclusive mutex critical state)
    (frames : state.cpu.schedulers = { handler, point := .resumed } :: rest)
    (executed : state.scheduler handler rest .resumed = some after) :
    Exclusive mutex critical after := by
  have atSave : state.cpu.atSave = false := by simp [Context.atSave, frames]
  have noTarget : state.cpu.jumpTarget = none := by simp [Context.jumpTarget, frames]
  have running : PointFits state .resumed := exclusive.topFits frames
  have live := exclusive.live noTarget running
  have effective : state.effective = .running := by
    simp only [State.effective, atSave]
    exact running
  have interruptible : Interruptible rest := by
    have below := exclusive.below live effective
    rw [frames] at below
    exact below
  have fits := exclusive.fits live
  rw [effective] at fits
  cases executed
  have next : ({ state.cpu with schedulers := rest } : Context User).atSave = false ∧
      ({ state.cpu with schedulers := rest } : Context User).jumpTarget = none :=
    not_atSave_of_interruptible interruptible
  refine exclusive.move (if handler then false else state.masked) rest rfl
    (exclusive.owned.move rfl rfl Iff.rfl (fun _ => live) atSave next.2) ?_ ?_ ?_ ?_
  · intro _
    simp only [State.effective, next.1]
    have same : (if false = true then Status.running else (state.tcb state.currTid).status) =
        .running := running
    rw [same]
    refine fits.congr (fun guarded => guarded) rfl rfl ?_ fun stopped => absurd rfl stopped
    simp [frames]
  · exact fun _ _ frame membership => interruptible frame (List.mem_of_mem_tail membership)
  · intro left
    rw [Context.abandoned, not_abandoned_of_interruptible interruptible] at left
    cases left
  · exact pointFits_of_interruptible interruptible running

theorem switch (exclusive : Exclusive mutex critical state)
    (frames : state.cpu.schedulers = { handler, point := .switch next } :: rest)
    (executed : state.scheduler handler rest (.switch next) = some after) :
    Exclusive mutex critical after := by
  have atSave : state.cpu.atSave = false := by simp [Context.atSave, frames]
  have noTarget : state.cpu.jumpTarget = none := by simp [Context.jumpTarget, frames]
  have abandoned : state.cpu.abandoned = true := by
    simp [Context.abandoned, frames, SchedulerPoint.abandoned]
  have choice : PointFits state (.switch next) := exclusive.topFits frames
  have left := exclusive.left abandoned noTarget
  have owned : Owned mutex critical
      ({ state with currTid := next }.inScheduler handler rest (.run next)) :=
    exclusive.owned.move rfl rfl Iff.rfl (fun live => by cases live) atSave rfl
  cases executed
  exact {
    started := exclusive.started
    initialized := exclusive.initialized
    owned := owned
    obeys := exclusive.obeys
    saved := exclusive.saved
    waiting := exclusive.waiting
    fits := fun live => by cases live
    below := fun live => by cases live
    left := by
      intro _ _
      rcases choice with ready | ⟨rfl, _⟩
      · change (state.tcb next).status ≠ _ ∧ ((state.tcb next).status = _ ∨ _)
        rw [ready]
        exact ⟨by decide, .inl rfl⟩
      · exact left
    top := by
      intro frame membership
      cases membership
      exact ⟨rfl, choice.imp_right fun same => same.2⟩ }

theorem run (exclusive : Exclusive mutex critical state)
    (frames : state.cpu.schedulers = { handler, point := .run next } :: rest)
    (executed : state.scheduler handler rest (.run next) = some after) :
    Exclusive mutex critical after := by
  have atSave : state.cpu.atSave = false := by simp [Context.atSave, frames]
  have noTarget : state.cpu.jumpTarget = none := by simp [Context.jumpTarget, frames]
  have abandoned : state.cpu.abandoned = true := by
    simp [Context.abandoned, frames, SchedulerPoint.abandoned]
  have choice : PointFits state (.run next) := exclusive.topFits frames
  rcases choice with ⟨rfl, choice⟩
  have left := exclusive.left abandoned noTarget
  have places : ∀ place context,
      Place ((state.setStatus state.currTid .running).inScheduler handler rest
        (.jump state.currTid)) place context →
      (∃ slot, place = some slot ∧ slot ≠ state.currTid ∧ (state.tcb slot).status = .ready ∧
        (state.tcb slot).reg = some context) ∨
      place = some state.currTid ∧ (state.tcb state.currTid).reg = some context := by
    intro place context atPlace
    cases atPlace with
    | processor live => cases live
    | @preempted slot _ ready isSaved reg =>
        rw [State.inScheduler, State.setStatus_status] at ready
        rw [State.inScheduler, State.setStatus_reg] at reg
        split at ready
        next => cases ready
        next other => exact .inl ⟨slot, rfl, other, ready, reg⟩
    | chosen target reg =>
        cases target
        rw [State.inScheduler, State.setStatus_reg] at reg
        exact .inr ⟨rfl, reg⟩
  cases executed
  exact {
    started := exclusive.started
    initialized := exclusive.initialized
    owned := by
      rcases choice with ready | noneReady
      · refine exclusive.owned.of_subset ?_ fun place context atPlace holds => ?_
        · rfl
        · rcases places place context atPlace with ⟨slot, rfl, _, slotReady, reg⟩ | ⟨rfl, reg⟩
          · exact ⟨context, .of_ready atSave slotReady reg, holds⟩
          · exact ⟨context, .of_ready atSave ready reg, holds⟩
      · -- nobody else can go on, so the semaphore may come back with an old context
        have only : ∀ place context,
            Place ((state.setStatus state.currTid .running).inScheduler handler rest
              (.jump state.currTid)) place context →
            place = some state.currTid ∧ (state.tcb state.currTid).reg = some context := by
          intro place context atPlace
          rcases places place context atPlace with ⟨slot, _, _, slotReady, _⟩ | current
          · exact absurd slotReady (noneReady slot)
          · exact current
        refine ⟨exclusive.owned.range, fun free place context atPlace holds => ?_,
          fun place context other second atPlace atOther _ _ => ?_⟩
        · have reg := (only place context atPlace).2
          rcases left.2.resolve_left (noneReady _) with taken | safe
          · have free : (state.sems mutex).val = 1 := free
            rw [taken] at free
            cases free
          · exact safe context reg holds
        · rw [(only place context atPlace).1, (only other second atOther).1]
    obeys := exclusive.obeys
    saved := by
      intro tid context reg
      rw [State.inScheduler, State.setStatus_reg] at reg
      exact exclusive.saved tid context reg
    waiting := exclusive.waiting_setStatus (by decide) _
    fits := fun live => by cases live
    below := fun live => by cases live
    left := fun _ target => by cases target
    top := by
      intro frame membership
      cases membership
      exact ⟨rfl, State.setStatus_status .. |>.trans (if_pos rfl)⟩ }

theorem resume (exclusive : Exclusive mutex critical state) (value : Nat)
    (suspendable : Suspendable mutex critical context)
    (owned : Owned mutex critical { state with cpu := context.resume value })
    (fits : CallFits mutex critical { state with cpu := context.resume value }
      (state.tcb state.currTid).status (context.resume value).call)
    (running : context.schedulers = [] ∨ (state.tcb state.currTid).status = .running) :
    Exclusive mutex critical { state with cpu := context.resume value } := by
  have interruptible : Interruptible (context.resume value).schedulers := by
    rw [Context.resume_schedulers]
    exact suspendable.interruptible
  have atSave := (not_atSave_of_interruptible interruptible).1
  exact {
    started := exclusive.started
    initialized := exclusive.initialized
    owned := owned
    obeys := suspendable.obeys.resume value
    saved := exclusive.saved
    waiting := exclusive.waiting
    fits := by
      intro _
      simp only [State.effective, atSave]
      exact fits
    below := fun _ _ frame membership => interruptible frame (List.mem_of_mem_tail membership)
    left := by
      intro left
      rw [Context.abandoned, not_abandoned_of_interruptible interruptible] at left
      cases left
    top := by
      rcases running with noSchedulers | running
      · intro frame membership
        rw [Context.resume_schedulers, noSchedulers] at membership
        cases membership
      · exact pointFits_of_interruptible interruptible running }

theorem jump (exclusive : Exclusive mutex critical state)
    (frames : state.cpu.schedulers = { handler, point := .jump next } :: rest)
    (executed : state.scheduler handler rest (.jump next) = some after) :
    Exclusive mutex critical after := by
  have atSave : state.cpu.atSave = false := by simp [Context.atSave, frames]
  have target : state.cpu.jumpTarget = some next := by simp [Context.jumpTarget, frames]
  have choice : PointFits state (.jump next) := exclusive.topFits frames
  rcases choice with ⟨rfl, running⟩
  rcases state.longjmp_eq_some_iff.mp executed with ⟨context, reg, rfl⟩
  have suspendable := exclusive.saved _ context reg
  have interruptible : Interruptible (context.resume 1).schedulers := by
    rw [Context.resume_schedulers]
    exact suspendable.interruptible
  have noTarget := (not_atSave_of_interruptible interruptible).2
  have slots : ∀ slot other, Place { state with cpu := context.resume 1 } (some slot) other →
      slot ≠ state.currTid ∧ Place state (some slot) other := by
    intro slot other atPlace
    cases atPlace with
    | preempted ready _ otherReg =>
        refine ⟨?_, .of_ready atSave ready otherReg⟩
        rintro rfl
        rw [running] at ready
        cases ready
    | chosen next _ =>
        rw [noTarget] at next
        cases next
  have owned : Owned mutex critical { state with cpu := context.resume 1 } := by
    refine exclusive.owned.of_places ?_ (fun place => some (place.getD state.currTid)) ?_ ?_
    · rfl
    · intro place other second third atPlace atThird same
      cases place with
      | none =>
          cases second with
          | none => rfl
          | some slot => exact absurd (Option.some.inj same).symm (slots slot _ atThird).1
      | some slot =>
          cases second with
          | none => exact absurd (Option.some.inj same) (slots slot _ atPlace).1
          | some otherSlot => exact same
    · intro place other atPlace holds
      cases place with
      | none =>
          cases atPlace with
          | processor _ =>
              exact ⟨context, .chosen target reg, (context.holds_resume 1).mp holds⟩
      | some slot => exact ⟨other, (slots slot other atPlace).2, holds⟩
  refine exclusive.resume 1 suspendable owned ?_ (.inr running)
  rw [running]
  refine suspendable.savable.fits fun notHolds => .inr fun other otherReg => ?_
  have otherReg : (state.tcb state.currTid).reg = some other := otherReg
  rw [reg] at otherReg
  cases otherReg
  exact notHolds

/-- A search that has come to the stopped current thread has found nobody. -/
theorem noneReady_of_scanned (scanned : Scanned state state.currTid) (stopped : state.Stopped) :
    state.NoneReady := by
  rcases scanned with ⟨steps, arrived, passed⟩
  intro tid
  by_cases current : tid = state.currTid
  · rw [current]
    exact stopped.2
  · apply passed stopped
    have different : tid.val ≠ state.currTid.val := fun same => current (Fin.ext same)
    have tidBound := tid.isLt
    have currentBound := state.currTid.isLt
    simp only [maxThreads] at *
    refine ⟨(tid.val + 128 - state.currTid.val - 1) % 128, ?_, ?_⟩ <;> omega

theorem scheduler (exclusive : Exclusive mutex critical state) {point : SchedulerPoint}
    (frames : state.cpu.schedulers = { handler, point } :: rest)
    (executed : state.scheduler handler rest point = some after) :
    Exclusive mutex critical after := by
  have fitsTop : PointFits state point := exclusive.topFits frames
  cases point with
  | start =>
      cases executed
      refine exclusive.look frames trivial trivial ⟨0, rfl, ?_⟩
      rintro _ _ ⟨_, none, _⟩
      cases none
  | search next =>
      simp only [State.scheduler] at executed
      split at executed
      next inRange =>
          split at executed
          next goesOn =>
              cases executed
              exact exclusive.look frames trivial trivial ⟨fitsTop, fun _ => goesOn.1⟩
          next found =>
              cases executed
              refine exclusive.look frames trivial trivial ?_
              by_cases ready : (state.tcb ⟨next, inRange⟩).status = .ready
              · exact .inl ready
              · have current : ⟨next, inRange⟩ = state.currTid := by
                  by_contra other
                  exact found ⟨ready, other⟩
                refine .inr ⟨current, noneReady_of_scanned ?_⟩
                have sameIndex : next = state.currTid.val := congrArg Fin.val current
                rw [sameIndex] at fitsTop
                exact fitsTop
      next => cases executed
  | advance next =>
      cases executed
      rcases fitsTop with ⟨⟨steps, arrived, passed⟩, notReady⟩
      refine exclusive.look frames trivial trivial ⟨steps + 1, ?_, ?_⟩
      · simp only [maxThreads] at *
        omega
      · rintro stopped tid ⟨earlier, before, index⟩
        by_cases last : earlier = steps
        · subst last
          have same : tid = next := by
            apply Fin.ext
            have bound := next.isLt
            simp only [maxThreads] at *
            omega
          rw [same]
          exact notReady stopped
        · exact passed stopped tid ⟨earlier, by omega, index⟩
  | chosen next => exact exclusive.chosen frames executed
  | ready next => exact exclusive.ready frames executed
  | save next => exact exclusive.save frames executed
  | resumed => exact exclusive.resumed frames executed
  | switch next => exact exclusive.switch frames executed
  | run next => exact exclusive.run frames executed
  | jump next => exact exclusive.jump frames executed

theorem fits_interrupt {status : Status} {call : Option Frame}
    (fits : CallFits mutex critical state status call) (idle : state.cpu.schedulers = [])
    (calm : ∀ frame ∈ call, frame.exposed = false) :
    CallFits mutex critical state.interrupt status call := by
  cases call with
  | none => exact fits
  | some frame =>
      have calmFrame := calm frame rfl
      cases frame with
      | create routine arg point | semPost sem point => exact fits
      | exit value point =>
          cases point with
          | unlock | jump | mainJump => cases calmFrame
          | _ => exact fits
      | join thread point =>
          cases point with
          | unlock value =>
              cases value with
              | none => exact absurd idle fits.2.2
              | some value => exact fits
          | _ => exact fits
      | semWait sem point =>
          cases point with
          | positive | decrement => cases calmFrame
          | woken => exact absurd idle fits.2.2
          | _ => exact fits

theorem interrupt (exclusive : Exclusive mutex critical state)
    (sheltered : state.exposed = false) : Exclusive mutex critical state.interrupt := by
  have calm : state.cpu.atSave = false ∧ state.cpu.jumpTarget = none := by
    rw [Context.atSave, Context.jumpTarget]
    cases frames : state.cpu.schedulers with
    | nil => exact ⟨rfl, rfl⟩
    | cons topmost rest =>
        rcases topmost with ⟨handler, point⟩
        cases point <;> first
          | exact ⟨rfl, rfl⟩
          | (rw [State.exposed, frames] at sheltered; cases sheltered)
  have effective : state.effective = (state.tcb state.currTid).status := by
    simp [State.effective, calm.1]
  have sameEffective : state.interrupt.effective = state.effective := by
    rw [effective]
    rfl
  have sameAbandoned : state.interrupt.cpu.abandoned = state.cpu.abandoned := by
    simp [State.interrupt, State.inScheduler, Context.abandoned, SchedulerPoint.abandoned]
  refine exclusive.move state.masked ({ handler := true, point := .start } :: state.cpu.schedulers)
    rfl (exclusive.owned.move rfl rfl Iff.rfl ?_ calm.1 rfl) ?_ ?_ ?_ ?_
  · rw [sameAbandoned]
    exact fun live => live
  · intro live
    rw [sameAbandoned] at live
    rw [sameEffective]
    have fits := exclusive.fits live
    cases frames : state.cpu.schedulers with
    | cons topmost rest =>
        refine fits.congr (fun guarded => guarded) rfl rfl ?_ ?_ <;>
          simp [State.interrupt, State.inScheduler, frames]
    | nil =>
        refine fits_interrupt fits frames fun frame called => ?_
        have inCall : state.cpu.call = some frame := called
        rw [State.exposed, frames, inCall] at sheltered
        exact sheltered
  · intro live running frame membership
    rw [sameAbandoned] at live
    rw [sameEffective] at running
    have below := exclusive.below live running
    rw [effective] at running
    change frame ∈ state.cpu.schedulers at membership
    cases frames : state.cpu.schedulers with
    | nil =>
        rw [frames] at membership
        cases membership
    | cons topmost rest =>
        rw [frames] at membership below
        cases membership with
        | tail _ deeper => exact below frame deeper
        | head =>
            rcases frame with ⟨handler, point⟩
            cases point with
            | start | search _ | advance _ | resumed => rfl
            | ready _ | save _ | jump _ =>
                rw [State.exposed, frames] at sheltered
                cases sheltered
            | chosen _ =>
                simp only [State.exposed, frames, running, decide_true] at sheltered
                cases sheltered
            | switch _ | run _ =>
                rw [Context.abandoned, frames] at live
                cases live
  · intro left _
    rw [sameAbandoned] at left
    exact exclusive.left left calm.2
  · intro frame membership
    cases membership
    trivial

end Exclusive

end EC440.Threads
