import EC440.Threads.Mutex

/-!
# Who may take the semaphore

`Undisturbed` says when a step leaves what was just read of a shared variable
as it is until it is acted on.  `Exclusive` is the invariant behind mutual
exclusion: it ties where the current thread is in the library to its status
and to what its saved context would do.
-/

namespace EC440.Threads

variable {User : Type} {client : Client User} {mutex : SemId} {critical : User → Prop}
  {state after : State User} {context : Context User} {tid : Tid}

/-! ## The condition -/

/-- `sem_wait` has found `val` positive and not decremented it yet, or `pthread_exit` has made
the thread that it jumps to the current one. -/
def Frame.exposed : Frame → Bool
  | .semWait _ .positive | .semWait _ .decrement => true
  | .exit _ .unlock | .exit _ .jump | .exit _ .mainJump => true
  | .create .. | .exit .. | .join .. | .semWait .. | .semPost .. => false

/-- A signal here lets another thread invalidate what the statement before has found: the choice
of `scheduler` for a `RUNNING` thread, a status, or what `Frame.exposed` says. -/
def State.exposed (state : State User) : Bool :=
  match state.cpu.schedulers, state.cpu.call with
  | { handler := _, point := .chosen _ } :: _, _ =>
      (state.tcb state.currTid).status = .running
  | { handler := _, point := .ready _ } :: _, _ => true
  | { handler := _, point := .save _ } :: _, _ => true
  | { handler := _, point := .jump _ } :: _, _ => true
  | [], some frame => frame.exposed
  | _, _ => false

/-- No signal arrives in an exposed state, and `pthread_exit` jumps only to waiting threads. -/
def Undisturbed (state : State User) : Action User → Prop
  | .alarm => state.exposed = false
  | .own user => JumpsToWaiting state (.own user)
  | .call call user => JumpsToWaiting state (.call call user)
  | .statement => JumpsToWaiting state .statement

instance (state : State User) (action : Action User) : Decidable (Undisturbed state action) :=
  match action with
  | .alarm => inferInstanceAs (Decidable (_ = _))
  | .own user => inferInstanceAs (Decidable (JumpsToWaiting state (.own user)))
  | .call call user => inferInstanceAs (Decidable (JumpsToWaiting state (.call call user)))
  | .statement => inferInstanceAs (Decidable (JumpsToWaiting state .statement))

/-! ## The invariant -/

/-- Nobody gets the semaphore by going on from the context of the current thread, unless it is
not free. -/
def Guarded (mutex : SemId) (critical : User → Prop) (state : State User) : Prop :=
  (state.sems mutex).val = 0 ∨
    ∀ context, (state.tcb state.currTid).reg = some context → ¬context.Holds critical

def CallFits (mutex : SemId) (critical : User → Prop) (state : State User) (status : Status) :
    Option Frame → Prop
  | none | some (.create ..) | some (.semPost ..) => status = .running
  | some (.exit _ point) =>
      match point with
      | .start => status = .running
      | .set => False
      | .joined _ | .mark _ => Guarded mutex critical state
      | .free _ | .count _ | .code _ | .back _ | .schedule | .toMain | .finish =>
          status ≠ .running ∧ Guarded mutex critical state
      | .unlock | .jump => state.cpu.schedulers = []
      | .mainJump => state.cpu.schedulers = [] ∧ state.currTid = 0
  | some (.join thread point) =>
      match point with
      | .start | .unlock (some _) | .finish _ => status = .running
      | .copy | .run _ => status ≠ .running → Guarded mutex critical state
      | .schedule => status ≠ .running ∧ Guarded mutex critical state
      | .unlock none =>
          status ≠ .running ∧ Guarded mutex critical state ∧ state.cpu.schedulers ≠ []
      | .jump _ =>
          status = .waiting ∧ Guarded mutex critical state ∧ thread = state.currTid
  | some (.semWait _ point) =>
      match point with
      | .start | .test => status = .running
      | .finish code => status = .running ∧ code = 0
      | .block => status = .running ∧ Guarded mutex critical state
      | .find _ | .insert _ | .schedule => status ≠ .running ∧ Guarded mutex critical state
      | .woken => status ≠ .running ∧ Guarded mutex critical state ∧ state.cpu.schedulers ≠ []
      | .positive | .decrement =>
          status = .running ∧ (state.sems mutex).val = 1 ∧ state.cpu.schedulers = []

/-- Where a thread may be in the library when its context is saved. -/
def Savable (schedulers : List SchedulerFrame) : Option Frame → Prop
  | none | some (.create ..) | some (.semPost ..) => True
  | some (.exit _ point) =>
      match point with
      | .start | .joined _ | .mark _ => True
      | .set => schedulers = []
      | .free _ | .count _ | .code _ | .back _ | .unlock | .jump | .schedule | .toMain
      | .mainJump | .finish => False
  | some (.join _ point) =>
      match point with
      | .start | .copy | .run _ | .unlock (some _) | .finish _ => True
      | .schedule | .unlock none | .jump _ => False
  | some (.semWait _ point) =>
      match point with
      | .start | .test | .block => True
      | .finish code => code = 0
      | .find _ | .insert _ | .schedule | .woken | .positive | .decrement => False

/-- A thread that is preempted here does not act on what it has found before. -/
def SchedulerPoint.interruptible : SchedulerPoint → Bool
  | .start | .search _ | .advance _ | .resumed => true
  | .chosen _ | .ready _ | .save _ | .switch _ | .run _ | .jump _ => false

def Interruptible (frames : List SchedulerFrame) : Prop :=
  ∀ frame ∈ frames, frame.point.interruptible = true

/-- The current thread is neither `RUNNING` nor `READY`. -/
def State.Stopped (state : State User) : Prop :=
  (state.tcb state.currTid).status ≠ .running ∧ (state.tcb state.currTid).status ≠ .ready

def State.NoneReady (state : State User) : Prop :=
  ∀ tid, (state.tcb tid).status ≠ .ready

/-- The search has come to `next`; if the current thread is stopped, it has found nothing. -/
def Scanned (state : State User) (next : Nat) : Prop :=
  ∃ steps, next % maxThreads = (state.currTid + 1 + steps) % maxThreads ∧
    (state.Stopped → ∀ tid : Tid,
      (∃ earlier < steps, tid.val = (state.currTid + 1 + earlier) % maxThreads) →
        (state.tcb tid).status ≠ .ready)

/-- What the topmost call of `scheduler` relies on. -/
def PointFits (state : State User) : SchedulerPoint → Prop
  | .start => True
  | .search next => Scanned state next
  | .advance next =>
      Scanned state next ∧ (state.Stopped → (state.tcb next).status ≠ .ready)
  | .chosen next =>
      (state.tcb next).status = .ready ∨
        next = state.currTid ∧ (state.Stopped → state.NoneReady)
  | .ready next =>
      (state.tcb state.currTid).status = .running ∧
        ((state.tcb next).status = .ready ∨ next = state.currTid)
  | .save next =>
      (state.tcb state.currTid).status = .ready ∧ (state.tcb next).status = .ready ∧
        state.cpu.abandoned = false
  | .resumed => (state.tcb state.currTid).status = .running
  | .switch next =>
      (state.tcb next).status = .ready ∨ next = state.currTid ∧ state.NoneReady
  | .run next =>
      next = state.currTid ∧ ((state.tcb next).status = .ready ∨ state.NoneReady)
  | .jump next => next = state.currTid ∧ (state.tcb next).status = .running

/-- The status that the current thread has on its own account: on the way to its `setjmp` it is
`READY` already. -/
def State.effective (state : State User) : Status :=
  if state.cpu.atSave then .running else (state.tcb state.currTid).status

/-- What is saved obeys the discipline and can go on when its thread is `RUNNING`. -/
structure Suspendable (mutex : SemId) (critical : User → Prop) (context : Context User) :
    Prop where
  obeys : context.Obeys mutex critical
  savable : Savable context.schedulers context.call
  interruptible : Interruptible context.schedulers

structure Exclusive (mutex : SemId) (critical : User → Prop) (state : State User) : Prop where
  started : state.firstCall = false
  initialized : (state.sems mutex).status = .initialized
  owned : Owned mutex critical state
  obeys : state.cpu.Obeys mutex critical
  saved : ∀ tid context, (state.tcb tid).reg = some context →
    Suspendable mutex critical context
  waiting : ∀ tid context, (state.tcb tid).status = .waiting →
    (state.tcb tid).reg = some context →
    context.schedulers = [] ∧ ∃ value, context.call = some (.exit value .set)
  fits : state.cpu.abandoned = false →
    CallFits mutex critical state state.effective state.cpu.call
  below : state.cpu.abandoned = false → state.effective = .running →
    Interruptible state.cpu.schedulers.tail
  left : state.cpu.abandoned = true → state.cpu.jumpTarget = none →
    (state.tcb state.currTid).status ≠ .running ∧
      ((state.tcb state.currTid).status = .ready ∨ Guarded mutex critical state)
  top : ∀ frame ∈ state.cpu.schedulers.head?, PointFits state frame.point

theorem CallFits.guarded {status : Status} {call : Option Frame}
    (fits : CallFits mutex critical state status call) (stopped : status ≠ .running)
    (inScheduler : state.cpu.schedulers ≠ []) : Guarded mutex critical state := by
  cases call with
  | none => exact absurd fits stopped
  | some frame =>
      cases frame with
      | create routine arg point | semPost sem point => exact absurd fits stopped
      | exit value point =>
          cases point with
          | start => exact absurd fits stopped
          | set => cases fits
          | joined _ | mark _ => exact fits
          | free _ | count _ | code _ | back _ | schedule | toMain | finish => exact fits.2
          | unlock | jump => exact absurd fits inScheduler
          | mainJump => exact absurd fits.1 inScheduler
      | join thread point =>
          cases point with
          | start | finish _ => exact absurd fits stopped
          | copy | run _ => exact fits stopped
          | schedule => exact fits.2
          | jump _ => exact fits.2.1
          | unlock value =>
              cases value with
              | none => exact fits.2.1
              | some value => exact absurd fits stopped
      | semWait sem point =>
          cases point with
          | start | test => exact absurd fits stopped
          | finish _ | block | positive | decrement => exact absurd fits.1 stopped
          | find _ | insert _ | schedule => exact fits.2
          | woken => exact fits.2.1

theorem CallFits.savable {call : Option Frame}
    (fits : CallFits mutex critical state .running call)
    (inScheduler : state.cpu.schedulers ≠ []) (schedulers : List SchedulerFrame) :
    Savable schedulers call := by
  cases call with
  | none => trivial
  | some frame =>
      cases frame with
      | create routine arg point | semPost sem point => trivial
      | exit value point =>
          cases point with
          | start | joined _ | mark _ => trivial
          | set => cases fits
          | free _ | count _ | code _ | back _ | schedule | toMain | finish =>
              exact absurd rfl fits.1
          | unlock | jump => exact absurd fits inScheduler
          | mainJump => exact absurd fits.1 inScheduler
      | join thread point =>
          cases point with
          | start | finish _ | copy | run _ => trivial
          | schedule => exact absurd rfl fits.1
          | jump _ => cases fits.1
          | unlock value =>
              cases value with
              | none => exact absurd rfl fits.1
              | some value => trivial
      | semWait sem point =>
          cases point with
          | start | test | block => trivial
          | finish _ => exact fits.2
          | positive | decrement => exact absurd fits.2.2 inScheduler
          | find _ | insert _ | schedule | woken => exact absurd rfl fits.1

theorem Savable.fits {value : Nat} (savable : Savable context.schedulers context.call)
    (guarded : ¬context.Holds critical → Guarded mutex critical state) :
    CallFits mutex critical state .running (context.resume value).call := by
  rcases context with ⟨owner, user, call, schedulers⟩
  have elsewhere : (∀ exitValue, call ≠ some (.exit exitValue .set)) →
      ((⟨owner, user, call, schedulers⟩ : Context User).resume value).call = call := by
    intro notSet
    rw [Context.resume_eq_self fun exitValue _ => notSet exitValue]
  cases call with
  | none =>
      rw [elsewhere (by simp)]
      rfl
  | some frame =>
      cases frame with
      | create routine arg point | semPost sem point =>
          rw [elsewhere (by simp)]
          rfl
      | exit exitValue point =>
          cases point with
          | start =>
              rw [elsewhere (by simp)]
              rfl
          | joined _ | mark _ =>
              rw [elsewhere (by simp)]
              exact guarded (fun holds => holds)
          | set =>
              cases savable
              exact guarded (fun holds => holds)
          | free _ | count _ | code _ | back _ | schedule | toMain | finish | unlock | jump
          | mainJump => cases savable
      | join thread point =>
          rw [elsewhere (by simp)]
          cases point with
          | start | finish _ => rfl
          | copy | run _ => exact fun stopped => absurd rfl stopped
          | schedule | jump _ => cases savable
          | unlock value =>
              cases value with
              | none => cases savable
              | some value => rfl
      | semWait sem point =>
          rw [elsewhere (by simp)]
          cases point with
          | start | test => rfl
          | finish _ => exact ⟨rfl, savable⟩
          | block => exact ⟨rfl, guarded (fun holds => holds)⟩
          | find _ | insert _ | schedule | woken | positive | decrement => cases savable

theorem CallFits.congr {status : Status} {call : Option Frame}
    (fits : CallFits mutex critical state status call)
    (guarded : Guarded mutex critical state → Guarded mutex critical after)
    (sameVal : (after.sems mutex).val = (state.sems mutex).val)
    (sameCurrent : after.currTid = state.currTid)
    (idle : state.cpu.schedulers = [] → after.cpu.schedulers = [])
    (busy : status ≠ .running → after.cpu.schedulers = [] → state.cpu.schedulers = []) :
    CallFits mutex critical after status call := by
  cases call with
  | none => exact fits
  | some frame =>
      cases frame with
      | create routine arg point | semPost sem point => exact fits
      | exit value point =>
          cases point with
          | start => exact fits
          | set => cases fits
          | joined _ | mark _ => exact guarded fits
          | free _ | count _ | code _ | back _ | schedule | toMain | finish =>
              exact ⟨fits.1, guarded fits.2⟩
          | unlock | jump => exact idle fits
          | mainJump => exact ⟨idle fits.1, sameCurrent.trans fits.2⟩
      | join thread point =>
          cases point with
          | start | finish _ => exact fits
          | copy | run _ => exact fun stopped => guarded (fits stopped)
          | schedule => exact ⟨fits.1, guarded fits.2⟩
          | jump _ => exact ⟨fits.1, guarded fits.2.1, fits.2.2.trans sameCurrent.symm⟩
          | unlock value =>
              cases value with
              | none => exact ⟨fits.1, guarded fits.2.1, fun isIdle => fits.2.2 (busy fits.1 isIdle)⟩
              | some value => exact fits
      | semWait sem point =>
          cases point with
          | start | test => exact fits
          | finish _ => exact fits
          | block => exact ⟨fits.1, guarded fits.2⟩
          | positive | decrement => exact ⟨fits.1, sameVal.trans fits.2.1, idle fits.2.2⟩
          | find _ | insert _ | schedule => exact ⟨fits.1, guarded fits.2⟩
          | woken => exact ⟨fits.1, guarded fits.2.1, fun isIdle => fits.2.2 (busy fits.1 isIdle)⟩

end EC440.Threads
