import EC440.Threads.Creation
import EC440.Threads.Faithful

/-!
# Numbers of threads

Whatever the library stores in `curr_TID` is the number of a thread that was
created: of a thread that `scheduler` found `READY`, or of a joiner.  So only
`pthread_create` uses up an entry that is `FRESH`, and no statement makes an
entry `FRESH` again.
-/

namespace EC440.Threads

variable {User : Type} {client : Client User} {state after : State User}

/-! ## Numbers of threads that were created -/

/-- The number that a call will store in `curr_TID`, or has read from it to pass it on. -/
def Frame.holds : Frame → Option Tid
  | .exit _ point =>
      match point with
      | .joined joined | .mark joined | .free joined | .count joined | .code joined
      | .back joined => State.joinerOf joined
      | .start | .set | .unlock | .jump | .schedule | .toMain | .mainJump | .finish => none
  | .join _ point =>
      match point with
      | .jump waitingThread => some waitingThread
      | .start | .copy | .run _ | .unlock _ | .schedule | .finish _ => none
  | .create .. | .semWait .. | .semPost .. => none

/-- A call of `pthread_create`, `pthread_exit` or `pthread_join`. -/
def Frame.ofThreads : Frame → Bool
  | .create .. | .exit .. | .join .. => true
  | .semWait .. | .semPost .. => false

section Known

variable {fresh : Tid → Prop} {context : Context User}

/-- The calls on a stack hold numbers of threads that were created only. -/
structure KnownContext (fresh : Tid → Prop) (context : Context User) : Prop where
  ofThreads : ∀ frame ∈ context.call, frame.ofThreads = true
  call : ∀ frame ∈ context.call, ∀ tid ∈ frame.holds, ¬fresh tid
  targets : ∀ frame ∈ context.schedulers, ∀ next ∈ frame.point.target, ¬fresh next

/-- So does the library. -/
structure Known (fresh : Tid → Prop) (state : State User) : Prop where
  main : ¬fresh 0
  current : ¬fresh state.currTid
  cpu : KnownContext fresh state.cpu
  saved : ∀ tid, ∀ context ∈ (state.tcb tid).reg, KnownContext fresh context
  joining : ∀ tid, ∀ joiner ∈ (state.tcb tid).joining, ¬fresh joiner

theorem KnownContext.mono {later : Tid → Prop} (known : KnownContext fresh context)
    (fewer : ∀ tid, later tid → fresh tid) : KnownContext later context where
  ofThreads := known.ofThreads
  call frame isCall tid holds isFresh := known.call frame isCall tid holds (fewer tid isFresh)
  targets frame membership next target isFresh :=
    known.targets frame membership next target (fewer next isFresh)

theorem Known.mono {later : Tid → Prop} (known : Known fresh state)
    (fewer : ∀ tid, later tid → fresh tid) : Known later state where
  main isFresh := known.main (fewer _ isFresh)
  current isFresh := known.current (fewer _ isFresh)
  cpu := known.cpu.mono fewer
  saved tid context saved := (known.saved tid context saved).mono fewer
  joining tid joiner joins isFresh := known.joining tid joiner joins (fewer _ isFresh)

theorem KnownContext.inCall {frame : Frame} (known : KnownContext fresh context)
    (ofThreads : frame.ofThreads = true) (holds : ∀ tid ∈ frame.holds, ¬fresh tid) :
    KnownContext fresh { context with call := some frame } where
  ofThreads other isCall := by
    cases isCall
    exact ofThreads
  call other isCall := by
    cases isCall
    exact holds
  targets := known.targets

theorem KnownContext.inScheduler {handler : Bool} {point : SchedulerPoint}
    {rest : List SchedulerFrame} (known : KnownContext fresh context)
    (top : ∀ next ∈ point.target, ¬fresh next)
    (below : ∀ frame ∈ rest, frame ∈ context.schedulers) :
    KnownContext fresh { context with schedulers := { handler, point } :: rest } where
  ofThreads := known.ofThreads
  call := known.call
  targets frame membership := by
    cases membership with
    | head => exact top
    | tail _ isBelow => exact known.targets frame (below frame isBelow)

theorem KnownContext.resume {value : Nat} (known : KnownContext fresh context)
    (joiner : ∀ joiner ∈ State.joinerOf value, ¬fresh joiner) :
    KnownContext fresh (context.resume value) := by
  unfold Context.resume
  split
  · exact known.inCall rfl joiner
  · exact known

theorem KnownContext.finish {user : User} (known : KnownContext fresh context) :
    KnownContext fresh { context with user, call := none } where
  ofThreads := nofun
  call := nofun
  targets := known.targets

/-- Whoever is resumed by `longjmp(_, 1)` is told nobody's number. -/
theorem State.not_mem_joinerOf_one : ∀ joiner ∈ State.joinerOf 1, ¬fresh joiner := by
  have none_one : joinerOf 1 = none := rfl
  rw [none_one]
  exact nofun

theorem State.joinerOf_add (tid : Tid) : State.joinerOf (tid.val + maxThreads) = some tid := by
  have inRange : maxThreads ≤ tid.val + maxThreads ∧
      tid.val + maxThreads - maxThreads < maxThreads := by
    have := tid.isLt
    omega
  rw [joinerOf, dif_pos inRange]
  exact congrArg some (Fin.ext (Nat.add_sub_cancel ..))

end Known

/-! ## Statements that create nothing -/

/-- No entry is used up, nobody is counted, and the library holds numbers of threads that were
created only. -/
structure Keeps (state after : State User) : Prop where
  fresh : ∀ tid, after.IsFresh tid ↔ state.IsFresh tid
  total : after.totalThreads ≤ state.totalThreads
  started : after.firstCall = state.firstCall
  known : Known state.IsFresh after

theorem setStatus_isFresh {tid : Tid} {status : Status} (created : ¬state.IsFresh tid)
    (notFresh : status ≠ .fresh) (other : Tid) :
    (state.setStatus tid status).IsFresh other ↔ state.IsFresh other := by
  rw [State.IsFresh, State.setStatus_status]
  by_cases same : other = tid
  · rw [if_pos same, same]
    exact iff_of_false notFresh created
  · rw [if_neg same]
    exact Iff.rfl

theorem State.setJoining_joining (state : State User) (tid joiner other : Tid) :
    ((state.setJoining tid joiner).tcb other).joining =
      if other = tid then some joiner else (state.tcb other).joining := by
  by_cases same : other = tid <;> simp [State.setJoining, same]

theorem State.freeStack_totalThreads {tid : Tid} (done : state.freeStack tid = some after) :
    after.totalThreads = state.totalThreads := by
  unfold State.freeStack at done
  split at done <;> cases done <;> rfl

namespace Known

variable {handler : Bool} {rest : List SchedulerFrame} {point : SchedulerPoint}

theorem goto {fresh : Tid → Prop} (known : Known fresh state) (current : ¬fresh after.currTid)
    (cpu : KnownContext fresh after.cpu)
    (reg : ∀ tid, (after.tcb tid).reg = (state.tcb tid).reg)
    (joining : ∀ tid, (after.tcb tid).joining = (state.tcb tid).joining) : Known fresh after where
  main := known.main
  current := current
  cpu := cpu
  saved tid := by
    rw [reg tid]
    exact known.saved tid
  joining tid := by
    rw [joining tid]
    exact known.joining tid

theorem setReg {fresh : Tid → Prop} {tid : Tid} {context : Context User} (known : Known fresh state)
    (saved : KnownContext fresh context) : Known fresh (state.setReg tid context) where
  main := known.main
  current := known.current
  cpu := known.cpu
  saved other := by
    rw [State.setReg_reg]
    split
    · intro _ isSaved
      cases isSaved
      exact saved
    · exact known.saved other
  joining other := by
    rw [State.setReg_joining]
    exact known.joining other

theorem longjmp {target : Tid} {value : Nat} (known : Known state.IsFresh state)
    (joiner : ∀ joiner ∈ State.joinerOf value, ¬state.IsFresh joiner)
    (executed : state.longjmp target value = some after) : Keeps state after := by
  rcases (State.longjmp_eq_some_iff _).mp executed with ⟨context, saved, rfl⟩
  refine ⟨fun _ => .rfl, le_rfl, rfl, known.goto known.current ?_ (fun _ => rfl) fun _ => rfl⟩
  exact (known.saved target context saved).resume joiner

theorem scheduler (known : Known state.IsFresh state)
    (frames : state.cpu.schedulers = { handler, point } :: rest)
    (executed : state.scheduler handler rest point = some after) : Keeps state after := by
  have below : ∀ frame ∈ rest, frame ∈ state.cpu.schedulers := by
    intro frame membership
    rw [frames]
    exact .tail _ membership
  have target : ∀ next ∈ point.target, ¬state.IsFresh next := by
    have top := known.cpu.targets { handler, point }
    rw [frames] at top
    exact top (.head _)
  have goes : ∀ next : SchedulerPoint, (∀ tid ∈ next.target, ¬state.IsFresh tid) →
      Keeps state (state.inScheduler handler rest next) := fun next known_next =>
    ⟨fun _ => .rfl, le_rfl, rfl, known.goto known.current (known.cpu.inScheduler known_next below)
      (fun _ => rfl) fun _ => rfl⟩
  cases point with
  | start | advance next =>
      cases executed
      exact goes _ nofun
  | search next =>
      simp only [State.scheduler] at executed
      split at executed
      next inRange =>
          split at executed <;> cases executed
          next => exact goes _ nofun
          next stops =>
              refine goes _ fun tid isNext => ?_
              cases isNext
              intro isFresh
              refine stops ⟨fun ready => ?_, fun isCurrent => ?_⟩
              · exact absurd (ready.symm.trans isFresh) (by decide)
              · exact known.current (isCurrent ▸ isFresh)
      next => cases executed
  | chosen next =>
      simp only [State.scheduler] at executed
      split at executed <;> cases executed <;> exact goes _ target
  | ready next =>
      cases executed
      refine ⟨setStatus_isFresh known.current (by decide), le_rfl, rfl, ?_⟩
      exact known.goto known.current (known.cpu.inScheduler target below)
        (state.setStatus_reg _ · _) (state.setStatus_joining _ · _)
  | save next =>
      cases executed
      have saved : KnownContext state.IsFresh
          { state.cpu with schedulers := { handler, point := .resumed } :: rest } :=
        known.cpu.inScheduler nofun below
      refine ⟨fun tid => ?_, le_rfl, rfl, ?_⟩
      · exact iff_of_eq (congrArg (· = Status.fresh) (state.setReg_status _ _ _))
      · exact (known.setReg saved).goto known.current (known.cpu.inScheduler target below)
          (fun _ => rfl) fun _ => rfl
  | resumed =>
      cases executed
      refine ⟨fun _ => .rfl, le_rfl, rfl, known.goto known.current ?_ (fun _ => rfl) fun _ => rfl⟩
      exact ⟨known.cpu.ofThreads, known.cpu.call, fun frame membership =>
        known.cpu.targets frame (below frame membership)⟩
  | switch next =>
      cases executed
      refine ⟨fun _ => .rfl, le_rfl, rfl, known.goto (target next rfl) ?_ (fun _ => rfl) fun _ => rfl⟩
      exact known.cpu.inScheduler target below
  | run next =>
      cases executed
      refine ⟨setStatus_isFresh known.current (by decide), le_rfl, rfl, ?_⟩
      exact known.goto known.current (known.cpu.inScheduler target below)
        (state.setStatus_reg _ · _) (state.setStatus_joining _ · _)
  | jump next => exact known.longjmp State.not_mem_joinerOf_one executed

theorem setStatus {status : Status} (known : Known state.IsFresh state)
    (notFresh : status ≠ .fresh) : Keeps state (state.setStatus state.currTid status) := by
  refine ⟨setStatus_isFresh known.current notFresh, le_rfl, rfl, ?_⟩
  exact known.goto known.current known.cpu (state.setStatus_reg _ · _)
    (state.setStatus_joining _ · _)

theorem setjmp (known : Known state.IsFresh state) (tid : Tid) {frame : Frame}
    (ofThreads : frame.ofThreads = true) (holds : ∀ tid ∈ frame.holds, ¬state.IsFresh tid) :
    Keeps state (state.setReg tid { state.cpu with call := some frame }) := by
  refine ⟨fun other => ?_, le_rfl, rfl, known.setReg (known.cpu.inCall ofThreads holds)⟩
  exact iff_of_eq (congrArg (· = Status.fresh) (state.setReg_status _ _ _))

theorem freeStack {tid : Tid} (known : Known state.IsFresh state)
    (done : state.freeStack tid = some after) : Keeps state after := by
  have agrees := state.freeStack_agrees done
  refine ⟨fun other => ?_, (State.freeStack_totalThreads done).le, agrees.firstCall,
    known.goto ?_ ?_ agrees.reg
    (state.freeStack_joining done)⟩
  · exact iff_of_eq (congrArg (· = Status.fresh) (agrees.status other))
  · rw [agrees.currTid]
    exact known.current
  · rw [state.freeStack_cpu done]
    exact known.cpu

theorem setExitcode {tid : Tid} {value : Value} (known : Known state.IsFresh state) :
    Keeps state (state.setExitcode tid value) := by
  have agrees := state.setExitcode_agrees tid value
  refine ⟨fun other => ?_, le_rfl, rfl, known.goto known.current known.cpu agrees.reg
    (state.setExitcode_joining tid · value)⟩
  exact iff_of_eq (congrArg (· = Status.fresh) (agrees.status other))

theorem setJoining (known : Known state.IsFresh state) (tid : Tid) {joiner : Tid}
    (created : ¬state.IsFresh joiner) : Keeps state (state.setJoining tid joiner) := by
  have agrees := state.setJoining_agrees tid joiner
  refine ⟨fun other => ?_, le_rfl, rfl, ⟨known.main, known.current, known.cpu, ?_, ?_⟩⟩
  · exact iff_of_eq (congrArg (· = Status.fresh) (agrees.status other))
  · intro other
    rw [agrees.reg other]
    exact known.saved other
  · intro other
    rw [State.setJoining_joining]
    split
    · intro _ isJoiner
      cases isJoiner
      exact created
    · exact known.joining other

end Known

namespace Keeps

variable {middle : State User}

theorem refl (known : Known state.IsFresh state) : Keeps state state :=
  ⟨fun _ => .rfl, le_rfl, rfl, known⟩

theorem again (keeps : Keeps state middle) : Known middle.IsFresh middle :=
  keeps.known.mono fun tid => (keeps.fresh tid).mp

theorem trans (first : Keeps state middle) (second : Keeps middle after) : Keeps state after where
  fresh tid := (second.fresh tid).trans (first.fresh tid)
  total := second.total.trans first.total
  started := second.started.trans first.started
  known := second.known.mono fun tid => (first.fresh tid).mpr

theorem proceed (keeps : Keeps state middle) (sameThreads : after.tcb = middle.tcb)
    (total : after.totalThreads ≤ middle.totalThreads)
    (started : after.firstCall = middle.firstCall) (current : ¬state.IsFresh after.currTid)
    (cpu : KnownContext state.IsFresh after.cpu) : Keeps state after := by
  refine ⟨fun tid => ?_, total.trans keeps.total, started.trans keeps.started,
    keeps.known.goto current cpu ?_ ?_⟩
  · rw [State.IsFresh, sameThreads]
    exact keeps.fresh tid
  · exact fun tid => congrArg (fun tcb : Tid → Thread User => (tcb tid).reg) sameThreads
  · exact fun tid => congrArg (fun tcb : Tid → Thread User => (tcb tid).joining) sameThreads

theorem inCall (keeps : Keeps state middle) {frame : Frame} (ofThreads : frame.ofThreads = true)
    (holds : ∀ tid ∈ frame.holds, ¬state.IsFresh tid) : Keeps state (middle.inCall frame) :=
  keeps.proceed rfl le_rfl rfl keeps.known.current (keeps.known.cpu.inCall ofThreads holds)

end Keeps

namespace Known

variable {value : Value} {thread : Tid}

theorem exitJoined {joiner : Tid} (known : Known state.IsFresh state)
    (joins : (state.tcb state.currTid).joining = some joiner)
    (executed : state.exitJoined value joiner = some after) : Keeps state after := by
  rcases Option.map_eq_some_iff.mp executed with ⟨freed, done, rfl⟩
  have ends : Keeps state (state.setStatus state.currTid .exited) := known.setStatus (by decide)
  have frees := ends.trans (ends.again.freeStack done)
  have stores : Keeps state (freed.setExitcode state.currTid value) :=
    frees.trans frees.again.setExitcode
  have counted : state.totalThreads - 1 ≤ freed.totalThreads := by
    have same := State.freeStack_totalThreads done
    change freed.totalThreads = state.totalThreads at same
    omega
  refine stores.proceed rfl counted rfl (known.joining _ joiner joins) ?_
  exact stores.known.cpu.inCall rfl nofun

theorem exitUnjoined (known : Known state.IsFresh state) :
    Keeps state (state.exitUnjoined value) := by
  have waits : Keeps state (state.setStatus state.currTid .waiting) := known.setStatus (by decide)
  have inExit : (Frame.exit value .set).ofThreads = true := rfl
  have saves := waits.trans (waits.again.setjmp state.currTid inExit nofun)
  refine saves.proceed rfl le_rfl rfl known.current (saves.known.cpu.inCall rfl ?_)
  split <;> exact nofun

theorem callScheduler {frame : Frame} (known : Known state.IsFresh state)
    (ofThreads : frame.ofThreads = true) (holds : ∀ tid ∈ frame.holds, ¬state.IsFresh tid) :
    Keeps state (state.callScheduler frame) := by
  have called : Keeps state (state.inCall frame) := (Keeps.refl known).inCall ofThreads holds
  refine called.proceed rfl le_rfl rfl known.current ?_
  exact called.known.cpu.inScheduler nofun nofun

theorem pthreadExit {point : ExitPoint} (known : Known state.IsFresh state)
    (called : state.cpu.call = some (.exit value point))
    (executed : state.pthreadExit value point = some after) : Keeps state after := by
  have holds : ∀ tid ∈ (Frame.exit value point).holds, ¬state.IsFresh tid :=
    known.cpu.call _ called
  have stays : Keeps state state := .refl known
  cases point with
  | start =>
      simp only [State.pthreadExit] at executed
      split at executed
      next joiner joins => exact known.exitJoined joins executed
      next =>
          cases executed
          exact known.exitUnjoined
  | set | finish => cases executed
  | joined joined =>
      simp only [State.pthreadExit] at executed
      split at executed <;> cases executed <;> exact stays.inCall rfl holds
  | mark joined =>
      cases executed
      exact (known.setStatus (by decide)).inCall rfl holds
  | free joined =>
      rcases Option.map_eq_some_iff.mp executed with ⟨freed, done, rfl⟩
      exact (known.freeStack done).inCall rfl holds
  | count joined =>
      cases executed
      exact stays.proceed rfl (Int.sub_le_self _ Int.one_nonneg) rfl known.current
        (known.cpu.inCall rfl holds)
  | code joined =>
      cases executed
      exact known.setExitcode.inCall rfl holds
  | back joined =>
      rcases Option.map_eq_some_iff.mp executed with ⟨joiner, isJoiner, rfl⟩
      exact stays.proceed rfl le_rfl rfl (holds joiner isJoiner) (known.cpu.inCall rfl nofun)
  | unlock =>
      cases executed
      exact stays.proceed rfl le_rfl rfl known.current (known.cpu.inCall rfl nofun)
  | jump | mainJump => exact known.longjmp State.not_mem_joinerOf_one executed
  | schedule =>
      cases executed
      exact known.callScheduler rfl nofun
  | toMain =>
      cases executed
      exact stays.proceed rfl le_rfl rfl known.main (known.cpu.inCall rfl nofun)

theorem joinUnexited (known : Known state.IsFresh state) :
    Keeps state (state.joinUnexited thread) := by
  have blocks : Keeps state (state.setStatus state.currTid .blocked) := known.setStatus (by decide)
  have inJoin : (Frame.join thread .copy).ofThreads = true := rfl
  have saves := blocks.trans (blocks.again.setjmp state.currTid inJoin nofun)
  simp only [State.joinUnexited]
  split
  next waits =>
      refine saves.proceed rfl le_rfl rfl (fun isFresh => ?_) (saves.known.cpu.inCall rfl ?_)
      · have stillFresh := (saves.fresh thread).mpr isFresh
        exact absurd (waits.symm.trans stillFresh) (by decide)
      · intro tid isTid
        cases isTid
        exact known.current
  next =>
      have joins := saves.trans (saves.again.setJoining thread
        fun isFresh => known.current ((saves.fresh state.currTid).mp isFresh))
      exact joins.proceed rfl le_rfl rfl known.current (joins.known.cpu.inCall rfl nofun)

theorem pthreadJoin {point : JoinPoint} (known : Known state.IsFresh state)
    (called : state.cpu.call = some (.join thread point))
    (executed : state.pthreadJoin client thread point = some after) : Keeps state after := by
  have stays : Keeps state state := .refl known
  cases point with
  | start =>
      simp only [State.pthreadJoin] at executed
      split at executed <;> cases executed
      · exact known.joinUnexited
      · exact stays.proceed rfl le_rfl rfl known.current (known.cpu.inCall rfl nofun)
  | copy =>
      cases executed
      exact stays.inCall rfl nofun
  | run value =>
      cases executed
      exact (known.setStatus (by decide)).inCall rfl nofun
  | unlock value =>
      cases executed
      exact stays.proceed rfl le_rfl rfl known.current (known.cpu.inCall rfl nofun)
  | schedule =>
      cases executed
      exact known.callScheduler rfl nofun
  | jump waitingThread =>
      refine known.longjmp (fun joiner isJoiner => ?_) executed
      rw [State.joinerOf_add] at isJoiner
      exact known.cpu.call _ called joiner isJoiner
  | finish value =>
      cases executed
      exact stays.proceed rfl le_rfl rfl known.current known.cpu.finish

end Known

end EC440.Threads
