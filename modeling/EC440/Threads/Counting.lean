import EC440.Threads.Numbers
import EC440.Threads.Running

/-!
# Counting the creations

Along a run the entries that are `FRESH` are counted against the threads that
were created, and `total_threads` never passes that number: 127 creations
succeed, whatever has exited meanwhile, and the next one finds no entry.
-/

namespace EC440.Threads

open Transition

variable {User : Type} {client : Client User} {state after : State User}

/-! ## Counting -/

def State.creations (state : State User) (action : Action User) (after : State User) : Nat :=
  match action, state.cpu.schedulers, state.cpu.call, after.cpu.call with
  | .statement, [], some (.create _ _ .start), some (.create _ _ (.finish _ (some _))) => 1
  | _, _, _, _ => 0

def CountedStep (client : Client User) (before : State User × Nat) (action : Action User)
    (after : State User × Nat) : Prop :=
  Step client before.1 action after.1 ∧
    after.2 = before.2 + before.1.creations action after.1

/-- What the number of created threads says about the entries and about `total_threads`. -/
structure Counted (state : State User) (created : Nat) : Prop where
  started : state.firstCall = false
  fresh : state.freshCount + created = 127
  total : state.totalThreads ≤ created + 1
  known : Known state.IsFresh state

theorem freshCount_newThread (client : Client User) (routine arg : Value) {tid : Tid}
    (fresh : state.IsFresh tid) :
    (state.newThread client tid routine arg).freshCount + 1 = state.freshCount := by
  have others : Finset.univ.filter (state.newThread client tid routine arg).IsFresh =
      (Finset.univ.filter state.IsFresh).erase tid := by
    ext other
    simp only [Finset.mem_filter, Finset.mem_univ, true_and, Finset.mem_erase]
    exact State.newThread_isFresh
  rw [State.freshCount, others]
  apply Finset.card_erase_add_one
  simpa using fresh

namespace Counted

variable {created : Nat}

theorem below (counted : Counted state created) : state.totalThreads ≤ maxThreads := by
  have fresh := counted.fresh
  have total := counted.total
  change state.totalThreads ≤ 128
  omega

theorem keeps (counted : Counted state created) (keeps : Keeps state after) :
    Counted after created where
  started := keeps.started.trans counted.started
  fresh := by
    have same : after.freshCount = state.freshCount := by
      rw [State.freshCount, State.freshCount]
      exact congrArg Finset.card (Finset.filter_congr fun tid _ => keeps.fresh tid)
    rw [same]
    exact counted.fresh
  total := keeps.total.trans counted.total
  known := keeps.again

theorem forall_none {Member : Type} {holds : Member → Prop} :
    ∀ member ∈ (none : Option Member), holds member := by
  intro member isMember
  cases isMember

theorem createThread {routine arg : Value} (counted : Counted state created)
    (executed : state.createThread client routine arg = some after) :
    Counted after (created + 1) ∧
      ∃ tid, after.cpu.call = some (.create routine arg (.finish 0 (some tid))) := by
  rw [State.createThread, if_neg (not_lt.mpr counted.below)] at executed
  rcases Option.map_eq_some_iff.mp executed with ⟨tid, found, rfl⟩
  have fresh : state.IsFresh tid := state.freshThread_status found
  have fewer : ∀ other, (state.newThread client tid routine arg).IsFresh other →
      state.IsFresh other :=
    fun other isFresh => (State.newThread_isFresh.mp isFresh).2
  have known := counted.known.mono fewer
  refine ⟨⟨counted.started, ?_, ?_,
    ⟨known.main, known.current, known.cpu.inCall rfl forall_none, ?_, ?_⟩⟩, tid, rfl⟩
  · have used := freshCount_newThread client routine arg fresh
    have total := counted.fresh
    change (state.newThread client tid routine arg).freshCount + (created + 1) = 127
    omega
  · have total := counted.total
    change state.totalThreads + 1 ≤ ((created + 1 : Nat) : Int) + 1
    omega
  · intro other
    change ∀ context ∈ ((state.newThread client tid routine arg).tcb other).reg, _
    rw [State.newThread_reg]
    split
    · intro context isNew
      cases isNew
      exact ⟨forall_none, forall_none, List.forall_mem_nil _⟩
    · exact known.saved other
  · intro other
    change ∀ joiner ∈ ((state.newThread client tid routine arg).tcb other).joining, _
    rw [State.newThread_joining]
    exact known.joining other

theorem entered (sems : SemId → SemInfo) (user : User) (routine arg : Value) :
    Counted (State.entered sems user routine arg) 0 := by
  let called := (State.initial sems user).inCall (.create routine arg .start)
  have isFresh : ∀ tid, (State.entered sems user routine arg).IsFresh tid ↔ tid ≠ 0 :=
    fun _ => State.firstCreate_isFresh
  have main : ¬(State.entered sems user routine arg).IsFresh 0 := by
    rw [isFresh]
    exact not_not.mpr rfl
  have cpu : KnownContext (State.entered sems user routine arg).IsFresh called.cpu := by
    constructor
    · intro frame isCall
      cases isCall
      rfl
    · intro frame isCall
      cases isCall
      exact forall_none
    · exact List.forall_mem_nil _
  refine ⟨rfl, ?_, le_rfl, ⟨main, main, cpu, fun tid => ?_, fun tid => ?_⟩⟩
  · have others : Finset.univ.filter (State.entered sems user routine arg).IsFresh =
        Finset.univ.erase 0 := by
      ext tid
      simp [isFresh]
    rw [State.freshCount, others]
    rfl
  · change ∀ context ∈ (((State.firstCreate called routine arg)).tcb tid).reg, _
    rw [State.firstCreate, State.setReg_reg]
    split
    · intro context isSaved
      cases isSaved
      exact cpu.inCall rfl forall_none
    · rw [State.setStatus_reg]
      exact forall_none
  · change ∀ joiner ∈ (((State.firstCreate called routine arg)).tcb tid).joining, _
    rw [State.firstCreate, State.setReg_joining, State.setStatus_joining]
    exact forall_none

theorem booted {sems : SemId → SemInfo} {user : User} {start : State User}
    (boots : Boots client sems user start) : Counted start 1 := by
  rcases boots with ⟨routine, arg, boots⟩
  rw [boot_eq] at boots
  exact ((entered sems user routine arg).createThread boots).1

theorem callStatement {frame : Frame} (counted : Counted state created)
    (noSchedulers : state.cpu.schedulers = []) (called : state.cpu.call = some frame)
    (executed : state.callStatement client frame = some after) :
    Counted after (created + state.creations .statement after) := by
  have known := counted.known
  have stays : Keeps state state := .refl known
  have nothing : (∀ routine arg, frame ≠ .create routine arg .start) →
      state.creations .statement after = 0 := by
    intro notCreate
    unfold State.creations
    split
    next atStart _ => exact absurd (Option.some.inj (called.symm.trans atStart)) (notCreate _ _)
    next => rfl
  cases frame with
  | create routine arg point =>
      cases point with
      | start =>
          simp only [State.callStatement, State.pthreadCreate, counted.started] at executed
          rcases counted.createThread executed with ⟨counts, tid, created⟩
          have one : state.creations .statement after = 1 := by
            simp [State.creations, noSchedulers, called, created]
          rw [one]
          exact counts
      | resumed =>
          rw [nothing fun _ _ isCreate => by cases isCreate]
          cases executed
          exact counted.keeps (stays.proceed rfl le_rfl rfl known.current
            (known.cpu.inCall rfl forall_none))
      | finish code thread =>
          rw [nothing fun _ _ isCreate => by cases isCreate]
          cases executed
          exact counted.keeps (stays.proceed rfl le_rfl rfl known.current known.cpu.finish)
  | exit value point =>
      rw [nothing fun _ _ isCreate => by cases isCreate]
      exact counted.keeps (known.pthreadExit called executed)
  | join thread point =>
      rw [nothing fun _ _ isCreate => by cases isCreate]
      exact counted.keeps (known.pthreadJoin called executed)
  | semWait sem point | semPost sem point => cases known.cpu.ofThreads _ called

theorem step {action : Action User}
    (onlyThreads : ∀ user call waiting, client.calls user call waiting → call.OfThreads)
    (counted : Counted state created) (step : Step client state action after) :
    Counted after (created + state.creations action after) := by
  have known := counted.known
  have stays : Keeps state state := .refl known
  rcases step.cases with ⟨user, rfl, -, -, rfl⟩ | ⟨call, user, rfl, -, calls, rfl⟩ |
    ⟨frame, rfl, noSchedulers, called, executed⟩ |
    ⟨handler, point, rest, rfl, frames, executed⟩ | ⟨rfl, -, -, rfl⟩
  · refine counted.keeps (stays.proceed rfl le_rfl rfl known.current ?_)
    exact ⟨known.cpu.ofThreads, known.cpu.call, known.cpu.targets⟩
  · refine counted.keeps (stays.proceed rfl le_rfl rfl known.current ?_)
    have entered : KnownContext state.IsFresh { state.cpu with call := some call.entry } := by
      have ofThreads := onlyThreads _ _ _ calls
      cases call with
      | create routine arg | exit value | join thread => exact known.cpu.inCall rfl nofun
      | semWait sem | semPost sem => cases ofThreads
    exact ⟨entered.ofThreads, entered.call, entered.targets⟩
  · exact counted.callStatement noSchedulers called executed
  · have none_created : state.creations .statement after = 0 := by
      simp [State.creations, frames]
    rw [none_created]
    exact counted.keeps (known.scheduler frames executed)
  · refine counted.keeps (stays.proceed rfl le_rfl rfl known.current ?_)
    exact known.cpu.inScheduler nofun fun _ below => below

end Counted

/-! ## Calls in runs -/

theorem counted_of_run {sems : SemId → SemInfo} {user : User} {start : State User} {created : Nat}
    (onlyThreads : ∀ user call waiting, client.calls user call waiting → call.OfThreads)
    (boots : Boots client sems user start)
    (run : RunUnder (CountedStep client) (fun _ _ => True) (start, 1) (state, created)) :
    Counted state created := by
  refine RunUnder.invariant (fun counted : State User × Nat => Counted counted.1 counted.2)
    (fun before action after counted _ stepped => ?_) (Counted.booted boots) run
  rcases stepped with ⟨step, counts⟩
  rw [counts]
  exact counted.step onlyThreads step

theorem Counted.exists_fresh {created : Nat} (counted : Counted state created)
    (left : created < 127) : ∃ tid, state.IsFresh tid := by
  have fresh := counted.fresh
  have someFresh : state.freshCount ≠ 0 := by omega
  exact not_forall_not.mp (mt State.freshCount_eq_zero_iff.mpr someFresh)

/-- Every entry is used by the time of the 128th creation. -/
theorem Counted.creates_iff {created : Nat} (counted : Counted state created)
    (routine arg : Value) : state.Creates client routine arg ↔ created < 127 := by
  rw [State.creates_iff counted.started]
  constructor
  · rintro ⟨-, tid, isFresh⟩
    by_contra exhausted
    have fresh := counted.fresh
    have noFresh : state.freshCount = 0 := by omega
    exact State.freshCount_eq_zero_iff.mp noFresh tid isFresh
  · exact fun left => ⟨counted.below, counted.exists_fresh left⟩

/-! ## Runs of creations -/

theorem exists_return {routine arg : Value} {code : Int} {thread : Option Tid} {state : State Unit}
    (created : Nat) (noSchedulers : state.cpu.schedulers = [])
    (called : state.cpu.call = some (.create routine arg (.finish code thread))) :
    ∃ after, after.cpu.InUserCode ∧
      CountedStep threadsClient (state, created) .statement (after, created) := by
  let returned := state.finish threadsClient (.create routine arg) { code, thread }
  refine ⟨returned, ⟨rfl, noSchedulers⟩, ⟨trivial, ?_⟩, ?_⟩
  · change state.statement threadsClient = some returned
    rw [State.statement, noSchedulers, called]
    rfl
  · simp [State.creations, called]

theorem Counted.exists_creation {state : State Unit} {created : Nat}
    (counted : Counted state created) (left : created < 127) (inUserCode : state.cpu.InUserCode) :
    ∃ after, after.cpu.InUserCode ∧
      RunUnder (CountedStep threadsClient) (fun _ _ => True) (state, created)
        (after, created + 1) := by
  let called := (state.setUser ()).inCall (.create 0 0 .start)
  have below : called.totalThreads ≤ maxThreads := counted.below
  have started : called.firstCall = false := counted.started
  have noSchedulers : called.cpu.schedulers = [] := inUserCode.2
  rcases counted.exists_fresh left with ⟨tid, isFresh⟩
  have freshThere : called.IsFresh tid := isFresh
  rcases State.exists_createThread threadsClient 0 0 below freshThere with ⟨found, -, succeeds⟩
  let answered := (called.newThread threadsClient found 0 0).unlock.inCall
    (.create 0 0 (.finish 0 (some found)))
  have calls : CountedStep threadsClient (state, created) (.call (.create 0 0) ())
      (called, created) := ⟨⟨trivial, if_pos inUserCode⟩, rfl⟩
  have creates : CountedStep threadsClient (called, created) .statement (answered, created + 1) := by
    refine ⟨⟨trivial, ?_⟩, ?_⟩
    · change called.statement threadsClient = some answered
      rw [State.statement, noSchedulers]
      change called.pthreadCreate threadsClient 0 0 .start = some answered
      rw [State.pthreadCreate, started]
      exact succeeds
    · simp [State.creations, called, answered, State.inCall, State.setUser, inUserCode.2]
  have stillNoSchedulers : answered.cpu.schedulers = [] := inUserCode.2
  rcases exists_return (created + 1) stillNoSchedulers rfl with ⟨returned, back, returns⟩
  exact ⟨returned, back,
    .head ⟨_, trivial, calls⟩ (.head ⟨_, trivial, creates⟩ (.single ⟨_, trivial, returns⟩))⟩

/-- Programs may create up to 127 threads, one after the other. -/
theorem exists_run_of_created {created : Nat} (inRange : created < 127) :
    ∃ start state : State Unit, Boots threadsClient (fun _ => semInit 0) () start ∧
      RunUnder (CountedStep threadsClient) (fun _ _ => True) (start, 1) (state, created + 1) ∧
      state.cpu.InUserCode := by
  induction created with
  | zero =>
      obtain ⟨start, booted, noSchedulers, called⟩ : ∃ start : State Unit,
          boot threadsClient (fun _ => semInit 0) () 0 0 = some start ∧
            start.cpu.schedulers = [] ∧
            start.cpu.call = some (.create 0 0 (.finish 0 (some 1))) := ⟨_, rfl, rfl, rfl⟩
      rcases exists_return 1 noSchedulers called with ⟨state, inUserCode, returns⟩
      exact ⟨start, state, ⟨0, 0, booted⟩, .single ⟨_, trivial, returns⟩, inUserCode⟩
  | succ created inductionHypothesis =>
      rcases inductionHypothesis (by omega) with ⟨start, state, boots, run, inUserCode⟩
      have counted := counted_of_run (fun _ _ _ ofThreads => ofThreads) boots run
      rcases counted.exists_creation inRange inUserCode with ⟨after, back, creates⟩
      exact ⟨start, after, boots, run.trans creates, back⟩

end EC440.Threads
