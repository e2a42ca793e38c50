import EC440.Threads.Counting
import EC440.UserThreads.Runs

/-!
# The limit of threads in Project 2

Its `pthread_create` has the limit test and the search of the later one, but no
lock.  A call that nothing interrupts is followed through its statements; when
`SIGALRM` does interrupt calls, an entry that was found `FRESH` is still
`FRESH` when it is made `READY`, if no signal comes in between.
-/

namespace EC440.UserThreads

open Threads (maxThreads Tid Value SchedulerPoint Answers)
open Transition

variable {User : Type} {client : Client User} {state after : State User} {routine arg : Value}

/-! ## Calls that nothing interrupts -/

/-- `pthread_create` has its answer. -/
def CreatePoint.returns : CreatePoint → Bool
  | .finish .. => true
  | .start | .resumed | .limit | .search _ | .setup _ | .publish _ | .count _ => false

/-- A statement of `pthread_create`. -/
def Creating (client : Client User) (before after : State User) : Prop :=
  ∃ routine arg point, before.cpu.call = some (.create routine arg point) ∧
    point.returns = false ∧ before.pthreadCreate client routine arg point = some after

namespace State

variable (client : Client User) (state : State User)

/-- The entry was never used since `init_system`. -/
def IsFresh (tid : Tid) : Prop :=
  state.status tid = .fresh

/-- The thread was created, or is the main thread, and has not exited. -/
def Alive (tid : Tid) : Prop :=
  if state.firstCall then tid = 0 else ¬state.IsFresh tid ∧ state.status tid ≠ .exited

/-- `pthread_create(_, _, routine, arg)` accesses no entry outside `TCB` and answers as it has
to. -/
def Creates (routine arg : Value) : Prop :=
  ∃ after code thread,
    Relation.ReflTransGen (Creating client) (state.inCall (.create routine arg .start)) after ∧
    after.cpu.call = some (.create routine arg (.finish code thread)) ∧
    Answers state.Alive after.Alive
      (after.tcb = state.tcb ∧ after.totalThreads = state.totalThreads) code thread

/-- The entry is set up, `READY` and counted. -/
def created (tid : Tid) (routine arg : Value) : State User :=
  { ((state.setStack tid .allocated).setReg tid (newContext client tid routine arg)).setStatus tid
      .ready with
    totalThreads := state.totalThreads + 1 }.inCall (.create routine arg (.finish 0 (some tid)))

variable {client state}

theorem creating_of_call {point : CreatePoint}
    (called : state.cpu.call = some (.create routine arg point)) (goesOn : point.returns = false)
    (executed : state.pthreadCreate client routine arg point = some after) :
    Creating client state after :=
  ⟨routine, arg, point, called, goesOn, executed⟩

theorem created_of_setup (client : Client User) {tid : Tid}
    (called : state.cpu.call = some (.create routine arg (.setup tid))) :
    Relation.ReflTransGen (Creating client) state (state.created client tid routine arg) := by
  let set := ((state.setStack tid .allocated).setReg tid
    (newContext client tid routine arg)).inCall (.create routine arg (.publish tid))
  let published := (set.setStatus tid .ready).inCall (.create routine arg (.count tid))
  have sets : Creating client state set := creating_of_call called rfl rfl
  have publishes : Creating client set published := creating_of_call rfl rfl rfl
  have counts : Creating client published (state.created client tid routine arg) :=
    creating_of_call rfl rfl rfl
  exact .head sets (.head publishes (.single counts))

theorem exists_created_of_search (client : Client User) {i : Nat} {tid : Tid}
    (called : state.cpu.call = some (.create routine arg (.search i))) (ahead : i ≤ tid.val)
    (fresh : state.IsFresh tid) :
    ∃ found, state.IsFresh found ∧
      Relation.ReflTransGen (Creating client) state (state.created client found routine arg) := by
  -- by induction on how far the entry still is
  induction distance : tid.val - i generalizing state i with
  | zero =>
      have here : i = tid.val := by omega
      subst here
      have found : Creating client state (state.inCall (.create routine arg (.setup tid))) := by
        refine creating_of_call called rfl ?_
        exact (dif_pos tid.isLt).trans (if_neg (not_not.mpr fresh))
      refine ⟨tid, fresh, .head found ?_⟩
      exact created_of_setup client rfl
  | succ distance inductionHypothesis =>
      have inRange : i < maxThreads := by have := tid.isLt; omega
      by_cases isFresh : state.IsFresh ⟨i, inRange⟩
      · have found : Creating client state
            (state.inCall (.create routine arg (.setup ⟨i, inRange⟩))) := by
          refine creating_of_call called rfl ?_
          exact (dif_pos inRange).trans (if_neg (not_not.mpr isFresh))
        refine ⟨⟨i, inRange⟩, isFresh, .head found ?_⟩
        exact created_of_setup client rfl
      · have passes : Creating client state
            (state.inCall (.create routine arg (.search (i + 1)))) := by
          refine creating_of_call called rfl ?_
          exact (dif_pos inRange).trans (if_pos isFresh)
        have freshThere : (state.inCall (.create routine arg (.search (i + 1)))).IsFresh tid :=
          fresh
        rcases inductionHypothesis rfl (by omega) freshThere (by omega) with
          ⟨found, foundFresh, creates⟩
        exact ⟨found, foundFresh, .head passes creates⟩

theorem exists_created_of_limit (client : Client User) {tid : Tid}
    (called : state.cpu.call = some (.create routine arg .limit))
    (below : state.totalThreads ≤ maxThreads) (fresh : state.IsFresh tid) :
    ∃ found, state.IsFresh found ∧
      Relation.ReflTransGen (Creating client) state (state.created client found routine arg) := by
  let searching := state.inCall (.create routine arg (.search 0))
  have tests : Creating client state searching :=
    creating_of_call called rfl (if_neg (not_lt.mpr below))
  have freshThere : searching.IsFresh tid := fresh
  rcases exists_created_of_search client rfl (Nat.zero_le _) freshThere with
    ⟨found, foundFresh, creates⟩
  exact ⟨found, foundFresh, .head tests creates⟩

theorem alive_created {tid other : Tid} (started : state.firstCall = false) :
    (state.created client tid routine arg).Alive other ↔ other = tid ∨ state.Alive other := by
  have notFirst : (state.created client tid routine arg).firstCall = false := started
  have status : (state.created client tid routine arg).status other =
      if other = tid then .ready else state.status other := by
    change (((state.setStack tid .allocated).setReg tid _).setStatus tid .ready).status other = _
    rw [setStatus_status, setReg_status, setStack_status]
  rw [Alive, notFirst, Alive, started, IsFresh, IsFresh, status]
  by_cases same : other = tid <;> simp [same]

/-- What has happened at a statement of a call that began in `state`. -/
def Progress (state after : State User) : CreatePoint → Prop
  | .start | .limit => after.tcb = state.tcb ∧ after.totalThreads = state.totalThreads
  | .search _ => after.tcb = state.tcb ∧ state.totalThreads ≤ maxThreads
  | .setup _ | .publish _ | .count _ =>
      state.totalThreads ≤ maxThreads ∧ ∃ tid, state.IsFresh tid
  | .finish code _ =>
      (state.totalThreads ≤ maxThreads ∧ ∃ tid, state.IsFresh tid) ∨
        code = -1 ∧ state.totalThreads > maxThreads
  | .resumed => False

theorem progress_of_creating (started : state.firstCall = false)
    (run : Relation.ReflTransGen (Creating client) (state.inCall (.create routine arg .start))
      after) :
    after.firstCall = false ∧
      ∃ point, after.cpu.call = some (.create routine arg point) ∧ Progress state after point := by
  induction run with
  | refl => exact ⟨started, .start, rfl, rfl, rfl⟩
  | @tail middle next _ last inductionHypothesis =>
      rcases inductionHypothesis with ⟨begun, point, called, progress⟩
      rcases last with ⟨_, _, _, calledHere, goesOn, executed⟩
      cases called.symm.trans calledHere
      cases point with
      | start =>
          simp only [pthreadCreate, begun] at executed
          cases executed
          exact ⟨begun, .limit, rfl, progress⟩
      | limit =>
          simp only [pthreadCreate] at executed
          rw [progress.2] at executed
          split at executed <;> cases executed
          next above => exact ⟨begun, _, rfl, .inr ⟨rfl, above⟩⟩
          next below => exact ⟨begun, _, rfl, progress.1, not_lt.mp below⟩
      | search i =>
          simp only [pthreadCreate] at executed
          split at executed
          next inRange =>
              split at executed <;> cases executed
              next => exact ⟨begun, _, rfl, progress⟩
              next fresh =>
                  refine ⟨begun, _, rfl, progress.2, ⟨i, inRange⟩, ?_⟩
                  rw [IsFresh, status, ← progress.1]
                  exact not_not.mp fresh
          next => cases executed
      | setup i =>
          cases executed
          exact ⟨begun, _, rfl, progress⟩
      | publish i =>
          cases executed
          exact ⟨begun, _, rfl, progress⟩
      | count i =>
          cases executed
          exact ⟨begun, _, rfl, .inl progress⟩
      | resumed => exact progress.elim
      | finish code thread => cases goesOn

/-- A call that nothing interrupts answers as it has to just when the limit test passes and some
entry was never used, or when the test fails and all entries belong to live threads. -/
theorem creates_iff (started : state.firstCall = false) :
    state.Creates client routine arg ↔
      state.totalThreads ≤ maxThreads ∧ (∃ tid, state.IsFresh tid) ∨
        state.totalThreads > maxThreads ∧ ∀ tid, state.Alive tid := by
  let called := state.inCall (.create routine arg .start)
  let limit := called.inCall (.create routine arg .limit)
  have begins : Creating client called limit := by
    refine creating_of_call rfl rfl ?_
    exact if_neg (Bool.eq_false_iff.mp started)
  constructor
  · rintro ⟨after, code, thread, run, answered, answers⟩
    rcases progress_of_creating started run with ⟨-, point, calledThere, progress⟩
    cases calledThere.symm.trans answered
    rcases progress with succeeds | ⟨rfl, above⟩
    · exact .inl succeeds
    · refine .inr ⟨above, ?_⟩
      by_contra someDead
      rcases not_forall.mp someDead with ⟨tid, dead⟩
      have fewer : {tid | state.Alive tid}.ncard < maxThreads := by
        have proper : {tid | state.Alive tid} ⊂ Set.univ :=
          ⟨Set.subset_univ _, fun all => dead (all (Set.mem_univ tid))⟩
        simpa [Set.ncard_univ] using Set.ncard_lt_ncard proper
      exact absurd (answers.succeeds fewer) (by decide)
  · rintro (⟨below, tid, fresh⟩ | ⟨above, allAlive⟩)
    · have belowThere : limit.totalThreads ≤ maxThreads := below
      have freshThere : limit.IsFresh tid := fresh
      rcases exists_created_of_limit client rfl belowThere freshThere with
        ⟨found, foundFresh, creates⟩
      refine ⟨limit.created client found routine arg, 0, some found, .head begins creates, rfl,
        .inl ⟨rfl, found, rfl, ?_, fun other => ?_⟩, fun _ => rfl⟩
      · rw [Alive, started]
        exact fun alive => alive.1 foundFresh
      · have startedThere : limit.firstCall = false := started
        exact alive_created startedThere
    · let answered := limit.inCall (.create routine arg (.finish (-1) none))
      have fails : Creating client limit answered := creating_of_call rfl rfl (if_pos above)
      refine ⟨answered, -1, none, .head begins (.single fails), rfl, .inr ⟨rfl, rfl, rfl⟩,
        fun fewer => ?_⟩
      have all : {tid | state.Alive tid} = Set.univ := Set.eq_univ_of_forall allAlive
      rw [all, Set.ncard_univ] at fewer
      simp at fewer

theorem firstCreate_status {tid : Tid} :
    (state.firstCreate routine arg).status tid = if tid = 0 then .running else .fresh := by
  rw [firstCreate, setReg_status, setStatus_status]
  rfl

theorem firstCreate_alive {tid : Tid} :
    (state.firstCreate routine arg).Alive tid ↔ tid = 0 := by
  have notFirst : (state.firstCreate routine arg).firstCall = false := rfl
  rw [Alive, notFirst, IsFresh, firstCreate_status]
  by_cases isMain : tid = 0 <;> simp [isMain]

theorem creates_first (first : state.firstCall = true) (below : state.totalThreads < maxThreads) :
    state.Creates client routine arg := by
  let called := state.inCall (.create routine arg .start)
  let limit := (called.firstCreate routine arg).inCall (.create routine arg .limit)
  have begins : Creating client called limit := by
    refine creating_of_call rfl rfl ?_
    exact if_pos first
  have belowThere : limit.totalThreads ≤ maxThreads := by
    change state.totalThreads + 1 ≤ maxThreads
    omega
  have other : limit.IsFresh 1 :=
    (firstCreate_status : (called.firstCreate routine arg).status 1 = _).trans (if_neg (by decide))
  rcases exists_created_of_limit client rfl belowThere other with ⟨found, foundFresh, creates⟩
  have notAlive : ¬limit.Alive found := by
    have started : limit.firstCall = false := rfl
    rw [Alive, started]
    exact fun alive => alive.1 foundFresh
  have alive_iff : ∀ tid, limit.Alive tid ↔ state.Alive tid := by
    intro tid
    have before : state.Alive tid ↔ tid = 0 := by
      rw [Alive, first]
      rfl
    exact (firstCreate_alive : (called.firstCreate routine arg).Alive tid ↔ _).trans before.symm
  refine ⟨limit.created client found routine arg, 0, some found, .head begins creates, rfl,
    .inl ⟨rfl, found, rfl, fun alive => notAlive ((alive_iff found).mpr alive), fun tid => ?_⟩,
    fun _ => rfl⟩
  rw [alive_created rfl, alive_iff]

end State

/-! ## Calls that are interrupted -/

/-- The entry that the search has found and that is not `READY` yet. -/
def CreatePoint.reserves : CreatePoint → Option Tid
  | .setup i | .publish i => some i
  | .start | .resumed | .limit | .search _ | .count _ | .finish .. => none

def Frame.reserves : Frame → Option Tid
  | .create _ _ point => point.reserves
  | .exit _ => none

/-- `SIGALRM` does not come between the end of a search and the `READY` store. -/
def Unraced (state : State User) : Action User → Prop
  | .alarm => ∀ point ∈ state.creating, point.reserves = none
  | .own _ | .call .. | .statement => True

instance (state : State User) (action : Action User) : Decidable (Unraced state action) :=
  match action with
  | .alarm => inferInstanceAs (Decidable (∀ point ∈ _, _ = _))
  | .own _ | .call .. | .statement => inferInstanceAs (Decidable True)

/-- The search of a call has passed no entry that was never used. -/
def Scanned (fresh : Tid → Prop) : Option Frame → Prop
  | some (.create _ _ (.search i)) => ∀ tid, fresh tid → i ≤ tid.val
  | _ => True

/-- A call that is not executed has no entry reserved. -/
structure Unreserved (fresh : Tid → Prop) (call : Option Frame) : Prop where
  scanned : Scanned fresh call
  reserves : ∀ frame ∈ call, frame.reserves = none

/-- Only the call on the processor has an entry reserved, which is still `FRESH`. -/
structure Reserved (state : State User) : Prop where
  started : state.firstCall = false
  scanned : Scanned state.IsFresh state.cpu.call
  claims : ∀ frame ∈ state.cpu.call, ∀ tid ∈ frame.reserves,
    state.cpu.schedulers = [] ∧ state.IsFresh tid
  saved : ∀ tid, ∀ context ∈ (state.tcb tid).reg, Unreserved state.IsFresh context.call

section Reserved

variable {fresh later : Tid → Prop} {call : Option Frame}

theorem Scanned.mono (scanned : Scanned fresh call) (fewer : ∀ tid, later tid → fresh tid) :
    Scanned later call := by
  unfold Scanned at *
  split at scanned
  · exact fun tid isFresh => scanned tid (fewer tid isFresh)
  · trivial

theorem Unreserved.mono (unreserved : Unreserved fresh call)
    (fewer : ∀ tid, later tid → fresh tid) : Unreserved later call :=
  ⟨unreserved.scanned.mono fewer, unreserved.reserves⟩

theorem Reserved.unreserved (reserved : Reserved state) (interrupted : state.cpu.schedulers ≠ []) :
    Unreserved state.IsFresh state.cpu.call := by
  refine ⟨reserved.scanned, fun frame isCall => Option.eq_none_iff_forall_not_mem.mpr ?_⟩
  exact fun tid reserves => interrupted (reserved.claims frame isCall tid reserves).1

theorem Reserved.goto (reserved : Reserved state) (started : after.firstCall = state.firstCall)
    (fewer : ∀ tid, after.IsFresh tid → state.IsFresh tid)
    (call : Unreserved state.IsFresh after.cpu.call)
    (saved : ∀ tid, ∀ context ∈ (after.tcb tid).reg,
      context ∈ (state.tcb tid).reg ∨ Unreserved state.IsFresh context.call) : Reserved after where
  started := started.trans reserved.started
  scanned := call.scanned.mono fewer
  claims frame isCall tid reserves := by
    rw [call.reserves frame isCall] at reserves
    cases reserves
  saved tid context isSaved := by
    refine Unreserved.mono ?_ fewer
    rcases saved tid context isSaved with before | unreserved
    · exact reserved.saved tid context before
    · exact unreserved

theorem setStatus_isFresh {tid other : Tid} {status : Status} (notFresh : status ≠ .fresh)
    (isFresh : (state.setStatus tid status).IsFresh other) : state.IsFresh other := by
  rw [State.IsFresh, State.setStatus_status] at isFresh
  split at isFresh
  · exact absurd isFresh notFresh
  · exact isFresh

namespace Reserved

theorem longjmp {target : Tid} (reserved : Reserved state)
    (executed : state.longjmp target = some after) : Reserved after := by
  rcases (State.longjmp_eq_some_iff _).mp executed with ⟨context, saved, rfl⟩
  refine reserved.goto rfl (fun _ isFresh => isFresh) ?_ fun _ _ before => .inl before
  exact reserved.saved target context saved

theorem scheduler {point : SchedulerPoint} {rest : List SchedulerPoint} (reserved : Reserved state)
    (frames : state.cpu.schedulers = point :: rest)
    (executed : state.scheduler rest point = some after) : Reserved after := by
  have unreserved : Unreserved state.IsFresh state.cpu.call :=
    reserved.unreserved (by rw [frames]; exact List.cons_ne_nil _ _)
  have goes : ∀ {after : State User}, after.firstCall = state.firstCall →
      after.tcb = state.tcb → after.cpu.call = state.cpu.call → Reserved after := by
    intro after started sameThreads sameCall
    refine reserved.goto started ?_ (sameCall ▸ unreserved) fun tid context isSaved => .inl ?_
    · intro tid isFresh
      rw [State.IsFresh, State.status, sameThreads] at isFresh
      exact isFresh
    · rw [sameThreads] at isSaved
      exact isSaved
  have marks : ∀ {status : Status} {next : SchedulerPoint}, status ≠ .fresh →
      Reserved ((state.setStatus state.currTid status).inScheduler rest next) := by
    intro status next notFresh
    refine reserved.goto rfl (fun _ => setStatus_isFresh notFresh) unreserved
      fun tid context isSaved => .inl ?_
    have sameReg := state.setStatus_reg state.currTid tid status
    exact sameReg ▸ isSaved
  cases point with
  | start | advance next | resumed | switch next =>
      cases executed
      exact goes rfl rfl rfl
  | search next =>
      simp only [State.scheduler] at executed
      split at executed
      next => split at executed <;> cases executed <;> exact goes rfl rfl rfl
      next => cases executed
  | chosen next =>
      simp only [State.scheduler] at executed
      split at executed <;> cases executed <;> exact goes rfl rfl rfl
  | ready next | run next =>
      cases executed
      exact marks (by decide)
  | save next =>
      cases executed
      refine reserved.goto rfl (fun tid isFresh => ?_) unreserved fun tid context isSaved => ?_
      · exact (state.setReg_status ..).symm.trans isFresh
      · change context ∈ ((state.setReg state.currTid _).tcb tid).reg at isSaved
        rw [State.setReg_reg] at isSaved
        split at isSaved
        · cases isSaved
          exact .inr unreserved
        · exact .inl isSaved
  | jump next => exact reserved.longjmp executed

theorem inCall {middle : State User} {frame : Frame} (reserved : Reserved state)
    (started : middle.firstCall = state.firstCall)
    (fewer : ∀ tid, middle.IsFresh tid → state.IsFresh tid)
    (reg : ∀ tid, (middle.tcb tid).reg = (state.tcb tid).reg)
    (scanned : Scanned state.IsFresh (some frame)) (reserves : frame.reserves = none) :
    Reserved (middle.inCall frame) := by
  refine reserved.goto started fewer ⟨scanned, ?_⟩ fun tid context isSaved => .inl ?_
  · intro other isCall
    cases isCall
    exact reserves
  · rw [← reg tid]
    exact isSaved

theorem pthreadCreate {point : CreatePoint} (reserved : Reserved state)
    (noSchedulers : state.cpu.schedulers = [])
    (called : state.cpu.call = some (.create routine arg point))
    (executed : state.pthreadCreate client routine arg point = some after) : Reserved after := by
  have moves : ∀ frame : Frame, Scanned state.IsFresh (some frame) → frame.reserves = none →
      Reserved (state.inCall frame) :=
    fun frame => reserved.inCall rfl (fun _ isFresh => isFresh) fun _ => rfl
  have scanned := reserved.scanned
  rw [called] at scanned
  cases point with
  | start =>
      simp only [State.pthreadCreate, reserved.started] at executed
      cases executed
      exact moves _ trivial rfl
  | resumed =>
      cases executed
      exact moves _ trivial rfl
  | limit =>
      simp only [State.pthreadCreate] at executed
      split at executed <;> cases executed
      · exact moves _ trivial rfl
      · exact moves _ (fun _ _ => Nat.zero_le _) rfl
  | search i =>
      simp only [State.pthreadCreate] at executed
      split at executed
      next inRange =>
          split at executed <;> cases executed
          next used =>
              refine moves _ (fun tid isFresh => ?_) rfl
              refine lt_of_le_of_ne (scanned tid isFresh) fun same => used ?_
              have here : tid = ⟨i, inRange⟩ := Fin.ext same.symm
              exact here ▸ isFresh
          next isFresh =>
              refine ⟨reserved.started, trivial, fun frame isCall tid reserves => ?_,
                reserved.saved⟩
              cases isCall
              cases reserves
              exact ⟨noSchedulers, not_not.mp isFresh⟩
      next => cases executed
  | setup i =>
      cases executed
      have isFresh := (reserved.claims _ called i rfl).2
      have same : ∀ tid, (((state.setStack i .allocated).setReg i
          (State.newContext client i routine arg)).IsFresh tid ↔ state.IsFresh tid) := by
        intro tid
        rw [State.IsFresh, State.setReg_status, State.setStack_status, State.IsFresh]
      refine ⟨reserved.started, trivial, fun frame isCall tid reserves => ?_,
        fun tid context isSaved => ?_⟩
      · cases isCall
        cases reserves
        exact ⟨noSchedulers, (same i).mpr isFresh⟩
      · refine Unreserved.mono ?_ fun other => (same other).mp
        change context ∈ (((state.setStack i .allocated).setReg i
          (State.newContext client i routine arg)).tcb tid).reg at isSaved
        rw [State.setReg_reg, State.setStack_reg] at isSaved
        split at isSaved
        · cases isSaved
          exact ⟨trivial, nofun⟩
        · exact reserved.saved tid context isSaved
  | publish i =>
      cases executed
      refine reserved.inCall rfl (fun _ => setStatus_isFresh (by decide)) ?_ trivial rfl
      exact fun tid => state.setStatus_reg i tid _
  | count i =>
      cases executed
      exact reserved.inCall rfl (fun _ isFresh => isFresh) (fun _ => rfl) trivial rfl
  | finish code thread =>
      cases executed
      exact reserved.goto rfl (fun _ isFresh => isFresh) ⟨trivial, nofun⟩ fun _ _ => .inl

theorem pthreadExit {point : ExitPoint} (reserved : Reserved state)
    (executed : state.pthreadExit point = some after) : Reserved after := by
  have moves : ∀ point : ExitPoint, Reserved (state.inCall (.exit point)) := fun point =>
    reserved.inCall rfl (fun _ isFresh => isFresh) (fun _ => rfl) trivial rfl
  cases point with
  | mark =>
      cases executed
      refine reserved.inCall rfl (fun _ => setStatus_isFresh (by decide)) ?_ trivial rfl
      exact fun tid => state.setStatus_reg _ tid _
  | free =>
      rcases Option.map_eq_some_iff.mp executed with ⟨freed, done, rfl⟩
      rcases State.freeStack_cases done with ⟨-, rfl⟩ | ⟨-, rfl⟩
      · exact moves _
      · refine reserved.inCall rfl (fun tid isFresh => ?_) (state.setStack_reg _ · _) trivial rfl
        exact (state.setStack_status ..).symm.trans isFresh
  | count =>
      cases executed
      exact reserved.inCall rfl (fun _ isFresh => isFresh) (fun _ => rfl) trivial rfl
  | search i =>
      simp only [State.pthreadExit] at executed
      split at executed
      next => split at executed <;> cases executed <;> exact moves _
      next =>
          cases executed
          exact moves _
  | mainJump => exact reserved.longjmp executed
  | schedule =>
      cases executed
      refine reserved.goto rfl (fun _ isFresh => isFresh) ⟨trivial, fun frame isCall => ?_⟩
        fun _ _ => .inl
      cases isCall
      rfl
  | finish => cases executed

theorem booted {user : User} {start : State User} (boots : Boots client user start) :
    Reserved start := by
  rcases boots with ⟨routine, arg, boots⟩
  cases boots
  refine ⟨rfl, trivial, fun frame isCall => ?_, fun tid context isSaved => ?_⟩
  · cases isCall
    exact nofun
  · change context ∈ ((((State.initial user).inCall (.create routine arg .start)).firstCreate
      routine arg).tcb tid).reg at isSaved
    rw [State.firstCreate, State.setReg_reg] at isSaved
    split at isSaved
    · cases isSaved
      refine ⟨trivial, fun frame isCall => ?_⟩
      cases isCall
      rfl
    · rw [State.setStatus_reg] at isSaved
      cases isSaved

theorem step {action : Action User} (reserved : Reserved state) (unraced : Unraced state action)
    (step : Step client state action after) : Reserved after := by
  rcases step.cases with ⟨user, rfl, inUserCode, rfl⟩ | ⟨call, user, rfl, inUserCode, rfl⟩ |
    ⟨frame, rfl, noSchedulers, called, executed⟩ | ⟨point, rest, rfl, frames, executed⟩ |
    ⟨rfl, rfl⟩
  · exact ⟨reserved.started, reserved.scanned, reserved.claims, reserved.saved⟩
  · refine reserved.inCall rfl (fun _ isFresh => isFresh) (fun _ => rfl) ?_ ?_ <;>
      cases call <;> trivial
  · cases frame with
    | create routine arg point => exact reserved.pthreadCreate noSchedulers called executed
    | exit point => exact reserved.pthreadExit executed
  · exact reserved.scheduler frames executed
  · refine reserved.goto rfl (fun _ isFresh => isFresh) ⟨reserved.scanned, ?_⟩ fun _ _ => .inl
    intro frame called
    refine Option.eq_none_iff_forall_not_mem.mpr fun tid reserves => ?_
    have noSchedulers := (reserved.claims frame called tid reserves).1
    cases frame with
    | create routine arg point =>
        have calledHere : state.cpu.call = some (.create routine arg point) := called
        have creating : state.creating = some point := by
          rw [State.creating, noSchedulers, calledHere]
        have nothing := unraced point creating
        rw [Frame.reserves, nothing] at reserves
        cases reserves
    | exit point => cases reserves

end Reserved

end Reserved

theorem reserved_of_run {user : User} {start : State User} (boots : Boots client user start)
    (run : RunUnder (Step client) Unraced start state) : Reserved state :=
  RunUnder.invariant Reserved (fun _ _ _ reserved unraced step => reserved.step unraced step)
    (.booted boots) run

theorem State.call_of_creating {point : CreatePoint} (creating : state.creating = some point) :
    ∃ routine arg, state.cpu.call = some (.create routine arg point) := by
  unfold State.creating at creating
  split at creating
  next called =>
      cases creating
      exact ⟨_, _, called⟩
  next => cases creating

/-! ## Both libraries -/

/-- In runs of the later library a creation answers as it has to as long as fewer than 127 threads
were created, whatever has exited; in Project 2, as long as the limit test and the search agree
with the entries.  There, calls that are interrupted keep to entries that nobody uses. -/
theorem pthreadCreate_answers {LaterUser : Type} {laterClient : Threads.Client LaterUser}
    {sems : Threads.SemId → Threads.SemInfo} {laterUser : LaterUser}
    {laterStart laterState : Threads.State LaterUser} {created : Nat}
    (onlyThreads : ∀ user call waiting, laterClient.calls user call waiting → call.OfThreads)
    (laterBoots : Threads.Boots laterClient sems laterUser laterStart)
    (laterRun : RunUnder (Threads.CountedStep laterClient) (fun _ _ => True) (laterStart, 1)
      (laterState, created))
    {user : User} {start : State User} (boots : Boots client user start)
    (run : RunUnder (Step client) Unraced start state) (routine arg : Value) :
    ((Threads.State.initial sems laterUser).Creates laterClient routine arg ∧
      (laterState.Creates laterClient routine arg ↔ created < 127)) ∧
    ((State.initial user).Creates client routine arg ∧
      (state.Creates client routine arg ↔
        state.totalThreads ≤ maxThreads ∧ (∃ tid, state.IsFresh tid) ∨
          state.totalThreads > maxThreads ∧ ∀ tid, state.Alive tid)) ∧
    (∀ tid, state.creating = some (.publish tid) → ¬state.Alive tid) ∧
    ∀ i tid, state.creating = some (.search i) → state.IsFresh tid → i < maxThreads := by
  have counted := Threads.counted_of_run onlyThreads laterBoots laterRun
  have reserved := reserved_of_run boots run
  have noThreads : (0 : Int) < maxThreads := by decide
  refine ⟨⟨Threads.State.creates_first rfl noThreads, counted.creates_iff routine arg⟩,
    ⟨State.creates_first rfl noThreads, State.creates_iff reserved.started⟩, ?_, ?_⟩
  · intro tid publishing
    rcases State.call_of_creating publishing with ⟨_, _, called⟩
    rw [State.Alive, reserved.started]
    exact fun alive => alive.1 (reserved.claims _ called tid rfl).2
  · intro i tid searching isFresh
    rcases State.call_of_creating searching with ⟨_, _, called⟩
    have scanned := reserved.scanned
    rw [called] at scanned
    exact lt_of_le_of_lt (scanned tid isFresh) tid.isLt

/-- The main thread is interrupted in the search of its second `pthread_create`, and thread 1
creates a thread meanwhile. -/
def createMeanwhile : List (Action Unit) :=
  List.replicate 7 .statement ++ [.call (.create 0 0) ()] ++ List.replicate 3 .statement ++
    [.alarm] ++ List.replicate 8 .statement ++ [.call (.create 0 0) ()] ++
    List.replicate 9 .statement

theorem pthreadCreate_answers_interrupted :
    ∃ (laterStart laterState : Threads.State Unit) (start state : State Unit),
      Threads.Boots Threads.threadsClient (fun _ => Threads.semInit 0) () laterStart ∧
      RunUnder (Threads.CountedStep Threads.threadsClient) (fun _ _ => True) (laterStart, 1)
        (laterState, 126) ∧
      laterState.Creates Threads.threadsClient 0 0 ∧
      Boots callsOnly () start ∧ RunUnder (Step callsOnly) Unraced start state ∧
      (state.currTid = 1 ∧ state.status 2 = .ready) ∧ state.Creates callsOnly 0 0 := by
  rcases Threads.exists_run_of_created (by decide : 125 < 127) with
    ⟨laterStart, laterState, laterBoots, laterRun, -⟩
  have evaluated : ((boot callsOnly () 0 0).bind
      (follow (attemptStep callsOnly Unraced) createMeanwhile)).any
      (fun state => (state.currTid = 1 ∧ state.status 2 = .ready) ∧
        state.totalThreads = 3 ∧ state.status 3 = .fresh) = true := by
    decide +kernel
  rcases exists_run_of_follow (fun _ _ _ _ attempted => step_of_attemptStep attempted)
    evaluated with ⟨start, state, booted, run, holds⟩
  rcases of_decide_eq_true holds with ⟨created, total, fresh⟩
  have boots : Boots callsOnly () start := ⟨0, 0, booted⟩
  rcases pthreadCreate_answers (fun _ _ _ ofThreads => ofThreads) laterBoots laterRun boots run
    0 0 with ⟨⟨-, later_iff⟩, ⟨-, creates_iff⟩, -⟩
  have below : state.totalThreads ≤ maxThreads := by
    rw [total]
    decide
  exact ⟨laterStart, laterState, start, state, laterBoots, laterRun, later_iff.mpr (by decide),
    boots, run, created, creates_iff.mpr (.inl ⟨below, 3, fresh⟩)⟩

/-- After 127 creations the next one accesses `TCB[128]`. -/
theorem pthreadCreate_answers_broken :
    ∃ start state : Threads.State Unit,
      Threads.Boots Threads.threadsClient (fun _ => Threads.semInit 0) () start ∧
      RunUnder (Threads.CountedStep Threads.threadsClient) (fun _ _ => True) (start, 1)
        (state, 127) ∧
      state.cpu.InUserCode ∧ state.pthreadCreate Threads.threadsClient 0 0 .start = none ∧
      ¬state.Creates Threads.threadsClient 0 0 := by
  rcases Threads.exists_run_of_created (by decide : 126 < 127) with
    ⟨start, state, boots, run, inUserCode⟩
  have counted := Threads.counted_of_run (fun _ _ _ ofThreads => ofThreads) boots run
  have notCreates : ¬state.Creates Threads.threadsClient 0 0 :=
    mt (counted.creates_iff 0 0).mp (Nat.lt_irrefl 127)
  refine ⟨start, state, boots, run, inUserCode, ?_, notCreates⟩
  rw [Threads.State.pthreadCreate, counted.started]
  refine Threads.State.createThread_eq_none counted.below fun tid isFresh => notCreates ?_
  exact (Threads.State.creates_iff counted.started).mpr ⟨counted.below, tid, isFresh⟩

end EC440.UserThreads
