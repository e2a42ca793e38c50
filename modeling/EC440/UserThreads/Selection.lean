import EC440.Threads.Selection
import EC440.UserThreads.Runs

/-!
# The search of both schedulers

The `scheduler` of Project 2 searches like the one of the later library.
-/

namespace EC440.UserThreads

open Threads (maxThreads Tid SchedulerPoint SchedulerFrame SearchStep SelectsInTurn)

variable {User : Type} {client : Client User} {state : State User}

/-- A statement of the search of `scheduler`. -/
def Searches (client : Client User) (before after : State User) : Prop :=
  (∃ point rest, before.cpu.schedulers = point :: rest ∧ point.inSearch = true) ∧
    before.statement client = some after

theorem scheduler_of_inSearch {rest : List SchedulerPoint} {point : SchedulerPoint}
    (inSearch : point.inSearch = true) :
    (state.inScheduler rest point).scheduler rest point =
      (point.advanceSearch (fun tid => state.status tid = .ready) state.currTid).map
        (state.inScheduler rest) := by
  cases point with
  | start | advance next => rfl
  | search next =>
      simp only [State.scheduler, SchedulerPoint.advanceSearch]
      split
      next inRange =>
          by_cases goesOn : state.status ⟨next, inRange⟩ ≠ .ready ∧
            (⟨next, inRange⟩ : Tid) ≠ state.currTid
          · rw [if_pos goesOn]
            exact if_pos goesOn
          · rw [if_neg goesOn]
            exact if_neg goesOn
      next => rfl
  | chosen _ | ready _ | save _ | resumed | switch _ | run _ | jump _ => cases inSearch

/-- The machine searches as the points follow each other. -/
theorem searches_iff (rest : List SchedulerPoint) (point : SchedulerPoint) (after : State User) :
    Searches client (state.inScheduler rest point) after ↔
      ∃ next, SearchStep (fun tid => state.status tid = .ready) state.currTid point next ∧
        after = state.inScheduler rest next := by
  constructor
  · rintro ⟨⟨top, others, frames, inSearch⟩, executed⟩
    cases frames
    have moved : (state.inScheduler rest point).scheduler rest point = some after := executed
    rw [scheduler_of_inSearch inSearch] at moved
    rcases Option.map_eq_some_iff.mp moved with ⟨next, follows, rfl⟩
    exact ⟨next, follows, rfl⟩
  · rintro ⟨next, follows, rfl⟩
    refine ⟨⟨_, rest, rfl, follows.inSearch⟩, (scheduler_of_inSearch follows.inSearch).trans ?_⟩
    exact congrArg _ follows

theorem inScheduler_injective (state : State User) (rest : List SchedulerPoint) :
    Function.Injective (state.inScheduler rest) := by
  intro point other same
  have frames := congrArg (fun state => state.cpu.schedulers) same
  injection frames

/-- Both schedulers choose in turn for any statuses and any current thread but the last one, from
which the search starts outside `TCB`. -/
theorem schedulers_selectInTurn {LaterUser : Type} (client : Client User) (state : State User)
    (rest : List SchedulerPoint) (laterClient : Threads.Client LaterUser)
    (laterState : Threads.State LaterUser) (handler : Bool) (laterRest : List SchedulerFrame) :
    (SelectsInTurn (fun tid => state.status tid = .ready) state.currTid (Searches client)
        (state.inScheduler rest) ↔
      state.currTid.val + 1 < maxThreads) ∧
    (SelectsInTurn (fun tid => (laterState.tcb tid).status = .ready) laterState.currTid
        (Threads.Searches laterClient) (laterState.inScheduler handler laterRest) ↔
      laterState.currTid.val + 1 < maxThreads) := by
  constructor
  · exact Threads.selectsInTurn_iff _ _ (inScheduler_injective state rest) (searches_iff rest)
  · exact Threads.selectsInTurn_iff _ _ (Threads.inScheduler_injective laterState handler laterRest)
      (Threads.searches_iff handler laterRest)

/-! ## The last thread -/

/-- The last thread is `RUNNING`, all others are `READY`. -/
def lastRunning : State Unit where
  currTid := Fin.last 127
  tcb := fun tid =>
    { status := if tid = Fin.last 127 then .running else .ready, stack := .allocated, reg := none }
  totalThreads := 128
  firstCall := false
  cpu := { owner := Fin.last 127, user := (), call := none, schedulers := [] }

def lastRunningLater : Threads.State Unit :=
  { Threads.State.initial (fun _ => Threads.semInit 0) () with
    currTid := Fin.last 127
    tcb := fun tid =>
      { Threads.Thread.zero Unit with
        status := if tid = Fin.last 127 then .running else .ready, joining := none }
    totalThreads := 128
    firstCall := false
    cpu := { owner := Fin.last 127, user := (), call := none, schedulers := [] } }

/-- The searches look at `TCB[128]`, although the main thread is `READY`. -/
theorem schedulers_selectInTurn_last :
    (Searches callsOnly (lastRunning.inScheduler [] .start)
        (lastRunning.inScheduler [] (.search maxThreads)) ∧
      (lastRunning.inScheduler [] (.search maxThreads)).statement callsOnly = none ∧
      ¬SelectsInTurn (fun tid => lastRunning.status tid = .ready) lastRunning.currTid
        (Searches callsOnly) (lastRunning.inScheduler [])) ∧
    (Threads.Searches Threads.idleClient (lastRunningLater.inScheduler true [] .start)
        (lastRunningLater.inScheduler true [] (.search maxThreads)) ∧
      (lastRunningLater.inScheduler true [] (.search maxThreads)).statement Threads.idleClient = none ∧
      ¬SelectsInTurn (fun tid => (lastRunningLater.tcb tid).status = .ready)
        lastRunningLater.currTid (Threads.Searches Threads.idleClient)
        (lastRunningLater.inScheduler true [])) := by
  constructor
  · refine ⟨(searches_iff ..).mpr ⟨_, rfl, rfl⟩, rfl, fun selects => ?_⟩
    have inRange := selects.inRange maxThreads (.single ((searches_iff ..).mpr ⟨_, rfl, rfl⟩))
    exact absurd inRange (Nat.lt_irrefl _)
  · refine ⟨(Threads.searches_iff ..).mpr ⟨_, rfl, rfl⟩, rfl, fun selects => ?_⟩
    have inRange := selects.inRange maxThreads
      (.single ((Threads.searches_iff ..).mpr ⟨_, rfl, rfl⟩))
    exact absurd inRange (Nat.lt_irrefl _)

end EC440.UserThreads
