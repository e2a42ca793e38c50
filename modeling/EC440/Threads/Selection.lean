import EC440.Library.CyclicSearch
import EC440.Threads.Runs

/-!
# The search of scheduler

Which thread `scheduler` chooses, for any statuses and any current thread.  The
search only looks at the statuses, so that its statements are followed on the
program points alone.  It starts at `curr_TID + 1`, which is not reduced: for
the last thread it is outside `TCB`.
-/

namespace EC440.Threads

open CyclicSearch Transition

/-! ## Program points -/

section Points

variable (ready : Tid → Prop) [DecidablePred ready] (curr : Tid)

def SchedulerPoint.advanceSearch : SchedulerPoint → Option SchedulerPoint
  | .start => some (.search (curr + 1))
  | .search next =>
      if inRange : next < maxThreads then
        if ¬ready ⟨next, inRange⟩ ∧ (⟨next, inRange⟩ : Tid) ≠ curr then
          some (.advance ⟨next, inRange⟩)
        else some (.chosen ⟨next, inRange⟩)
      else none
  | .advance next => some (.search ((next + 1) % maxThreads))
  | .chosen _ | .ready _ | .save _ | .resumed | .switch _ | .run _ | .jump _ => none

/-- `scheduler` is in its search. -/
def SchedulerPoint.inSearch : SchedulerPoint → Bool
  | .start | .search _ | .advance _ => true
  | .chosen _ | .ready _ | .save _ | .resumed | .switch _ | .run _ | .jump _ => false

def SearchStep (point next : SchedulerPoint) : Prop :=
  point.advanceSearch ready curr = some next

variable {ready curr} in
theorem SearchStep.inSearch {point next : SchedulerPoint}
    (follows : SearchStep ready curr point next) : point.inSearch = true := by
  cases point with
  | start | search _ | advance _ => rfl
  | chosen _ | ready _ | save _ | resumed | switch _ | run _ | jump _ => cases follows

theorem searchLoop :
    Loop (SearchStep ready curr) SchedulerPoint.search SchedulerPoint.chosen ready curr where
  ends next stops := by
    have ends : ¬(¬ready next ∧ next ≠ curr) := by
      rintro ⟨notReady, notCurr⟩
      exact stops.elim notReady notCurr
    exact .single ((dif_pos next.isLt).trans (if_neg ends))
  goesOn next notReady notCurr := by
    have looks : SearchStep ready curr (.search next) (.advance next) :=
      (dif_pos next.isLt).trans (if_pos ⟨notReady, notCurr⟩)
    exact .head looks (.single rfl)

theorem search_inRange (inside : curr.val + 1 < maxThreads) {point : SchedulerPoint}
    (searched : Relation.ReflTransGen (SearchStep ready curr) .start point) {next : Nat}
    (atIndex : point = .search next) : next < maxThreads := by
  rcases Relation.ReflTransGen.cases_tail searched with rfl | ⟨previous, -, last⟩
  · cases atIndex
  · subst atIndex
    cases previous with
    | start =>
        cases last
        exact inside
    | advance index =>
        cases last
        exact Nat.mod_lt _ (by decide)
    | search index =>
        simp only [SearchStep, SchedulerPoint.advanceSearch] at last
        split at last
        · split at last <;> cases last
        · cases last
    | chosen _ | ready _ | save _ | resumed | switch _ | run _ | jump _ => cases last

/-- The search of a machine that is at `image point` when it is at a point: it ends at the first
`READY` thread behind the current one, looks only at entries of `TCB`, and changes nothing but the
point. -/
structure SelectsInTurn {State : Type} (executes : State → State → Prop)
    (image : SchedulerPoint → State) : Prop where
  ends : ∃ chosen, First ready curr chosen ∧
    Relation.ReflTransGen executes (image .start) (image (.chosen chosen))
  inRange : ∀ next, Relation.ReflTransGen executes (image .start) (image (.search next)) →
    next < maxThreads
  only : ∀ middle, Relation.ReflTransGen executes (image .start) middle →
    ∃ point, middle = image point

/-- A machine that follows the points searches in turn just when the current thread is not the
last one. -/
theorem selectsInTurn_iff {State : Type} {executes : State → State → Prop}
    {image : SchedulerPoint → State} (injective : Function.Injective image)
    (executes_iff : ∀ point after, executes (image point) after ↔
      ∃ next, SearchStep ready curr point next ∧ after = image next) :
    SelectsInTurn ready curr executes image ↔ curr.val + 1 < maxThreads := by
  have run_iff : ∀ after, Relation.ReflTransGen executes (image .start) after ↔
      ∃ point, Relation.ReflTransGen (SearchStep ready curr) .start point ∧
        after = image point :=
    fun _ => reflTransGen_image_iff executes_iff
  constructor
  · intro selects
    apply selects.inRange
    exact (run_iff _).mpr ⟨.search (curr.val + 1), .single rfl, rfl⟩
  · intro inside
    constructor
    · rcases (searchLoop ready curr).first inside with ⟨chosen, first, finds⟩
      exact ⟨chosen, first, (run_iff _).mpr ⟨_, .head rfl finds, rfl⟩⟩
    · intro next searched
      rcases (run_iff _).mp searched with ⟨point, run, atPoint⟩
      exact search_inRange ready curr inside run (injective atPoint).symm
    · intro middle searched
      rcases (run_iff _).mp searched with ⟨point, -, atPoint⟩
      exact ⟨point, atPoint⟩

end Points

/-! ## The machine -/

variable {User : Type} {client : Client User} {state : State User}

/-- A statement of the search of `scheduler`. -/
def Searches (client : Client User) (before after : State User) : Prop :=
  (∃ frame rest, before.cpu.schedulers = frame :: rest ∧ frame.point.inSearch = true) ∧
    before.statement client = some after

theorem scheduler_of_inSearch {handler : Bool} {rest : List SchedulerFrame}
    {point : SchedulerPoint} (inSearch : point.inSearch = true) :
    (state.inScheduler handler rest point).scheduler handler rest point =
      (point.advanceSearch (fun tid => (state.tcb tid).status = .ready) state.currTid).map
        (state.inScheduler handler rest) := by
  cases point with
  | start | advance next => rfl
  | search next =>
      simp only [State.scheduler, SchedulerPoint.advanceSearch]
      split
      next inRange =>
          by_cases goesOn : (state.tcb ⟨next, inRange⟩).status ≠ .ready ∧
            (⟨next, inRange⟩ : Tid) ≠ state.currTid
          · rw [if_pos goesOn]
            exact if_pos goesOn
          · rw [if_neg goesOn]
            exact if_neg goesOn
      next => rfl
  | chosen _ | ready _ | save _ | resumed | switch _ | run _ | jump _ => cases inSearch

/-- The machine searches as the points follow each other. -/
theorem searches_iff (handler : Bool) (rest : List SchedulerFrame) (point : SchedulerPoint)
    (after : State User) :
    Searches client (state.inScheduler handler rest point) after ↔
      ∃ next, SearchStep (fun tid => (state.tcb tid).status = .ready) state.currTid point next ∧
        after = state.inScheduler handler rest next := by
  constructor
  · rintro ⟨⟨frame, others, frames, inSearch⟩, executed⟩
    cases frames
    have moved : (state.inScheduler handler rest point).scheduler handler rest point =
        some after := executed
    rw [scheduler_of_inSearch inSearch] at moved
    rcases Option.map_eq_some_iff.mp moved with ⟨next, follows, rfl⟩
    exact ⟨next, follows, rfl⟩
  · rintro ⟨next, follows, rfl⟩
    refine ⟨⟨_, rest, rfl, follows.inSearch⟩, (scheduler_of_inSearch follows.inSearch).trans ?_⟩
    exact congrArg _ follows

theorem inScheduler_injective (state : State User) (handler : Bool)
    (rest : List SchedulerFrame) : Function.Injective (state.inScheduler handler rest) := by
  intro point other same
  have frames := congrArg (fun state => state.cpu.schedulers) same
  injection frames with sameFrame
  injection sameFrame

end EC440.Threads
