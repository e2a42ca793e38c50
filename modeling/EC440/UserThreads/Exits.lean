import EC440.UserThreads.Orderly
import Mathlib.Algebra.BigOperators.Group.Finset.Basic
import Mathlib.Data.Fintype.BigOperators

/-!
# The end of threads

In an undisturbed run every exit is accounted for exactly once, and a thread
that has exited is never dispatched again.  When `pthread_exit` finds no thread
that is `READY`, its jump to the main thread leaves `curr_TID` behind.
-/

namespace EC440.UserThreads

open Threads (maxThreads Tid Value Stack SchedulerPoint)
open Transition

variable {User : Type} {client : Client User} {state after : State User} {ledger : Ledger}
  {action : Action User} {tid : Tid}

/-! ## The balance of the ledger -/

/-- The ledger against the library: one exit for each entry that is `EXITED`. -/
structure Balanced (state : State User) (ledger : Ledger) : Prop where
  marks : ∀ tid, ledger.marks tid = if state.status tid = .exited then 1 else 0
  frees : ∀ tid, ledger.frees tid =
    if state.status tid = .exited ∧ ¬(tid = state.currTid ∧ state.exiting = some .free)
    then 1 else 0
  decrements : ∀ tid, ledger.decrements tid =
    if state.status tid = .exited ∧ ¬(tid = state.currTid ∧
      (state.exiting = some .free ∨ state.exiting = some .count)) then 1 else 0
  freed : ∀ tid, (state.tcb tid).stack = .freed → ledger.frees tid = 1
  allocated : ∀ tid, (state.tcb tid).stack = .allocated → ledger.frees tid = 0
  total : state.totalThreads = ledger.increments - ∑ tid, (ledger.decrements tid : Int)

namespace Balanced

theorem of_noExit {counted : Nat} (balanced : Balanced state ledger) (settled : state.Settled)
    (noExit : NoExit state after counted) :
    Balanced after { ledger with increments := ledger.increments + counted } where
  marks tid := by simp only [balanced.marks, noExit.exited]
  frees tid := by
    simp only [balanced.frees, noExit.exited, settled.1, noExit.settled.1, and_false]
  decrements tid := by
    simp only [balanced.decrements, noExit.exited, settled.1, settled.2, noExit.settled.1,
      noExit.settled.2, or_self, and_false]
  freed tid isFreed := by
    rcases noExit.stack tid with same | ⟨-, isAllocated⟩
    · exact balanced.freed tid (same ▸ isFreed)
    · exact absurd (isFreed.symm.trans isAllocated) (by decide)
  allocated tid isAllocated := by
    rcases noExit.stack tid with same | ⟨isFresh, -⟩
    · exact balanced.allocated tid (same ▸ isAllocated)
    · rw [balanced.frees, if_neg]
      rintro ⟨exited, -⟩
      exact absurd (isFresh.symm.trans exited) (by decide)
  total := by
    rw [noExit.total, balanced.total]
    push_cast
    omega

theorem sum_bump (counts : Tid → Nat) (tid : Tid) :
    ∑ other, (bump counts tid other : Int) = ∑ other, (counts other : Int) + 1 := by
  simp [bump_apply, Finset.sum_add_distrib]

section Exit

variable (balanced : Balanced state ledger) (curr : after.currTid = state.currTid)

include balanced curr

theorem mark (exiting : state.exiting = some .mark) (exitingAfter : after.exiting = some .free)
    (running : state.status state.currTid = .running)
    (status : ∀ tid, after.status tid =
      if tid = state.currTid then .exited else state.status tid)
    (stack : ∀ tid, (after.tcb tid).stack = (state.tcb tid).stack)
    (total : after.totalThreads = state.totalThreads) :
    Balanced after { ledger with marks := bump ledger.marks state.currTid } := by
  constructor
  case marks =>
      intro tid
      simp only [bump_apply, balanced.marks, status]
      by_cases same : tid = state.currTid <;> simp [same, running]
  case frees =>
      intro tid
      simp only [balanced.frees, status, curr, exiting, exitingAfter]
      by_cases same : tid = state.currTid <;> simp [same, running]
  case decrements =>
      intro tid
      simp only [balanced.decrements, status, curr, exiting, exitingAfter]
      by_cases same : tid = state.currTid <;> simp [same, running]
  case freed =>
      intro tid isFreed
      rw [stack] at isFreed
      exact balanced.freed tid isFreed
  case allocated =>
      intro tid isAllocated
      rw [stack] at isAllocated
      exact balanced.allocated tid isAllocated
  case total => exact total.trans balanced.total

theorem free (exiting : state.exiting = some .free) (exitingAfter : after.exiting = some .count)
    (exited : state.status state.currTid = .exited)
    (status : ∀ tid, after.status tid = state.status tid)
    (stack : ∀ tid, tid ≠ state.currTid → (after.tcb tid).stack = (state.tcb tid).stack)
    (notAllocated : (after.tcb state.currTid).stack ≠ .allocated)
    (total : after.totalThreads = state.totalThreads) :
    Balanced after { ledger with frees := bump ledger.frees state.currTid } := by
  have notYet : ledger.frees state.currTid = 0 := by
    rw [balanced.frees, if_neg]
    exact fun isFreed => isFreed.2 ⟨rfl, exiting⟩
  constructor
  case marks =>
      intro tid
      simp only [balanced.marks, status]
  case frees =>
      intro tid
      simp only [bump_apply, status, curr, exitingAfter]
      by_cases same : tid = state.currTid
      · simp [same, notYet, exited]
      · simp [same, balanced.frees]
  case decrements =>
      intro tid
      simp only [balanced.decrements, status, curr, exiting, exitingAfter]
      simp
  case freed =>
      intro tid isFreed
      simp only [bump_apply]
      by_cases same : tid = state.currTid
      · simp [same, notYet]
      · rw [stack tid same] at isFreed
        simp [same, balanced.freed tid isFreed]
  case allocated =>
      intro tid isAllocated
      have other : tid ≠ state.currTid := by
        rintro rfl
        exact notAllocated isAllocated
      rw [stack tid other] at isAllocated
      simp [bump_apply, other, balanced.allocated tid isAllocated]
  case total => exact total.trans balanced.total

omit curr in
theorem count (exiting : state.exiting = some .count)
    (settled : after.Settled)
    (exited : state.status state.currTid = .exited) (tcb : after.tcb = state.tcb)
    (total : after.totalThreads = state.totalThreads - 1) :
    Balanced after { ledger with decrements := bump ledger.decrements state.currTid } := by
  have status : ∀ tid, after.status tid = state.status tid := by
    intro tid
    rw [State.status, State.status, tcb]
  constructor
  case marks =>
      intro tid
      simp only [balanced.marks, status]
  case frees =>
      intro tid
      simp only [balanced.frees, status, exiting, settled.1]
      simp
  case decrements =>
      intro tid
      simp only [bump_apply, balanced.decrements, status, exiting, settled.1, settled.2]
      by_cases same : tid = state.currTid <;> simp [same, exited]
  case freed =>
      intro tid isFreed
      rw [tcb] at isFreed
      exact balanced.freed tid isFreed
  case allocated =>
      intro tid isAllocated
      rw [tcb] at isAllocated
      exact balanced.allocated tid isAllocated
  case total =>
      change _ = (ledger.increments : Int) - ∑ tid, (bump ledger.decrements state.currTid tid : Int)
      rw [sum_bump, total, balanced.total]
      omega

end Exit

end Balanced

/-! ## Steps -/

/-- The statuses are orderly, the ledger is balanced, and nobody has come back to life. -/
structure Follows (before after : State User × Ledger) : Prop where
  orderly : Orderly after.1
  balanced : Balanced after.1 after.2
  exited : ∀ tid, before.1.status tid = .exited → after.1.status tid = .exited

theorem settled_of_frames {point : SchedulerPoint} {rest : List SchedulerPoint}
    (frames : state.cpu.schedulers = point :: rest) : state.Settled := by
  simp [State.Settled, State.exiting, frames]

theorem settled_of_notInWindow (notInWindow : ¬state.InWindow) : state.Settled := by
  constructor
  all_goals
    intro exiting
    rcases State.exiting_eq_some_iff.mp exiting with ⟨noSchedulers, called⟩
    apply notInWindow
    simp [State.InWindow, noSchedulers, called]

theorem Follows.of_noExit {counted : Nat} (balanced : Balanced state ledger)
    (settled : state.Settled) (kept : Orderly after ∧ NoExit state after counted)
    (recorded : ledger.record state action =
      { ledger with increments := ledger.increments + counted }) :
    Follows (state, ledger) (after, ledger.record state action) where
  orderly := kept.1
  balanced := recorded ▸ balanced.of_noExit settled kept.2
  exited := fun tid => (kept.2.exited tid).mpr

section Exit

variable (orderly : Orderly state) (balanced : Balanced state ledger)
  (noSchedulers : state.cpu.schedulers = [])

include orderly balanced noSchedulers

theorem Orderly.mark_follows (exiting : state.exiting = some .mark)
    (running : state.status state.currTid = .running) :
    Follows (state, ledger) ((state.setStatus state.currTid .exited).inCall (.exit .free),
      { ledger with marks := bump ledger.marks state.currTid }) := by
  have status := (State.setStatus_status state state.currTid · .exited)
  have stack := (State.setStatus_stack state state.currTid · .exited)
  constructor
  case orderly => exact orderly.exit_mark_step noSchedulers
  case balanced =>
      exact balanced.mark rfl exiting (State.exiting_inCall noSchedulers) running status stack rfl
  case exited =>
      intro tid exited
      refine (status tid).trans ?_
      split
      · rfl
      · exact exited

theorem Orderly.free_follows (exiting : state.exiting = some .free)
    (exited : state.status state.currTid = .exited) {freed : State User}
    (freeing : state.freeStack state.currTid = some freed) :
    Follows (state, ledger) (freed.inCall (.exit .count),
      { ledger with frees := bump ledger.frees state.currTid }) := by
  have orderlyAfter := orderly.exit_free_step noSchedulers exited freeing
  rcases State.freeStack_cases freeing with ⟨isNull, rfl⟩ | ⟨-, rfl⟩
  · refine ⟨orderlyAfter, ?_, fun _ exited => exited⟩
    refine balanced.free rfl exiting (State.exiting_inCall noSchedulers) exited
      (fun _ => rfl) (fun _ _ => rfl) ?_ rfl
    exact fun isAllocated => absurd (isNull.symm.trans isAllocated) (by decide)
  · have status := (State.setStack_status state state.currTid · .freed)
    have stack := (State.setStack_stack state state.currTid · .freed)
    refine ⟨orderlyAfter, ?_, fun tid exited => (status tid).trans exited⟩
    refine balanced.free rfl exiting (State.exiting_inCall noSchedulers) exited status
      (fun tid other => (stack tid).trans (if_neg other)) ?_ rfl
    have isFreed := (stack state.currTid).trans (if_pos rfl)
    exact fun isAllocated => absurd (isFreed.symm.trans isAllocated) (by decide)

theorem Orderly.count_follows (exiting : state.exiting = some .count)
    (exited : state.status state.currTid = .exited) :
    Follows (state, ledger)
      ({ state with totalThreads := state.totalThreads - 1 }.inCall (.exit (.search 1)),
        { ledger with decrements := bump ledger.decrements state.currTid }) where
  orderly := (orderly.setTotal (state.totalThreads - 1)).inExit noSchedulers exited
  balanced := balanced.count exiting (State.settled_inExit nofun nofun) exited rfl rfl
  exited := fun _ exited => exited

theorem Orderly.exit_follows {point : ExitPoint}
    (called : state.cpu.call = some (.exit point)) (ends : state.SearchEnds)
    (executed : state.pthreadExit point = some after) :
    Follows (state, ledger) (after, ledger.record state .statement) := by
  have exiting := State.exiting_eq_some_iff.mpr ⟨noSchedulers, called⟩
  have fits := orderly.executes.callFits noSchedulers
  rw [called] at fits
  have recorded : ledger.record state .statement = match point with
      | .mark => { ledger with marks := bump ledger.marks state.currTid }
      | .free => { ledger with frees := bump ledger.frees state.currTid }
      | .count => { ledger with decrements := bump ledger.decrements state.currTid }
      | .search _ | .mainJump | .schedule | .finish => ledger := by
    cases point <;> simp [Ledger.record, exiting, State.creating, noSchedulers, called]
  cases point with
  | mark =>
      cases executed
      exact recorded ▸ orderly.mark_follows balanced noSchedulers exiting fits.1
  | free =>
      rcases Option.map_eq_some_iff.mp executed with ⟨freed, freeing, rfl⟩
      exact recorded ▸ orderly.free_follows balanced noSchedulers exiting fits freeing
  | count =>
      cases executed
      exact recorded ▸ orderly.count_follows balanced noSchedulers exiting fits
  | search index =>
      have inRange : index < maxThreads := by
        unfold State.SearchEnds at ends
        rw [exiting] at ends
        exact ends
      exact .of_noExit balanced ⟨by simp [exiting], by simp [exiting]⟩
        (orderly.exit_search_step noSchedulers fits inRange executed) recorded
  | schedule =>
      exact .of_noExit balanced ⟨by simp [exiting], by simp [exiting]⟩
        (orderly.exit_schedule_step fits executed) recorded
  | mainJump | finish => exact fits.elim

end Exit

theorem Orderly.create_follows (orderly : Orderly state) (balanced : Balanced state ledger)
    {routine arg : Value} {point : CreatePoint} (noSchedulers : state.cpu.schedulers = [])
    (called : state.cpu.call = some (.create routine arg point))
    (executed : state.pthreadCreate client routine arg point = some after) :
    Follows (state, ledger) (after, ledger.record state .statement) := by
  have fits := orderly.executes.callFits noSchedulers
  rw [called] at fits
  refine .of_noExit balanced (orderly.settled fits.1.1)
    (orderly.create_step noSchedulers called executed) ?_
  cases point <;>
    simp [Ledger.record, State.exiting, State.creating, noSchedulers, called,
      CreatePoint.counted]

theorem Orderly.follows {recordedAfter : State User × Ledger} (orderly : Orderly state)
    (balanced : Balanced state ledger) (undisturbed : Undisturbed state action)
    (step : RecordedStep client (state, ledger) action recordedAfter) :
    Follows (state, ledger) recordedAfter := by
  rcases recordedAfter with ⟨after, ledgerAfter⟩
  obtain ⟨step, rfl⟩ : Step client state action after ∧ ledgerAfter = ledger.record state action :=
    step
  rcases step.cases with ⟨user, rfl, inUserCode, rfl⟩ | ⟨call, user, rfl, inUserCode, rfl⟩ |
    ⟨frame, rfl, noSchedulers, called, executed⟩ | ⟨point, rest, rfl, frames, executed⟩ |
    ⟨rfl, rfl⟩
  · refine .of_noExit balanced (orderly.settled (orderly.own_of_inUserCode inUserCode).1)
      (orderly.own_step inUserCode) ?_
    rfl
  · refine .of_noExit balanced (orderly.settled (orderly.own_of_inUserCode inUserCode).1)
      (orderly.call_step inUserCode) ?_
    rfl
  · cases frame with
    | create routine arg point =>
        exact orderly.create_follows balanced noSchedulers called executed
    | exit point => exact orderly.exit_follows balanced noSchedulers called undisturbed executed
  · refine .of_noExit balanced (settled_of_frames frames) (orderly.scheduler_step frames executed) ?_
    simp [Ledger.record, State.exiting, State.creating, frames]
  · refine .of_noExit balanced (settled_of_notInWindow undisturbed.1)
      (orderly.interrupt_step undisturbed.1 undisturbed.2) ?_
    rfl

/-! ## The start of a run -/

/-- The main thread behind its `setjmp`. -/
def State.entered (user : User) (routine arg : Value) : State User :=
  (((State.initial user).inCall (.create routine arg .start)).firstCreate routine arg).inCall
    (.create routine arg .limit)

theorem boot_eq (user : User) (routine arg : Value) :
    boot client user routine arg = some (State.entered user routine arg) :=
  rfl

theorem entered_status (user : User) (routine arg : Value) (tid : Tid) :
    (State.entered user routine arg).status tid = if tid = 0 then .running else .fresh := by
  by_cases main : tid = 0 <;>
    simp [State.entered, State.firstCreate, State.inCall, State.initSystem, State.setStatus,
      State.setReg, State.status, main]

theorem entered_orderly (user : User) (routine arg : Value) :
    Orderly (State.entered user routine arg) := by
  constructor
  case started => rfl
  case running =>
      intro tid isRunning
      rw [entered_status] at isRunning
      split at isRunning
      · assumption
      · cases isRunning
  case current =>
      rw [entered_status]
      exact nofun
  case executes => exact ⟨⟨entered_status user routine arg 0, rfl⟩, trivial⟩
  case saved =>
      intro tid context inEntry
      by_cases main : tid = 0
      · subst main
        cases inEntry
        exact ⟨rfl, trivial⟩
      · simp [State.entered, State.firstCreate, State.initSystem, State.initial, State.inCall,
          State.setReg, State.setStatus, main] at inEntry
  case main => rfl

theorem entered_balanced (user : User) (routine arg : Value) :
    Balanced (State.entered user routine arg) .start := by
  have notExited : ∀ tid, (State.entered user routine arg).status tid ≠ .exited := by
    intro tid
    rw [entered_status]
    split <;> exact nofun
  have stack : ∀ tid, ((State.entered user routine arg).tcb tid).stack = .null := by
    intro tid
    by_cases main : tid = 0 <;>
      simp [State.entered, State.firstCreate, State.inCall, State.initSystem, State.setStatus,
        State.setReg, State.initial, main]
  constructor
  case marks => exact fun tid => (if_neg (notExited tid)).symm
  case frees => exact fun tid => (if_neg fun isFreed => notExited tid isFreed.1).symm
  case decrements => exact fun tid => (if_neg fun counted => notExited tid counted.1).symm
  case freed =>
      intro tid isFreed
      exact absurd ((stack tid).symm.trans isFreed) (by decide)
  case allocated =>
      intro tid isAllocated
      rfl
  case total =>
      have nothing : ∑ tid, (Ledger.start.decrements tid : Int) = 0 := by simp [Ledger.start]
      rw [nothing]
      rfl

/-! ## Exits in order -/

/-- A thread executes: its program, `pthread_create` or the first statement of
`pthread_exit`. -/
def Context.Executes (context : Context User) : Prop :=
  context.schedulers = [] ∧
    match context.call with
    | none | some (.create ..) | some (.exit .mark) => True
    | some (.exit _) => False

def State.dispatched (state : State User) : Option Tid :=
  match state.cpu.schedulers, state.cpu.call with
  | .switch next :: _, _ | .run next :: _, _ | .jump next :: _, _ => some next
  | [], some (.exit .mainJump) => some 0
  | _, _ => none

/-- The thread that executes is `curr_TID` and `RUNNING`, no thread that has exited is
dispatched, no stack is freed twice, and the ledger is balanced. -/
structure InOrder (state : State User) (ledger : Ledger) : Prop where
  executes : state.cpu.Executes →
    state.currTid = state.cpu.owner ∧ state.status state.currTid = .running
  dispatched : ∀ tid ∈ state.dispatched, state.status tid ≠ .exited
  freeable : state.exiting = some .free → (state.tcb state.currTid).stack ≠ .freed
  balanced : Balanced state ledger

theorem Orderly.inOrder (orderly : Orderly state) (balanced : Balanced state ledger) :
    InOrder state ledger := by
  have fits := orderly.executes
  constructor
  case executes =>
      intro executes
      have callFits := fits.callFits executes.1
      have inThread := executes.2
      revert callFits inThread
      rcases state.cpu.call with _ | _ | point
      · exact fun own _ => ⟨own.2.symm, own.1⟩
      · exact fun own _ => ⟨own.1.2.symm, own.1.1⟩
      · cases point
        case mark => exact fun own _ => ⟨own.2.symm, own.1⟩
        all_goals exact fun _ => False.elim
  case dispatched =>
      intro tid membership exited
      unfold State.dispatched at membership
      split at membership
      next frames =>
          cases membership
          rw [Context.Fits, frames] at fits
          exact absurd (fits.1.2.symm.trans exited) (by decide)
      next frames =>
          cases membership
          rw [Context.Fits, frames] at fits
          exact absurd (fits.1.2.symm.trans (fits.1.1 ▸ exited)) (by decide)
      next frames =>
          cases membership
          rw [Context.Fits, frames] at fits
          exact absurd (fits.1.2.symm.trans (fits.1.1 ▸ exited)) (by decide)
      next noSchedulers called =>
          have callFits := fits.callFits noSchedulers
          rw [called] at callFits
          exact callFits
      next => cases membership
  case freeable =>
      intro exiting isFreed
      have once := balanced.freed _ isFreed
      rw [balanced.frees, if_neg fun isFreed => isFreed.2 ⟨rfl, exiting⟩] at once
      cases once
  case balanced => exact balanced

/-! ## Runs -/

theorem follows_of_run {before after : State User × Ledger} (orderly : Orderly before.1)
    (balanced : Balanced before.1 before.2)
    (run : RunUnder (RecordedStep client) (fun recorded action => Undisturbed recorded.1 action)
      before after) : Follows before after := by
  refine run.invariant (Follows before) ?_ ⟨orderly, balanced, fun _ exited => exited⟩
  intro middle action last follows undisturbed step
  have next := follows.orderly.follows follows.balanced undisturbed step
  exact ⟨next.orderly, next.balanced, fun tid exited => next.exited tid (follows.exited tid exited)⟩

/-- Without a thread that is `READY`, `pthread_exit` jumps to the main thread and leaves the
entry of the current thread `EXITED`. -/
theorem Orderly.jumps_to_main (orderly : Orderly state) {index : Nat}
    (exiting : state.exiting = some (.search index)) (notFound : ¬index < maxThreads) :
    ∃ leaving jumped, state.statement client = some leaving ∧
      leaving.statement client = some jumped ∧ (state.tcb 0).reg = some jumped.cpu ∧
      jumped.status jumped.currTid = .exited := by
  rcases State.exiting_eq_some_iff.mp exiting with ⟨noSchedulers, called⟩
  have exited := orderly.executes.callFits noSchedulers
  rw [called] at exited
  rcases Option.isSome_iff_exists.mp orderly.main with ⟨saved, inEntry⟩
  refine ⟨state.inCall (.exit .mainJump), { state with cpu := saved }, ?_, ?_, inEntry, exited⟩
  · simp [State.statement, noSchedulers, called, State.callStatement, State.pthreadExit, notFound]
  · have jumping : (state.inCall (.exit .mainJump)).statement client =
        (state.inCall (.exit .mainJump)).longjmp 0 := by
      simp [State.statement, State.inCall, noSchedulers, State.callStatement, State.pthreadExit]
    exact jumping.trans (((state.inCall (.exit .mainJump)).longjmp_eq_some_iff).mpr
      ⟨saved, inEntry, rfl⟩)

/-- In an undisturbed run every exit is in order and who has exited stays so.  A search of
`pthread_exit` that finds nobody ends with the main thread in the place of another one. -/
theorem threadEndings {client : Client User} {user : User} {start state : State User}
    {ledger : Ledger} (boots : Boots client user start)
    (run : RunUnder (RecordedStep client) (fun recorded action => Undisturbed recorded.1 action)
      (start, .start) (state, ledger)) :
    InOrder state ledger ∧
    (∀ later tid, state.status tid = .exited →
      RunUnder (RecordedStep client) (fun recorded action => Undisturbed recorded.1 action)
        (state, ledger) later → later.1.status tid = .exited) ∧
    (∀ index, state.exiting = some (.search index) → ¬index < maxThreads →
      ∃ leaving jumped, state.statement client = some leaving ∧
        leaving.statement client = some jumped ∧ (state.tcb 0).reg = some jumped.cpu ∧
        jumped.status jumped.currTid = .exited) := by
  rcases boots with ⟨routine, arg, booted⟩
  rw [boot_eq] at booted
  cases booted
  have follows := follows_of_run (entered_orderly user routine arg)
    (entered_balanced user routine arg) run
  refine ⟨follows.orderly.inOrder follows.balanced, ?_, ?_⟩
  · intro later tid exited further
    exact (follows_of_run follows.orderly follows.balanced further).exited tid exited
  · intro index exiting notFound
    exact follows.orderly.jumps_to_main exiting notFound

/-! ## Runs of three threads -/

def exitToOther : List (Action Unit) :=
  List.replicate 7 .statement ++ [.call (.create 0 0) ()] ++ List.replicate 9 .statement ++
    [.alarm] ++ List.replicate 8 .statement ++ [.call .exit ()] ++ List.replicate 12 .statement

theorem threadEndings_two :
    ∃ (start state : State Unit) (ledger : Ledger), Boots callsOnly () start ∧
      RunUnder (RecordedStep callsOnly) (fun recorded action => Undisturbed recorded.1 action)
        (start, .start) (state, ledger) ∧
      (state.cpu.InUserCode ∧ state.currTid = 2 ∧ state.status 1 = .exited) ∧
      InOrder state ledger ∧
      (∀ later tid, state.status tid = .exited →
        RunUnder (RecordedStep callsOnly) (fun recorded action => Undisturbed recorded.1 action)
          (state, ledger) later → later.1.status tid = .exited) := by
  have evaluated : (((boot callsOnly () 0 0).map (·, Ledger.start)).bind
      (follow (attempt callsOnly Undisturbed) exitToOther)).any
      (fun recorded => recorded.1.cpu.InUserCode ∧ recorded.1.currTid = 2 ∧
        recorded.1.status 1 = .exited) = true := by
    decide +kernel
  rcases exists_run_of_follow (fun _ _ _ _ attempted => step_of_attempt attempted) evaluated with
    ⟨first, ⟨state, ledger⟩, started, run, holds⟩
  rcases Option.map_eq_some_iff.mp started with ⟨start, booted, rfl⟩
  have endings := threadEndings ⟨0, 0, booted⟩ run
  exact ⟨start, state, ledger, ⟨0, 0, booted⟩, run, of_decide_eq_true holds, endings.1, endings.2.1⟩

/-- The main thread is preempted by thread 1, which exits while no thread but the main one is
`READY`. -/
def exitToMain : List (Action Unit) :=
  List.replicate 7 .statement ++ [.alarm] ++ List.replicate 8 .statement ++ [.call .exit ()] ++
    List.replicate 133 .statement

theorem threadEndings_broken :
    ¬∀ (client : Client Unit) (user : Unit) (start state : State Unit) (ledger : Ledger),
      Boots client user start →
      RunUnder (RecordedStep client) (fun _ _ => True) (start, .start) (state, ledger) →
      InOrder state ledger := by
  intro always
  have evaluated : (((boot callsOnly () 0 0).map (·, Ledger.start)).bind
      (follow (attempt callsOnly fun _ _ => True) exitToMain)).any
      (fun recorded => recorded.1.cpu.InUserCode ∧ recorded.1.cpu.owner = 0 ∧
        recorded.1.status recorded.1.currTid = .exited) = true := by
    decide +kernel
  rcases exists_run_of_follow (fun _ _ _ _ attempted => step_of_attempt attempted) evaluated with
    ⟨first, ⟨state, ledger⟩, started, run, holds⟩
  rcases Option.map_eq_some_iff.mp started with ⟨start, booted, rfl⟩
  rcases of_decide_eq_true holds with ⟨inUserCode, -, exited⟩
  have inOrder := always callsOnly () start state ledger ⟨0, 0, booted⟩ run
  have executes : state.cpu.Executes := ⟨inUserCode.2, by rw [inUserCode.1]; trivial⟩
  exact absurd (exited.symm.trans (inOrder.executes executes).2) (by decide)

end EC440.UserThreads
