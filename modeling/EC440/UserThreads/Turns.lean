import EC440.Library.CyclicSearch
import EC440.UserThreads.Exits

/-!
# Searches and a waiting thread

A thread that is `READY` waits for its turn.  The search of `scheduler` cannot
pass by it, so that no call of `scheduler` that has not passed by it before
will, whether it executes or is saved with a thread that was interrupted in it.
-/

namespace EC440.UserThreads

open Threads (maxThreads Tid Value SchedulerPoint)
open CyclicSearch

variable {User : Type} {client : Client User} {state after : State User} {tid curr : Tid}
  {status : Tid → Status} {schedulers rest : List SchedulerPoint} {action : Action User}

/-! ## Calls of scheduler -/

/-- A call of `scheduler` on behalf of `curr` has not passed by the thread. -/
def InTurn (tid curr : Tid) : SchedulerPoint → Prop
  | .start | .resumed | .run _ | .jump _ => True
  | .search next => ∀ inRange : next < maxThreads, place curr ⟨next, inRange⟩ ≤ place curr tid
  | .advance next => next ≠ curr ∧ place curr next < place curr tid
  | .chosen next | .ready next | .save next | .switch next => place curr next ≤ place curr tid

/-- The same for all calls up to one that is never returned to. -/
def AllInTurn (tid curr : Tid) : List SchedulerPoint → Prop
  | [] => True
  | .jump _ :: _ => True
  | point :: rest => InTurn tid curr point ∧ AllInTurn tid curr rest

/-- The same where the processor is: what is below a call matters if it can still be saved. -/
def ExecutesInTurn (tid : Tid) (status : Tid → Status) (curr : Tid) : List SchedulerPoint → Prop
  | [] => True
  | point :: rest =>
      InTurn tid curr point ∧ (MaySave status curr point → AllInTurn tid curr rest)

theorem AllInTurn.executes (allInTurn : AllInTurn tid curr schedulers) :
    ExecutesInTurn tid status curr schedulers := by
  cases schedulers with
  | nil => trivial
  | cons point rest =>
      cases point with
      | jump next => exact ⟨trivial, False.elim⟩
      | start | search | advance | chosen | ready | save | resumed | switch | run =>
          exact ⟨allInTurn.1, fun _ => allInTurn.2⟩

theorem ExecutesInTurn.interrupted (executes : ExecutesInTurn tid status curr schedulers) :
    ExecutesInTurn tid status curr (.start :: schedulers) := by
  refine ⟨trivial, fun isRunning => ?_⟩
  cases schedulers with
  | nil => trivial
  | cons point rest =>
      rcases executes with ⟨inTurn, below⟩
      cases point with
      | jump next => trivial
      | save next => exact ⟨inTurn, below trivial⟩
      | start | search | advance | chosen | ready | resumed | switch | run =>
          exact ⟨inTurn, below isRunning⟩

theorem inTurn_start : InTurn tid curr (.search (curr.val + 1)) := by
  intro inRange
  have isOne : place curr ⟨curr.val + 1, inRange⟩ = 1 := by
    rw [place, if_pos (Nat.lt_succ_self _)]
    exact Nat.add_sub_cancel_left ..
  rw [isOne]
  exact place_pos curr tid

theorem InTurn.advance {next : Tid} (inTurn : InTurn tid curr (.advance next)) :
    InTurn tid curr (.search ((next.val + 1) % maxThreads)) := by
  rcases inTurn with ⟨other, inFront⟩
  intro inRange
  rw [place_next other rfl]
  exact inFront

/-- The search does not pass by a thread that is `READY`, nor by the current one. -/
theorem InTurn.search {next : Nat} (inTurn : InTurn tid state.currTid (.search next))
    (waits : state.status tid = .ready ∨ tid = state.currTid)
    (executed : state.scheduler rest (.search next) = some after) :
    ∃ point, after = state.inScheduler rest point ∧ InTurn tid state.currTid point ∧
      (MaySave state.status state.currTid point → state.status state.currTid = .running) := by
  simp only [State.scheduler] at executed
  split at executed
  next inRange =>
      have notBehind := inTurn inRange
      split at executed
      next passes =>
          cases executed
          refine ⟨_, rfl, ⟨passes.2, lt_of_le_of_ne notBehind fun same => ?_⟩, id⟩
          have isNext := place_injective _ same
          rcases waits with isReady | isCurr
          · exact passes.1 (isNext ▸ isReady)
          · exact passes.2 (isNext.trans isCurr)
      next =>
          cases executed
          exact ⟨_, rfl, notBehind, id⟩
  next => cases executed

/-! ## The library -/

/-- No call of `scheduler`, saved or under way, has passed by the thread. -/
structure State.Fair (state : State User) (tid : Tid) : Prop where
  executes : ExecutesInTurn tid state.status state.currTid state.cpu.schedulers
  saved : ∀ other context, (state.tcb other).reg = some context →
    AllInTurn tid other context.schedulers

/-- What a statement of a call of the library does to the contexts.  Only the jump of
`pthread_exit` to the main thread goes on elsewhere. -/
structure KeepsContexts (state after : State User) (frame : Frame) : Prop where
  current : after.currTid = state.currTid
  executes : after.cpu.schedulers = [] ∨ after.cpu.schedulers = [.start] ∨
    frame = .exit .mainJump ∧ (state.tcb 0).reg = some after.cpu
  saved : ∀ other context, (after.tcb other).reg = some context →
    (state.tcb other).reg = some context ∨ context.schedulers = []

namespace KeepsContexts

variable {frame : Frame}

theorem of_reg (noSchedulers : after.cpu.schedulers = []) (current : after.currTid = state.currTid)
    (saved : ∀ other, (after.tcb other).reg = (state.tcb other).reg) :
    KeepsContexts state after frame where
  current := current
  executes := .inl noSchedulers
  saved := fun other _ inEntry => .inl ((saved other) ▸ inEntry)

theorem of_setReg {middle : State User} {target : Tid} {context : Context User} {other : Frame}
    (noSchedulers : middle.cpu.schedulers = []) (stored : context.schedulers = [])
    (current : middle.currTid = state.currTid)
    (saved : ∀ other, (middle.tcb other).reg = (state.tcb other).reg) :
    KeepsContexts state ((middle.setReg target context).inCall other) frame where
  current := current
  executes := .inl noSchedulers
  saved := by
    intro entry inEntry found
    change ((middle.setReg target context).tcb entry).reg = some inEntry at found
    rw [State.setReg_reg] at found
    split at found
    next =>
        cases found
        exact .inr stored
    next => exact .inl (saved entry ▸ found)

end KeepsContexts

theorem pthreadCreate_keepsContexts {routine arg : Value} {point : CreatePoint}
    (noSchedulers : state.cpu.schedulers = [])
    (executed : state.pthreadCreate client routine arg point = some after) :
    KeepsContexts state after (.create routine arg point) := by
  cases point with
  | start =>
      simp only [State.pthreadCreate] at executed
      split at executed
      next =>
          cases executed
          refine .of_setReg noSchedulers noSchedulers rfl fun other => ?_
          exact State.setStatus_reg ..
      next =>
          cases executed
          exact .of_reg noSchedulers rfl fun _ => rfl
  | resumed | count | finish =>
      cases executed
      exact .of_reg noSchedulers rfl fun _ => rfl
  | publish i =>
      cases executed
      exact .of_reg noSchedulers rfl (State.setStatus_reg state i · .ready)
  | setup i =>
      cases executed
      refine .of_setReg noSchedulers ?_ rfl (State.setStack_reg state i · .allocated)
      rfl
  | limit =>
      simp only [State.pthreadCreate] at executed
      split at executed
      all_goals
        cases executed
        exact .of_reg noSchedulers rfl fun _ => rfl
  | search i =>
      simp only [State.pthreadCreate] at executed
      split at executed
      next =>
          split at executed
          all_goals
            cases executed
            exact .of_reg noSchedulers rfl fun _ => rfl
      next => cases executed

theorem pthreadExit_keepsContexts {point : ExitPoint} (noSchedulers : state.cpu.schedulers = [])
    (executed : state.pthreadExit point = some after) :
    KeepsContexts state after (.exit point) := by
  cases point with
  | mark =>
      cases executed
      exact .of_reg noSchedulers rfl (State.setStatus_reg state state.currTid · .exited)
  | free =>
      rcases Option.map_eq_some_iff.mp executed with ⟨freed, freeing, rfl⟩
      rcases State.freeStack_cases freeing with ⟨-, rfl⟩ | ⟨-, rfl⟩
      · exact .of_reg noSchedulers rfl fun _ => rfl
      · exact .of_reg noSchedulers rfl (State.setStack_reg state state.currTid · .freed)
  | count =>
      cases executed
      exact .of_reg noSchedulers rfl fun _ => rfl
  | search i =>
      simp only [State.pthreadExit] at executed
      split at executed
      · split at executed
        all_goals
          cases executed
          exact .of_reg noSchedulers rfl fun _ => rfl
      · cases executed
        exact .of_reg noSchedulers rfl fun _ => rfl
  | mainJump =>
      rcases (state.longjmp_eq_some_iff).mp executed with ⟨context, inEntry, rfl⟩
      exact ⟨rfl, .inr (.inr ⟨rfl, inEntry⟩), fun _ _ found => .inl found⟩
  | schedule =>
      cases executed
      exact ⟨rfl, .inr (.inl rfl), fun _ _ found => .inl found⟩
  | finish => cases executed

theorem callStatement_keepsContexts {frame : Frame} (noSchedulers : state.cpu.schedulers = [])
    (executed : state.callStatement client frame = some after) :
    KeepsContexts state after frame := by
  cases frame with
  | create routine arg point => exact pthreadCreate_keepsContexts noSchedulers executed
  | exit point => exact pthreadExit_keepsContexts noSchedulers executed

/-! ## Orderly steps -/

namespace Orderly

theorem exit_step {point : ExitPoint} (orderly : Orderly state)
    (noSchedulers : state.cpu.schedulers = [])
    (called : state.cpu.call = some (.exit point)) (ends : state.SearchEnds)
    (executed : state.pthreadExit point = some after) : Orderly after := by
  have fits := orderly.executes.callFits noSchedulers
  rw [called] at fits
  cases point with
  | mark =>
      cases executed
      exact orderly.exit_mark_step noSchedulers
  | free =>
      rcases Option.map_eq_some_iff.mp executed with ⟨freed, freeing, rfl⟩
      exact orderly.exit_free_step noSchedulers fits freeing
  | count =>
      cases executed
      exact (orderly.setTotal (state.totalThreads - 1)).inExit noSchedulers fits
  | search index =>
      have inRange : index < maxThreads := by
        unfold State.SearchEnds at ends
        rw [State.exiting_eq_some_iff.mpr ⟨noSchedulers, called⟩] at ends
        exact ends
      exact (orderly.exit_search_step noSchedulers fits inRange executed).1
  | schedule => exact (orderly.exit_schedule_step fits executed).1
  | mainJump | finish => exact fits.elim

theorem step (orderly : Orderly state) (undisturbed : Undisturbed state action)
    (step : Step client state action after) : Orderly after := by
  rcases step.cases with ⟨user, rfl, inUserCode, rfl⟩ | ⟨call, user, rfl, inUserCode, rfl⟩ |
    ⟨frame, rfl, noSchedulers, called, executed⟩ | ⟨point, rest, rfl, frames, executed⟩ |
    ⟨rfl, rfl⟩
  · exact (orderly.own_step inUserCode).1
  · exact (orderly.call_step inUserCode).1
  · cases frame with
    | create routine arg point => exact (orderly.create_step noSchedulers called executed).1
    | exit point => exact orderly.exit_step noSchedulers called undisturbed executed
  · exact (orderly.scheduler_step frames executed).1
  · exact (orderly.interrupt_step undisturbed.1 undisturbed.2).1

/-- In an undisturbed run the statuses stay orderly. -/
theorem of_run {user : User} {start : State User} (boots : Boots client user start)
    (run : Transition.RunUnder (Step client) Undisturbed start state) : Orderly state := by
  rcases boots with ⟨routine, arg, booted⟩
  rw [boot_eq] at booted
  cases booted
  refine run.invariant Orderly ?_ (entered_orderly user routine arg)
  intro before action after orderly undisturbed step
  exact orderly.step undisturbed step

end Orderly

end EC440.UserThreads
