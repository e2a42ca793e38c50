import EC440.Threads.Running

/-!
# A semaphore as a mutex

Programs that call `sem_wait` in front of a critical section and `sem_post`
behind it.  A thread can go on from the processor or from a saved context,
and a context holds the semaphore from the decrement in `sem_wait` to the
increment in `sem_post`, or until `sem_post` gives it to a waiting thread.
-/

namespace EC440.Threads

variable {User : Type} {client : Client User} {mutex : SemId} {critical : User → Prop}
  {state after : State User} {context : Context User}

/-! ## Programs -/

/-- The programs are in their critical sections from the return of `sem_wait` to the call of
`sem_post`, and neither exit nor join there. -/
structure Discipline (client : Client User) (mutex : SemId) (critical : User → Prop) : Prop where
  start : ∀ routine arg, ¬critical (client.start routine arg)
  own : ∀ user next, client.own user next → (critical next ↔ critical user)
  calls : ∀ user (call : Call) waiting, client.calls user call waiting →
    match call with
    | .create .. => critical waiting ↔ critical user
    | .exit _ | .join _ => ¬critical user ∧ ¬critical waiting
    | .semWait sem => sem = mutex ∧ ¬critical user ∧ ¬critical waiting
    | .semPost sem => sem = mutex ∧ critical user ∧ ¬critical waiting
  returns : ∀ user (call : Call) result,
    match call with
    | .create .. | .exit _ | .join _ | .semPost _ =>
        critical (client.returns user call result) ↔ critical user
    | .semWait _ => result.code = 0 → critical (client.returns user call result)

def Context.Obeys (mutex : SemId) (critical : User → Prop) (context : Context User) : Prop :=
  match context.call with
  | none | some (.create ..) => True
  | some (.exit ..) | some (.join ..) => ¬critical context.user
  | some (.semWait sem _) | some (.semPost sem _) => sem = mutex ∧ ¬critical context.user

def Context.Holds (critical : User → Prop) (context : Context User) : Prop :=
  match context.call with
  | none | some (.create ..) => critical context.user
  | some (.exit ..) | some (.join ..) => False
  | some (.semWait _ point) =>
      match point with
      | .finish code => code = 0
      | .start | .test | .block | .find _ | .insert _ | .schedule | .woken | .positive
      | .decrement => False
  | some (.semPost _ point) =>
      match point with
      | .finish _ => False
      | .start | .zero | .scan _ | .found _ | .clear .. | .grant _ | .jump _ | .positive
      | .increment => True

theorem Context.Obeys.holds_of_critical (obeys : context.Obeys mutex critical)
    (inside : critical context.user) : context.Holds critical := by
  rcases context with ⟨owner, user, call, schedulers⟩
  cases call with
  | none => exact inside
  | some frame =>
      cases frame with
      | create routine arg point => exact inside
      | exit value point | join thread point => exact absurd inside obeys
      | semWait sem point | semPost sem point => exact absurd inside obeys.2

theorem Context.Obeys.resume (obeys : context.Obeys mutex critical) (value : Nat) :
    (context.resume value).Obeys mutex critical := by
  unfold Context.resume
  split
  next _ inExit =>
      rw [Context.Obeys, inExit] at obeys
      exact obeys
  next => exact obeys

theorem Context.holds_resume (context : Context User) (value : Nat) :
    (context.resume value).Holds critical ↔ context.Holds critical := by
  unfold Context.resume
  split
  next _ inExit => simp [Context.Holds, inExit]
  next => rfl

/-! ## Places -/

/-- The context executes a `scheduler` behind its `setjmp`. -/
def Context.abandoned (context : Context User) : Bool :=
  context.schedulers.any fun frame => frame.point.abandoned

/-- The next statement is the `setjmp` of `scheduler`. -/
def Context.atSave (context : Context User) : Bool :=
  match context.schedulers with
  | { handler := _, point := .save _ } :: _ => true
  | _ => false

/-- The thread that the next statement, the `longjmp` of `scheduler`, jumps to. -/
def Context.jumpTarget (context : Context User) : Option Tid :=
  match context.schedulers with
  | { handler := _, point := .jump next } :: _ => some next
  | _ => none

/-- Where a thread may go on: on the processor, if `scheduler` has not left it, from a saved
context that `scheduler` may choose, and from the one it has chosen. -/
inductive Place (state : State User) : Option Tid → Context User → Prop
  | processor (live : state.cpu.abandoned = false) : Place state none state.cpu
  | preempted {slot : Tid} {context : Context User} (ready : (state.tcb slot).status = .ready)
      (isSaved : state.cpu.atSave = true → slot ≠ state.currTid)
      (reg : (state.tcb slot).reg = some context) : Place state (some slot) context
  | chosen {slot : Tid} {context : Context User} (next : state.cpu.jumpTarget = some slot)
      (reg : (state.tcb slot).reg = some context) : Place state (some slot) context

/-- Except on the way to the `setjmp`, every `READY` thread may go on from what it has saved. -/
theorem Place.of_ready {slot : Tid} (notSaving : state.cpu.atSave = false)
    (ready : (state.tcb slot).status = .ready) (reg : (state.tcb slot).reg = some context) :
    Place state (some slot) context := by
  refine .preempted ready (fun saving => ?_) reg
  rw [notSaving] at saving
  cases saving

theorem Place.of_setSem {sem : SemId} {info : SemInfo} {frame : Frame} {slot : Tid}
    (atPlace : Place ((state.setSem sem info).inCall frame) (some slot) context) :
    Place state (some slot) context := by
  cases atPlace with
  | preempted ready isSaved reg => exact .preempted ready isSaved reg
  | chosen next reg => exact .chosen next reg

def Inside (critical : User → Prop) (state : State User) (tid : Tid) : Prop :=
  ∃ place context, Place state place context ∧ context.owner = tid ∧ critical context.user

/-- The semaphore is free or at one place. -/
structure Owned (mutex : SemId) (critical : User → Prop) (state : State User) : Prop where
  range : (state.sems mutex).val = 0 ∨ (state.sems mutex).val = 1
  free : (state.sems mutex).val = 1 → ∀ place context, Place state place context →
    ¬context.Holds critical
  unique : ∀ place context other second, Place state place context → Place state other second →
    context.Holds critical → second.Holds critical → place = other

namespace Owned

theorem of_places (owned : Owned mutex critical state)
    (sameVal : (after.sems mutex).val = (state.sems mutex).val)
    (origin : Option Tid → Option Tid)
    (injective : ∀ place context other second, Place after place context →
      Place after other second → origin place = origin other → place = other)
    (held : ∀ place context, Place after place context → context.Holds critical →
      ∃ before, Place state (origin place) before ∧ before.Holds critical) :
    Owned mutex critical after where
  range := by
    rw [sameVal]
    exact owned.range
  free := by
    intro isFree place context atPlace holds
    rw [sameVal] at isFree
    rcases held place context atPlace holds with ⟨before, wasPlace, held⟩
    exact owned.free isFree _ before wasPlace held
  unique := by
    intro place context other second atPlace atOther holds otherHolds
    rcases held place context atPlace holds with ⟨before, wasPlace, wasHeld⟩
    rcases held other second atOther otherHolds with ⟨otherBefore, wasOther, otherHeld⟩
    exact injective place context other second atPlace atOther
      (owned.unique _ _ _ _ wasPlace wasOther wasHeld otherHeld)

theorem of_subset (owned : Owned mutex critical state)
    (sameVal : (after.sems mutex).val = (state.sems mutex).val)
    (held : ∀ place context, Place after place context → context.Holds critical →
      ∃ before, Place state place before ∧ before.Holds critical) :
    Owned mutex critical after :=
  owned.of_places sameVal id (fun _ _ _ _ _ _ same => same) held

theorem val_of_holds (owned : Owned mutex critical state) {place : Option Tid}
    (atPlace : Place state place context) (holds : context.Holds critical) :
    (state.sems mutex).val = 0 := by
  rcases owned.range with zero | one
  · exact zero
  · exact absurd holds (owned.free one place context atPlace)

theorem taken (owned : Owned mutex critical state) (wasFree : (state.sems mutex).val = 1)
    (isTaken : (after.sems mutex).val = 0)
    (slots : ∀ slot context, Place after (some slot) context →
      Place state (some slot) context) : Owned mutex critical after where
  range := .inl isTaken
  free := by
    intro isFree
    rw [isTaken] at isFree
    cases isFree
  unique := by
    have nowhere : ∀ slot context, Place after (some slot) context → ¬context.Holds critical :=
      fun slot context atPlace => owned.free wasFree _ context (slots slot context atPlace)
    intro place context other second atPlace atOther holds otherHolds
    cases place with
    | some slot => exact absurd holds (nowhere slot context atPlace)
    | none =>
        cases other with
        | some slot => exact absurd otherHolds (nowhere slot second atOther)
        | none => rfl

theorem given (owned : Owned mutex critical state) (live : state.cpu.abandoned = false)
    (held : state.cpu.Holds critical) (isFree : (after.sems mutex).val = 1)
    (notHolds : ¬after.cpu.Holds critical)
    (slots : ∀ slot context, Place after (some slot) context →
      Place state (some slot) context) : Owned mutex critical after := by
  have nobody : ∀ place context, Place after place context → ¬context.Holds critical := by
    intro place context atPlace holds
    cases place with
    | none =>
        cases atPlace
        exact notHolds holds
    | some slot =>
        have same := owned.unique none state.cpu (some slot) context (.processor live)
          (slots slot context atPlace) held holds
        cases same
  constructor
  case range => exact .inr isFree
  case free => exact fun _ => nobody
  case unique =>
      intro place context other second atPlace _ holds _
      exact absurd holds (nobody place context atPlace)

end Owned

/-- No two threads are inside their critical sections. -/
theorem Owned.inside_eq (owned : Owned mutex critical state)
    (obeys : ∀ place context, Place state place context → context.Obeys mutex critical)
    {tid other : Tid} (inside : Inside critical state tid)
    (otherInside : Inside critical state other) : tid = other := by
  rcases inside with ⟨place, context, atPlace, rfl, isCritical⟩
  rcases otherInside with ⟨otherPlace, second, atOther, rfl, otherCritical⟩
  have holds := (obeys place context atPlace).holds_of_critical isCritical
  have otherHolds := (obeys otherPlace second atOther).holds_of_critical otherCritical
  have samePlace := owned.unique _ _ _ _ atPlace atOther holds otherHolds
  subst samePlace
  cases atPlace with
  | processor live =>
      cases atOther with
      | processor _ => rfl
  | preempted ready isSaved reg | chosen next reg =>
      cases atOther with
      | preempted otherReady otherSaved otherReg | chosen otherNext otherReg =>
          rw [reg] at otherReg
          cases otherReg
          rfl

end EC440.Threads
