import EC440.Library.Transition
import EC440.LocalStorage.Operations

/-!
# Interleaved calls of tls_read and tls_write

Several threads are inside `tls_read` and `tls_write` at the same time.  Each
`mprotect` and each copy of bytes is one step, and the steps of different
threads follow each other in any order.
-/

namespace EC440.LocalStorage

open State

inductive Access where
  | read
  | write
  deriving DecidableEq

/-- Where a thread is in `tls_read` or `tls_write`, with the local variables of the loops. -/
inductive Phase where
  /-- The loop of `tls_unprotect`. -/
  | unprotect (i : Nat)
  /-- The loop over the bytes. -/
  | copy (i : Nat) (indx : Int32)
  /-- `tls_protect(main_page)` in `tls_write`, after the page has been copied. -/
  | leave (i : Nat) (indx : Int32) (mainPage copy : PagePtr)
  /-- `*dst = buffer[i]` in `tls_write`, after that. -/
  | store (i : Nat) (indx : Int32) (copy : PagePtr)
  /-- The loop of `tls_protect`. -/
  | protect (i : Nat)
  deriving DecidableEq

/-- A call that has passed its checks. -/
structure Activity where
  access : Access
  pointer : ElementPtr
  offset : UInt32
  length : UInt32
  buffer : Buffer
  phase : Phase

/-- The process, with the calls that its threads are in and what their last calls returned. -/
structure Program where
  state : State
  threads : Tid → Option Activity
  replies : Tid → Option Reply

def Program.start (state : State) : Program where
  state
  threads _ := none
  replies _ := none

namespace Program

variable (program : Program)

def goto (tid : Tid) (activity : Activity) (state : State) : Program :=
  { program with state, threads := Function.update program.threads tid (some activity) }

def finish (tid : Tid) (access : Access) (code : Int32) (buffer : Buffer) : Program :=
  let buffer := match access with
    | .read => some buffer
    | .write => none
  { program with
    threads := Function.update program.threads tid none
    replies := Function.update program.replies tid (some { code, buffer }) }

@[simp]
theorem goto_self (tid : Tid) (activity : Activity) (state : State) :
    (program.goto tid activity state).threads tid = some activity :=
  Function.update_self ..

theorem goto_of_ne {tid other : Tid} (distinct : other ≠ tid) (activity : Activity)
    (state : State) : (program.goto tid activity state).threads other = program.threads other :=
  Function.update_of_ne distinct ..

@[simp]
theorem finish_self (tid : Tid) (access : Access) (code : Int32) (buffer : Buffer) :
    (program.finish tid access code buffer).threads tid = none :=
  Function.update_self ..

theorem finish_of_ne {tid other : Tid} (distinct : other ≠ tid) (access : Access) (code : Int32)
    (buffer : Buffer) :
    (program.finish tid access code buffer).threads other = program.threads other :=
  Function.update_of_ne distinct ..

/-- The checks of `tls_read` and `tls_write`. -/
def enter (tid : Tid) (access : Access) (offset length : UInt32) (buffer : Buffer) :
    Outcome Program := do
  match ← hashSearch program.state tid with
  | none => .ok (program.finish tid access (-1) buffer)
  | some pointer =>
      let workingTls := (← program.state.element pointer).tls
      if offset + length > workingTls.size then
        .ok (program.finish tid access (-1) buffer)
      else
        .ok (program.goto tid { access, pointer, offset, length, buffer, phase := .unprotect 0 }
          program.state)

end Program

/-- The first part of the branch of `tls_write` for a shared page: the page is copied and the
slot set to the copy. -/
def copyShared (kernel : Kernel) (state : State) (pointer : ElementPtr) (element : HashElement)
    (workingPage : Nat) (mainPage : PagePtr) (main : Page) : Outcome (PagePtr × State) :=
  match kernel.mmap state.memory .writeOnly with
  | none => .error .mapFailed
  | some (address, memory) => do
      let source ← load memory main.address
      let memory ← store memory address (copyPage state.pageSize source)
      .ok (state.nextPage, replaceSlot (addPage state address memory) pointer element workingPage
        mainPage main state.nextPage)

/-- The other part protects the page that is left behind. -/
theorem copyOnWrite_eq_copyShared (kernel : Kernel) (state : State) (pointer : ElementPtr)
    (element : HashElement) (workingPage : Nat) (mainPage : PagePtr) (main : Page) :
    copyOnWrite kernel state pointer element workingPage mainPage main =
      copyShared kernel state pointer element workingPage mainPage main >>= (fun result => do
        .ok (result.1, ← tlsProtect result.2 mainPage)) := by
  unfold copyOnWrite copyShared
  cases kernel.mmap state.memory .writeOnly with
  | none => rfl
  | some mapped =>
      rcases mapped with ⟨address, memory⟩
      simp only [bind, Except.bind]
      cases loaded : load memory main.address with
      | error stop => rfl
      | ok source =>
          cases stored : store memory address (copyPage state.pageSize source) with
          | error stop => simp only [stored]
          | ok memory' => simp only [stored]

/-- The next byte of `tls_write`, or the copy that has to be made for it. -/
def writeStep (kernel : Kernel) (state : State) (activity : Activity) (i : Nat) (indx : Int32) :
    Outcome (State × Phase) := do
  let element ← state.element activity.pointer
  let workingPage := (indx / state.pageSize).toUInt32.toNat
  let pageOffset := (indx % state.pageSize).toUInt32.toNat
  let mainPage ← slot element.tls.pages workingPage
  let main ← state.page mainPage
  if main.refCount > 1 then
    let (copy, state) ← copyShared kernel state activity.pointer element workingPage mainPage main
    .ok (state, .leave i indx mainPage copy)
  else
    let state ← storeByte state mainPage pageOffset (activity.buffer i)
    .ok (state, .copy (i + 1) (← increment indx))

def Program.advance (program : Program) (kernel : Kernel) (tid : Tid) (activity : Activity) :
    Outcome Program := do
  let state := program.state
  let workingTls := (← state.element activity.pointer).tls
  match activity.phase with
  | .unprotect i =>
      if i < workingTls.pageNum.toNat then
        let state ← tlsUnprotect state (← slot workingTls.pages i)
        .ok (program.goto tid { activity with phase := .unprotect (i + 1) } state)
      else
        .ok (program.goto tid { activity with phase := .copy 0 activity.offset.toInt32 } state)
  | .copy i indx =>
      if indx.toUInt32 < activity.offset + activity.length then
        match activity.access with
        | .read =>
            let byte ← readByte activity.pointer state indx
            let buffer := Function.update activity.buffer i byte
            let phase := .copy (i + 1) (← increment indx)
            .ok (program.goto tid { activity with buffer, phase } state)
        | .write =>
            let (state, phase) ← writeStep kernel state activity i indx
            .ok (program.goto tid { activity with phase } state)
      else
        .ok (program.goto tid { activity with phase := .protect 0 } state)
  | .leave i indx mainPage copy =>
      let state ← tlsProtect state mainPage
      .ok (program.goto tid { activity with phase := .store i indx copy } state)
  | .store i indx copy =>
      let pageOffset := (indx % state.pageSize).toUInt32.toNat
      let state ← storeByte state copy pageOffset (activity.buffer i)
      let phase := .copy (i + 1) (← increment indx)
      .ok (program.goto tid { activity with phase } state)
  | .protect i =>
      if i < workingTls.pageNum.toNat then
        let state ← tlsProtect state (← slot workingTls.pages i)
        .ok (program.goto tid { activity with phase := .protect (i + 1) } state)
      else
        .ok (program.finish tid activity.access 0 activity.buffer)

inductive Move where
  | enter (tid : Tid) (access : Access) (offset length : UInt32) (buffer : Buffer)
  | advance (tid : Tid) (kernel : Kernel)

/-- A thread calls `tls_read` or `tls_write`, or takes the next step of its call. -/
inductive Program.Step : Program → Move → Program → Prop
  | enter {program after : Program} {tid : Tid} {access : Access} {offset length : UInt32}
      {buffer : Buffer} (outside : program.threads tid = none)
      (entered : program.enter tid access offset length buffer = .ok after) :
      Step program (.enter tid access offset length buffer) after
  | advance {program after : Program} {tid : Tid} {kernel : Kernel} {activity : Activity}
      (inside : program.threads tid = some activity)
      (advanced : program.advance kernel tid activity = .ok after) :
      Step program (.advance tid kernel) after

end EC440.LocalStorage
