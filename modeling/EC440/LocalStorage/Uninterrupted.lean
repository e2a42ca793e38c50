import EC440.LocalStorage.Advances
import EC440.LocalStorage.Bounds

/-!
# Calls that nothing interrupts

When no other thread takes a step in between, the steps of a call of `tls_read`
or `tls_write` come to what the call returns and leaves.
-/

namespace EC440.LocalStorage

open Outcome State Transition

variable {state after : State} {program : Program} {tid : Tid} {kernel : Kernel}
  {activity : Activity} {element : HashElement} {i : Nat} {indx : Int32}

/-- One thread takes all steps, and the kernel chooses in the same way in all of them. -/
def Alone (tid : Tid) (kernel : Kernel) (_ : Program) : Move → Prop
  | .enter caller .. => caller = tid
  | .advance caller other => caller = tid ∧ other = kernel

namespace Program

theorem goto_state (program : Program) (tid : Tid) (activity : Activity) (state : State) :
    (program.goto tid activity state).state = state :=
  rfl

theorem goto_goto (program : Program) (tid : Tid) (first second : Activity)
    (state after : State) :
    (program.goto tid first state).goto tid second after = program.goto tid second after := by
  simp only [goto, Function.update_idem]

theorem goto_finish (program : Program) (tid : Tid) (activity : Activity) (state : State)
    (access : Access) (code : Int32) (buffer : Buffer) :
    (program.goto tid activity state).finish tid access code buffer =
      { program with state }.finish tid access code buffer := by
  simp only [goto, finish, Function.update_idem]

theorem step_alone {later : Program}
    (advanced : (program.goto tid activity state).advance kernel tid activity = .ok later) :
    StepUnder Step (Alone tid kernel) (program.goto tid activity state) later :=
  ⟨.advance tid kernel, ⟨rfl, rfl⟩, .advance (goto_self ..) advanced⟩

/-! ## The loops over the pages -/

theorem unprotect_step {p : PagePtr} (found : state.elements activity.pointer = some element)
    (phase : activity.phase = .unprotect i) (more : i < element.tls.pageNum.toNat)
    (here : slot element.tls.pages i = .ok p) (opened : tlsUnprotect state p = .ok after) :
    StepUnder Step (Alone tid kernel) (program.goto tid activity state)
      (program.goto tid { activity with phase := .unprotect (i + 1) } after) := by
  refine step_alone ?_
  have reached := state.element_eq_ok_iff.mpr found
  simp only [advance, goto_state, reached, phase, if_pos more, here, opened, goto_goto, bind,
    Except.bind]

theorem protect_step {p : PagePtr} (found : state.elements activity.pointer = some element)
    (phase : activity.phase = .protect i) (more : i < element.tls.pageNum.toNat)
    (here : slot element.tls.pages i = .ok p) (closed : tlsProtect state p = .ok after) :
    StepUnder Step (Alone tid kernel) (program.goto tid activity state)
      (program.goto tid { activity with phase := .protect (i + 1) } after) := by
  refine step_alone ?_
  have reached := state.element_eq_ok_iff.mpr found
  simp only [advance, goto_state, reached, phase, if_pos more, here, closed, goto_goto, bind,
    Except.bind]

/-- A loop whose rounds are steps: the call has come to slot `count`. -/
theorem slots_run (program : Program) (tid : Tid) (kernel : Kernel)
    {phaseAt : Nat → Phase} {body : State → PagePtr → Outcome State}
    (unmoved : ∀ {state p after}, body state p = .ok after → Unmoved state after)
    (step : ∀ {state after i p}, state.elements activity.pointer = some element →
      i < element.tls.pageNum.toNat → slot element.tls.pages i = .ok p →
      body state p = .ok after →
      StepUnder Step (Alone tid kernel)
        (program.goto tid { activity with phase := phaseAt i } state)
        (program.goto tid { activity with phase := phaseAt (i + 1) } after))
    (found : state.elements activity.pointer = some element) {count : Nat}
    (inRange : count ≤ element.tls.pageNum.toNat)
    (looped : forSlots element.tls.pages body count state = .ok after) :
    after.elements = state.elements ∧
      RunUnder Step (Alone tid kernel)
        (program.goto tid { activity with phase := phaseAt 0 } state)
        (program.goto tid { activity with phase := phaseAt count } after) := by
  induction count generalizing after with
  | zero =>
      cases looped
      exact ⟨rfl, .refl⟩
  | succ count inductionHypothesis =>
      rw [forSlots, List.range_succ, List.foldlM_append] at looped
      rcases bind_eq_ok_iff.mp looped with ⟨middle, before, last⟩
      rw [List.foldlM_cons] at last
      rcases bind_eq_ok_iff.mp last with ⟨final, round, ended⟩
      cases ended
      rcases bind_eq_ok_iff.mp round with ⟨p, here, changed⟩
      rcases inductionHypothesis (Nat.le_of_succ_le inRange) before with ⟨same, run⟩
      refine ⟨(unmoved changed).elements.trans same, run.tail ?_⟩
      exact step (same ▸ found) inRange here changed

/-! ## The loops over the bytes -/

theorem copyShared_pageSize {pointer : ElementPtr} {slot : Nat} {p copy : PagePtr} {page : Page}
    (copied : copyShared kernel state pointer element slot p page = .ok (copy, after)) :
    after.pageSize = state.pageSize := by
  unfold copyShared at copied
  split at copied
  next => cases copied
  next =>
    rcases bind_eq_ok_iff.mp copied with ⟨source, -, rest⟩
    rcases bind_eq_ok_iff.mp rest with ⟨filled, -, rest⟩
    cases rest
    rfl

/-- A byte is written in one step, or in three if its page has to be copied. -/
theorem writeByte_run (activity : Activity) {next : Int32} (writes : activity.access = .write)
    (phase : activity.phase = .copy i indx)
    (more : indx.toUInt32 < activity.offset + activity.length)
    (written : writeByte kernel activity.pointer state indx (activity.buffer i) = .ok after)
    (counted : increment indx = .ok next) :
    RunUnder Step (Alone tid kernel) (program.goto tid activity state)
      (program.goto tid { activity with phase := .copy (i + 1) next } after) := by
  rcases bind_eq_ok_iff.mp written with ⟨element, reached, rest⟩
  rcases bind_eq_ok_iff.mp rest with ⟨mainPage, here, rest⟩
  rcases bind_eq_ok_iff.mp rest with ⟨main, isPage, rest⟩
  split at rest
  next shared =>
    rw [copyOnWrite_eq_copyShared] at rest
    rcases bind_eq_ok_iff.mp rest with ⟨⟨_, left⟩, parts, stored⟩
    rcases bind_eq_ok_iff.mp parts with ⟨⟨copy, moved⟩, copied, protect⟩
    rcases bind_eq_ok_iff.mp protect with ⟨_, closed, same⟩
    cases same
    have foundMoved : ∃ element, moved.elements activity.pointer = some element := by
      rw [(copyShared_moved copied).2.elements]
      exact ⟨_, Function.update_self ..⟩
    have foundLeft : ∃ element, left.elements activity.pointer = some element :=
      (changeProt_unmoved closed).elements ▸ foundMoved
    have sameSize : left.pageSize = state.pageSize :=
      (changeProt_pageSize closed).trans (copyShared_pageSize copied)
    have first : StepUnder Step (Alone tid kernel) (program.goto tid activity state)
        (program.goto tid { activity with phase := .leave i indx mainPage copy } moved) := by
      refine step_alone ?_
      simp only [advance, goto_state, reached, phase, if_pos more, writes, writeStep, here, isPage,
        if_pos shared, copied, goto_goto, bind, Except.bind]
    have second : StepUnder Step (Alone tid kernel)
        (program.goto tid { activity with phase := .leave i indx mainPage copy } moved)
        (program.goto tid { activity with phase := .store i indx copy } left) := by
      rcases foundMoved with ⟨element, found⟩
      have reached := moved.element_eq_ok_iff.mpr found
      refine step_alone ?_
      simp only [advance, goto_state, reached, closed, goto_goto, bind, Except.bind]
    have third : StepUnder Step (Alone tid kernel)
        (program.goto tid { activity with phase := .store i indx copy } left)
        (program.goto tid { activity with phase := .copy (i + 1) next } after) := by
      rcases foundLeft with ⟨element, found⟩
      have reached := left.element_eq_ok_iff.mpr found
      refine step_alone ?_
      simp only [advance, goto_state, reached, sameSize, stored, counted, goto_goto, bind,
        Except.bind]
    exact ((Relation.ReflTransGen.single first).tail second).tail third
  next notShared =>
    refine .single (step_alone ?_)
    simp only [advance, goto_state, reached, phase, if_pos more, writes, writeStep, here, isPage,
      if_neg notShared, rest, counted, goto_goto, bind, Except.bind]

theorem writeLoop_run (program : Program) (tid : Tid) (activity : Activity) {fuel : Nat}
    (writes : activity.access = .write)
    (looped : writeLoop kernel activity.pointer (activity.offset + activity.length)
      activity.buffer fuel state i indx = .ok after)
    (found : after.elements activity.pointer = some element) :
    RunUnder Step (Alone tid kernel)
      (program.goto tid { activity with phase := .copy i indx } state)
      (program.goto tid { activity with phase := .protect 0 } after) := by
  induction fuel generalizing state i indx with
  | zero => cases looped
  | succ fuel inductionHypothesis =>
      unfold writeLoop at looped
      split at looped
      next more =>
        rcases bind_eq_ok_iff.mp looped with ⟨middle, written, rest⟩
        rcases bind_eq_ok_iff.mp rest with ⟨next, counted, rest⟩
        have round : RunUnder Step (Alone tid kernel)
            (program.goto tid { activity with phase := .copy i indx } state)
            (program.goto tid { activity with phase := .copy (i + 1) next } middle) :=
          writeByte_run { activity with phase := .copy i indx } writes rfl more written counted
        exact round.trans (inductionHypothesis rest)
      next last =>
        cases looped
        have reached := after.element_eq_ok_iff.mpr found
        refine .single (step_alone ?_)
        simp only [advance, goto_state, reached, if_neg last, goto_goto, bind, Except.bind]

theorem readLoop_run (program : Program) (tid : Tid) (kernel : Kernel) (activity : Activity)
    {fuel : Nat} {buffer filled : Buffer} (reads : activity.access = .read)
    (found : state.elements activity.pointer = some element)
    (looped : readLoop activity.pointer (activity.offset + activity.length) state fuel buffer i
      indx = .ok filled) :
    RunUnder Step (Alone tid kernel)
      (program.goto tid { activity with buffer, phase := .copy i indx } state)
      (program.goto tid { activity with buffer := filled, phase := .protect 0 } state) := by
  have reached := state.element_eq_ok_iff.mpr found
  induction fuel generalizing buffer i indx with
  | zero => cases looped
  | succ fuel inductionHypothesis =>
      unfold readLoop at looped
      split at looped
      next more =>
        rcases bind_eq_ok_iff.mp looped with ⟨byte, read, rest⟩
        rcases bind_eq_ok_iff.mp rest with ⟨next, counted, rest⟩
        refine .head (step_alone ?_) (inductionHypothesis rest)
        simp only [advance, goto_state, reached, if_pos more, reads, read, counted, goto_goto,
          bind, Except.bind]
      next last =>
        cases looped
        refine .single (step_alone ?_)
        simp only [advance, goto_state, reached, if_neg last, goto_goto, bind, Except.bind]

/-! ## Whole calls -/

theorem unprotect_run (program : Program) (tid : Tid) (kernel : Kernel) (activity : Activity)
    (found : state.elements activity.pointer = some element)
    (opened : forSlots element.tls.pages tlsUnprotect element.tls.pageNum.toNat state =
      .ok after) :
    after.elements = state.elements ∧
      RunUnder Step (Alone tid kernel)
        (program.goto tid { activity with phase := .unprotect 0 } state)
        (program.goto tid { activity with phase := .copy 0 activity.offset.toInt32 } after) := by
  rcases slots_run program tid kernel changeProt_unmoved
    (fun found more here opened => unprotect_step found rfl more here opened) found le_rfl opened
    with ⟨same, run⟩
  have reached := after.element_eq_ok_iff.mpr (same ▸ found)
  refine ⟨same, run.tail (step_alone ?_)⟩
  simp only [advance, goto_state, reached, if_neg (lt_irrefl _), goto_goto, bind, Except.bind]

theorem protect_run (program : Program) (tid : Tid) (kernel : Kernel) (activity : Activity)
    (found : state.elements activity.pointer = some element)
    (closed : forSlots element.tls.pages tlsProtect element.tls.pageNum.toNat state = .ok after) :
    RunUnder Step (Alone tid kernel)
      (program.goto tid { activity with phase := .protect 0 } state)
      ({ program with state := after }.finish tid activity.access 0 activity.buffer) := by
  rcases slots_run program tid kernel changeProt_unmoved
    (fun found more here closed => protect_step found rfl more here closed) found le_rfl closed
    with ⟨same, run⟩
  have reached := after.element_eq_ok_iff.mpr (same ▸ found)
  refine run.tail (step_alone ?_)
  simp only [advance, goto_state, reached, if_neg (lt_irrefl _), goto_finish, bind, Except.bind]

theorem enter_step {later : Program} (access : Access) (offset length : UInt32) (buffer : Buffer)
    (outside : program.threads tid = none)
    (entered : program.enter tid access offset length buffer = .ok later) :
    StepUnder Step (Alone tid kernel) program later :=
  ⟨.enter tid access offset length buffer, rfl, .enter outside entered⟩

variable {offset length : UInt32} {buffer : Buffer} {code : Int32}

theorem tlsWrite_run (outside : program.threads tid = none)
    (returned : tlsWrite kernel program.state tid offset length buffer = .ok (code, after)) :
    RunUnder Step (Alone tid kernel) program
      ({ program with state := after }.finish tid .write code buffer) := by
  rcases bind_eq_ok_iff.mp returned with ⟨searched, search, rest⟩
  cases searched with
  | none =>
      cases rest
      refine .single (enter_step .write offset length buffer outside ?_)
      simp only [enter, search, bind, Except.bind]
  | some pointer =>
      rcases bind_eq_ok_iff.mp rest with ⟨element, reached, rest⟩
      have found := program.state.element_eq_ok_iff.mp reached
      dsimp only at rest
      split at rest
      next refused =>
        cases rest
        refine .single (enter_step .write offset length buffer outside ?_)
        simp only [enter, search, reached, if_pos refused, bind, Except.bind]
      next accepted =>
        rcases bind_eq_ok_iff.mp rest with ⟨opened, unprotect, rest⟩
        rcases bind_eq_ok_iff.mp rest with ⟨written, looped, rest⟩
        rcases bind_eq_ok_iff.mp rest with ⟨last, here, rest⟩
        rcases bind_eq_ok_iff.mp rest with ⟨closed, protect, ended⟩
        cases ended
        have foundLast := written.element_eq_ok_iff.mp here
        have entered : StepUnder Step (Alone tid kernel) program
            (program.goto tid (Access.write.entered pointer offset length buffer)
              program.state) := by
          refine enter_step .write offset length buffer outside ?_
          simp only [enter, search, reached, if_neg accepted, Access.entered, bind, Except.bind]
        let activity := Access.write.entered pointer offset length buffer
        have opens := (unprotect_run program tid kernel activity found unprotect).2
        have writes := writeLoop_run program tid activity rfl looped foundLast
        have closes := protect_run program tid kernel activity foundLast protect
        exact .head entered (opens.trans (writes.trans closes))

theorem tlsRead_run {filled : Buffer} (outside : program.threads tid = none)
    (returned : tlsRead program.state tid offset length buffer = .ok (code, filled, after)) :
    RunUnder Step (Alone tid kernel) program
      ({ program with state := after }.finish tid .read code filled) := by
  rcases bind_eq_ok_iff.mp returned with ⟨searched, search, rest⟩
  cases searched with
  | none =>
      cases rest
      refine .single (enter_step .read offset length buffer outside ?_)
      simp only [enter, search, bind, Except.bind]
  | some pointer =>
      rcases bind_eq_ok_iff.mp rest with ⟨element, reached, rest⟩
      have found := program.state.element_eq_ok_iff.mp reached
      dsimp only at rest
      split at rest
      next refused =>
        cases rest
        refine .single (enter_step .read offset length buffer outside ?_)
        simp only [enter, search, reached, if_pos refused, bind, Except.bind]
      next accepted =>
        rcases bind_eq_ok_iff.mp rest with ⟨opened, unprotect, rest⟩
        rcases bind_eq_ok_iff.mp rest with ⟨read, looped, rest⟩
        rcases bind_eq_ok_iff.mp rest with ⟨closed, protect, ended⟩
        cases ended
        have entered : StepUnder Step (Alone tid kernel) program
            (program.goto tid (Access.read.entered pointer offset length buffer)
              program.state) := by
          refine enter_step .read offset length buffer outside ?_
          simp only [enter, search, reached, if_neg accepted, Access.entered, bind, Except.bind]
        let activity := Access.read.entered pointer offset length buffer
        rcases unprotect_run program tid kernel activity found unprotect with ⟨same, opens⟩
        have foundOpened : opened.elements pointer = some element := same ▸ found
        have reads := readLoop_run program tid kernel activity rfl foundOpened looped
        have closes := protect_run program tid kernel { activity with buffer := filled } foundOpened
          protect
        exact .head entered (opens.trans (reads.trans closes))

/-- The program after a call of a thread that was in no call, and is in none again. -/
def answered (program : Program) (tid : Tid) (reply : Reply) (state : State) : Program where
  state
  threads := program.threads
  replies := Function.update program.replies tid (some reply)

theorem finish_eq_answered (outside : program.threads tid = none) (access : Access) :
    { program with state }.finish tid access code buffer =
      program.answered tid { code, buffer := access.filled buffer } state := by
  have unchanged : Function.update program.threads tid none = program.threads := by
    rw [← outside, Function.update_eq_self]
  simp only [finish, unchanged]
  rfl

/-- What a call returns and leaves is what its own steps return and leave, when no other thread
takes a step in between. -/
theorem exec_run {machine : Machine} {access : Access} {reply : Reply}
    (outside : program.threads tid = none)
    (returned : exec machine kernel program.state tid (access.call offset length buffer) =
      .ok (reply, after)) :
    RunUnder Step (Alone tid kernel) program (program.answered tid reply after) := by
  cases access with
  | write =>
      rcases bind_eq_ok_iff.mp returned with ⟨⟨code, last⟩, returned, ended⟩
      cases ended
      exact finish_eq_answered outside .write ▸ tlsWrite_run outside returned
  | read =>
      rcases bind_eq_ok_iff.mp returned with ⟨⟨code, filled, last⟩, returned, ended⟩
      cases ended
      exact finish_eq_answered outside .read ▸ tlsRead_run outside returned

/-- Whole calls one after the other are one of the orders in which threads take their steps. -/
theorem play_run {machine : Machine} {events : List Event} {replies : List Reply}
    (accesses : ∀ event ∈ events, ∃ access : Access, ∃ offset length buffer,
      event.call = access.call offset length buffer)
    (outside : ∀ event ∈ events, program.threads event.tid = none)
    (played : play machine program.state events = .ok (replies, after)) :
    RunUnder Step (fun _ _ => True) program
      { state := after
        threads := program.threads
        replies := (events.zip replies).foldl
          (fun heard turn => Function.update heard turn.1.tid (some turn.2)) program.replies } := by
  induction events generalizing program replies with
  | nil =>
      cases played
      exact .refl
  | cons event rest inductionHypothesis =>
      rcases bind_eq_ok_iff.mp played with ⟨⟨reply, middle⟩, returned, played⟩
      rcases bind_eq_ok_iff.mp played with ⟨⟨others, final⟩, played, ended⟩
      cases ended
      rcases accesses event (.head _) with ⟨access, offset, length, buffer, isAccess⟩
      rw [isAccess] at returned
      have first := exec_run (outside event (.head _)) returned
      have outsideRest : ∀ other ∈ rest,
          (program.answered event.tid reply middle).threads other.tid = none :=
        fun other membership => outside other (.tail _ membership)
      have accessesRest := fun other membership => accesses other (.tail event membership)
      exact (first.weaken fun _ _ _ => trivial).trans
        (inductionHypothesis accessesRest outsideRest played)

end Program

end EC440.LocalStorage
