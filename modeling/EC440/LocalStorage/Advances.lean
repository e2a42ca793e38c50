import EC440.LocalStorage.Atomicity
import EC440.LocalStorage.Levels

/-!
# What one step can do

Every step of a thread inside `tls_read` or `tls_write` changes its phase and
nothing of the blocks, except for the one that moves a slot to a copy of its
page.  Each step brings the thread nearer to its return.
-/

namespace EC440.LocalStorage

open References Outcome

variable {machine : Machine} {state after : State} {program later : Program}
  {tid other : Tid} {activity : Activity} {element : HashElement} {p : PagePtr} {page : Page}
  {kernel : Kernel} {i : Nat} {indx : Int32}

/-- A slot has moved from a page to the copy of it that was made last. -/
structure SlotMoved (state after : State) (pointer : ElementPtr) (element : HashElement)
    (slot : Nat) (p : PagePtr) (page : Page) : Prop where
  elements : after.elements =
    Function.update state.elements pointer (some (setSlot element slot state.nextPage))
  pages : ∃ address, after.pages = Function.update (Function.update state.pages state.nextPage
    (some { address, refCount := 1 })) p (some { page with refCount := page.refCount - 1 })
  nextPage : after.nextPage = state.nextPage + 1

theorem copyShared_moved {pointer : ElementPtr} {slot : Nat} {copy : PagePtr}
    (copied : copyShared kernel state pointer element slot p page = .ok (copy, after)) :
    copy = state.nextPage ∧ SlotMoved state after pointer element slot p page := by
  unfold copyShared at copied
  split at copied
  next => cases copied
  next address memory _ =>
    rcases bind_eq_ok_iff.mp copied with ⟨source, -, rest⟩
    rcases bind_eq_ok_iff.mp rest with ⟨filled, -, rest⟩
    cases rest
    exact ⟨rfl, rfl, ⟨address, rfl⟩, rfl⟩

/-! ## Steps -/

/-- The program after a step of a thread that is in a call. -/
inductive Program.Advances (program : Program) (tid : Tid) (activity : Activity)
    (element : HashElement) : Program → Prop
  /-- A page is opened. -/
  | unprotect {i : Nat} {state : State} (phase : activity.phase = .unprotect i)
      (more : i < element.tls.pageNum.toNat) (unmoved : Unmoved program.state state) :
      Advances program tid activity element
        (program.goto tid { activity with phase := .unprotect (i + 1) } state)
  /-- All pages are open. -/
  | start {i : Nat} (phase : activity.phase = .unprotect i)
      (last : ¬i < element.tls.pageNum.toNat) :
      Advances program tid activity element
        (program.goto tid { activity with phase := .copy 0 activity.offset.toInt32 }
          program.state)
  /-- A byte is read, or written in place. -/
  | byte {i : Nat} {indx next : Int32} {buffer : Buffer} {state : State}
      (phase : activity.phase = .copy i indx) (more : indx.toUInt32 < activity.limit)
      (unmoved : Unmoved program.state state) :
      Advances program tid activity element
        (program.goto tid { activity with buffer, phase := .copy (i + 1) next } state)
  /-- A shared page is copied. -/
  | duplicate {i : Nat} {indx : Int32} {p : PagePtr} {page : Page} {state : State}
      (phase : activity.phase = .copy i indx) (more : indx.toUInt32 < activity.limit)
      (held : element.tls.pages[(indx / program.state.pageSize).toUInt32.toNat]? = some p)
      (allocated : program.state.pages p = some page) (shared : page.refCount > 1)
      (moved : SlotMoved program.state state activity.pointer element
        (indx / program.state.pageSize).toUInt32.toNat p page) :
      Advances program tid activity element
        (program.goto tid { activity with phase := .leave i indx p program.state.nextPage } state)
  /-- The page left behind is closed. -/
  | leave {i : Nat} {indx : Int32} {mainPage copy : PagePtr} {state : State}
      (phase : activity.phase = .leave i indx mainPage copy)
      (unmoved : Unmoved program.state state) :
      Advances program tid activity element
        (program.goto tid { activity with phase := .store i indx copy } state)
  /-- The byte is written to the copy. -/
  | store {i : Nat} {indx next : Int32} {copy : PagePtr} {state : State}
      (phase : activity.phase = .store i indx copy) (unmoved : Unmoved program.state state) :
      Advances program tid activity element
        (program.goto tid { activity with phase := .copy (i + 1) next } state)
  /-- All bytes are through. -/
  | finish {i : Nat} {indx : Int32} (phase : activity.phase = .copy i indx)
      (last : ¬indx.toUInt32 < activity.limit) :
      Advances program tid activity element
        (program.goto tid { activity with phase := .protect 0 } program.state)
  /-- A page is closed. -/
  | protect {i : Nat} {state : State} (phase : activity.phase = .protect i)
      (more : i < element.tls.pageNum.toNat) (unmoved : Unmoved program.state state) :
      Advances program tid activity element
        (program.goto tid { activity with phase := .protect (i + 1) } state)
  /-- The call returns. -/
  | returned {i : Nat} (phase : activity.phase = .protect i)
      (last : ¬i < element.tls.pageNum.toNat) :
      Advances program tid activity element
        (program.finish tid activity.access 0 activity.buffer)

theorem writeStep_cases {phase : Phase} (found : state.elements activity.pointer = some element)
    (written : writeStep kernel state activity i indx = .ok (after, phase)) :
    (∃ next, phase = .copy (i + 1) next ∧ Unmoved state after) ∨
      ∃ p page, phase = .leave i indx p state.nextPage ∧
        element.tls.pages[(indx / state.pageSize).toUInt32.toNat]? = some p ∧
        state.pages p = some page ∧ page.refCount > 1 ∧
        SlotMoved state after activity.pointer element
          (indx / state.pageSize).toUInt32.toNat p page := by
  rcases bind_eq_ok_iff.mp written with ⟨element', reached, rest⟩
  obtain rfl : element = element' :=
    Option.some.inj (found.symm.trans ((state.element_eq_ok_iff).mp reached))
  rcases bind_eq_ok_iff.mp rest with ⟨p, slot, rest⟩
  rcases bind_eq_ok_iff.mp rest with ⟨page, isPage, rest⟩
  have held := State.slot_eq_ok_iff.mp slot
  have allocated := (state.page_eq_ok_iff).mp isPage
  split at rest
  next shared =>
    rcases bind_eq_ok_iff.mp rest with ⟨⟨copy, middle⟩, copied, rest⟩
    cases rest
    rcases copyShared_moved copied with ⟨rfl, moved⟩
    exact .inr ⟨p, page, rfl, held, allocated, shared, moved⟩
  next =>
    rcases bind_eq_ok_iff.mp rest with ⟨middle, stored, rest⟩
    rcases bind_eq_ok_iff.mp rest with ⟨next, -, rest⟩
    cases rest
    exact .inl ⟨next, rfl, storeByte_unmoved stored⟩

theorem Program.advance_cases
    (found : program.state.elements activity.pointer = some element)
    (advanced : program.advance kernel tid activity = .ok later) :
    program.Advances tid activity element later := by
  rcases bind_eq_ok_iff.mp advanced with ⟨element', reached, rest⟩
  obtain rfl : element = element' :=
    Option.some.inj (found.symm.trans ((program.state.element_eq_ok_iff).mp reached))
  cases phase : activity.phase with
  | unprotect i =>
      simp only [phase] at rest
      split at rest
      next more =>
        rcases bind_eq_ok_iff.mp rest with ⟨p, -, rest⟩
        rcases bind_eq_ok_iff.mp rest with ⟨state, changed, rest⟩
        cases rest
        exact .unprotect phase more (changeProt_unmoved changed)
      next last =>
        cases rest
        exact .start phase last
  | copy i indx =>
      simp only [phase] at rest
      split at rest
      next more =>
        cases access : activity.access with
        | read =>
            simp only [access] at rest
            rcases bind_eq_ok_iff.mp rest with ⟨byte, -, rest⟩
            rcases bind_eq_ok_iff.mp rest with ⟨next, -, rest⟩
            cases rest
            rw [← access]
            exact .byte phase more (.refl _)
        | write =>
            simp only [access] at rest
            rcases bind_eq_ok_iff.mp rest with ⟨⟨state, following⟩, written, rest⟩
            cases rest
            rw [← access]
            rcases writeStep_cases found written with
              ⟨next, rfl, unmoved⟩ | ⟨p, page, rfl, held, allocated, shared, moved⟩
            · exact .byte phase more unmoved
            · exact .duplicate phase more held allocated shared moved
      next last =>
        cases rest
        exact .finish phase last
  | leave i indx mainPage copy =>
      simp only [phase] at rest
      rcases bind_eq_ok_iff.mp rest with ⟨state, changed, rest⟩
      cases rest
      exact .leave phase (changeProt_unmoved changed)
  | store i indx copy =>
      simp only [phase] at rest
      rcases bind_eq_ok_iff.mp rest with ⟨state, stored, rest⟩
      rcases bind_eq_ok_iff.mp rest with ⟨next, -, rest⟩
      cases rest
      exact .store phase (storeByte_unmoved stored)
  | protect i =>
      simp only [phase] at rest
      split at rest
      next more =>
        rcases bind_eq_ok_iff.mp rest with ⟨p, -, rest⟩
        rcases bind_eq_ok_iff.mp rest with ⟨state, changed, rest⟩
        cases rest
        exact .protect phase more (changeProt_unmoved changed)
      next last =>
        cases rest
        exact .returned phase last

theorem Program.enter_cases {access : Access} {offset length : UInt32} {buffer : Buffer}
    (entered : program.enter tid access offset length buffer = .ok later) :
    later = program.finish tid access (-1) buffer ∨
      ∃ pointer, later =
        program.goto tid (access.entered pointer offset length buffer) program.state := by
  rcases bind_eq_ok_iff.mp entered with ⟨found, -, rest⟩
  cases found with
  | none =>
      cases rest
      exact .inl rfl
  | some pointer =>
      rcases bind_eq_ok_iff.mp rest with ⟨element, -, rest⟩
      dsimp only at rest
      split at rest
      next =>
        cases rest
        exact .inl rfl
      next =>
        cases rest
        exact .inr ⟨pointer, rfl⟩

/-! ## Steps left -/

/-- The number of steps that a call still takes at most. -/
def Activity.stepsLeft (activity : Activity) (pageNum : Nat) : Nat :=
  let length := activity.length.toNat
  match activity.phase with
  | .unprotect i => (pageNum - i) + 3 * length + pageNum + 3
  | .copy i _ => 3 * (length - i) + pageNum + 2
  | .leave i _ _ _ => 3 * (length - i) + pageNum + 1
  | .store i _ _ => 3 * (length - i) + pageNum
  | .protect i => (pageNum - i) + 1

def State.pageCount (state : State) (pointer : ElementPtr) : Nat :=
  match state.elements pointer with
  | none => 0
  | some element => element.tls.pageNum.toNat

def Program.stepsLeft (program : Program) (tid : Tid) : Nat :=
  match program.threads tid with
  | none => 0
  | some activity => activity.stepsLeft (program.state.pageCount activity.pointer)

theorem Unmoved.pageCount (unmoved : Unmoved state after) : after.pageCount = state.pageCount := by
  funext pointer
  rw [State.pageCount, State.pageCount, unmoved.elements]

theorem SlotMoved.pageCount {pointer : ElementPtr} {slot : Nat}
    (moved : SlotMoved state after pointer element slot p page)
    (found : state.elements pointer = some element) : after.pageCount = state.pageCount := by
  funext other
  rw [State.pageCount, State.pageCount, moved.elements]
  by_cases same : other = pointer
  · subst same
    rw [Function.update_self, found]
    rfl
  · rw [Function.update_of_ne same]

theorem Program.stepsLeft_goto {next : Activity} (pageCount : state.pageCount =
      program.state.pageCount) :
    (program.goto tid next state).stepsLeft tid =
      next.stepsLeft (program.state.pageCount next.pointer) := by
  rw [Program.stepsLeft, Program.goto_self, ← pageCount]
  rfl

/-- A step brings its thread nearer to the return, and no other thread further away. -/
theorem Program.Advances.stepsLeft (advances : program.Advances tid activity element later)
    (inside : program.threads tid = some activity)
    (found : program.state.elements activity.pointer = some element)
    (bytes : ∀ i indx, activity.phase = .copy i indx → indx.toUInt32 < activity.limit →
      i < activity.length.toNat)
    (stores : ∀ i indx copy, activity.phase = .store i indx copy → i < activity.length.toNat) :
    later.stepsLeft tid < program.stepsLeft tid ∧
      ∀ other, other ≠ tid → later.stepsLeft other = program.stepsLeft other := by
  have pages : program.state.pageCount activity.pointer = element.tls.pageNum.toNat := by
    rw [State.pageCount, found]
  have before : program.stepsLeft tid = activity.stepsLeft element.tls.pageNum.toNat := by
    rw [Program.stepsLeft, inside, ← pages]
  have goto : ∀ (next : Activity) (state : State), state.pageCount = program.state.pageCount →
      next.pointer = activity.pointer →
      next.stepsLeft element.tls.pageNum.toNat < activity.stepsLeft element.tls.pageNum.toNat →
      (program.goto tid next state).stepsLeft tid < program.stepsLeft tid ∧
        ∀ other, other ≠ tid →
          (program.goto tid next state).stepsLeft other = program.stepsLeft other := by
    intro next state pageCount pointer less
    constructor
    · rw [Program.stepsLeft_goto pageCount, pointer, pages, before]
      exact less
    · intro other distinct
      rw [Program.stepsLeft, Program.stepsLeft, Program.goto_of_ne _ distinct, ← pageCount]
      rfl
  cases advances with
  | unprotect phase more unmoved =>
      refine goto _ _ unmoved.pageCount rfl ?_
      simp only [Activity.stepsLeft, phase]
      omega
  | start phase last =>
      refine goto _ _ rfl rfl ?_
      simp only [Activity.stepsLeft, phase]
      omega
  | byte phase more unmoved =>
      refine goto _ _ unmoved.pageCount rfl ?_
      have inside := bytes _ _ phase more
      simp only [Activity.stepsLeft, phase]
      omega
  | duplicate phase more held allocated shared moved =>
      refine goto _ _ (moved.pageCount found) rfl ?_
      simp only [Activity.stepsLeft, phase]
      omega
  | leave phase unmoved =>
      refine goto _ _ unmoved.pageCount rfl ?_
      simp only [Activity.stepsLeft, phase]
      omega
  | store phase unmoved =>
      refine goto _ _ unmoved.pageCount rfl ?_
      have inside := stores _ _ _ phase
      simp only [Activity.stepsLeft, phase]
      omega
  | finish phase last =>
      refine goto _ _ rfl rfl ?_
      simp only [Activity.stepsLeft, phase]
      omega
  | protect phase more unmoved =>
      refine goto _ _ unmoved.pageCount rfl ?_
      simp only [Activity.stepsLeft, phase]
      omega
  | returned phase last =>
      constructor
      · rw [Program.stepsLeft, Program.finish_self, before]
        simp only [Activity.stepsLeft, phase]
        omega
      · intro other distinct
        rw [Program.stepsLeft, Program.stepsLeft, Program.finish_of_ne _ distinct]
        rfl

end EC440.LocalStorage
