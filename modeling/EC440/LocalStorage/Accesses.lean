import EC440.LocalStorage.SingleSteps

/-!
# Calls on the way

How far a thread has come in `tls_read` or `tls_write`, which pages it relies
on, and what its area and its answer will be when it is through.  The steps of
other threads leave all of this alone, as long as they spare its pages.
-/

namespace EC440.LocalStorage

open References Outcome

variable {machine : Machine} {state after : State} {buckets : Bucket → List ElementPtr}
  {place : Tid → Option ElementPtr} {tid other : Tid} {tls : Tls} {p : PagePtr}
  {activity next : Activity} {spared : PagePtr → Prop} {n i : Nat}

def Activity.reached (activity : Activity) : Nat :=
  match activity.phase with
  | .unprotect _ => activity.offset.toNat
  | .copy _ indx | .leave _ indx _ _ | .store _ indx _ => indx.toUInt32.toNat
  | .protect _ => activity.limit.toNat

/-- The positions that a call has not worked on yet. -/
def Activity.Outstanding (activity : Activity) (n : Nat) : Prop :=
  activity.reached ≤ n ∧ n < activity.limit.toNat

instance : Decidable (activity.Outstanding n) := by
  unfold Activity.Outstanding
  infer_instance

/-- The positions whose pages a call has opened. -/
def Activity.Opened (machine : Machine) (activity : Activity) (n : Nat) : Prop :=
  match activity.phase with
  | .unprotect i => n / machine.pageSize < i
  | .copy .. | .leave .. | .store .. | .protect _ => True

/-- A thread has opened a page and has not worked on all of its bytes there. -/
def Program.Uses (program : Program) (machine : Machine) (tid : Tid) (p : PagePtr) : Prop :=
  ∃ activity element n, program.threads tid = some activity ∧
    program.state.elements activity.pointer = some element ∧ activity.Outstanding n ∧
    activity.Opened machine n ∧ element.tls.pages[n / machine.pageSize]? = some p

/-- The page that the next step of a thread closes: at the end of its call, or after copying
it. -/
def Program.Closes (program : Program) (tid : Tid) (p : PagePtr) : Prop :=
  program.Protects tid p ∨ ∃ activity i indx copy, program.threads tid = some activity ∧
    activity.phase = .leave i indx p copy

/-! ## Results to come -/

/-- The byte that the area of a caller will have at a position after the call. -/
def Activity.byteAfter (activity : Activity) (state : State) (machine : Machine)
    (place : Tid → Option ElementPtr) (tid : Tid) (n : Nat) : UInt8 :=
  if activity.access = .write ∧ activity.Outstanding n then
    activity.buffer (n - activity.offset.toNat)
  else state.ownByte machine place tid n

/-- What the buffer of `tls_read` will hold after the call. -/
def Activity.bufferAfter (activity : Activity) (state : State) (machine : Machine)
    (place : Tid → Option ElementPtr) (tid : Tid) : Buffer := fun k =>
  if activity.Outstanding (activity.offset.toNat + k) then
    state.ownByte machine place tid (activity.offset.toNat + k)
  else activity.buffer k

def Access.filled (access : Access) (buffer : Buffer) : Option Buffer :=
  match access with
  | .read => some buffer
  | .write => none

theorem Program.finish_reply (program : Program) (tid : Tid) (access : Access) (code : Int32)
    (buffer : Buffer) : (program.finish tid access code buffer).replies tid =
      some { code, buffer := access.filled buffer } := by
  cases access with
  | read => exact Function.update_self ..
  | write => exact Function.update_self ..

theorem Program.finish_reply_of_ne (program : Program) (distinct : other ≠ tid) (access : Access)
    (code : Int32) (buffer : Buffer) :
    (program.finish tid access code buffer).replies other = program.replies other := by
  cases access with
  | read => exact Function.update_of_ne distinct ..
  | write => exact Function.update_of_ne distinct ..

def Activity.replyAfter (activity : Activity) (state : State) (machine : Machine)
    (place : Tid → Option ElementPtr) (tid : Tid) : Reply where
  code := 0
  buffer := activity.access.filled (activity.bufferAfter state machine place tid)

/-- The bytes that an area will have after the call that its thread is in. -/
def Program.byteAfter (program : Program) (machine : Machine)
    (place : Tid → Option ElementPtr) (tid : Tid) (n : Nat) : UInt8 :=
  match program.threads tid with
  | some activity => activity.byteAfter program.state machine place tid n
  | none => program.state.ownByte machine place tid n

def Program.arrayAfter (program : Program) (machine : Machine)
    (place : Tid → Option ElementPtr) (tid : Tid) : Option (List UInt8) :=
  (program.state.areaAt place tid).map fun tls =>
    (List.range tls.size.toNat).map (program.byteAfter machine place tid)

theorem Program.arrayAfter_congr {program later : Program}
    (size : (later.state.areaAt place tid).map (·.size) =
      (program.state.areaAt place tid).map (·.size))
    (bytes : ∀ n, later.byteAfter machine place tid n = program.byteAfter machine place tid n) :
    later.arrayAfter machine place tid = program.arrayAfter machine place tid := by
  have same : later.byteAfter machine place tid = program.byteAfter machine place tid :=
    funext bytes
  have maps := congrArg (Option.map fun size : UInt32 =>
    (List.range size.toNat).map (program.byteAfter machine place tid)) size
  rw [Option.map_map, Option.map_map] at maps
  rw [Program.arrayAfter, Program.arrayAfter, same]
  exact maps

theorem Activity.byteAfter_congr
    (bytes : ∀ n, after.ownByte machine place tid n = state.ownByte machine place tid n) :
    activity.byteAfter after machine place tid n = activity.byteAfter state machine place tid n := by
  rw [Activity.byteAfter, Activity.byteAfter, bytes]

theorem Activity.replyAfter_congr
    (bytes : ∀ n, after.ownByte machine place tid n = state.ownByte machine place tid n) :
    activity.replyAfter after machine place tid = activity.replyAfter state machine place tid := by
  have buffer : activity.bufferAfter after machine place tid =
      activity.bufferAfter state machine place tid := by
    funext k
    rw [Activity.bufferAfter, Activity.bufferAfter, bytes]
  rw [Activity.replyAfter, Activity.replyAfter, buffer]

/-- The same call, further on. -/
structure Activity.Continues (activity next : Activity) : Prop where
  access : next.access = activity.access
  pointer : next.pointer = activity.pointer
  offset : next.offset = activity.offset
  length : next.length = activity.length

theorem Activity.Continues.limit (continues : activity.Continues next) :
    next.limit = activity.limit := by
  rw [Activity.limit, Activity.limit, continues.offset, continues.length]

theorem Activity.continues_phase (activity : Activity) (phase : Phase) :
    activity.Continues { activity with phase } :=
  ⟨rfl, rfl, rfl, rfl⟩

namespace Activity.Continues

theorem outstanding_same (continues : activity.Continues next)
    (reached : next.reached = activity.reached) : next.Outstanding n ↔ activity.Outstanding n := by
  rw [Activity.Outstanding, Activity.Outstanding, reached, continues.limit]

theorem byteAfter_same (continues : activity.Continues next)
    (buffer : next.buffer = activity.buffer) (reached : next.reached = activity.reached)
    (bytes : ∀ n, after.ownByte machine place tid n = state.ownByte machine place tid n) (n : Nat) :
    next.byteAfter after machine place tid n = activity.byteAfter state machine place tid n := by
  simp only [Activity.byteAfter, continues.outstanding_same reached, continues.access,
    continues.offset, buffer, bytes]

theorem replyAfter_same (continues : activity.Continues next)
    (buffer : next.buffer = activity.buffer) (reached : next.reached = activity.reached)
    (bytes : ∀ n, after.ownByte machine place tid n = state.ownByte machine place tid n) :
    next.replyAfter after machine place tid = activity.replyAfter state machine place tid := by
  have buffers : next.bufferAfter after machine place tid =
      activity.bufferAfter state machine place tid := by
    funext k
    simp only [Activity.bufferAfter, continues.outstanding_same reached, continues.offset, buffer,
      bytes]
  simp only [Activity.replyAfter, continues.access, buffers]

theorem outstanding_next (continues : activity.Continues next)
    (reached : next.reached = activity.reached + 1) :
    next.Outstanding n ↔ activity.Outstanding n ∧ n ≠ activity.reached := by
  rw [Activity.Outstanding, Activity.Outstanding, reached, continues.limit]
  omega

theorem byteAfter_written (continues : activity.Continues next)
    (buffer : next.buffer = activity.buffer) (writes : activity.access = .write)
    (reached : next.reached = activity.reached + 1) (inside : activity.Outstanding activity.reached)
    (bytes : ∀ n, after.ownByte machine place tid n =
      if n = activity.reached then activity.buffer (activity.reached - activity.offset.toNat)
      else state.ownByte machine place tid n) (n : Nat) :
    next.byteAfter after machine place tid n = activity.byteAfter state machine place tid n := by
  simp only [Activity.byteAfter, continues.outstanding_next reached, continues.access, writes,
    continues.offset, buffer, bytes, true_and]
  by_cases same : n = activity.reached
  · subst same
    simp [inside]
  · simp [same]

theorem replyAfter_write (continues : activity.Continues next)
    (writes : activity.access = .write) :
    next.replyAfter after machine place tid = activity.replyAfter state machine place tid := by
  simp only [Activity.replyAfter, continues.access, writes, Access.filled]

theorem byteAfter_read (continues : activity.Continues next) (reads : activity.access = .read)
    (n : Nat) : next.byteAfter state machine place tid n =
      activity.byteAfter state machine place tid n := by
  simp [Activity.byteAfter, continues.access, reads]

theorem replyAfter_read (continues : activity.Continues next)
    (position : activity.reached = activity.offset.toNat + i)
    (inside : activity.Outstanding activity.reached)
    (reached : next.reached = activity.reached + 1)
    (buffer : next.buffer = Function.update activity.buffer i
      (state.ownByte machine place tid activity.reached)) :
    next.replyAfter state machine place tid = activity.replyAfter state machine place tid := by
  have buffers : next.bufferAfter state machine place tid =
      activity.bufferAfter state machine place tid := by
    funext k
    simp only [Activity.bufferAfter, continues.outstanding_next reached, continues.offset, buffer]
    by_cases same : k = i
    · subst same
      rw [position] at inside ⊢
      simp [inside]
    · have other : activity.offset.toNat + k ≠ activity.reached := by omega
      simp [same, other]
  simp only [Activity.replyAfter, continues.access, buffers]

end Activity.Continues

/-! ## Calls entered -/

section Entered

variable {pointer : ElementPtr} {access : Access} {offset length : UInt32} {buffer : Buffer}
  {arrays : Private.Arrays}

def Access.call (access : Access) (offset length : UInt32) (buffer : Buffer) : Call :=
  match access with
  | .read => .read offset length buffer
  | .write => .write offset length buffer

def Access.entered (access : Access) (pointer : ElementPtr) (offset length : UInt32)
    (buffer : Buffer) : Activity :=
  { access, pointer, offset, length, buffer, phase := .unprotect 0 }

theorem Access.outstanding_entered (limit : (offset + length).toNat = offset.toNat + length.toNat) :
    (access.entered pointer offset length buffer).Outstanding n ↔
      offset.toNat ≤ n ∧ n < offset.toNat + length.toNat := by
  rw [← limit]
  rfl

theorem Access.answer_entered
    (array : arrays tid = some ((List.range tls.size.toNat).map
      (state.ownByte machine place tid)))
    (limit : (offset + length).toNat = offset.toNat + length.toNat)
    (fits : offset.toNat + length.toNat ≤ tls.size.toNat) :
    (Private.respond arrays tid (access.call offset length buffer)).1 =
      (access.entered pointer offset length buffer).replyAfter state machine place tid := by
  have long : offset.toNat + length.toNat ≤ ((List.range tls.size.toNat).map
      (state.ownByte machine place tid)).length := by
    rwa [List.length_map, List.length_range]
  cases access with
  | write =>
      simp only [Access.call, Private.respond, array, if_pos long, Activity.replyAfter,
        Access.filled, Access.entered]
  | read =>
      have filled : Private.fill buffer (Private.slice ((List.range tls.size.toNat).map
          (state.ownByte machine place tid)) offset.toNat length.toNat) =
          (Access.read.entered pointer offset length buffer).bufferAfter state machine place
            tid := by
        rw [Private.fill_slice buffer fits]
        funext k
        have within : (Access.read.entered pointer offset length buffer).Outstanding
            (offset.toNat + k) ↔ k < length.toNat := by
          rw [Access.outstanding_entered limit]
          omega
        simp only [Activity.bufferAfter, Access.entered] at within ⊢
        simp only [within]
      simp only [Access.call, Private.respond, array, if_pos long, filled]
      rfl

theorem Access.array_entered
    (array : arrays tid = some ((List.range tls.size.toNat).map
      (state.ownByte machine place tid)))
    (limit : (offset + length).toNat = offset.toNat + length.toNat)
    (fits : offset.toNat + length.toNat ≤ tls.size.toNat) :
    (Private.respond arrays tid (access.call offset length buffer)).2 tid =
      some ((List.range tls.size.toNat).map
        ((access.entered pointer offset length buffer).byteAfter state machine place tid)) := by
  have long : offset.toNat + length.toNat ≤ ((List.range tls.size.toNat).map
      (state.ownByte machine place tid)).length := by
    rwa [List.length_map, List.length_range]
  cases access with
  | read =>
      have same : (Access.read.entered pointer offset length buffer).byteAfter state machine place
          tid = state.ownByte machine place tid := by
        funext n
        simp [Activity.byteAfter, Access.entered]
      simp only [Access.call, Private.respond, array, if_pos long, same]
  | write =>
      have written := @Private.map_range_overwrite tls.size.toNat offset.toNat length.toNat
        (state.ownByte machine place tid)
        ((Access.write.entered pointer offset length buffer).byteAfter state machine place tid)
        buffer fits
      simp only [Access.call, Private.respond, array, if_pos long, Function.update_self]
      rw [written]
      intro n _
      have within := @Access.outstanding_entered n pointer .write offset length buffer limit
      simp only [Activity.byteAfter, within]
      simp only [Access.entered, true_and]

end Entered

/-! ## Phases -/

/-- The caller is about to write a byte to its own copy of a page. -/
structure HoldsCopy (machine : Machine) (place : Tid → Option ElementPtr) (state : State)
    (tid : Tid) (activity : Activity) (i : Nat) (indx : Int32) (copy : PagePtr) : Prop where
  access : activity.access = .write
  inside : i < activity.length.toNat
  position : indx = Int32.ofNat (activity.offset.toNat + i)
  pointing : references (state.areaAt place)
    (tid, (activity.offset.toNat + i) / machine.pageSize) = some copy
  alone : state.refCount copy = some 1

/-- What holds where a call is. -/
def InPhase (machine : Machine) (place : Tid → Option ElementPtr) (state : State) (tid : Tid)
    (activity : Activity) : Prop :=
  match activity.phase with
  | .unprotect _ | .protect _ => True
  | .copy i indx =>
      i ≤ activity.length.toNat ∧ indx = Int32.ofNat (activity.offset.toNat + i)
  | .leave i indx mainPage copy =>
      HoldsCopy machine place state tid activity i indx copy ∧ state.pages mainPage ≠ none ∧
        ∀ slot, references (state.areaAt place) (tid, slot) ≠ some mainPage
  | .store i indx copy => HoldsCopy machine place state tid activity i indx copy

/-- A call that has passed its checks. -/
structure Calling (machine : Machine) (place : Tid → Option ElementPtr) (state : State)
    (tid : Tid) (activity : Activity) : Prop where
  placed : place tid = some activity.pointer
  limit : activity.limit.toNat = activity.offset.toNat + activity.length.toNat
  fits : ∀ tls, state.areaAt place tid = some tls → activity.limit.toNat ≤ tls.size.toNat
  inPhase : InPhase machine place state tid activity
  usable : ∀ n p, activity.Outstanding n → activity.Opened machine n →
    references (state.areaAt place) (tid, n / machine.pageSize) = some p →
    Usable state activity.access p

theorem references_congr {areas areas' : Tid → Option Tls} (same : areas' tid = areas tid)
    (slot : Nat) : references areas' (tid, slot) = references areas (tid, slot) := by
  simp only [references, same]

theorem HoldsCopy.of_gentle {indx : Int32} {copy : PagePtr}
    (holds : HoldsCopy machine place state other activity i indx copy)
    (gentle : Gentle machine place tid spared state after) (distinct : other ≠ tid) :
    HoldsCopy machine place after other activity i indx copy where
  access := holds.access
  inside := holds.inside
  position := holds.position
  pointing := by
    rw [references_congr (gentle.areas other distinct)]
    exact holds.pointing
  alone := gentle.alone copy holds.alone

theorem Calling.of_gentle (calling : Calling machine place state other activity)
    (sound : Sound machine state buckets place)
    (gentle : Gentle machine place tid spared state after) (distinct : other ≠ tid)
    (spares : ∀ n p, activity.Outstanding n → activity.Opened machine n →
      references (state.areaAt place) (other, n / machine.pageSize) = some p → spared p) :
    Calling machine place after other activity := by
  have area := gentle.areas other distinct
  refine ⟨calling.placed, calling.limit, ?_, ?_, ?_⟩
  · intro tls here
    rw [area] at here
    exact calling.fits tls here
  · have inPhase := calling.inPhase
    unfold InPhase at inPhase ⊢
    cases phase : activity.phase with
    | unprotect i => trivial
    | protect i => trivial
    | copy i indx =>
        rw [phase] at inPhase
        exact inPhase
    | leave i indx mainPage copy =>
        rw [phase] at inPhase
        rcases inPhase with ⟨holds, allocated, away⟩
        refine ⟨holds.of_gentle gentle distinct, gentle.allocated mainPage allocated, ?_⟩
        intro slot
        rw [references_congr area]
        exact away slot
    | store i indx copy =>
        rw [phase] at inPhase
        exact inPhase.of_gentle gentle distinct
  · intro n p outstanding opened pointing
    rw [references_congr area] at pointing
    obtain ⟨page, frame, allocated, -⟩ := sound.backed.page_of pointing
    refine gentle.usable p activity.access (spares n p outstanding opened pointing) ?_
      (calling.usable n p outstanding opened pointing)
    rw [allocated]
    exact Option.some_ne_none page

namespace Calling

theorem continued (calling : Calling machine place state tid activity)
    (continues : activity.Continues next)
    (size : (after.areaAt place tid).map (·.size) = (state.areaAt place tid).map (·.size))
    (inPhase : InPhase machine place after tid next)
    (usable : ∀ n p, next.Outstanding n → next.Opened machine n →
      references (after.areaAt place) (tid, n / machine.pageSize) = some p →
      Usable after activity.access p) :
    Calling machine place after tid next where
  placed := by
    rw [continues.pointer]
    exact calling.placed
  limit := by
    rw [continues.limit, continues.offset, continues.length]
    exact calling.limit
  fits tls here := by
    rw [here, Option.map_some] at size
    obtain ⟨earlier, before, same⟩ := Option.map_eq_some_iff.mp size.symm
    rw [continues.limit, ← same]
    exact calling.fits earlier before
  inPhase := inPhase
  usable := by
    rw [continues.access]
    exact usable

theorem element_of (calling : Calling machine place state tid activity)
    (sound : Sound machine state buckets place) :
    ∃ element, state.elements activity.pointer = some element ∧
      state.areaAt place tid = some element.tls ∧
      Sized machine state element.tls ∧ activity.limit.toNat ≤ element.tls.size.toNat := by
  obtain ⟨element, reached, -, area⟩ := sound.table.element_eq calling.placed
  exact ⟨element, (state.element_eq_ok_iff).mp reached, area, sound.sized tid _ area,
    calling.fits _ area⟩

theorem page_of (_ : Calling machine place state tid activity)
    (sound : Sound machine state buckets place) (area : state.areaAt place tid = some tls)
    (inside : n < tls.size.toNat) :
    ∃ p page frame, tls.pages[n / machine.pageSize]? = some p ∧
      references (state.areaAt place) (tid, n / machine.pageSize) = some p ∧
      state.pages p = some page ∧ state.memory page.address = some frame ∧
      state.frameOf p = some frame := by
  have slotInside : n / machine.pageSize < tls.pages.length := by
    have room := (sound.sized tid tls area).room
    refine Nat.div_lt_of_lt_mul ?_
    rw [Nat.mul_comm]
    omega
  have held := List.getElem?_eq_getElem slotInside
  have pointing := references_slot area held
  obtain ⟨page, frame, allocated, mapped, here⟩ := sound.backed.page_of pointing
  exact ⟨_, page, frame, held, pointing, allocated, mapped, here⟩

end Calling

/-- The byte that a call is at, and the page it lies in. -/
structure AtByte (machine : Machine) (place : Tid → Option ElementPtr) (state : State) (tid : Tid)
    (activity : Activity) (i : Nat) (indx : Int32) (element : HashElement) (p : PagePtr)
    (page : Page) (frame : Frame) : Prop where
  inside : i < activity.length.toNat
  index : indx = Int32.ofNat (activity.offset.toNat + i)
  small : activity.offset.toNat + i + 1 < 2 ^ 31
  reached : activity.reached = activity.offset.toNat + i
  outstanding : activity.Outstanding (activity.offset.toNat + i)
  opened : ∀ n, activity.Opened machine n
  found : state.elements activity.pointer = some element
  area : state.areaAt place tid = some element.tls
  pageSize : state.pageSize = machine.pageSizeInt
  held : element.tls.pages[(activity.offset.toNat + i) / machine.pageSize]? = some p
  allocated : state.pages p = some page
  mapped : state.memory page.address = some frame

namespace AtByte

variable {indx : Int32} {element : HashElement} {page : Page} {frame : Frame}

theorem pointing (at_ : AtByte machine place state tid activity i indx element p page frame) :
    references (state.areaAt place) (tid, (activity.offset.toNat + i) / machine.pageSize) =
      some p :=
  references_slot at_.area at_.held

theorem frameOf (at_ : AtByte machine place state tid activity i indx element p page frame) :
    state.frameOf p = some frame := by
  simp [State.frameOf, at_.allocated, at_.mapped]

theorem usable (at_ : AtByte machine place state tid activity i indx element p page frame)
    (calling : Calling machine place state tid activity) : Usable state activity.access p :=
  calling.usable _ p at_.outstanding (at_.opened _) at_.pointing

theorem incremented (at_ : AtByte machine place state tid activity i indx element p page frame) :
    increment indx = .ok (Int32.ofNat (activity.offset.toNat + (i + 1))) := by
  rw [at_.index, increment_ofNat at_.small]
  rfl

theorem below (at_ : AtByte machine place state tid activity i indx element p page frame) :
    indx.toUInt32 < activity.offset + activity.length := by
  rw [UInt32.lt_iff_toNat_lt, at_.index, toNat_ofNat (Nat.lt_of_succ_lt at_.small)]
  exact at_.outstanding.2

theorem reached_next (at_ : AtByte machine place state tid activity i indx element p page frame)
    (buffer : Buffer) :
    ({ activity with
        buffer, phase := .copy (i + 1) (Int32.ofNat (activity.offset.toNat + (i + 1))) } :
      Activity).reached = activity.reached + 1 := by
  rw [at_.reached]
  exact toNat_ofNat at_.small

theorem pageOffset (at_ : AtByte machine place state tid activity i indx element p page frame) :
    (indx % state.pageSize).toUInt32.toNat =
      (activity.offset.toNat + i) % machine.pageSize := by
  rw [at_.index, at_.pageSize, pageOffset_eq machine (Nat.lt_of_succ_lt at_.small)]

theorem workingPage (at_ : AtByte machine place state tid activity i indx element p page frame) :
    (indx / state.pageSize).toUInt32.toNat =
      (activity.offset.toNat + i) / machine.pageSize := by
  rw [at_.index, at_.pageSize, workingPage_eq machine (Nat.lt_of_succ_lt at_.small)]

end AtByte

theorem Calling.atByte (calling : Calling machine place state tid activity)
    (sound : Sound machine state buckets place)
    (small : ∀ tls, state.areaAt place tid = some tls → tls.size.toNat < 2 ^ 31) {indx : Int32}
    (inside : i < activity.length.toNat)
    (index : indx = Int32.ofNat (activity.offset.toNat + i))
    (reached : activity.reached = indx.toUInt32.toNat)
    (opened : ∀ n, activity.Opened machine n) :
    ∃ element p page frame, AtByte machine place state tid activity i indx element p page frame := by
  rcases calling.element_of sound with ⟨element, found, area, sized, fits⟩
  have limit := calling.limit
  have bound := small _ area
  rcases calling.page_of sound area (show activity.offset.toNat + i < _ by omega) with
    ⟨p, page, frame, held, -, allocated, mapped, -⟩
  rw [index, toNat_ofNat (by omega)] at reached
  refine ⟨element, p, page, frame, inside, index, by omega, reached, ⟨reached.le, by omega⟩, opened,
    found, area, sound.pageSize sized.initialized, held, allocated, mapped⟩

end EC440.LocalStorage
