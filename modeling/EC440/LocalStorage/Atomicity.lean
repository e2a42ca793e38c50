import EC440.LocalStorage.Accesses

/-!
# Concurrent reads and writes

A thread relies on a page from the moment it has opened it until it has
handled its last byte there.  As long as no step closes a page that another
thread relies on, the calls of all threads do what they would do one at a time
on private arrays, each at the moment it was entered.
-/

namespace EC440.LocalStorage

open References Outcome Transition

variable {machine : Machine} {buckets : Bucket → List ElementPtr}
  {place : Tid → Option ElementPtr} {program : Program} {tid other : Tid}
  {activity next : Activity} {element : HashElement} {p : PagePtr} {page : Page} {frame : Frame}
  {state : State} {spared : PagePtr → Prop} {kernel : Kernel} {i n : Nat}

/-- The next step of a thread closes no page that another thread relies on. -/
def Program.Spares (program : Program) (machine : Machine) (tid : Tid) : Prop :=
  ∀ p, program.Closes tid p → ∀ other, other ≠ tid → ¬program.Uses machine other p

/-- Ranges that do not wrap around, and steps that take no page away from another thread. -/
def Considerate (machine : Machine) (program : Program) : Move → Prop
  | .enter _ _ offset length _ => offset.toNat + length.toNat < 2 ^ 32
  | .advance tid _ => program.Spares machine tid

/-- The process beside private arrays, on which a call happens when it is entered. -/
structure Twin where
  program : Program
  arrays : Private.Arrays
  /-- What the last call of each thread answered there. -/
  answers : Tid → Option Reply

namespace Twin

def start (machine : Machine) (state : State) : Twin where
  program := .start state
  arrays := state.array machine
  answers _ := none

def respond (twin : Twin) (tid : Tid) (call : Call) (program : Program) : Twin where
  program
  arrays := (Private.respond twin.arrays tid call).2
  answers := Function.update twin.answers tid (some (Private.respond twin.arrays tid call).1)

inductive Step : Twin → Move → Twin → Prop
  | enter {twin : Twin} {after : Program} {tid : Tid} {access : Access} {offset length : UInt32}
      {buffer : Buffer}
      (stepped : twin.program.Step (.enter tid access offset length buffer) after) :
      Step twin (.enter tid access offset length buffer)
        (twin.respond tid (access.call offset length buffer) after)
  | advance {twin : Twin} {after : Program} {tid : Tid} {kernel : Kernel}
      (stepped : twin.program.Step (.advance tid kernel) after) :
      Step twin (.advance tid kernel) { twin with program := after }

end Twin

variable {twin : Twin}

/-! ## The invariant -/

/-- Every call is on its way to its answer, and every area to its array. -/
structure Atomic (machine : Machine) (buckets : Bucket → List ElementPtr)
    (place : Tid → Option ElementPtr) (twin : Twin) : Prop where
  sound : Sound machine twin.program.state buckets place
  small : ∀ tid tls, twin.program.state.areaAt place tid = some tls → tls.size.toNat < 2 ^ 31
  calling : ∀ tid activity, twin.program.threads tid = some activity →
    Calling machine place twin.program.state tid activity
  owed : ∀ tid activity, twin.program.threads tid = some activity →
    twin.answers tid = some (activity.replyAfter twin.program.state machine place tid)
  answered : ∀ tid, twin.program.threads tid = none → twin.program.replies tid = twin.answers tid
  arrays : ∀ tid, twin.arrays tid = twin.program.arrayAfter machine place tid

namespace Atomic

theorem start (settled : Settled machine state buckets place) :
    Atomic machine buckets place (.start machine state) where
  sound := settled.sound
  small := settled.small
  calling := by simp [Twin.start, Program.start]
  owed := by simp [Twin.start, Program.start]
  answered := by simp [Twin.start, Program.start]
  arrays tid := by
    simp only [Twin.start, settled.sound.array_eq]
    rfl

theorem uses (atomic : Atomic machine buckets place twin)
    (inside : twin.program.threads tid = some activity) (outstanding : activity.Outstanding n)
    (opened : activity.Opened machine n)
    (pointing : references (twin.program.state.areaAt place) (tid, n / machine.pageSize) =
      some p) : twin.program.Uses machine tid p := by
  rcases (atomic.calling tid activity inside).element_of atomic.sound with
    ⟨element, found, area, -, -⟩
  refine ⟨activity, element, n, inside, found, outstanding, opened, ?_⟩
  simpa [references, area] using pointing

theorem goto (atomic : Atomic machine buckets place twin)
    (inside : twin.program.threads tid = some activity)
    (sound : Sound machine state buckets place)
    (gentle : Gentle machine place tid spared twin.program.state state)
    (spares : ∀ other p, other ≠ tid → twin.program.Uses machine other p → spared p)
    (calling : Calling machine place state tid next)
    (bytes : ∀ n, next.byteAfter state machine place tid n =
      activity.byteAfter twin.program.state machine place tid n)
    (reply : next.replyAfter state machine place tid =
      activity.replyAfter twin.program.state machine place tid) :
    Atomic machine buckets place { twin with program := twin.program.goto tid next state } := by
  constructor
  · exact sound
  · intro owner tls here
    have area : state.areaAt place owner = some tls := here
    by_cases same : owner = tid
    · have size := gentle.size
      rw [← same, area, Option.map_some] at size
      obtain ⟨earlier, before, same⟩ := Option.map_eq_some_iff.mp size.symm
      rw [← same]
      exact atomic.small owner earlier before
    · rw [gentle.areas owner same] at area
      exact atomic.small owner tls area
  · intro owner current here
    by_cases same : owner = tid
    · subst same
      rw [Program.goto_self, Option.some.injEq] at here
      subst here
      exact calling
    · rw [Program.goto_of_ne _ same] at here
      apply (atomic.calling owner current here).of_gentle atomic.sound gentle same
      intro n p outstanding opened pointing
      exact spares owner p same (atomic.uses here outstanding opened pointing)
  · intro owner current here
    by_cases same : owner = tid
    · subst same
      rw [Program.goto_self, Option.some.injEq] at here
      subst here
      exact (atomic.owed owner activity inside).trans (congrArg some reply.symm)
    · rw [Program.goto_of_ne _ same] at here
      exact (atomic.owed owner current here).trans
        (congrArg some (Activity.replyAfter_congr (gentle.bytes owner same)).symm)
  · intro owner outside
    have different : owner ≠ tid := by
      rintro rfl
      rw [Program.goto_self] at outside
      cases outside
    rw [Program.goto_of_ne _ different] at outside
    exact atomic.answered owner outside
  · intro owner
    refine (atomic.arrays owner).trans (Program.arrayAfter_congr ?_ ?_).symm
    · by_cases same : owner = tid
      · exact same ▸ gentle.size
      · exact congrArg _ (gentle.areas owner same)
    · intro n
      by_cases same : owner = tid
      · subst same
        simp only [Program.byteAfter, Program.goto_self, inside]
        exact bytes n
      · simp only [Program.byteAfter, Program.goto_of_ne _ same]
        cases twin.program.threads owner with
        | none => exact gentle.bytes owner same n
        | some current => exact Activity.byteAfter_congr (gentle.bytes owner same)

theorem proceed (atomic : Atomic machine buckets place twin)
    (inside : twin.program.threads tid = some activity)
    (calling : Calling machine place twin.program.state tid next)
    (bytes : ∀ n, next.byteAfter twin.program.state machine place tid n =
      activity.byteAfter twin.program.state machine place tid n)
    (reply : next.replyAfter twin.program.state machine place tid =
      activity.replyAfter twin.program.state machine place tid) :
    Atomic machine buckets place
      { twin with program := twin.program.goto tid next twin.program.state } := by
  have gentle : Gentle machine place tid (fun _ => True) twin.program.state twin.program.state :=
    .refl tid _ _
  exact atomic.goto inside atomic.sound gentle (fun _ _ _ _ => trivial) calling bytes reply

end Atomic

/-! ## Steps inside a call -/

/-- The next step of a thread is possible, and leaves all calls on their way if it spares what the
other threads rely on. -/
def Goes (machine : Machine) (buckets : Bucket → List ElementPtr)
    (place : Tid → Option ElementPtr) (twin : Twin) (kernel : Kernel) (tid : Tid)
    (activity : Activity) : Prop :=
  ∃ after, twin.program.advance kernel tid activity = .ok after ∧
    (twin.program.Spares machine tid →
      Atomic machine buckets place { twin with program := after })

namespace Atomic

theorem unprotect (atomic : Atomic machine buckets place twin)
    (inside : twin.program.threads tid = some activity) (phase : activity.phase = .unprotect i)
    (kernel : Kernel) : Goes machine buckets place twin kernel tid activity := by
  have calling := atomic.calling tid activity inside
  rcases calling.element_of atomic.sound with ⟨element, found, area, sized, -⟩
  have element_ := (twin.program.state.element_eq_ok_iff).mpr found
  have starts : activity.reached = activity.offset.toNat := by
    simp only [Activity.reached, phase]
  have opened : ∀ n, activity.Opened machine n ↔ n / machine.pageSize < i := by
    intro n
    simp only [Activity.Opened, phase]
  by_cases more : i < element.tls.pageNum.toNat
  · have more' : i < element.tls.pages.length := sized.length ▸ more
    have held := List.getElem?_eq_getElem more'
    have pointing : references (twin.program.state.areaAt place) (tid, i) =
        some element.tls.pages[i] := by
      simp only [references, area, Option.bind_some, held]
    rcases atomic.sound.backed.page_of pointing with ⟨page, frame, allocated, -, -⟩
    have slot := State.slot_eq_ok_iff.mpr held
    have changed := atomic.sound.backed.changeProt_one .readWrite allocated
    have gentle : Gentle machine place tid (fun _ => True) twin.program.state
        (twin.program.state.withProt [element.tls.pages[i]] .readWrite) :=
      atomic.sound.gentle_withProt tid (.inl rfl)
    have continues := activity.continues_phase (.unprotect (i + 1))
    have same : ({ activity with phase := .unprotect (i + 1) } : Activity).reached =
        activity.reached := starts.symm
    have bytes := @ownByte_withProt machine twin.program.state place
      [element.tls.pages[i]] .readWrite tid
    refine ⟨twin.program.goto tid { activity with phase := .unprotect (i + 1) }
      (twin.program.state.withProt [element.tls.pages[i]] .readWrite), ?_, fun _ => ?_⟩
    · simp only [Program.advance, element_, phase, if_pos more, slot, tlsUnprotect, changed, bind,
        Except.bind]
    · apply atomic.goto inside (atomic.sound.withProt _ _) gentle (fun _ _ _ _ => trivial)
      · refine calling.continued continues gentle.size trivial ?_
        intro n p outstanding later there
        by_cases here : n / machine.pageSize = i
        · rw [here] at there
          have isPage : some element.tls.pages[i] = some p := pointing.symm.trans there
          rw [Option.some.injEq] at isPage
          rw [← isPage]
          exact atomic.sound.usable_opened activity.access
        · have earlier : n / machine.pageSize < i :=
            lt_of_le_of_ne (Nat.le_of_lt_succ later) here
          have before := calling.usable n p ((continues.outstanding_same same).mp outstanding)
            ((opened n).mpr earlier) there
          rcases atomic.sound.backed.page_of there with ⟨page', -, allocated', -⟩
          exact gentle.usable p activity.access trivial (by simp [allocated']) before
      · exact continues.byteAfter_same rfl same bytes
      · exact continues.replyAfter_same rfl same bytes
  · have continues := activity.continues_phase (.copy 0 activity.offset.toInt32)
    have same : ({ activity with phase := .copy 0 activity.offset.toInt32 } : Activity).reached =
        activity.reached := by
      rw [starts]
      simp only [Activity.reached, UInt32.toUInt32_toInt32]
    refine ⟨twin.program.goto tid { activity with phase := .copy 0 activity.offset.toInt32 }
      twin.program.state, ?_, fun _ => ?_⟩
    · simp only [Program.advance, element_, phase, if_neg more, bind, Except.bind]
    · apply atomic.proceed inside
      · apply calling.continued continues rfl
        · exact ⟨Nat.zero_le _, toInt32_eq activity.offset⟩
        · intro n p outstanding _ there
          have held : element.tls.pages[n / machine.pageSize]? = some p := by
            simpa only [references, area, Option.bind_some] using there
          have slotInside := (List.getElem?_eq_some_iff.mp held).1
          rw [sized.length] at slotInside
          exact calling.usable n p ((continues.outstanding_same same).mp outstanding)
            ((opened n).mpr (by omega)) there
      · exact continues.byteAfter_same rfl same fun _ => rfl
      · exact continues.replyAfter_same rfl same fun _ => rfl

theorem finish (atomic : Atomic machine buckets place twin)
    (inside : twin.program.threads tid = some activity) (done : ∀ n, ¬activity.Outstanding n) :
    Atomic machine buckets place
      { twin with program := twin.program.finish tid activity.access 0 activity.buffer } := by
  have others : ∀ owner, owner ≠ tid →
      (twin.program.finish tid activity.access 0 activity.buffer).threads owner =
        twin.program.threads owner :=
    fun owner different => Program.finish_of_ne _ different ..
  have earlier : ∀ owner current,
      (twin.program.finish tid activity.access 0 activity.buffer).threads owner = some current →
        twin.program.threads owner = some current := by
    intro owner current here
    by_cases same : owner = tid
    · rw [same, Program.finish_self] at here
      cases here
    · rwa [others owner same] at here
  refine ⟨atomic.sound, atomic.small,
    fun owner current here => atomic.calling owner current (earlier owner current here),
    fun owner current here => atomic.owed owner current (earlier owner current here), ?_, ?_⟩
  · intro owner outside
    by_cases same : owner = tid
    · subst same
      have owed := atomic.owed owner activity inside
      have buffer : activity.bufferAfter twin.program.state machine place owner =
          activity.buffer := by
        funext k
        rw [Activity.bufferAfter, if_neg (done _)]
      rw [Activity.replyAfter, buffer] at owed
      exact (Program.finish_reply ..).trans owed.symm
    · rw [others owner same] at outside
      exact (Program.finish_reply_of_ne _ same ..).trans (atomic.answered owner outside)
  · intro owner
    have sizes : ((twin.program.finish tid activity.access 0 activity.buffer).state.areaAt place
        owner).map (·.size) = (twin.program.state.areaAt place owner).map (·.size) := rfl
    refine (atomic.arrays owner).trans (Program.arrayAfter_congr sizes ?_).symm
    intro n
    by_cases same : owner = tid
    · subst same
      simp only [Program.byteAfter, Program.finish_self, inside, Activity.byteAfter, done n,
        and_false, if_false]
      rfl
    · simp only [Program.byteAfter, others owner same]
      rfl

theorem protect (atomic : Atomic machine buckets place twin)
    (inside : twin.program.threads tid = some activity) (phase : activity.phase = .protect i)
    (kernel : Kernel) : Goes machine buckets place twin kernel tid activity := by
  have calling := atomic.calling tid activity inside
  rcases calling.element_of atomic.sound with ⟨element, found, area, sized, -⟩
  have element_ := (twin.program.state.element_eq_ok_iff).mpr found
  have done : ∀ n, ¬activity.Outstanding n := by
    intro n outstanding
    simp only [Activity.Outstanding, Activity.reached, phase] at outstanding
    omega
  by_cases more : i < element.tls.pageNum.toNat
  · have more' : i < element.tls.pages.length := sized.length ▸ more
    have held := List.getElem?_eq_getElem more'
    have pointing : references (twin.program.state.areaAt place) (tid, i) =
        some element.tls.pages[i] := by
      simp only [references, area, Option.bind_some, held]
    rcases atomic.sound.backed.page_of pointing with ⟨page, frame, allocated, -, -⟩
    have slot := State.slot_eq_ok_iff.mpr held
    have changed := atomic.sound.backed.changeProt_one .none allocated
    have continues := activity.continues_phase (.protect (i + 1))
    have same : ({ activity with phase := .protect (i + 1) } : Activity).reached =
        activity.reached := by
      simp only [Activity.reached, phase]
      rfl
    have bytes := @ownByte_withProt machine twin.program.state place
      [element.tls.pages[i]] .none tid
    refine ⟨twin.program.goto tid { activity with phase := .protect (i + 1) }
      (twin.program.state.withProt [element.tls.pages[i]] .none), ?_, fun spares => ?_⟩
    · simp only [Program.advance, element_, phase, if_pos more, slot, tlsProtect, changed, bind,
        Except.bind]
    · have gentle : Gentle machine place tid (fun q => q ≠ element.tls.pages[i])
          twin.program.state (twin.program.state.withProt [element.tls.pages[i]] .none) :=
        atomic.sound.gentle_withProt tid (.inr fun q different => different)
      have closes : twin.program.Closes tid element.tls.pages[i] :=
        .inl ⟨activity, element, i, inside, phase, found, more, held⟩
      have spares' : ∀ other q, other ≠ tid → twin.program.Uses machine other q →
          q ≠ element.tls.pages[i] := by
        rintro other q distinct uses rfl
        exact spares _ closes other distinct uses
      apply atomic.goto inside (atomic.sound.withProt _ _) gentle spares'
      · refine calling.continued continues gentle.size trivial ?_
        intro n p outstanding
        exact absurd ((continues.outstanding_same same).mp outstanding) (done n)
      · exact continues.byteAfter_same rfl same bytes
      · exact continues.replyAfter_same rfl same bytes
  · refine ⟨twin.program.finish tid activity.access 0 activity.buffer, ?_, fun _ => ?_⟩
    · simp only [Program.advance, element_, phase, if_neg more, bind, Except.bind]
    · exact atomic.finish inside done

section AtByte

variable {indx : Int32}

theorem read (atomic : Atomic machine buckets place twin)
    (inside : twin.program.threads tid = some activity)
    (at_ : AtByte machine place twin.program.state tid activity i indx element p page frame)
    (phase : activity.phase = .copy i indx) (reads : activity.access = .read) (kernel : Kernel) :
    Goes machine buckets place twin kernel tid activity := by
  have calling := atomic.calling tid activity inside
  have element_ := (twin.program.state.element_eq_ok_iff).mpr at_.found
  have readable := (at_.usable calling frame at_.frameOf).2.1 reads
  have own : twin.program.state.ownByte machine place tid activity.reached =
      frame.bytes ((activity.offset.toNat + i) % machine.pageSize) := by
    rw [at_.reached]
    exact State.byteAt_eq at_.pointing at_.frameOf _
  have byte : readByte activity.pointer twin.program.state indx =
      .ok (twin.program.state.ownByte machine place tid activity.reached) := by
    rw [at_.index, own]
    exact readByte_of_readable (Nat.lt_of_succ_lt at_.small) at_.pageSize at_.found at_.held
      at_.allocated at_.mapped readable
  let buffer := Function.update activity.buffer i
    (twin.program.state.ownByte machine place tid activity.reached)
  let next : Activity := { activity with
    buffer, phase := .copy (i + 1) (Int32.ofNat (activity.offset.toNat + (i + 1))) }
  have continues : activity.Continues next := ⟨rfl, rfl, rfl, rfl⟩
  have reached : next.reached = activity.reached + 1 := at_.reached_next buffer
  have outstanding : activity.Outstanding activity.reached := at_.reached ▸ at_.outstanding
  refine ⟨twin.program.goto tid next twin.program.state, ?_, fun _ => ?_⟩
  · simp only [Program.advance, element_, phase, if_pos at_.below, reads, byte, at_.incremented, bind,
      Except.bind, next, buffer]
  · apply atomic.proceed inside
    · refine calling.continued continues rfl ⟨at_.inside, rfl⟩ ?_
      intro n p later _ there
      exact calling.usable n p ((continues.outstanding_next reached).mp later).1 (at_.opened n) there
    · exact continues.byteAfter_read reads
    · exact continues.replyAfter_read at_.reached outstanding reached rfl

theorem stored (atomic : Atomic machine buckets place twin)
    (inside : twin.program.threads tid = some activity)
    (at_ : AtByte machine place twin.program.state tid activity i indx element p page frame)
    (writes : activity.access = .write) (single : page.refCount ≤ 1) :
    storeByte twin.program.state p (indx % twin.program.state.pageSize).toUInt32.toNat
        (activity.buffer i) =
      .ok (twin.program.state.stored page frame
        ((activity.offset.toNat + i) % machine.pageSize) (activity.buffer i)) ∧
      Atomic machine buckets place { twin with
        program := twin.program.goto tid
          { activity with
            phase := .copy (i + 1) (Int32.ofNat (activity.offset.toNat + (i + 1))) }
          (twin.program.state.stored page frame
            ((activity.offset.toNat + i) % machine.pageSize) (activity.buffer i)) } := by
  have calling := atomic.calling tid activity inside
  have within : (activity.offset.toNat + i) % machine.pageSize <
      twin.program.state.pageSize.toInt.toNat := by
    rw [at_.pageSize, Machine.toNat_pageSizeInt]
    exact Nat.mod_lt _ machine.pageSize_pos
  have gentle : Gentle machine place tid (fun _ => True) twin.program.state
      (twin.program.state.stored page frame ((activity.offset.toNat + i) % machine.pageSize)
        (activity.buffer i)) :=
    atomic.sound.gentle_stored at_.area at_.held at_.allocated at_.mapped single _
  have continues := activity.continues_phase
    (.copy (i + 1) (Int32.ofNat (activity.offset.toNat + (i + 1))))
  have reached := at_.reached_next activity.buffer
  have outstanding : activity.Outstanding activity.reached := at_.reached ▸ at_.outstanding
  constructor
  · rw [at_.pageOffset]
    exact storeByte_eq at_.allocated at_.mapped (at_.usable calling frame at_.frameOf).1 within _
  · apply atomic.goto inside (atomic.sound.stored page frame _ _) gentle fun _ _ _ _ => trivial
    · refine calling.continued continues rfl ⟨at_.inside, rfl⟩ ?_
      intro n q later _ there
      have before := calling.usable n q ((continues.outstanding_next reached).mp later).1
        (at_.opened n) there
      rcases atomic.sound.backed.page_of there with ⟨page', -, allocated', -⟩
      exact gentle.usable q activity.access trivial (by simp [allocated']) before
    · apply continues.byteAfter_written rfl writes reached outstanding
      intro n
      rw [atomic.sound.ownByte_stored at_.area at_.held at_.allocated at_.mapped single,
        at_.reached, Nat.add_sub_cancel_left]
      simp only [true_and]
    · exact continues.replyAfter_write writes

theorem copied (atomic : Atomic machine buckets place twin)
    (inside : twin.program.threads tid = some activity)
    (at_ : AtByte machine place twin.program.state tid activity i indx element p page frame)
    (phase : activity.phase = .copy i indx) (writes : activity.access = .write)
    (shared : page.refCount > 1) {address : Address}
    (unmapped : twin.program.state.memory address = none) :
    Atomic machine buckets place { twin with
      program := twin.program.goto tid
        { activity with phase := .leave i indx p twin.program.state.nextPage }
        (twin.program.state.duplicated activity.pointer element
          ((activity.offset.toNat + i) / machine.pageSize) p page frame address) } := by
  have calling := atomic.calling tid activity inside
  have sound := atomic.sound
  have gentle : Gentle machine place tid (fun _ => True) twin.program.state
      (twin.program.state.duplicated activity.pointer element
        ((activity.offset.toNat + i) / machine.pageSize) p page frame address) :=
    sound.gentle_duplicated calling.placed at_.found at_.held at_.allocated at_.mapped unmapped
      shared
  rcases sound.duplicated calling.placed at_.found at_.held at_.allocated at_.mapped unmapped with
    ⟨sound', areas, moved⟩
  rcases sound.duplicated_copy frame address calling.placed at_.found at_.held at_.allocated with
    ⟨alone, usableCopy⟩
  have continues := activity.continues_phase (.leave i indx p twin.program.state.nextPage)
  have reached : ({ activity with
      phase := .leave i indx p twin.program.state.nextPage } : Activity).reached =
      activity.reached := by
    simp only [Activity.reached, phase]
  have bytes := sound.ownByte_duplicated calling.placed at_.found at_.held at_.allocated at_.mapped
    unmapped tid
  have slots : ∀ slot, references ((twin.program.state.duplicated activity.pointer element
      ((activity.offset.toNat + i) / machine.pageSize) p page frame address).areaAt place)
        (tid, slot) =
      if slot = (activity.offset.toNat + i) / machine.pageSize then
        some twin.program.state.nextPage
      else references (twin.program.state.areaAt place) (tid, slot) := by
    intro slot
    rw [areas, moved, Function.update_apply]
    simp only [Prod.mk.injEq, true_and]
  apply atomic.goto inside sound' gentle fun _ _ _ _ => trivial
  · apply calling.continued continues gentle.size
    · refine ⟨⟨writes, at_.inside, at_.index, ?_, alone⟩, ?_, ?_⟩
      · rw [slots]
        exact if_pos rfl
      · apply gentle.allocated
        simp [at_.allocated]
      · intro slot
        rw [slots]
        split
        next =>
          intro same
          exact sound.backed.ne_nextPage at_.pointing (Option.some.inj same).symm
        next other =>
          intro there
          exact other (sound.backed.separate tid slot _ p there at_.pointing)
    · intro n q outstanding _ there
      rw [slots] at there
      split at there
      next =>
        rw [← Option.some.inj there, writes]
        exact usableCopy
      next =>
        have before := calling.usable n q ((continues.outstanding_same reached).mp outstanding)
          (at_.opened n) there
        rcases sound.backed.page_of there with ⟨page', -, allocated', -⟩
        exact gentle.usable q activity.access trivial (by simp [allocated']) before
  · exact continues.byteAfter_same rfl reached bytes
  · exact continues.replyAfter_same rfl reached bytes

theorem write (atomic : Atomic machine buckets place twin)
    (inside : twin.program.threads tid = some activity)
    (at_ : AtByte machine place twin.program.state tid activity i indx element p page frame)
    (phase : activity.phase = .copy i indx) (writes : activity.access = .write)
    (kernel : Kernel) :
    kernel.place twin.program.state.memory = none ∧
        twin.program.advance kernel tid activity = .error .mapFailed ∨
      Goes machine buckets place twin kernel tid activity := by
  have calling := atomic.calling tid activity inside
  have element_ := (twin.program.state.element_eq_ok_iff).mpr at_.found
  have slot := State.slot_eq_ok_iff.mpr at_.held
  have page_ := (twin.program.state.page_eq_ok_iff).mpr at_.allocated
  have advance : twin.program.advance kernel tid activity =
      writeStep kernel twin.program.state activity i indx >>= fun result =>
        .ok (twin.program.goto tid { activity with phase := result.2 } result.1) := by
    simp only [Program.advance, element_, phase, if_pos at_.below, writes, bind, Except.bind]
  by_cases shared : page.refCount > 1
  · have usable := at_.usable calling frame at_.frameOf
    have counter : twin.program.state.refCount p = some page.refCount := by
      simp [State.refCount, at_.allocated]
    have readable := usable.2.2 page.refCount counter shared
    have step : writeStep kernel twin.program.state activity i indx =
        copyShared kernel twin.program.state activity.pointer element
          ((activity.offset.toNat + i) / machine.pageSize) p page >>= fun result =>
          .ok (result.2, .leave i indx p result.1) := by
      simp only [writeStep, element_, at_.workingPage, slot, page_, if_pos shared, bind,
        Except.bind]
    rw [copyShared_eq kernel at_.mapped readable] at step
    cases placed : kernel.place twin.program.state.memory with
    | none =>
        left
        rw [placed] at step
        exact ⟨rfl, by rw [advance, step]; rfl⟩
    | some address =>
        right
        have unmapped := kernel.place_unmapped _ _ placed
        rw [placed] at step
        refine ⟨_, ?_, fun _ => atomic.copied inside at_ phase writes shared unmapped⟩
        rw [advance, step]
        rfl
  · right
    have done := atomic.stored inside at_ writes (not_lt.mp shared)
    refine ⟨_, ?_, fun _ => done.2⟩
    have step : writeStep kernel twin.program.state activity i indx =
        .ok (twin.program.state.stored page frame
            ((activity.offset.toNat + i) % machine.pageSize) (activity.buffer i),
          .copy (i + 1) (Int32.ofNat (activity.offset.toNat + (i + 1)))) := by
      simp only [writeStep, element_, at_.workingPage, slot, page_, if_neg shared, done.1,
        at_.incremented, bind, Except.bind]
    rw [advance, step]
    rfl

end AtByte

theorem leave (atomic : Atomic machine buckets place twin)
    (inside : twin.program.threads tid = some activity) {indx : Int32} {mainPage copy : PagePtr}
    (phase : activity.phase = .leave i indx mainPage copy) (kernel : Kernel) :
    Goes machine buckets place twin kernel tid activity := by
  have calling := atomic.calling tid activity inside
  rcases calling.element_of atomic.sound with ⟨element, found, area, sized, -⟩
  have element_ := (twin.program.state.element_eq_ok_iff).mpr found
  have inPhase := calling.inPhase
  simp only [InPhase, phase] at inPhase
  rcases inPhase with ⟨holds, present, away⟩
  rcases Option.ne_none_iff_exists'.mp present with ⟨main, allocated⟩
  have changed := atomic.sound.backed.changeProt_one .none allocated
  have continues := activity.continues_phase (.store i indx copy)
  have reached : ({ activity with phase := .store i indx copy } : Activity).reached =
      activity.reached := by
    simp only [Activity.reached, phase]
  have opened : ∀ n, activity.Opened machine n := by
    intro n
    simp only [Activity.Opened, phase]
  have bytes := @ownByte_withProt machine twin.program.state place [mainPage] .none tid
  refine ⟨twin.program.goto tid { activity with phase := .store i indx copy }
    (twin.program.state.withProt [mainPage] .none), ?_, fun spares => ?_⟩
  · simp only [Program.advance, element_, phase, tlsProtect, changed, bind, Except.bind]
  · have gentle : Gentle machine place tid (fun q => q ≠ mainPage) twin.program.state
        (twin.program.state.withProt [mainPage] .none) :=
      atomic.sound.gentle_withProt tid (.inr fun q different => different)
    have spares' : ∀ other q, other ≠ tid → twin.program.Uses machine other q → q ≠ mainPage := by
      rintro other q distinct uses rfl
      exact spares _ (.inr ⟨activity, i, indx, copy, inside, phase⟩) other distinct uses
    apply atomic.goto inside (atomic.sound.withProt _ _) gentle spares'
    · refine calling.continued continues gentle.size
        ⟨holds.access, holds.inside, holds.position, holds.pointing, holds.alone⟩ ?_
      intro n q outstanding _ there
      have before := calling.usable n q ((continues.outstanding_same reached).mp outstanding)
        (opened n) there
      have different : q ≠ mainPage := by
        rintro rfl
        exact away _ there
      rcases atomic.sound.backed.page_of there with ⟨page', -, allocated', -⟩
      exact gentle.usable q activity.access different (by simp [allocated']) before
    · exact continues.byteAfter_same rfl reached bytes
    · exact continues.replyAfter_same rfl reached bytes

theorem store (atomic : Atomic machine buckets place twin)
    (inside : twin.program.threads tid = some activity) {indx : Int32} {copy : PagePtr}
    (phase : activity.phase = .store i indx copy) (kernel : Kernel) :
    Goes machine buckets place twin kernel tid activity := by
  have calling := atomic.calling tid activity inside
  have holds := calling.inPhase
  simp only [InPhase, phase] at holds
  rcases calling.atByte atomic.sound (atomic.small tid) holds.inside holds.position
    (by simp only [Activity.reached, phase]) (by simp [Activity.Opened, phase]) with
    ⟨element, p, page, frame, at_⟩
  obtain rfl : p = copy := Option.some.inj (at_.pointing.symm.trans holds.pointing)
  have single : page.refCount ≤ 1 := by
    have alone := holds.alone
    rw [State.refCount, at_.allocated, Option.map_some, Option.some.injEq] at alone
    exact alone.le
  have element_ := (twin.program.state.element_eq_ok_iff).mpr at_.found
  have done := atomic.stored inside at_ holds.access single
  refine ⟨_, ?_, fun _ => done.2⟩
  simp only [Program.advance, element_, phase, done.1, at_.incremented, bind, Except.bind]

theorem copy (atomic : Atomic machine buckets place twin)
    (inside : twin.program.threads tid = some activity) {indx : Int32}
    (phase : activity.phase = .copy i indx) (kernel : Kernel) :
    kernel.place twin.program.state.memory = none ∧
        twin.program.advance kernel tid activity = .error .mapFailed ∨
      Goes machine buckets place twin kernel tid activity := by
  have calling := atomic.calling tid activity inside
  have inPhase := calling.inPhase
  simp only [InPhase, phase] at inPhase
  rcases inPhase with ⟨most, index⟩
  by_cases more : i < activity.length.toNat
  · rcases calling.atByte atomic.sound (atomic.small tid) more index
      (by simp only [Activity.reached, phase]) (by simp [Activity.Opened, phase]) with
      ⟨element, p, page, frame, at_⟩
    cases access : activity.access with
    | read => exact .inr (atomic.read inside at_ phase access kernel)
    | write => exact atomic.write inside at_ phase access kernel
  · right
    rcases calling.element_of atomic.sound with ⟨element, found, area, -, fits⟩
    have element_ := (twin.program.state.element_eq_ok_iff).mpr found
    have limit := calling.limit
    have small := atomic.small tid _ area
    have last : activity.reached = activity.limit.toNat := by
      simp only [Activity.reached, phase]
      rw [index, toNat_ofNat (by omega)]
      omega
    have beyond : ¬indx.toUInt32 < activity.offset + activity.length := by
      rw [UInt32.lt_iff_toNat_lt, index, toNat_ofNat (by omega)]
      exact not_lt.mpr (limit.trans_le (by omega))
    have continues := activity.continues_phase (.protect 0)
    have reached : ({ activity with phase := .protect 0 } : Activity).reached =
        activity.reached := last.symm
    refine ⟨twin.program.goto tid { activity with phase := .protect 0 } twin.program.state, ?_,
      fun _ => ?_⟩
    · simp only [Program.advance, element_, phase, if_neg beyond, bind, Except.bind]
    · apply atomic.proceed inside
      · refine calling.continued continues rfl trivial ?_
        intro n q outstanding _ there
        exact calling.usable n q ((continues.outstanding_same reached).mp outstanding)
          (by simp only [Activity.Opened, phase]) there
      · exact continues.byteAfter_same rfl reached fun _ => rfl
      · exact continues.replyAfter_same rfl reached fun _ => rfl

/-- Every step of a call, unless the kernel has no page for a copy. -/
theorem goes (atomic : Atomic machine buckets place twin)
    (inside : twin.program.threads tid = some activity) (kernel : Kernel) :
    kernel.place twin.program.state.memory = none ∧
        twin.program.advance kernel tid activity = .error .mapFailed ∨
      Goes machine buckets place twin kernel tid activity := by
  cases phase : activity.phase with
  | unprotect i => exact .inr (atomic.unprotect inside phase kernel)
  | copy i indx => exact atomic.copy inside phase kernel
  | leave i indx mainPage copy => exact .inr (atomic.leave inside phase kernel)
  | store i indx copy => exact .inr (atomic.store inside phase kernel)
  | protect i => exact .inr (atomic.protect inside phase kernel)

/-! ## Entering a call -/

theorem array_outside (atomic : Atomic machine buckets place twin)
    (outside : twin.program.threads tid = none) :
    twin.arrays tid = (twin.program.state.areaAt place tid).map fun tls =>
      (List.range tls.size.toNat).map (twin.program.state.ownByte machine place tid) := by
  have same : twin.program.byteAfter machine place tid =
      twin.program.state.ownByte machine place tid := by
    funext n
    simp only [Program.byteAfter, outside]
  rw [atomic.arrays tid, Program.arrayAfter, same]

theorem refused (atomic : Atomic machine buckets place twin)
    (outside : twin.program.threads tid = none) {call : Call} {access : Access} {buffer : Buffer}
    (failed : Private.respond twin.arrays tid call =
      ({ code := -1, buffer := access.filled buffer }, twin.arrays)) :
    Atomic machine buckets place
      (twin.respond tid call (twin.program.finish tid access (-1) buffer)) := by
  have threads : (twin.program.finish tid access (-1) buffer).threads = twin.program.threads := by
    funext owner
    by_cases same : owner = tid
    · rw [same, Program.finish_self, outside]
    · exact Program.finish_of_ne _ same ..
  have others : ∀ owner, owner ≠ tid →
      (twin.respond tid call (twin.program.finish tid access (-1) buffer)).answers owner =
        twin.answers owner :=
    fun owner different => Function.update_of_ne different ..
  refine ⟨atomic.sound, atomic.small, ?_, ?_, ?_, ?_⟩
  · intro owner current here
    exact atomic.calling owner current (threads ▸ here)
  · intro owner current here
    have inside : twin.program.threads owner = some current := threads ▸ here
    have different : owner ≠ tid := by
      rintro rfl
      rw [outside] at inside
      cases inside
    rw [others owner different]
    exact atomic.owed owner current inside
  · intro owner _
    by_cases same : owner = tid
    · subst same
      simp only [Twin.respond, failed, Function.update_self]
      exact Program.finish_reply ..
    · rw [others owner same]
      have here : twin.program.threads owner = none := threads ▸ ‹_›
      exact (Program.finish_reply_of_ne _ same ..).trans (atomic.answered owner here)
  · intro owner
    have bytes : (twin.program.finish tid access (-1) buffer).byteAfter machine place owner =
        twin.program.byteAfter machine place owner := by
      funext n
      simp only [Program.byteAfter, threads]
      rfl
    simp only [Twin.respond, failed, Program.arrayAfter, bytes]
    exact atomic.arrays owner

section Accepted

variable {pointer : ElementPtr} {tls : Tls} {access : Access} {offset length : UInt32}
  {buffer : Buffer}

theorem accepted (atomic : Atomic machine buckets place twin)
    (outside : twin.program.threads tid = none) (placed : place tid = some pointer)
    (area : twin.program.state.areaAt place tid = some tls)
    (limit : (offset + length).toNat = offset.toNat + length.toNat)
    (fits : offset.toNat + length.toNat ≤ tls.size.toNat) :
    Atomic machine buckets place (twin.respond tid (access.call offset length buffer)
      (twin.program.goto tid (access.entered pointer offset length buffer)
        twin.program.state)) := by
  let next := access.entered pointer offset length buffer
  have array : twin.arrays tid = some ((List.range tls.size.toNat).map
      (twin.program.state.ownByte machine place tid)) := by
    rw [atomic.array_outside outside, area, Option.map_some]
  have calling : Calling machine place twin.program.state tid next := by
    refine ⟨placed, limit, ?_, trivial, ?_⟩
    · intro tls' area'
      obtain rfl : tls = tls' := Option.some.inj (area.symm.trans area')
      exact limit.trans_le fits
    · intro n p _ opened
      exact absurd opened (Nat.not_lt_zero _)
  have self : (twin.program.goto tid next twin.program.state).threads tid = some next :=
    Program.goto_self ..
  have others : ∀ owner, owner ≠ tid →
      (twin.program.goto tid next twin.program.state).threads owner =
        twin.program.threads owner :=
    fun owner different => Program.goto_of_ne _ different ..
  have answers : ∀ owner, owner ≠ tid → (twin.respond tid (access.call offset length buffer)
      (twin.program.goto tid next twin.program.state)).answers owner = twin.answers owner :=
    fun owner different => Function.update_of_ne different ..
  refine ⟨atomic.sound, atomic.small, ?_, ?_, ?_, ?_⟩
  · intro owner current here
    by_cases same : owner = tid
    · subst same
      obtain rfl := Option.some.inj (self.symm.trans here)
      exact calling
    · exact atomic.calling owner current ((others owner same).symm.trans here)
  · intro owner current here
    by_cases same : owner = tid
    · subst same
      obtain rfl := Option.some.inj (self.symm.trans here)
      exact (Function.update_self ..).trans (congrArg some (Access.answer_entered array limit fits))
    · rw [answers owner same]
      exact atomic.owed owner current ((others owner same).symm.trans here)
  · intro owner here
    have different : owner ≠ tid := by
      rintro rfl
      exact absurd (self.symm.trans here) (Option.some_ne_none next)
    rw [answers owner different]
    exact atomic.answered owner ((others owner different).symm.trans here)
  · intro owner
    by_cases same : owner = tid
    · subst same
      have bytes : (twin.program.goto owner next twin.program.state).byteAfter machine place owner =
          next.byteAfter twin.program.state machine place owner := by
        funext n
        simp only [Program.byteAfter, self]
        rfl
      have after : (twin.program.goto owner next twin.program.state).arrayAfter machine place owner =
          some ((List.range tls.size.toNat).map
            (next.byteAfter twin.program.state machine place owner)) := by
        rw [Program.arrayAfter, bytes]
        exact congrArg _ area
      exact (Access.array_entered array limit fits).trans after.symm
    · refine (Private.respond_other _ _ same).trans ((atomic.arrays owner).trans ?_)
      have sizes : ((twin.program.goto tid next twin.program.state).state.areaAt place owner).map
          (·.size) = (twin.program.state.areaAt place owner).map (·.size) := rfl
      refine (Program.arrayAfter_congr sizes fun n => ?_).symm
      simp only [Program.byteAfter, others owner same]
      rfl

end Accepted

theorem enter (atomic : Atomic machine buckets place twin) {after : Program} {access : Access}
    {offset length : UInt32} {buffer : Buffer}
    (unwrapped : offset.toNat + length.toNat < 2 ^ 32)
    (outside : twin.program.threads tid = none)
    (entered : twin.program.enter tid access offset length buffer = .ok after) :
    Atomic machine buckets place
      (twin.respond tid (access.call offset length buffer) after) := by
  have limit : (offset + length).toNat = offset.toNat + length.toNat := by
    rw [UInt32.toNat_add]
    exact Nat.mod_eq_of_lt unwrapped
  have array := atomic.array_outside outside
  simp only [Program.enter, atomic.sound.table.hashSearch_eq, bind, Except.bind] at entered
  cases placed : place tid with
  | none =>
      rw [placed, Except.ok.injEq] at entered
      subst entered
      have missing : twin.arrays tid = none := by
        rw [array, atomic.sound.table.areaAt_eq_none_iff.mpr placed, Option.map_none]
      apply atomic.refused outside
      cases access with
      | read => simp only [Access.call, Private.respond, missing, Access.filled]
      | write => simp only [Access.call, Private.respond, missing, Access.filled]
  | some pointer =>
      rcases atomic.sound.table.element_eq placed with ⟨element, reached, -, area⟩
      rw [area, Option.map_some] at array
      simp only [placed, reached] at entered
      split at entered
      next beyond =>
        rw [Except.ok.injEq] at entered
        subst entered
        rw [gt_iff_lt, UInt32.lt_iff_toNat_lt, limit] at beyond
        have short : ¬offset.toNat + length.toNat ≤ ((List.range element.tls.size.toNat).map
            (twin.program.state.ownByte machine place tid)).length := by
          rw [List.length_map, List.length_range]
          exact not_le.mpr beyond
        apply atomic.refused outside
        cases access with
        | read => simp only [Access.call, Private.respond, array, if_neg short, Access.filled]
        | write => simp only [Access.call, Private.respond, array, if_neg short, Access.filled]
      next within =>
        rw [Except.ok.injEq] at entered
        subst entered
        rw [gt_iff_lt, UInt32.lt_iff_toNat_lt, limit] at within
        exact atomic.accepted outside placed area limit (not_lt.mp within)

/-! ## Runs -/

theorem step (atomic : Atomic machine buckets place twin) {move : Move} {after : Twin}
    (considerate : Considerate machine twin.program move) (stepped : twin.Step move after) :
    Atomic machine buckets place after := by
  cases stepped with
  | enter stepped =>
      cases stepped with
      | enter outside entered => exact atomic.enter considerate outside entered
  | advance stepped =>
      cases stepped with
      | advance inside advanced =>
          rename_i kernel activity
          rcases atomic.goes inside kernel with ⟨-, failed⟩ | ⟨after, advanced', kept⟩
          · rw [failed] at advanced
            cases advanced
          · rw [advanced', Except.ok.injEq] at advanced
            exact advanced ▸ kept considerate

theorem run (atomic : Atomic machine buckets place twin) {after : Twin}
    (moves : RunUnder Twin.Step (fun twin => Considerate machine twin.program) twin after) :
    Atomic machine buckets place after := by
  apply RunUnder.invariant (Atomic machine buckets place) _ atomic moves
  intro before move after atomic considerate stepped
  exact atomic.step considerate stepped

theorem outside (atomic : Atomic machine buckets place twin)
    (outside : twin.program.threads tid = none) :
    twin.program.replies tid = twin.answers tid ∧
      twin.program.state.array machine tid = twin.arrays tid := by
  refine ⟨atomic.answered tid outside, ?_⟩
  rw [atomic.array_outside outside, atomic.sound.array_eq]
  rfl

theorem advances (atomic : Atomic machine buckets place twin)
    (inside : twin.program.threads tid = some activity)
    (room : kernel.place twin.program.state.memory ≠ none) :
    ∃ after, twin.Step (.advance tid kernel) after := by
  rcases atomic.goes inside kernel with ⟨full, -⟩ | ⟨after, advanced, -⟩
  · exact absurd full room
  · exact ⟨_, .advance (.advance inside advanced)⟩

end Atomic

/-- Threads whose areas were set up by any calls read and write at the same time.  As long as no
step closes a page that another thread relies on, every call answers as on private arrays and
leaves the same arrays, and a thread in a call can always go on while the kernel has a page. -/
theorem accessesAtomic (machine : Machine) (memory : PageMemory) (events : List Event)
    (sharing : ∀ event ∈ events, event.call.Sharing)
    (served : AllServed machine (.initial memory) events) {replies : List Reply}
    (played : play machine (.initial memory) events = .ok (replies, state))
    (run : RunUnder Twin.Step (fun twin => Considerate machine twin.program)
      (.start machine state) twin) :
    (∀ tid, twin.program.threads tid = none →
      twin.program.replies tid = twin.answers tid ∧
        twin.program.state.array machine tid = twin.arrays tid) ∧
    ∀ tid activity kernel, twin.program.threads tid = some activity →
      kernel.place twin.program.state.memory ≠ none →
      ∃ after, twin.Step (.advance tid kernel) after := by
  rcases (Quiet.initial machine memory).play sharing served with
    ⟨replies', state', played', buckets, place, settled⟩
  rw [played, Except.ok.injEq, Prod.mk.injEq] at played'
  rcases played' with ⟨-, rfl⟩
  have atomic := (Atomic.start settled).run run
  exact ⟨fun tid outside => atomic.outside outside,
    fun tid activity kernel inside room => atomic.advances inside room⟩

theorem Program.spares_of_ne (inside : program.threads tid = some activity)
    (protects : ∀ i, activity.phase ≠ .protect i)
    (leaves : ∀ i indx mainPage copy, activity.phase ≠ .leave i indx mainPage copy) :
    program.Spares machine tid := by
  rintro p (⟨current, element, i, here, protecting, -⟩ | ⟨current, i, indx, copy, here, leaving⟩)
  · rw [inside, Option.some.injEq] at here
    exact absurd (here ▸ protecting) (protects i)
  · rw [inside, Option.some.injEq] at here
    exact absurd (here ▸ leaving) (leaves i indx p copy)

theorem Program.spares_of_done
    (done : ∀ other activity n, other ≠ tid → program.threads other = some activity →
      ¬activity.Outstanding n) : program.Spares machine tid := by
  rintro p - other distinct ⟨activity, element, n, inside, -, outstanding, -⟩
  exact done other activity n distinct inside outstanding

theorem Program.spares_of_reader
    (reader : (program.threads 1).map (fun activity => (activity.phase, activity.limit)) =
      some (.copy 1 1, 1))
    (others : ∀ other, other ≠ 1 → other ≠ 2 → program.threads other = none) :
    program.Spares machine 2 := by
  apply Program.spares_of_done
  intro other activity n different inside outstanding
  by_cases same : other = 1
  · rw [same] at inside
    rw [inside, Option.map_some, Option.some.injEq, Prod.mk.injEq] at reader
    simp only [Activity.Outstanding, Activity.reached, reader] at outstanding
    exact absurd (lt_of_le_of_lt outstanding.1 outstanding.2) (by decide)
  · rw [others other same different] at inside
    cases inside

/-- Thread 1 reads a byte of the shared page while thread 2 writes it. -/
theorem accessesAtomic_overlapping :
    ∃ twin : Twin, RunUnder Twin.Step (fun twin => Considerate page4096 twin.program)
        (.start page4096 onePageShared) twin ∧
      (twin.program.threads 1).map (·.phase) = some (.copy 1 1) ∧
      twin.program.threads 2 = none ∧
      twin.program.state.array page4096 2 = some [7] := by
  have short : (0 : UInt32).toNat + (1 : UInt32).toNat < 2 ^ 32 := by decide
  have begun : RunUnder Twin.Step (fun twin => Considerate page4096 twin.program)
      (.start page4096 onePageShared) _ :=
    .tail .refl ⟨.enter 1 .read 0 1 fun _ => 0, short, .enter (.enter rfl rfl)⟩
  have entered := begun.tail
    ⟨.enter 2 .write 0 1 fun _ => 7, short, .enter (.enter rfl rfl)⟩
  have opened := entered.tail
    ⟨.advance 1 twoPages, Program.spares_of_ne rfl (by simp) (by simp), .advance (.advance rfl rfl)⟩
  have both := opened.tail
    ⟨.advance 2 twoPages, Program.spares_of_ne rfl (by simp) (by simp), .advance (.advance rfl rfl)⟩
  have looping := both.tail
    ⟨.advance 1 twoPages, Program.spares_of_ne rfl (by simp) (by simp), .advance (.advance rfl rfl)⟩
  have ready := looping.tail
    ⟨.advance 2 twoPages, Program.spares_of_ne rfl (by simp) (by simp), .advance (.advance rfl rfl)⟩
  have byteRead := ready.tail
    ⟨.advance 1 twoPages, Program.spares_of_ne rfl (by simp) (by simp), .advance (.advance rfl rfl)⟩
  have copied := byteRead.tail
    ⟨.advance 2 twoPages, Program.spares_of_ne rfl (by simp) (by simp), .advance (.advance rfl rfl)⟩
  have closed := copied.tail
    ⟨.advance 2 twoPages, Program.spares_of_reader rfl fun other first second => by
      simp only [Program.goto_of_ne _ first, Program.goto_of_ne _ second, Twin.respond]; rfl,
      .advance (.advance rfl rfl)⟩
  have stored := closed.tail
    ⟨.advance 2 twoPages, Program.spares_of_ne rfl (by simp) (by simp), .advance (.advance rfl rfl)⟩
  have leaving := stored.tail
    ⟨.advance 2 twoPages, Program.spares_of_ne rfl (by simp) (by simp), .advance (.advance rfl rfl)⟩
  have protect := leaving.tail
    ⟨.advance 2 twoPages, Program.spares_of_reader rfl fun other first second => by
      simp only [Program.goto_of_ne _ first, Program.goto_of_ne _ second, Twin.respond]; rfl,
      .advance (.advance rfl rfl)⟩
  have returned := protect.tail
    ⟨.advance 2 twoPages, Program.spares_of_reader rfl fun other first second => by
      simp only [Program.goto_of_ne _ first, Program.goto_of_ne _ second, Twin.respond]; rfl,
      .advance (.advance rfl rfl)⟩
  rcases shareOnePage_played with ⟨replies, played⟩
  have atomic := accessesAtomic page4096 _ shareOnePage shareOnePage_sharing
    shareOnePage_served played returned
  exact ⟨_, returned, rfl, rfl, (atomic.1 2 rfl).2⟩

end EC440.LocalStorage
