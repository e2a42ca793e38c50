import EC440.LocalStorage.Advances
import Mathlib.Algebra.Order.BigOperators.Group.Finset
import Mathlib.Data.FinEnum

/-!
# No thread waits for ever

A step that has to wait closes a page that another thread relies on.  A thread
waits after a copy only for threads that are at a lower slot or can go on, and
at the end of its call it is relied on by nobody; so some thread can always go
on, and every call comes to its end.
-/

namespace EC440.LocalStorage

open References Outcome Transition

variable {machine : Machine} {state after : State} {buckets : Bucket → List ElementPtr}
  {place : Tid → Option ElementPtr} {program later : Program} {twin : Twin} {tid other : Tid}
  {activity current : Activity} {element : HashElement} {p : PagePtr} {page : Page}
  {kernel : Kernel} {i j n slot : Nat}

/-- A page that a thread has copied and has still to close is in one slot, and is not the copy
that another thread has just made. -/
structure Left (machine : Machine) (program : Program) : Prop where
  level : ∀ tid activity i indx mainPage copy, program.threads tid = some activity →
    activity.phase = .leave i indx mainPage copy →
    ∀ j, program.state.Holds j mainPage → j = (activity.offset.toNat + i) / machine.pageSize
  apart : ∀ tid other activity current i i' indx indx' mainPage mainPage' copy copy',
    other ≠ tid → program.threads tid = some activity → program.threads other = some current →
    activity.phase = .leave i indx mainPage copy →
    current.phase = .leave i' indx' mainPage' copy' → copy' ≠ mainPage

/-- What holds in every considerate run. -/
structure Lively (machine : Machine) (buckets : Bucket → List ElementPtr)
    (place : Tid → Option ElementPtr) (twin : Twin) : Prop where
  atomic : Atomic machine buckets place twin
  leveled : Leveled twin.program.state
  left : Left machine twin.program

theorem Atomic.atByte (atomic : Atomic machine buckets place twin)
    (inside : twin.program.threads tid = some activity) {indx : Int32}
    (phase : activity.phase = .copy i indx) (more : indx.toUInt32 < activity.limit) :
    ∃ element p page frame,
      AtByte machine place twin.program.state tid activity i indx element p page frame := by
  have calling := atomic.calling tid activity inside
  rcases calling.element_of atomic.sound with ⟨element, -, area, -, fits⟩
  have small := atomic.small tid _ area
  have limit := calling.limit
  have inPhase := calling.inPhase
  simp only [InPhase, phase] at inPhase
  rcases inPhase with ⟨most, index⟩
  rw [UInt32.lt_iff_toNat_lt, index, toNat_ofNat (by omega)] at more
  exact calling.atByte atomic.sound (atomic.small tid) (by omega) index
    (by simp only [Activity.reached, phase]) (by simp [Activity.Opened, phase])

/-! ## Steps -/

theorem Unmoved.holds (unmoved : Unmoved state after) : after.Holds i p ↔ state.Holds i p := by
  rw [State.Holds, State.Holds, unmoved.elements]

namespace Left

theorem goto (left : Left machine program) {next : Activity}
    (phase : ∀ i indx mainPage copy, next.phase ≠ .leave i indx mainPage copy)
    (holds : ∀ i p, state.Holds i p → program.state.Holds i p) (tid : Tid) :
    Left machine (program.goto tid next state) := by
  have earlier : ∀ owner current i indx mainPage copy,
      (program.goto tid next state).threads owner = some current →
      current.phase = .leave i indx mainPage copy → program.threads owner = some current := by
    intro owner current i indx mainPage copy here leaving
    by_cases same : owner = tid
    · subst same
      rw [Program.goto_self, Option.some.injEq] at here
      exact absurd (here ▸ leaving) (phase i indx mainPage copy)
    · rwa [Program.goto_of_ne _ same] at here
  constructor
  · intro owner current i indx mainPage copy here leaving j held
    exact left.level owner current i indx mainPage copy (earlier _ _ _ _ _ _ here leaving) leaving j
      (holds j mainPage held)
  · intro owner other activity current i i' indx indx' mainPage mainPage' copy copy' distinct here
      there leaving leaving'
    exact left.apart owner other activity current i i' indx indx' mainPage mainPage' copy copy'
      distinct (earlier _ _ _ _ _ _ here leaving) (earlier _ _ _ _ _ _ there leaving') leaving
      leaving'

theorem finish (left : Left machine program) (tid : Tid) (access : Access) (code : Int32)
    (buffer : Buffer) : Left machine (program.finish tid access code buffer) := by
  have earlier : ∀ owner current,
      (program.finish tid access code buffer).threads owner = some current →
      program.threads owner = some current := by
    intro owner current here
    by_cases same : owner = tid
    · rw [same, Program.finish_self] at here
      cases here
    · rwa [Program.finish_of_ne _ same] at here
  constructor
  · intro owner current i indx mainPage copy here
    exact left.level owner current i indx mainPage copy (earlier owner current here)
  · intro owner other activity current i i' indx indx' mainPage mainPage' copy copy' distinct here
      there
    exact left.apart owner other activity current i i' indx indx' mainPage mainPage' copy copy'
      distinct (earlier _ _ here) (earlier _ _ there)

end Left

theorem SlotMoved.holds {pointer : ElementPtr}
    (moved : SlotMoved state after pointer element slot p page)
    (found : state.elements pointer = some element) {q : PagePtr} (held : after.Holds i q) :
    q = state.nextPage ∨ state.Holds i q := by
  rcases holds_update moved.elements held with here | old
  · by_cases same : slot = i
    · subst same
      have inside := (List.getElem?_eq_some_iff.mp here).1
      simp only [setSlot, List.length_set] at inside
      simp only [setSlot, List.getElem?_set_self inside, Option.some.injEq] at here
      exact .inl here.symm
    · simp only [setSlot, List.getElem?_set_ne same] at here
      exact .inr ⟨pointer, element, found, here⟩
  · exact .inr old

def Continues (machine : Machine) (kernel : Kernel) (twin : Twin) (move : Move) : Prop :=
  Considerate machine twin.program move ∧ ∃ tid, move = .advance tid kernel

namespace Lively

theorem duplicate (lively : Lively machine buckets place twin)
    (inside : twin.program.threads tid = some activity)
    (found : twin.program.state.elements activity.pointer = some element) {indx : Int32}
    (slot_ : slot = (activity.offset.toNat + i) / machine.pageSize)
    (held : element.tls.pages[slot]? = some p) (allocated : twin.program.state.pages p = some page)
    (shared : page.refCount > 1)
    (moved : SlotMoved twin.program.state state activity.pointer element slot p page) :
    Leveled state ∧ Left machine (twin.program.goto tid
      { activity with phase := .leave i indx p twin.program.state.nextPage } state) := by
  have leveled := lively.leveled
  have left := lively.left
  have before : twin.program.state.Holds slot p := ⟨activity.pointer, element, found, held⟩
  have counter : twin.program.state.refCount p = some page.refCount := by
    simp [State.refCount, allocated]
  have absent : twin.program.state.pages twin.program.state.nextPage = none := by
    cases here : twin.program.state.pages twin.program.state.nextPage with
    | none => rfl
    | some other => exact absurd (lively.atomic.sound.backed.below _ other here) (lt_irrefl _)
  have fresh : ∀ q, twin.program.state.pages q ≠ none → q ≠ twin.program.state.nextPage := by
    rintro q present rfl
    exact present absent
  have isPage : ∀ owner current i indx mainPage copy,
      twin.program.threads owner = some current → current.phase = .leave i indx mainPage copy →
      twin.program.state.pages mainPage ≠ none ∧ twin.program.state.refCount copy = some 1 := by
    intro owner current i indx mainPage copy here leaving
    have inPhase := (lively.atomic.calling owner current here).inPhase
    simp only [InPhase, leaving] at inPhase
    exact ⟨inPhase.2.1, inPhase.1.alone⟩
  refine ⟨leveled.setSlot found moved.elements moved.nextPage, ?_, ?_⟩
  · intro owner current i' indx' mainPage copy here leaving j heldAfter
    by_cases same : owner = tid
    · subst same
      rw [Program.goto_self, Option.some.injEq] at here
      subst here
      cases leaving
      rcases moved.holds found heldAfter with new | old
      · exact absurd new (fresh p (by simp [allocated]))
      · rw [← slot_]
        exact leveled.level j slot p old before
    · rw [Program.goto_of_ne _ same] at here
      rcases moved.holds found heldAfter with new | old
      · exact absurd new (fresh mainPage (isPage owner current _ _ _ _ here leaving).1)
      · exact left.level owner current i' indx' mainPage copy here leaving j old
  · intro owner other first second i₁ i₂ indx₁ indx₂ mainPage₁ mainPage₂ copy₁ copy₂ distinct here
      there leaving₁ leaving₂
    by_cases same : owner = tid
    · subst same
      rw [Program.goto_self, Option.some.injEq] at here
      rw [Program.goto_of_ne _ distinct] at there
      subst here
      cases leaving₁
      rintro rfl
      have alone := (isPage other second _ _ _ _ there leaving₂).2
      rw [counter, Option.some.injEq] at alone
      exact absurd shared (not_lt.mpr alone.le)
    · rw [Program.goto_of_ne _ same] at here
      by_cases same' : other = tid
      · subst same'
        rw [Program.goto_self, Option.some.injEq] at there
        subst there
        cases leaving₂
        exact (fresh mainPage₁ (isPage owner first _ _ _ _ here leaving₁).1).symm
      · rw [Program.goto_of_ne _ same'] at there
        exact left.apart owner other first second i₁ i₂ indx₁ indx₂ mainPage₁ mainPage₂ copy₁ copy₂
          distinct here there leaving₁ leaving₂

theorem advances (lively : Lively machine buckets place twin)
    (inside : twin.program.threads tid = some activity)
    (found : twin.program.state.elements activity.pointer = some element)
    (advances : twin.program.Advances tid activity element later) :
    Leveled later.state ∧ Left machine later := by
  have leveled := lively.leveled
  have left := lively.left
  cases advances with
  | unprotect phase more unmoved =>
      exact ⟨leveled.of_unmoved unmoved, left.goto (by simp) (fun _ _ => unmoved.holds.mp) tid⟩
  | start phase last => exact ⟨leveled, left.goto (by simp) (fun _ _ => id) tid⟩
  | byte phase more unmoved =>
      exact ⟨leveled.of_unmoved unmoved, left.goto (by simp) (fun _ _ => unmoved.holds.mp) tid⟩
  | duplicate phase more held allocated shared moved =>
      rcases lively.atomic.atByte inside phase more with ⟨_, _, _, _, at_⟩
      exact lively.duplicate inside found at_.workingPage held allocated shared moved
  | leave phase unmoved =>
      exact ⟨leveled.of_unmoved unmoved, left.goto (by simp) (fun _ _ => unmoved.holds.mp) tid⟩
  | store phase unmoved =>
      exact ⟨leveled.of_unmoved unmoved, left.goto (by simp) (fun _ _ => unmoved.holds.mp) tid⟩
  | finish phase last => exact ⟨leveled, left.goto (by simp) (fun _ _ => id) tid⟩
  | protect phase more unmoved =>
      exact ⟨leveled.of_unmoved unmoved, left.goto (by simp) (fun _ _ => unmoved.holds.mp) tid⟩
  | returned phase last => exact ⟨leveled, left.finish tid _ _ _⟩

theorem step (lively : Lively machine buckets place twin) {move : Move} {after : Twin}
    (considerate : Considerate machine twin.program move) (stepped : twin.Step move after) :
    Lively machine buckets place after := by
  have atomic := lively.atomic.step considerate stepped
  cases stepped with
  | enter stepped =>
      cases stepped with
      | enter outside entered =>
          rcases Program.enter_cases entered with rfl | ⟨pointer, rfl⟩
          · exact ⟨atomic, lively.leveled, lively.left.finish _ _ _ _⟩
          · exact ⟨atomic, lively.leveled,
              lively.left.goto (by simp [Access.entered]) (fun _ _ => id) _⟩
  | advance stepped =>
      cases stepped with
      | advance inside advanced =>
          rcases (lively.atomic.calling _ _ inside).element_of lively.atomic.sound with
            ⟨element, found, -⟩
          rcases lively.advances inside found (Program.advance_cases found advanced) with
            ⟨leveled, left⟩
          exact ⟨atomic, leveled, left⟩

theorem stepsLeft (lively : Lively machine buckets place twin)
    (inside : twin.program.threads tid = some activity)
    (advanced : twin.program.advance kernel tid activity = .ok later) :
    later.stepsLeft tid < twin.program.stepsLeft tid ∧
      ∀ other, other ≠ tid → later.stepsLeft other = twin.program.stepsLeft other := by
  have calling := lively.atomic.calling tid activity inside
  rcases calling.element_of lively.atomic.sound with ⟨element, found, -⟩
  apply (Program.advance_cases found advanced).stepsLeft inside found
  · intro i indx phase more
    rcases lively.atomic.atByte inside phase more with ⟨_, _, _, _, at_⟩
    exact at_.inside
  · intro i indx copy phase
    have inPhase := calling.inPhase
    simp only [InPhase, phase] at inPhase
    exact inPhase.inside

/-! ## Waiting -/

/-- A thread that has copied a page waits only for threads that are at a lower slot. -/
theorem waits (lively : Lively machine buckets place twin)
    (inside : twin.program.threads tid = some activity) {indx : Int32} {mainPage copy : PagePtr}
    (phase : activity.phase = .leave i indx mainPage copy)
    (inside' : twin.program.threads other = some current) {indx' : Int32}
    {mainPage' copy' : PagePtr} (phase' : current.phase = .leave j indx' mainPage' copy')
    (distinct : other ≠ tid) (uses : twin.program.Uses machine other mainPage) :
    (current.offset.toNat + j) / machine.pageSize <
      (activity.offset.toNat + i) / machine.pageSize := by
  rcases uses with ⟨current', element, n, here, found, outstanding, -, held⟩
  obtain rfl : current = current' := Option.some.inj (inside'.symm.trans here)
  have calling := lively.atomic.calling other current inside'
  rcases calling.element_of lively.atomic.sound with ⟨element', found', area, -, fits⟩
  obtain rfl : element = element' := Option.some.inj (found.symm.trans found')
  have inPhase := calling.inPhase
  simp only [InPhase, phase'] at inPhase
  have small := lively.atomic.small other _ area
  have limit := calling.limit
  have reached : current.offset.toNat + j ≤ n := by
    have inside := inPhase.1.inside
    have lower := outstanding.1
    simp only [Activity.reached, phase'] at lower
    rwa [inPhase.1.position, toNat_ofNat (by omega)] at lower
  have level : n / machine.pageSize = (activity.offset.toNat + i) / machine.pageSize :=
    lively.left.level tid activity i indx mainPage copy inside phase _
      ⟨current.pointer, element, found, held⟩
  rw [← level]
  refine lt_of_le_of_ne (Nat.div_le_div_right reached) fun same => ?_
  -- the page at its slot is the copy it has just made, which is no page that was left behind
  have pointing := inPhase.1.pointing
  rw [same, references, area, Option.bind_some, held, Option.some.injEq] at pointing
  exact lively.left.apart tid other activity current i j indx indx' mainPage mainPage' copy copy'
    distinct inside inside' phase phase' pointing.symm

/-- A thread that can go on whatever the others do. -/
def Free (program : Program) : Prop :=
  ∃ tid activity, program.threads tid = some activity ∧ (∀ i, activity.phase ≠ .protect i) ∧
    ∀ i indx mainPage copy, activity.phase ≠ .leave i indx mainPage copy

/-- Otherwise a thread that relies on a page has just made a copy. -/
theorem leaves_of_uses (stuck : ¬Free program) (uses : program.Uses machine tid p) :
    ∃ activity i indx mainPage copy, program.threads tid = some activity ∧
      activity.phase = .leave i indx mainPage copy := by
  rcases uses with ⟨activity, element, n, inside, -, outstanding, -⟩
  by_contra never
  refine stuck ⟨tid, activity, inside, ?_, ?_⟩
  · intro i phase
    simp only [Activity.Outstanding, Activity.reached, phase] at outstanding
    omega
  · intro i indx mainPage copy phase
    exact never ⟨activity, i, indx, mainPage, copy, inside, phase⟩

/-- From a thread that has just made a copy, the threads that wait for each other lead to one
that need not wait. -/
theorem exists_spares_of_leaves (lively : Lively machine buckets place twin)
    (stuck : ¬Free twin.program) (inside : twin.program.threads tid = some activity)
    {indx : Int32} {mainPage copy : PagePtr} (phase : activity.phase = .leave i indx mainPage copy) :
    ∃ next current, twin.program.threads next = some current ∧
      twin.program.Spares machine next := by
  -- along the chain the slots get lower
  induction slot : (activity.offset.toNat + i) / machine.pageSize using Nat.strongRecOn
    generalizing tid activity i indx mainPage copy with
  | ind number inductionHypothesis =>
      by_cases spares : twin.program.Spares machine tid
      · exact ⟨tid, activity, inside, spares⟩
      simp only [Program.Spares, not_forall, not_not] at spares
      rcases spares with ⟨p, closes, other, distinct, uses⟩
      have closed : p = mainPage := by
        rcases closes with ⟨current, -, i', here, protecting, -⟩ |
          ⟨current, i', indx', copy', here, leaving⟩
        · rw [inside, Option.some.injEq] at here
          rw [← here, phase] at protecting
          cases protecting
        · rw [inside, Option.some.injEq] at here
          rw [← here, phase] at leaving
          cases leaving
          rfl
      rcases leaves_of_uses stuck uses with ⟨current, j, indx', mainPage', copy', here, leaving⟩
      have lower := lively.waits inside phase here leaving distinct (closed ▸ uses)
      exact inductionHypothesis _ (slot ▸ lower) here leaving rfl

/-- As long as a thread is in a call, some thread can go on without taking a page away from
another one. -/
theorem exists_spares (lively : Lively machine buckets place twin)
    (inside : twin.program.threads tid = some activity) :
    ∃ next current, twin.program.threads next = some current ∧
      twin.program.Spares machine next := by
  by_cases free : Free twin.program
  · rcases free with ⟨next, current, here, protects, leaves⟩
    exact ⟨next, current, here, Program.spares_of_ne here protects leaves⟩
  by_cases spares : twin.program.Spares machine tid
  · exact ⟨tid, activity, inside, spares⟩
  simp only [Program.Spares, not_forall, not_not] at spares
  rcases spares with ⟨p, -, other, -, uses⟩
  rcases leaves_of_uses free uses with ⟨current, i, indx, mainPage, copy, here, leaving⟩
  exact lively.exists_spares_of_leaves free here leaving

/-! ## Runs -/

theorem progress (lively : Lively machine buckets place twin)
    (inside : twin.program.threads tid = some activity) (kernel : Kernel)
    (room : kernel.place twin.program.state.memory ≠ none) :
    ∃ later, StepUnder Twin.Step (Continues machine kernel) twin { twin with program := later } ∧
      Lively machine buckets place { twin with program := later } ∧
      ∑ tid, later.stepsLeft tid < ∑ tid, twin.program.stepsLeft tid := by
  rcases lively.exists_spares inside with ⟨next, current, here, spares⟩
  rcases lively.atomic.goes here kernel with ⟨full, -⟩ | ⟨later, advanced, -⟩
  · exact absurd full room
  have stepped : twin.Step (.advance next kernel) { twin with program := later } :=
    .advance (.advance here advanced)
  have considerate : Considerate machine twin.program (.advance next kernel) := spares
  rcases lively.stepsLeft here advanced with ⟨less, same⟩
  refine ⟨later, ⟨.advance next kernel, ⟨considerate, next, rfl⟩, stepped⟩,
    lively.step considerate stepped, ?_⟩
  apply Finset.sum_lt_sum
  · intro other _
    by_cases isNext : other = next
    · exact isNext ▸ less.le
    · exact (same other isNext).le
  · exact ⟨next, Finset.mem_univ next, less⟩

end Lively

/-- However threads have read and written up to now, as long as no step took a page away from
another thread, the calls they are in can all be brought to their ends without taking one away,
and answer as on private arrays; unless the kernel runs out of pages. -/
theorem callsFinish (machine : Machine) (memory : PageMemory) (events : List Event)
    (sharing : ∀ event ∈ events, event.call.Sharing)
    (served : AllServed machine (.initial memory) events) {replies : List Reply}
    (played : play machine (.initial memory) events = .ok (replies, state))
    (run : RunUnder Twin.Step (fun twin => Considerate machine twin.program)
      (.start machine state) twin) (kernel : Kernel) :
    ∃ final, RunUnder Twin.Step (Continues machine kernel) twin final ∧
      ((∀ tid, final.program.threads tid = none ∧
          final.program.replies tid = twin.answers tid ∧
          final.program.state.array machine tid = twin.arrays tid) ∨
        kernel.place final.program.state.memory = none) := by
  rcases (Quiet.initial machine memory).play sharing served with
    ⟨replies', state', played', buckets, place, settled⟩
  have leveled : Leveled state :=
    Leveled.stable.play (.initial memory) machine events _ played
  rw [played, Except.ok.injEq, Prod.mk.injEq] at played'
  rcases played' with ⟨-, rfl⟩
  have started : Lively machine buckets place (.start machine state) := by
    refine ⟨.start settled, leveled, ?_, ?_⟩
    · simp [Twin.start, Program.start]
    · simp [Twin.start, Program.start]
  have lively : Lively machine buckets place twin := by
    refine RunUnder.invariant (Lively machine buckets place) ?_ started run
    intro before move after lively considerate stepped
    exact lively.step considerate stepped
  have finishes := @exists_finished Twin Move Twin.Step (Continues machine kernel)
    (fun later => Lively machine buckets place later ∧ later.answers = twin.answers ∧
      later.arrays = twin.arrays)
    (fun later => (∀ tid, later.program.threads tid = none) ∨
      kernel.place later.program.state.memory = none)
    (fun later => ∑ tid, later.program.stepsLeft tid) (by
      rintro later ⟨lively, answers, arrays⟩
      by_cases outside : ∀ tid, later.program.threads tid = none
      · exact .inl (.inl outside)
      by_cases full : kernel.place later.program.state.memory = none
      · exact .inl (.inr full)
      simp only [not_forall] at outside
      rcases outside with ⟨tid, called⟩
      rcases Option.ne_none_iff_exists'.mp called with ⟨activity, inside⟩
      rcases lively.progress inside kernel full with ⟨program, stepped, kept, less⟩
      exact .inr ⟨_, stepped, ⟨kept, answers, arrays⟩, less⟩)
  rcases finishes ⟨lively, rfl, rfl⟩ with ⟨final, moves, ⟨last, answers, arrays⟩, done⟩
  refine ⟨final, moves, done.imp_left fun outside tid => ?_⟩
  have atEnd := last.atomic.outside (outside tid)
  exact ⟨outside tid, answers ▸ atEnd.1, arrays ▸ atEnd.2⟩

def Kernel.among (addresses : List Address) : Kernel where
  place memory := addresses.find? fun address => (memory address).isNone
  place_unmapped memory address placed := by
    simpa using List.find?_some placed

/-- Thread 2 has copied the page that thread 1 has opened, and has to wait. -/
theorem callsFinish_waiting :
    ∃ twin final : Twin, RunUnder Twin.Step (fun twin => Considerate page4096 twin.program)
        (.start page4096 onePageShared) twin ∧
      (twin.program.threads 1).map (·.phase) = some (.copy 0 0) ∧
      (twin.program.threads 2).map (·.phase) = some (.leave 0 0 0 1) ∧
      (Kernel.among [8192, 12288]).place twin.program.state.memory = some 12288 ∧
      RunUnder Twin.Step (Continues page4096 (.among [8192, 12288])) twin final ∧
      ((∀ tid, final.program.threads tid = none ∧
          final.program.replies tid = twin.answers tid ∧
          final.program.state.array page4096 tid = twin.arrays tid) ∨
        (Kernel.among [8192, 12288]).place final.program.state.memory = none) := by
  have short : (0 : UInt32).toNat + (1 : UInt32).toNat < 2 ^ 32 := by decide
  have begun : RunUnder Twin.Step (fun twin => Considerate page4096 twin.program)
      (.start page4096 onePageShared) _ :=
    .tail .refl ⟨.enter 1 .read 0 1 fun _ => 0, short, .enter (.enter rfl rfl)⟩
  have entered := begun.tail
    ⟨.enter 2 .write 0 1 fun _ => 7, short, .enter (.enter rfl rfl)⟩
  have opened := entered.tail
    ⟨.advance 1 twoPages, Program.spares_of_ne rfl (by simp) (by simp), .advance (.advance rfl rfl)⟩
  have both := opened.tail
    ⟨.advance 2 twoPages, Program.spares_of_ne rfl (by simp) (by simp), .advance (.advance rfl rfl)⟩
  have looping := both.tail
    ⟨.advance 1 twoPages, Program.spares_of_ne rfl (by simp) (by simp), .advance (.advance rfl rfl)⟩
  have ready := looping.tail
    ⟨.advance 2 twoPages, Program.spares_of_ne rfl (by simp) (by simp), .advance (.advance rfl rfl)⟩
  have copied := ready.tail
    ⟨.advance 2 twoPages, Program.spares_of_ne rfl (by simp) (by simp), .advance (.advance rfl rfl)⟩
  rcases shareOnePage_played with ⟨replies, played⟩
  rcases callsFinish page4096 _ shareOnePage shareOnePage_sharing shareOnePage_served played copied
    (.among [8192, 12288]) with ⟨final, moves, done⟩
  exact ⟨_, final, copied, rfl, rfl, rfl, moves, done⟩

end EC440.LocalStorage
