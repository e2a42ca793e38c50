import EC440.LocalStorage.Advances

/-!
# Areas without shared pages

Threads whose areas have no page in common may read and write at the same
time in any order of steps: no page that one of them closes is a page that
another one relies on, and none is ever copied.
-/

namespace EC440.LocalStorage

open References Outcome Transition

variable {machine : Machine} {state after : State} {buckets : Bucket → List ElementPtr}
  {place : Tid → Option ElementPtr} {program later : Program} {twin : Twin} {tid other : Tid}
  {activity : Activity} {element : HashElement} {p : PagePtr}

def Unshared (state : State) : Prop :=
  ∀ p number, state.refCount p = some number → number ≤ 1

/-- Ranges that do not wrap around; the steps may follow each other in any order. -/
def Move.Unwrapped : Move → Prop
  | .enter _ _ offset length _ => offset.toNat + length.toNat < 2 ^ 32
  | .advance _ _ => True

/-- No thread has left a page behind. -/
def Program.LeavesNone (program : Program) : Prop :=
  ∀ tid activity i indx mainPage copy, program.threads tid = some activity →
    activity.phase ≠ .leave i indx mainPage copy

theorem Unmoved.refCount (unmoved : Unmoved state after) : after.refCount = state.refCount := by
  funext p
  rw [State.refCount, State.refCount, unmoved.pages]

theorem Unmoved.unshared (unmoved : Unmoved state after) (unshared : Unshared state) :
    Unshared after := by
  intro p number counts
  rw [unmoved.refCount] at counts
  exact unshared p number counts

theorem Program.LeavesNone.goto (leavesNone : program.LeavesNone) {next : Activity}
    (phase : ∀ i indx mainPage copy, next.phase ≠ .leave i indx mainPage copy) (tid : Tid)
    (state : State) : (program.goto tid next state).LeavesNone := by
  intro owner current i indx mainPage copy here
  by_cases same : owner = tid
  · subst same
    rw [Program.goto_self, Option.some.injEq] at here
    exact here ▸ phase i indx mainPage copy
  · rw [Program.goto_of_ne _ same] at here
    exact leavesNone owner current i indx mainPage copy here

theorem Program.LeavesNone.finish (leavesNone : program.LeavesNone) (tid : Tid) (access : Access)
    (code : Int32) (buffer : Buffer) : (program.finish tid access code buffer).LeavesNone := by
  intro owner current i indx mainPage copy here
  by_cases same : owner = tid
  · rw [same, Program.finish_self] at here
    cases here
  · rw [Program.finish_of_ne _ same] at here
    exact leavesNone owner current i indx mainPage copy here

theorem Program.Advances.unshared (advances : program.Advances tid activity element later)
    (unshared : Unshared program.state) (leavesNone : program.LeavesNone) :
    Unshared later.state ∧ later.LeavesNone := by
  cases advances with
  | unprotect phase more unmoved =>
      exact ⟨unmoved.unshared unshared, leavesNone.goto (by simp) tid _⟩
  | start phase last => exact ⟨unshared, leavesNone.goto (by simp) tid _⟩
  | byte phase more unmoved =>
      exact ⟨unmoved.unshared unshared, leavesNone.goto (by simp) tid _⟩
  | duplicate phase more held allocated shared moved =>
      have counts := unshared _ _ (congrArg (Option.map Page.refCount) allocated)
      exact absurd shared (not_lt.mpr counts)
  | leave phase unmoved =>
      exact ⟨unmoved.unshared unshared, leavesNone.goto (by simp) tid _⟩
  | store phase unmoved =>
      exact ⟨unmoved.unshared unshared, leavesNone.goto (by simp) tid _⟩
  | finish phase last => exact ⟨unshared, leavesNone.goto (by simp) tid _⟩
  | protect phase more unmoved =>
      exact ⟨unmoved.unshared unshared, leavesNone.goto (by simp) tid _⟩
  | returned phase last => exact ⟨unshared, leavesNone.finish tid _ _ _⟩

/-- No step takes a page away from another thread. -/
theorem Atomic.spares_of_unshared (atomic : Atomic machine buckets place twin)
    (unshared : Unshared twin.program.state) (leavesNone : twin.program.LeavesNone) (tid : Tid) :
    twin.program.Spares machine tid := by
  rintro p (⟨activity, element, i, inside, -, found, -, held⟩ |
    ⟨activity, i, indx, copy, inside, leaving⟩) other distinct uses
  · rcases uses with ⟨current, element', n, inside', found', -, -, held'⟩
    have areaOf : ∀ owner activity element, twin.program.threads owner = some activity →
        twin.program.state.elements activity.pointer = some element →
        twin.program.state.areaAt place owner = some element.tls := by
      intro owner activity element inside found
      have placed := (atomic.calling owner activity inside).placed
      simp [State.areaAt, placed, found]
    have mine : references (twin.program.state.areaAt place) (tid, i) = some p := by
      simp [references, areaOf tid activity element inside found, held]
    have yours : references (twin.program.state.areaAt place) (other, n / machine.pageSize) =
        some p := by
      simp [references, areaOf other current element' inside' found', held']
    rcases atomic.sound.backed.page_of mine with ⟨page, -, allocated, -⟩
    have counts : twin.program.state.refCount p = some page.refCount := by
      simp [State.refCount, allocated]
    have same := atomic.sound.backed.counted.unique counts (unshared p _ counts) mine yours
    exact distinct (congrArg Prod.fst same).symm
  · exact leavesNone tid activity i indx p copy inside leaving

/-- What holds in every interleaving. -/
structure Independent (machine : Machine) (buckets : Bucket → List ElementPtr)
    (place : Tid → Option ElementPtr) (twin : Twin) : Prop where
  atomic : Atomic machine buckets place twin
  unshared : Unshared twin.program.state
  leavesNone : twin.program.LeavesNone

namespace Independent

theorem enter (independent : Independent machine buckets place twin) {access : Access}
    {offset length : UInt32} {buffer : Buffer}
    (entered : twin.program.enter tid access offset length buffer = .ok later) :
    Unshared later.state ∧ later.LeavesNone := by
  rcases Program.enter_cases entered with rfl | ⟨pointer, rfl⟩
  · exact ⟨independent.unshared, independent.leavesNone.finish tid _ _ _⟩
  · exact ⟨independent.unshared, independent.leavesNone.goto (by simp [Access.entered]) tid _⟩

theorem step (independent : Independent machine buckets place twin) {move : Move} {after : Twin}
    (unwrapped : move.Unwrapped) (stepped : twin.Step move after) :
    Independent machine buckets place after := by
  have spares := independent.atomic.spares_of_unshared independent.unshared
    independent.leavesNone
  have considerate : Considerate machine twin.program move := by
    cases move with
    | enter tid access offset length buffer => exact unwrapped
    | advance tid kernel => exact spares tid
  have atomic := independent.atomic.step considerate stepped
  cases stepped with
  | enter stepped =>
      cases stepped with
      | enter outside entered =>
          rcases independent.enter entered with ⟨unshared, leavesNone⟩
          exact ⟨atomic, unshared, leavesNone⟩
  | advance stepped =>
      cases stepped with
      | advance inside advanced =>
          rcases (independent.atomic.calling _ _ inside).element_of independent.atomic.sound with
            ⟨element, found, -⟩
          rcases (Program.advance_cases found advanced).unshared independent.unshared
            independent.leavesNone with ⟨unshared, leavesNone⟩
          exact ⟨atomic, unshared, leavesNone⟩

end Independent

/-- Threads that share no page read and write at the same time, in any order of steps: every call
answers as on private arrays, and none of them stops while the kernel has a page. -/
theorem unsharedAtomic (machine : Machine) (memory : PageMemory) (events : List Event)
    (sharing : ∀ event ∈ events, event.call.Sharing)
    (served : AllServed machine (.initial memory) events) {replies : List Reply}
    (played : play machine (.initial memory) events = .ok (replies, state))
    (unshared : Unshared state)
    (run : RunUnder Twin.Step (fun _ move => move.Unwrapped) (.start machine state) twin) :
    (∀ tid, twin.program.threads tid = none →
      twin.program.replies tid = twin.answers tid ∧
        twin.program.state.array machine tid = twin.arrays tid) ∧
    ∀ tid activity kernel, twin.program.threads tid = some activity →
      kernel.place twin.program.state.memory ≠ none →
      ∃ after, twin.Step (.advance tid kernel) after := by
  rcases (Quiet.initial machine memory).play sharing served with
    ⟨replies', state', played', buckets, place, settled⟩
  rw [played, Except.ok.injEq, Prod.mk.injEq] at played'
  rcases played' with ⟨-, rfl⟩
  have independent : Independent machine buckets place twin := by
    refine RunUnder.invariant (Independent machine buckets place) ?_
      ⟨.start settled, unshared, by simp [Program.LeavesNone, Twin.start, Program.start]⟩ run
    intro before move after independent unwrapped stepped
    exact independent.step unwrapped stepped
  exact ⟨fun tid outside => independent.atomic.outside outside,
    fun tid activity kernel inside room => independent.atomic.advances inside room⟩

def onePageEach : List Event :=
  [{ tid := 1, call := .create 1, kernel := twoPages },
    { tid := 2, call := .create 1, kernel := twoPages }]

theorem onePageEach_sharing : ∀ event ∈ onePageEach, event.call.Sharing := by
  simp [onePageEach, Call.Sharing]

theorem onePageEach_served : AllServed page4096 (.initial fun _ => none) onePageEach := by
  refine ⟨fun _ _ => by decide, ?_⟩
  intro reply created done
  cases done
  exact ⟨fun _ _ => by decide, fun _ _ _ => trivial⟩

def onePageOwned : State :=
  match play page4096 (.initial fun _ => none) onePageEach with
  | .ok (_, state) => state
  | .error _ => .initial fun _ => none

theorem onePageEach_played : ∃ replies,
    play page4096 (.initial fun _ => none) onePageEach = .ok (replies, onePageOwned) :=
  ⟨_, rfl⟩

theorem onePageOwned_unshared : Unshared onePageOwned := by
  have pages : onePageOwned.pages = Function.update (Function.update (fun _ => none) 0
      (some { address := 4096, refCount := 1 })) 1 (some { address := 8192, refCount := 1 }) := rfl
  intro p number counts
  rw [State.refCount, pages] at counts
  by_cases second : p = 1
  · rw [second, Function.update_self] at counts
    exact (Option.some.inj counts).ge
  · rw [Function.update_of_ne second] at counts
    by_cases first : p = 0
    · rw [first, Function.update_self] at counts
      exact (Option.some.inj counts).ge
    · rw [Function.update_of_ne first] at counts
      cases counts

/-- Thread 1 writes its byte and closes its page while thread 2 writes. -/
theorem unsharedAtomic_overlapping :
    ∃ twin : Twin, RunUnder Twin.Step (fun _ move => move.Unwrapped)
        (.start page4096 onePageOwned) twin ∧
      (twin.program.threads 2).map (·.phase) = some (.copy 0 0) ∧
      twin.program.threads 1 = none ∧
      twin.program.state.array page4096 1 = some [5] := by
  have short : (0 : UInt32).toNat + (1 : UInt32).toNat < 2 ^ 32 := by decide
  have begun : RunUnder Twin.Step (fun _ move => move.Unwrapped)
      (.start page4096 onePageOwned) _ :=
    .tail .refl ⟨.enter 1 .write 0 1 fun _ => 5, short, .enter (.enter rfl rfl)⟩
  have entered := begun.tail
    ⟨.enter 2 .write 0 1 fun _ => 7, short, .enter (.enter rfl rfl)⟩
  have opened := entered.tail ⟨.advance 1 twoPages, trivial, .advance (.advance rfl rfl)⟩
  have both := opened.tail ⟨.advance 2 twoPages, trivial, .advance (.advance rfl rfl)⟩
  have looping := both.tail ⟨.advance 1 twoPages, trivial, .advance (.advance rfl rfl)⟩
  have ready := looping.tail ⟨.advance 2 twoPages, trivial, .advance (.advance rfl rfl)⟩
  have written := ready.tail ⟨.advance 1 twoPages, trivial, .advance (.advance rfl rfl)⟩
  have leaving := written.tail ⟨.advance 1 twoPages, trivial, .advance (.advance rfl rfl)⟩
  have closed := leaving.tail ⟨.advance 1 twoPages, trivial, .advance (.advance rfl rfl)⟩
  have returned := closed.tail ⟨.advance 1 twoPages, trivial, .advance (.advance rfl rfl)⟩
  rcases onePageEach_played with ⟨replies, played⟩
  have atomic := unsharedAtomic page4096 _ onePageEach onePageEach_sharing onePageEach_served
    played onePageOwned_unshared returned
  exact ⟨_, returned, rfl, rfl, (atomic.1 1 rfl).2⟩

end EC440.LocalStorage
