import EC440.LocalStorage.Interleaving
import EC440.LocalStorage.Sharing

/-!
# Concurrent readers

A thread in `tls_read` needs a page from the moment it has unprotected it
until it has read its last byte there.  Readers do each other no harm as long
as none of them protects a page that another one needs.
-/

namespace EC440.LocalStorage

open References Outcome Transition

variable {machine : Machine} {buckets : Bucket → List ElementPtr}
  {place : Tid → Option ElementPtr} {program after : Program} {tid other : Tid}
  {activity : Activity} {element : HashElement} {p : PagePtr} {page : Page} {frame : Frame}
  {state : State} {target : Reference → Option PagePtr}

def Activity.limit (activity : Activity) : UInt32 := activity.offset + activity.length

/-- The positions whose bytes a thread still has to read from pages it has unprotected. -/
def Activity.Pending (machine : Machine) (activity : Activity) (n : Nat) : Prop :=
  n < activity.limit.toNat ∧
    match activity.phase with
    | .unprotect i => activity.offset.toNat ≤ n ∧ n / machine.pageSize < i
    | .copy _ indx => indx.toUInt32.toNat ≤ n
    | .leave .. | .store .. | .protect _ => False

/-- A thread has unprotected a page and still has a byte of it to read. -/
def Program.Needs (program : Program) (machine : Machine) (tid : Tid) (p : PagePtr) : Prop :=
  ∃ activity element n, program.threads tid = some activity ∧
    program.state.elements activity.pointer = some element ∧ activity.Pending machine n ∧
    element.tls.pages[n / machine.pageSize]? = some p

/-- The page that the next step of a thread protects at the end of its call. -/
def Program.Protects (program : Program) (tid : Tid) (p : PagePtr) : Prop :=
  ∃ activity element i, program.threads tid = some activity ∧ activity.phase = .protect i ∧
    program.state.elements activity.pointer = some element ∧
    i < element.tls.pageNum.toNat ∧ element.tls.pages[i]? = some p

/-- Calls of `tls_read` only. -/
def Move.Reads : Move → Prop
  | .enter _ access _ _ _ => access = .read
  | .advance _ _ => True

def Undisturbing (machine : Machine) (program : Program) : Move → Prop
  | .enter .. => True
  | .advance tid _ =>
      ∀ p, program.Protects tid p → ∀ other, other ≠ tid → ¬program.Needs machine other p

/-- Every thread that is about to read a byte can read it. -/
def Program.CopiesSafely (program : Program) : Prop :=
  ∀ tid activity i indx, program.threads tid = some activity → activity.access = .read →
    activity.phase = .copy i indx → indx.toUInt32 < activity.limit →
    ∃ byte, readByte activity.pointer program.state indx = .ok byte

/-! ## Protecting one page -/

theorem Backed.changeProt_one (backed : Backed state target) (prot : Prot)
    (allocated : state.pages p = some page) :
    changeProt prot state p = .ok (state.withProt [p] prot) := by
  obtain ⟨frame, mapped⟩ := backed.mapped p page allocated
  rw [changeProt_eq prot allocated mapped]
  simp [State.withProt, State.addresses, allocated]

theorem Sound.withProt (sound : Sound machine state buckets place) (pages : List PagePtr)
    (prot : Prot) : Sound machine (state.withProt pages prot) buckets place :=
  sound.of_untouched ⟨rfl, rfl, rfl, rfl, rfl⟩ (sound.backed.reprotected _ prot)

/-! ## The invariant -/

/-- A call of `tls_read` that has passed its checks. -/
structure Reader (state : State) (place : Tid → Option ElementPtr) (tid : Tid)
    (activity : Activity) : Prop where
  access : activity.access = .read
  placed : place tid = some activity.pointer
  checked : ∀ element, state.elements activity.pointer = some element →
    activity.limit.toNat ≤ element.tls.size.toNat
  reading : ∀ i indx mainPage copy, activity.phase ≠ .leave i indx mainPage copy ∧
    activity.phase ≠ .store i indx copy

structure Reading (machine : Machine) (buckets : Bucket → List ElementPtr)
    (place : Tid → Option ElementPtr) (program : Program) : Prop where
  sound : Sound machine program.state buckets place
  small : ∀ tid tls, program.state.areaAt place tid = some tls → tls.size.toNat < 2 ^ 31
  readers : ∀ tid activity, program.threads tid = some activity →
    Reader program.state place tid activity
  readable : ∀ tid p, program.Needs machine tid p → ∀ frame,
    program.state.frameOf p = some frame → frame.prot.read = true

namespace Reading

theorem element_of (reading : Reading machine buckets place program)
    (inside : program.threads tid = some activity) :
    ∃ element, program.state.elements activity.pointer = some element ∧
      program.state.areaAt place tid = some element.tls ∧
      activity.limit.toNat ≤ element.tls.size.toNat ∧ element.tls.size.toNat < 2 ^ 31 := by
  have reader := reading.readers tid activity inside
  obtain ⟨element, reached, -, area⟩ := reading.sound.table.element_eq reader.placed
  have found := (program.state.element_eq_ok_iff).mp reached
  exact ⟨element, found, area, reader.checked element found, reading.small tid _ area⟩

theorem page_of (reading : Reading machine buckets place program)
    (area : program.state.areaAt place tid = some element.tls) {slot : Nat}
    (held : element.tls.pages[slot]? = some p) :
    ∃ page frame, program.state.pages p = some page ∧
      program.state.memory page.address = some frame ∧ program.state.frameOf p = some frame := by
  have pointing : references (program.state.areaAt place) (tid, slot) = some p := by
    simp [references, area, held]
  exact reading.sound.backed.page_of pointing

theorem copiesSafely (reading : Reading machine buckets place program) :
    program.CopiesSafely := by
  intro tid activity i indx inside _ phase below
  obtain ⟨element, found, area, checked, small⟩ := reading.element_of inside
  have sized := reading.sound.sized tid element.tls area
  rw [UInt32.lt_iff_toNat_lt] at below
  have position : indx = Int32.ofNat indx.toUInt32.toNat := by
    rw [← toInt32_eq, Int32.toInt32_toUInt32]
  have slotInside : indx.toUInt32.toNat / machine.pageSize < element.tls.pages.length := by
    have room := sized.room
    refine Nat.div_lt_of_lt_mul ?_
    rw [Nat.mul_comm]
    omega
  have held := List.getElem?_eq_getElem slotInside
  obtain ⟨page, frame, allocated, mapped, here⟩ := reading.page_of area held
  have needs : program.Needs machine tid element.tls.pages[indx.toUInt32.toNat / machine.pageSize] :=
    ⟨activity, element, indx.toUInt32.toNat, inside, found, ⟨below, by rw [phase]⟩, held⟩
  have readable := reading.readable tid _ needs frame here
  rw [position]
  exact ⟨_, readByte_of_readable (by omega) (reading.sound.pageSize sized.initialized) found held
    allocated mapped readable⟩

/-- Who needs a page after a step of a thread: another thread that needed it before, or the
thread itself. -/
theorem needs_goto {next : Activity} (elements : state.elements = program.state.elements)
    (needs : (program.goto tid next state).Needs machine other p) :
    other ≠ tid ∧ program.Needs machine other p ∨
      ∃ element n, program.state.elements next.pointer = some element ∧ next.Pending machine n ∧
        element.tls.pages[n / machine.pageSize]? = some p := by
  rcases needs with ⟨current, element, n, here, reached, left, held⟩
  have found : program.state.elements current.pointer = some element := elements ▸ reached
  by_cases same : other = tid
  · subst same
    rw [Program.goto_self, Option.some.injEq] at here
    subst here
    exact .inr ⟨element, n, found, left, held⟩
  · rw [Program.goto_of_ne _ same] at here
    exact .inl ⟨same, current, element, n, here, found, left, held⟩

theorem goto (reading : Reading machine buckets place program)
    (inside : program.threads tid = some activity) {next : Activity}
    (elements : state.elements = program.state.elements)
    (sound : Sound machine state buckets place) (access : next.access = activity.access)
    (pointer : next.pointer = activity.pointer) (limit : next.limit = activity.limit)
    (phase : ∀ i indx mainPage copy, next.phase ≠ .leave i indx mainPage copy ∧
      next.phase ≠ .store i indx copy)
    (readable : ∀ other p, (program.goto tid next state).Needs machine other p → ∀ frame,
      state.frameOf p = some frame → frame.prot.read = true) :
    Reading machine buckets place (program.goto tid next state) := by
  have reader := reading.readers tid activity inside
  have areas : state.areaAt place = program.state.areaAt place := areaAt_congr elements
  refine ⟨sound, ?_, ?_, readable⟩
  · intro owner tls area
    have area : state.areaAt place owner = some tls := area
    rw [areas] at area
    exact reading.small owner tls area
  · intro owner current here
    by_cases same : owner = tid
    · subst same
      rw [Program.goto_self, Option.some.injEq] at here
      subst here
      refine ⟨access.trans reader.access, by rw [pointer, reader.placed], ?_, phase⟩
      intro element found
      have found : state.elements next.pointer = some element := found
      rw [elements, pointer] at found
      rw [limit]
      exact reader.checked element found
    · rw [Program.goto_of_ne _ same] at here
      have earlier := reading.readers owner current here
      refine ⟨earlier.access, earlier.placed, fun element found => ?_, earlier.reading⟩
      have found : state.elements current.pointer = some element := found
      rw [elements] at found
      exact earlier.checked element found

theorem proceed (reading : Reading machine buckets place program)
    (inside : program.threads tid = some activity) {next : Activity}
    (access : next.access = activity.access) (pointer : next.pointer = activity.pointer)
    (limit : next.limit = activity.limit)
    (phase : ∀ i indx mainPage copy, next.phase ≠ .leave i indx mainPage copy ∧
      next.phase ≠ .store i indx copy)
    (pending : ∀ element, program.state.elements activity.pointer = some element → ∀ n,
      n / machine.pageSize < element.tls.pages.length → next.Pending machine n →
      activity.Pending machine n) :
    Reading machine buckets place (program.goto tid next program.state) := by
  refine reading.goto inside rfl reading.sound access pointer limit phase ?_
  intro owner p needs
  rcases needs_goto rfl needs with ⟨-, before⟩ | ⟨element, n, found, left, held⟩
  · exact reading.readable owner p before
  · rw [pointer] at found
    refine reading.readable tid p ⟨activity, element, n, inside, found, ?_, held⟩
    exact pending element found n (List.getElem?_eq_some_iff.mp held).1 left

theorem unprotect (reading : Reading machine buckets place program)
    (inside : program.threads tid = some activity) {i : Nat} (phase : activity.phase = .unprotect i)
    (found : program.state.elements activity.pointer = some element)
    (held : element.tls.pages[i]? = some p) :
    Reading machine buckets place (program.goto tid { activity with phase := .unprotect (i + 1) }
      (program.state.withProt [p] .readWrite)) := by
  have opened : ∀ q frame, (program.state.withProt [p] .readWrite).frameOf q = some frame →
      (q ≠ p → ∀ earlier, program.state.frameOf q = some earlier → earlier.prot.read = true) →
      frame.prot.read = true := by
    intro q frame here before
    rw [reading.sound.backed.frameOf_withProt] at here
    by_cases same : q = p
    · rw [if_pos (by simp [same]), Option.map_eq_some_iff] at here
      rcases here with ⟨earlier, -, rfl⟩
      rfl
    · rw [if_neg (by simp [same])] at here
      exact before same frame here
  refine reading.goto inside rfl (reading.sound.withProt _ _) rfl rfl rfl (by simp) ?_
  intro owner q needs frame here
  refine opened q frame here fun distinct => ?_
  rcases needs_goto rfl needs with ⟨-, before⟩ | ⟨element', n, found', ⟨below, from_, slot⟩, held'⟩
  · exact reading.readable owner q before
  · obtain rfl : element' = element := by
      rw [found, Option.some.injEq] at found'
      exact found'.symm
    have earlier : n / machine.pageSize ≠ i := by
      intro same
      rw [same, held, Option.some.injEq] at held'
      exact distinct held'.symm
    refine reading.readable tid q ⟨activity, element', n, inside, found, ⟨below, ?_⟩, held'⟩
    rw [phase]
    exact ⟨from_, by omega⟩

theorem protect (reading : Reading machine buckets place program)
    (inside : program.threads tid = some activity) (i : Nat)
    (unneeded : ∀ other, other ≠ tid → ¬program.Needs machine other p) :
    Reading machine buckets place (program.goto tid { activity with phase := .protect i }
      (program.state.withProt [p] .none)) := by
  refine reading.goto inside rfl (reading.sound.withProt _ _) rfl rfl rfl (by simp) ?_
  intro owner q needs frame here
  rcases needs_goto rfl needs with ⟨distinct, before⟩ | ⟨_, _, _, ⟨_, never⟩, _⟩
  · have away : q ∉ [p] := by
      rw [List.mem_singleton]
      rintro rfl
      exact unneeded owner distinct before
    rw [reading.sound.backed.frameOf_withProt, if_neg away] at here
    exact reading.readable owner q before frame here
  · cases never

theorem finish (reading : Reading machine buckets place program) (tid : Tid) (access : Access)
    (code : Int32) (buffer : Buffer) :
    Reading machine buckets place (program.finish tid access code buffer) := by
  have others : ∀ owner current,
      (program.finish tid access code buffer).threads owner = some current →
      program.threads owner = some current := by
    intro owner current here
    by_cases same : owner = tid
    · rw [same, Program.finish_self] at here
      cases here
    · rwa [Program.finish_of_ne _ same] at here
  refine ⟨reading.sound, reading.small,
    fun owner current here => reading.readers owner current (others owner current here), ?_⟩
  rintro owner p ⟨current, element, n, here, found, left, held⟩
  exact reading.readable owner p ⟨current, element, n, others owner current here, found, left, held⟩

/-! ## Steps -/

theorem enter (reading : Reading machine buckets place program) {offset length : UInt32}
    {buffer : Buffer} (outside : program.threads tid = none)
    (entered : program.enter tid .read offset length buffer = .ok after) :
    Reading machine buckets place after := by
  simp only [Program.enter, reading.sound.table.hashSearch_eq, bind, Except.bind] at entered
  cases placed : place tid with
  | none =>
      rw [placed, Except.ok.injEq] at entered
      rw [← entered]
      exact reading.finish ..
  | some pointer =>
      rcases reading.sound.table.element_eq placed with ⟨element, reached, -, area⟩
      simp only [placed, reached] at entered
      split at entered
      next =>
        rw [Except.ok.injEq] at entered
        rw [← entered]
        exact reading.finish ..
      next checked =>
        rw [Except.ok.injEq] at entered
        subst entered
        rw [gt_iff_lt, UInt32.lt_iff_toNat_lt] at checked
        have found := (program.state.element_eq_ok_iff).mp reached
        refine ⟨reading.sound, reading.small, ?_, ?_⟩
        · intro owner current here
          by_cases same : owner = tid
          · subst same
            rw [Program.goto_self, Option.some.injEq] at here
            subst here
            refine ⟨rfl, placed, fun element' found' => ?_, by simp⟩
            have same : some element' = some element := found'.symm.trans found
            rw [Option.some.inj same]
            exact not_lt.mp checked
          · rw [Program.goto_of_ne _ same] at here
            exact reading.readers owner current here
        · intro owner p needs
          rcases needs_goto rfl needs with ⟨-, before⟩ | ⟨_, _, _, ⟨_, _, slot⟩, _⟩
          · exact reading.readable owner p before
          · exact absurd slot (Nat.not_lt_zero _)

theorem advance (reading : Reading machine buckets place program) {kernel : Kernel}
    (inside : program.threads tid = some activity)
    (undisturbing : Undisturbing machine program (.advance tid kernel))
    (advanced : program.advance kernel tid activity = .ok after) :
    Reading machine buckets place after := by
  rcases reading.element_of inside with ⟨element, found, area, checked, small⟩
  have reached := (program.state.element_eq_ok_iff).mpr found
  have reader := reading.readers tid activity inside
  have sized := reading.sound.sized tid element.tls area
  simp only [Program.advance, reached, bind, Except.bind] at advanced
  cases phase : activity.phase with
  | unprotect i =>
      simp only [phase] at advanced
      split at advanced
      next more =>
        have held := List.getElem?_eq_getElem (sized.length ▸ more)
        rcases reading.page_of area held with ⟨page, frame, allocated, -, -⟩
        have slot := State.slot_eq_ok_iff.mpr held
        have changed := reading.sound.backed.changeProt_one .readWrite allocated
        simp only [slot, tlsUnprotect, changed, Except.ok.injEq] at advanced
        rw [← advanced]
        exact reading.unprotect inside phase found held
      next done =>
        rw [Except.ok.injEq] at advanced
        rw [← advanced]
        refine reading.proceed inside rfl rfl rfl (by simp) fun element' found' n slot left => ?_
        obtain rfl : element' = element := by
          rw [found, Option.some.injEq] at found'
          exact found'.symm
        refine ⟨left.1, ?_⟩
        have starts : activity.offset.toInt32.toUInt32.toNat ≤ n := left.2
        rw [UInt32.toUInt32_toInt32] at starts
        rw [phase]
        rw [sized.length] at slot
        exact ⟨starts, by omega⟩
  | copy i indx =>
      simp only [phase, reader.access] at advanced
      split at advanced
      next below =>
        have next : indx.toUInt32.toNat < activity.limit.toNat := UInt32.lt_iff_toNat_lt.mp below
        split at advanced
        next => cases advanced
        next byte _ =>
          have position : indx = Int32.ofNat indx.toUInt32.toNat := by
            rw [← toInt32_eq, Int32.toInt32_toUInt32]
          have incremented : increment indx = .ok (Int32.ofNat (indx.toUInt32.toNat + 1)) := by
            rw [position, increment_ofNat (by omega), toNat_ofNat (by omega)]
          simp only [incremented, Except.ok.injEq] at advanced
          rw [← advanced]
          refine reading.proceed inside reader.access.symm rfl rfl (by simp)
            fun _ _ n _ left => ⟨left.1, ?_⟩
          have later : (Int32.ofNat (indx.toUInt32.toNat + 1)).toUInt32.toNat ≤ n := left.2
          rw [toNat_ofNat (by omega)] at later
          rw [phase]
          exact Nat.le_of_succ_le later
      next =>
        rw [Except.ok.injEq] at advanced
        rw [← advanced]
        exact reading.proceed inside reader.access.symm rfl rfl (by simp)
          fun _ _ _ _ left => left.2.elim
  | leave i indx mainPage copy => exact absurd phase (reader.reading i indx mainPage copy).1
  | store i indx copy => exact absurd phase (reader.reading i indx 0 copy).2
  | protect i =>
      simp only [phase] at advanced
      split at advanced
      next more =>
        have held := List.getElem?_eq_getElem (sized.length ▸ more)
        rcases reading.page_of area held with ⟨page, frame, allocated, -, -⟩
        have slot := State.slot_eq_ok_iff.mpr held
        have changed := reading.sound.backed.changeProt_one .none allocated
        simp only [slot, tlsProtect, changed, Except.ok.injEq] at advanced
        rw [← advanced]
        exact reading.protect inside (i + 1)
          (undisturbing _ ⟨activity, element, i, inside, phase, found, more, held⟩)
      next =>
        rw [Except.ok.injEq] at advanced
        rw [← advanced]
        exact reading.finish ..

theorem step (reading : Reading machine buckets place program) {move : Move}
    (reads : move.Reads) (undisturbing : Undisturbing machine program move)
    (stepped : program.Step move after) : Reading machine buckets place after := by
  cases stepped with
  | enter outside entered =>
      cases reads
      exact reading.enter outside entered
  | advance inside advanced => exact reading.advance inside undisturbing advanced

theorem start (settled : Settled machine state buckets place) :
    Reading machine buckets place (.start state) :=
  ⟨settled.sound, settled.small, by simp [Program.start],
    by simp [Program.Needs, Program.start]⟩

end Reading

/-! ## Runs -/

/-- Threads whose areas were set up by any calls read at the same time.  As long as no step
protects a page that another thread needs, every byte is read from an accessible page. -/
theorem readersSafe (machine : Machine) (memory : PageMemory) (events : List Event)
    (sharing : ∀ event ∈ events, event.call.Sharing)
    (served : AllServed machine (.initial memory) events) {replies : List Reply}
    (played : play machine (.initial memory) events = .ok (replies, state))
    (run : RunUnder Program.Step
      (fun program move => move.Reads ∧ Undisturbing machine program move) (.start state) program) :
    program.CopiesSafely := by
  rcases (Quiet.initial machine memory).play sharing served with
    ⟨replies', state', played', buckets, place, settled⟩
  rw [played, Except.ok.injEq, Prod.mk.injEq] at played'
  rcases played' with ⟨-, rfl⟩
  have reading : Reading machine buckets place program := by
    refine RunUnder.invariant (Reading machine buckets place) ?_ (.start settled) run
    intro before move after reading allowed stepped
    exact reading.step allowed.1 allowed.2 stepped
  exact reading.copiesSafely

def shareOnePage : List Event :=
  [{ tid := 1, call := .create 1, kernel := twoPages },
    { tid := 2, call := .clone 1, kernel := twoPages }]

theorem shareOnePage_sharing : ∀ event ∈ shareOnePage, event.call.Sharing := by
  simp [shareOnePage, Call.Sharing]

theorem shareOnePage_served : AllServed page4096 (.initial fun _ => none) shareOnePage := by
  refine ⟨fun _ _ => by decide, ?_⟩
  intro reply created done
  cases done
  exact ⟨trivial, fun _ _ _ => trivial⟩

def onePageShared : State :=
  match play page4096 (.initial fun _ => none) shareOnePage with
  | .ok (_, state) => state
  | .error _ => .initial fun _ => none

theorem shareOnePage_played : ∃ replies,
    play page4096 (.initial fun _ => none) shareOnePage = .ok (replies, onePageShared) :=
  ⟨_, rfl⟩

theorem undisturbing_of_ne {kernel : Kernel} (inside : program.threads tid = some activity)
    (phase : ∀ i, activity.phase ≠ .protect i) :
    Undisturbing machine program (.advance tid kernel) := by
  rintro p ⟨current, element, i, here, protecting, -⟩
  rw [inside, Option.some.injEq] at here
  exact absurd (here ▸ protecting) (phase i)

/-- Thread 1 reads its byte and protects the page before thread 2 unprotects it. -/
theorem readersSafe_apart :
    ∃ program, RunUnder Program.Step
        (fun program move => move.Reads ∧ Undisturbing page4096 program move)
        (.start onePageShared) program ∧
      (program.threads 2).map (·.phase) = some (.copy 0 0) ∧ program.CopiesSafely := by
  have begun : RunUnder Program.Step
      (fun program move => move.Reads ∧ Undisturbing page4096 program move)
      (.start onePageShared) _ :=
    .tail .refl ⟨.enter 1 .read 0 1 fun _ => 0, ⟨rfl, trivial⟩, .enter rfl rfl⟩
  have entered := begun.tail ⟨.enter 2 .read 0 1 fun _ => 0, ⟨rfl, trivial⟩, .enter rfl rfl⟩
  have opened := entered.tail
    ⟨.advance 1 twoPages, ⟨trivial, undisturbing_of_ne rfl (by simp)⟩, .advance rfl rfl⟩
  have looping := opened.tail
    ⟨.advance 1 twoPages, ⟨trivial, undisturbing_of_ne rfl (by simp)⟩, .advance rfl rfl⟩
  have copied := looping.tail
    ⟨.advance 1 twoPages, ⟨trivial, undisturbing_of_ne rfl (by simp)⟩, .advance rfl rfl⟩
  have left := copied.tail
    ⟨.advance 1 twoPages, ⟨trivial, undisturbing_of_ne rfl (by simp)⟩, .advance rfl rfl⟩
  have closed := left.tail
    ⟨.advance 1 twoPages, ⟨trivial, ?_⟩, .advance rfl rfl⟩
  · have reopened := closed.tail
      ⟨.advance 2 twoPages, ⟨trivial, undisturbing_of_ne rfl (by simp)⟩, .advance rfl rfl⟩
    have ready := reopened.tail
      ⟨.advance 2 twoPages, ⟨trivial, undisturbing_of_ne rfl (by simp)⟩, .advance rfl rfl⟩
    rcases shareOnePage_played with ⟨replies, played⟩
    exact ⟨_, ready, rfl, readersSafe page4096 _ shareOnePage shareOnePage_sharing
      shareOnePage_served played ready⟩
  · rintro p - other distinct ⟨activity, element, n, here, -, pending, -⟩
    have waiting : other = 2 ∧ activity.phase = .unprotect 0 := by
      simp only [Program.goto_of_ne _ distinct] at here
      by_cases same : other = 2
      · subst same
        rw [Program.goto_self, Option.some.injEq] at here
        exact ⟨rfl, by rw [← here]⟩
      · simp only [Program.goto_of_ne _ same, Program.goto_of_ne _ distinct] at here
        cases here
    have slot := pending.2
    rw [waiting.2] at slot
    exact absurd slot.2 (Nat.not_lt_zero _)

/-- Thread 1 protects the page while thread 2 has not read its byte yet. -/
theorem readersSafe_broken :
    ¬∀ (machine : Machine) (memory : PageMemory) (events : List Event) (replies : List Reply)
      (state : State) (program : Program), (∀ event ∈ events, event.call.Sharing) →
      AllServed machine (.initial memory) events →
      play machine (.initial memory) events = .ok (replies, state) →
      RunUnder Program.Step (fun _ move => move.Reads) (.start state) program →
      program.CopiesSafely := by
  intro always
  have begun : RunUnder Program.Step (fun _ move => move.Reads) (.start onePageShared) _ :=
    .tail .refl ⟨.enter 1 .read 0 1 fun _ => 0, rfl, .enter rfl rfl⟩
  have entered := begun.tail ⟨.enter 2 .read 0 1 fun _ => 0, rfl, .enter rfl rfl⟩
  have opened := entered.tail ⟨.advance 2 twoPages, trivial, .advance rfl rfl⟩
  have ready := opened.tail ⟨.advance 2 twoPages, trivial, .advance rfl rfl⟩
  have other := ready.tail ⟨.advance 1 twoPages, trivial, .advance rfl rfl⟩
  have looping := other.tail ⟨.advance 1 twoPages, trivial, .advance rfl rfl⟩
  have copied := looping.tail ⟨.advance 1 twoPages, trivial, .advance rfl rfl⟩
  have left := copied.tail ⟨.advance 1 twoPages, trivial, .advance rfl rfl⟩
  have closed := left.tail ⟨.advance 1 twoPages, trivial, .advance rfl rfl⟩
  rcases shareOnePage_played with ⟨replies, played⟩
  have safe := always page4096 _ shareOnePage replies _ _ shareOnePage_sharing
    shareOnePage_served played closed
  rcases safe 2 _ 0 0 rfl rfl rfl (by decide) with ⟨byte, copies⟩
  cases copies

end EC440.LocalStorage
