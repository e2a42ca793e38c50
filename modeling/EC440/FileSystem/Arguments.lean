import EC440.FileSystem.Creation
import EC440.FileSystem.Failures

/-!
# Arguments of the calls

Every call that takes a descriptor reads `fildes` before it looks at the
number, some never look at it, and the search loops of `fs_open` and
`fs_delete` read an array before they test its bound.  The bounds of the other
lookups hold because an open descriptor always has an entry.
-/

namespace EC440.FileSystem

open Linked Outcome

variable {tolerance : Tolerance} {garbage : Nat → Buffer} {state start : State}
  {chart : Slot → List BlockIndex} {name : CString}

/-- The calls that look up a name. -/
inductive NameRequest where
  | opens | delete
  deriving DecidableEq

/-- The calls that look up a descriptor. -/
inductive FildesRequest where
  | close
  | read (nbyte : UInt64)
  | write (buf : Nat → UInt8) (nbyte : UInt64)
  | lseek (offset : Int64)
  | getFilesize
  | truncate (length : Int64)

inductive Request where
  | byName (request : NameRequest) (name : CString)
  | byFildes (request : FildesRequest) (fildesI : Int)

/-- The stray accesses next to `DIR` and `fildes` stop the run. -/
def Request.run (garbage : Nat → Buffer) (state : State) : Request → Outcome (Int32 × State)
  | .byName .opens name => exec heapToo garbage state (.opens name)
  | .byName .delete name => exec heapToo garbage state (.delete name)
  | .byFildes .close fildesI => exec heapToo garbage state (.close fildesI)
  | .byFildes (.read nbyte) fildesI => exec heapToo garbage state (.read fildesI nbyte)
  | .byFildes (.write buf nbyte) fildesI => exec heapToo garbage state (.write fildesI buf nbyte)
  | .byFildes (.lseek offset) fildesI => exec heapToo garbage state (.lseek fildesI offset)
  | .byFildes .getFilesize fildesI => do
      let size ← fsGetFilesize state fildesI
      .ok (size, state)
  | .byFildes (.truncate length) fildesI =>
      exec heapToo garbage state (.truncate fildesI length)

/-- The stops of the checks and lookups.  The walk of `fs_truncate` to the new last block of a
file that it has found is not one of them. -/
def Request.LooksUp : Request → Stop → Prop
  | .byFildes (.truncate _) _, .outOfRange .fat _ => False
  | _, .outOfRange _ _ => True
  | _, .stray .dirPeek => True
  | _, .stray .fildesPeek => True
  | _, .stray _ => False
  | _, .nullSuperBlock => True
  | _, .diverges => True

def State.HasFile (state : State) (name : CString) : Prop :=
  ∃ slot, state.Used slot ∧ (state.dir slot).name.Matches name

/-- The name is the one of a file, the number the one of an open descriptor. -/
def Request.Valid (state : State) : Request → Prop
  | .byName _ name => state.HasFile name
  | .byFildes _ fildesI => ∃ descriptor : Descriptor, fildesI = descriptor.val ∧
      state.Open descriptor

/-- No lookup leaves its table or runs on for ever, and what is not valid is refused. -/
structure ArgumentSafe (garbage : Nat → Buffer) (state : State) (request : Request) : Prop where
  inRange : ∀ stop, request.run garbage state = .error stop → ¬request.LooksUp stop
  refused : ¬request.Valid state → request.run garbage state = .ok (-1, state)

/-- The arguments that the code gets right: descriptors inside the table, any name for `fs_open`
while a descriptor is left, and for `fs_delete` the names of files, or the empty name when the
first unused entry is one that has been deleted. -/
def Request.Handled (state : State) : Request → Prop
  | .byName .opens name => state.HasFile name → ∃ descriptor, ¬state.Open descriptor
  | .byName .delete name => state.HasFile name ∨
      name.bytes = [] ∧ ∃ slot, ¬state.Used slot ∧ (∀ earlier < slot, state.Used earlier) ∧
        (state.dir slot).head = 0
  | .byFildes _ fildesI => ∃ descriptor : Descriptor, fildesI = descriptor.val

/-! ## Requests that do not stop -/

theorem ArgumentSafe.of_ok {request : Request} {code : Int32} {after : State}
    (done : request.run garbage state = .ok (code, after))
    (refused : ¬request.Valid state → code = -1 ∧ after = state) :
    ArgumentSafe garbage state request := by
  constructor
  case inRange =>
    intro stop stopped
    rw [done] at stopped
    cases stopped
  case refused =>
    intro invalid
    obtain ⟨rfl, rfl⟩ := refused invalid
    exact done

/-! ## Descriptors -/

theorem Request.run_outside (request : FildesRequest) {fildesI : Int}
    (stopped : fildesAt fildesI = .error (.outOfRange .fildes fildesI)) :
    (Request.byFildes request fildesI).run garbage state =
      .error (.outOfRange .fildes fildesI) := by
  cases request with
  | close => simp only [Request.run, exec, fsClose, stopped, bind, Except.bind]
  | read nbyte => simp only [Request.run, exec, fsRead, stopped, bind, Except.bind]
  | write buf nbyte => simp only [Request.run, exec, fsWrite, stopped, bind, Except.bind]
  | lseek offset => simp only [Request.run, exec, fsLseek, stopped, bind, Except.bind]
  | getFilesize => simp only [Request.run, fsGetFilesize, stopped, bind, Except.bind]
  | truncate length => simp only [Request.run, exec, fsTruncate, stopped, bind, Except.bind]

theorem fsGetFilesize_closed {descriptor : Descriptor} (closed : ¬state.Open descriptor) :
    fsGetFilesize state descriptor.val = .ok (-1) := by
  unfold fsGetFilesize
  simp only [fildesAt_val, bind, Except.bind]
  exact if_pos (not_not.mp closed)

theorem fsGetFilesize_open (sound : Sound state chart) {descriptor : Descriptor} {slot : Slot}
    (denotes : Denotes state descriptor slot) :
    fsGetFilesize state descriptor.val = .ok (state.dir slot).size := by
  unfold fsGetFilesize
  simp only [fildesAt_val, bind, Except.bind, if_neg denotes.isOpen, searchHeadUnbounded,
    denotes.searchHead_eq sound]

theorem Request.run_closed (request : FildesRequest) {descriptor : Descriptor}
    (closed : ¬state.Open descriptor) :
    (Request.byFildes request descriptor.val).run garbage state = .ok (-1, state) := by
  cases request with
  | close => exact fsClose_closed closed
  | read nbyte =>
      simp only [Request.run, exec, fsRead_closed closed, bind, Except.bind]
  | write buf nbyte => exact fsWrite_closed closed garbage buf nbyte
  | lseek offset => exact fsLseek_closed closed offset
  | getFilesize =>
      simp only [Request.run, fsGetFilesize_closed closed, bind, Except.bind]
  | truncate length => exact fsTruncate_closed closed garbage length

/-- With an open descriptor only the walk of `fs_truncate` can leave a table. -/
theorem Request.run_open (sound : Sound state chart) (request : FildesRequest)
    {descriptor : Descriptor} {slot : Slot} (denotes : Denotes state descriptor slot) :
    (∃ code after, (Request.byFildes request descriptor.val).run garbage state =
      .ok (code, after)) ∨
    (∃ length, request = .truncate length) ∧
      (Request.byFildes request descriptor.val).run garbage state =
        .error (.outOfRange .fat (-1)) := by
  have heap : heapToo .heap = true := by decide
  cases request with
  | close => exact .inl ⟨_, _, fsClose_open sound denotes⟩
  | read nbyte =>
      left
      by_cases positive : 0 < nbyte.toNat
      · have returns := fsRead_open heapToo sound denotes garbage positive
        rw [checkTransfer_of_heap heap] at returns
        exact ⟨_, _, bind_eq_ok_iff.mpr ⟨_, returns, rfl⟩⟩
      · have returns : fsRead heapToo garbage state descriptor.val nbyte = _ :=
          fsRead_zero denotes garbage (not_lt.mp positive)
        exact ⟨_, _, bind_eq_ok_iff.mpr ⟨_, returns, rfl⟩⟩
  | write buf nbyte =>
      obtain ⟨added, fat, -, -, returns⟩ :=
        fsWrite_open heapToo sound denotes garbage buf nbyte rfl rfl rfl
      rw [checkTransfer_of_heap heap] at returns
      exact .inl ⟨_, _, returns⟩
  | lseek offset =>
      left
      have returns := fsLseek_open sound denotes offset
      split at returns
      · exact ⟨_, _, returns⟩
      · exact ⟨_, _, returns⟩
  | getFilesize =>
      have returns := fsGetFilesize_open sound denotes
      exact .inl ⟨_, _, bind_eq_ok_iff.mpr ⟨_, returns, rfl⟩⟩
  | truncate length =>
      by_cases within : length.toInt ≤ (state.dir slot).size.toInt
      · rcases @fsTruncate_open heapToo state chart sound descriptor slot denotes garbage length
          within with ⟨-, stopped⟩ | ⟨kept, last, tail, -, -, returns⟩
        · exact .inr ⟨⟨length, rfl⟩, stopped⟩
        · left
          rw [checkCopy, tolerate, if_pos heap, ite_self] at returns
          exact ⟨_, _, returns⟩
      · exact .inl ⟨_, _, fsTruncate_long sound denotes garbage (not_le.mp within)⟩

theorem byFildes_iff (sound : Sound state chart) (request : FildesRequest) (fildesI : Int) :
    ArgumentSafe garbage state (.byFildes request fildesI) ↔
      ∃ descriptor : Descriptor, fildesI = descriptor.val := by
  constructor
  · intro safe
    rcases fildesAt_cases fildesI with ⟨descriptor, inside, -⟩ | stopped
    · exact ⟨descriptor, inside⟩
    · have looked := safe.inRange _ (Request.run_outside request stopped)
      exact absurd (by cases request <;> trivial) looked
  · rintro ⟨descriptor, rfl⟩
    by_cases isOpen : state.Open descriptor
    · have valid : (Request.byFildes request descriptor.val).Valid state :=
        ⟨descriptor, rfl, isOpen⟩
      obtain ⟨slot, denotes⟩ := sound.denoted isOpen
      rcases Request.run_open sound request denotes with ⟨code, after, done⟩ |
        ⟨⟨length, rfl⟩, stopped⟩
      · exact .of_ok done fun invalid => absurd valid invalid
      · constructor
        case inRange =>
          intro stop other
          rw [stopped] at other
          cases other
          exact id
        case refused => exact fun invalid => absurd valid invalid
    · exact .of_ok (Request.run_closed request isOpen) fun _ => ⟨rfl, rfl⟩

/-! ## Names -/

theorem fsOpen_unknown (tolerance : Tolerance) (unknown : ¬state.HasFile name) :
    fsOpen tolerance state name = .ok (-1, state) := by
  unfold fsOpen
  split
  next => rfl
  next slot found =>
    apply if_pos
    by_contra used
    exact unknown ⟨slot, used, of_decide_eq_true (search_eq_some found).1⟩

/-- The search for a free descriptor reads `fildes[32]` when there is none. -/
theorem fsOpen_full (distinguished : Distinguished state.dir) (known : state.HasFile name)
    (full : ∀ descriptor, state.Open descriptor) :
    fsOpen heapToo state name = .error (.stray .fildesPeek) := by
  obtain ⟨slot, used, named⟩ := known
  have none : search (fun descriptor => decide ((state.fildes descriptor).used = 0)) = none := by
    apply List.find?_eq_none.mpr
    intro descriptor _ closed
    exact full descriptor (of_decide_eq_true closed)
  unfold fsOpen
  simp only [distinguished.search_used used named, if_neg used, none]
  rfl

theorem opens_iff (sound : Sound state chart) (name : CString) :
    ArgumentSafe garbage state (.byName .opens name) ↔
      (state.HasFile name → ∃ descriptor, ¬state.Open descriptor) := by
  constructor
  · intro safe known
    by_contra full
    rw [not_exists_not] at full
    exact safe.inRange _ (fsOpen_full sound.distinguished known full) trivial
  · intro left
    by_cases known : state.HasFile name
    · obtain ⟨slot, used, named⟩ := known
      obtain ⟨descriptor, -, done⟩ :=
        fsOpen_ok heapToo sound.distinguished used named (left ⟨slot, used, named⟩)
      exact .of_ok done fun invalid => absurd ⟨slot, used, named⟩ invalid
    · exact .of_ok (fsOpen_unknown heapToo known) fun _ => ⟨rfl, rfl⟩

/-- The search of `fs_delete` reads `DIR[64]` when no entry has the name. -/
theorem fsDelete_unknown
    (none : (search fun slot => (state.dir slot).name.Matches name) = none) :
    fsDelete heapToo state name = .error (.stray .dirPeek) := by
  unfold fsDelete
  rw [none]
  rfl

/-- A search that stops at an unused entry is one for the empty name, and stops at the first. -/
theorem Sound.search_unused (sound : Sound state chart) (name : CString) {slot : Slot}
    (unused : ¬state.Used slot) :
    (search fun slot => (state.dir slot).name.Matches name) = some slot ↔
      name.bytes = [] ∧ ∀ earlier < slot, state.Used earlier := by
  have matches_ : ∀ slot, ¬state.Used slot →
      ((state.dir slot).name.Matches name ↔ name.bytes = []) := by
    intro slot unused
    rw [NameField.Matches, sound.unusedName slot unused, eq_comm]
  constructor
  · intro found
    obtain ⟨named, before⟩ := search_eq_some found
    have empty := (matches_ slot unused).mp (of_decide_eq_true named)
    refine ⟨empty, fun earlier less => ?_⟩
    by_contra isUnused
    exact of_decide_eq_false (before earlier less) ((matches_ earlier isUnused).mpr empty)
  · rintro ⟨empty, before⟩
    have named := (matches_ slot unused).mpr empty
    cases found : search fun slot => decide ((state.dir slot).name.Matches name) with
    | none => exact absurd named (of_decide_eq_false (search_eq_none found slot))
    | some other =>
        obtain ⟨otherNamed, others⟩ := search_eq_some found
        have text : (state.dir other).name.text = [] := (of_decide_eq_true otherNamed).trans empty
        rcases lt_trichotomy other slot with less | same | greater
        · exact absurd text (sound.usedName other (before other less))
        · rw [same]
        · exact absurd named (of_decide_eq_false (others slot greater))

theorem Sound.unused_unreferenced (sound : Sound state chart) {slot : Slot}
    (unused : ¬state.Used slot) : ¬(state.dir slot).refCnt > 0 := by
  rw [sound.unusedCount slot unused]
  decide

theorem delete_iff (sound : Sound state chart) (name : CString) :
    ArgumentSafe garbage state (.byName .delete name) ↔ state.HasFile name ∨
      name.bytes = [] ∧ ∃ slot, ¬state.Used slot ∧ (∀ earlier < slot, state.Used earlier) ∧
        (state.dir slot).head = 0 := by
  constructor
  · intro safe
    cases found : search fun slot => decide ((state.dir slot).name.Matches name) with
    | none => exact absurd trivial (safe.inRange _ (fsDelete_unknown found))
    | some slot =>
        by_cases used : state.Used slot
        · exact .inl ⟨slot, used, of_decide_eq_true (search_eq_some found).1⟩
        · obtain ⟨empty, before⟩ := (sound.search_unused name used).mp found
          rcases sound.unusedHead slot used with zero | blank
          · exact .inr ⟨empty, slot, used, before, zero⟩
          · have stopped := fsDelete_blank heapToo found (sound.unused_unreferenced used) blank
            exact absurd trivial (safe.inRange _ stopped)
  · rintro (⟨slot, used, named⟩ | ⟨empty, slot, unused, before, zero⟩)
    · have known : state.HasFile name := ⟨slot, used, named⟩
      have found := sound.distinguished.search_used used named
      by_cases referenced : (state.dir slot).refCnt > 0
      · have done : fsDelete heapToo state name = .ok (-1, state) := by
          unfold fsDelete
          simp only [found, if_pos referenced]
        exact .of_ok done fun invalid => absurd known invalid
      · exact .of_ok (fsDelete_used heapToo sound found used referenced)
          fun invalid => absurd known invalid
    · have found := (sound.search_unused name unused).mpr ⟨empty, before⟩
      have done := fsDelete_wiped heapToo sound found (sound.unused_unreferenced unused) zero
      exact .of_ok done fun _ => ⟨rfl, rfl⟩

/-! ## Sessions -/

/-- In every state of a session the lookups are right exactly for the arguments that are
handled. -/
theorem argumentSafety {allowed : State → Call → Prop} (begin_ : SessionStart start)
    (session : Session tolerance allowed start state) (garbage : Nat → Buffer)
    (request : Request) :
    ArgumentSafe garbage state request ↔ request.Handled state := by
  obtain ⟨chart, sound⟩ := session.sound begin_.sound
  cases request with
  | byName request name =>
      cases request with
      | opens => exact opens_iff sound name
      | delete => exact delete_iff sound name
  | byFildes request fildesI => exact byFildes_iff sound request fildesI

theorem argumentSafety_firstFile : ∃ start opened, SessionStart start ∧
    Session mountOnly (fun _ _ => True) start opened ∧ opened.Open 0 ∧
    ArgumentSafe (fun _ _ => 0) opened (.byFildes .getFilesize 0) := by
  obtain ⟨start, opened, _, fresh, session, -, -, denotes, -⟩ :=
    exists_firstFile (by decide : mountOnly .fildesReset = true)
  exact ⟨start, opened, fresh.start, session.weaken fun _ _ _ => trivial, denotes.isOpen,
    (argumentSafety fresh.start session _ (.byFildes .getFilesize 0)).mpr ⟨0, rfl⟩⟩

/-- The calls that go wrong on a new file system. -/
theorem argumentSafety_broken : ∃ start, SessionStart start ∧
    fsClose heapToo start (-1) = .error (.outOfRange .fildes (-1)) ∧
    fsGetFilesize start 32 = .error (.outOfRange .fildes 32) ∧
    fsDelete heapToo start fileName = .error (.stray .dirPeek) ∧
    fsDelete heapToo start ⟨[], List.not_mem_nil⟩ = .error (.outOfRange .fat (-1)) ∧
    ¬ArgumentSafe (fun _ _ => 0) start (.byFildes .close (-1)) ∧
    ¬ArgumentSafe (fun _ _ => 0) start (.byName .delete fileName) := by
  obtain ⟨start, fresh, dir, -, -⟩ := exists_freshMount (by decide : mountOnly .fildesReset = true)
  obtain ⟨chart, sound⟩ := fresh.start.sound
  have unknown : fsDelete heapToo start fileName = .error (.stray .dirPeek) := by
    apply fsDelete_unknown
    rw [dir]
    decide
  have empty : fsDelete heapToo start ⟨[], List.not_mem_nil⟩ = .error (.outOfRange .fat (-1)) := by
    have found := (sound.search_unused ⟨[], List.not_mem_nil⟩ (fresh.unused 0)).mpr
      ⟨rfl, fun earlier less => absurd less (Fin.not_lt_zero earlier)⟩
    have blank : (start.dir 0).head = -1 := by
      rw [dir]
      rfl
    exact fsDelete_blank heapToo found (sound.unused_unreferenced (fresh.unused 0)) blank
  exact ⟨start, fresh.start, rfl, rfl, unknown, empty, fun safe => safe.inRange _ rfl trivial,
    fun safe => safe.inRange _ unknown trivial⟩

end EC440.FileSystem
