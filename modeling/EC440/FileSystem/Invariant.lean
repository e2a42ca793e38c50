import EC440.FileSystem.Loops

/-!
# The invariant of a session

`Sound` collects what every call keeps: the chains, the names, the super block
and the accounting of open descriptors.
-/

namespace EC440.FileSystem

open Linked Outcome

/-! ## Names -/

namespace NameField

theorem text_strcpy (name : NameField) (source : CString)
    (short : source.bytes.length ≤ maxFName) : (name.strcpy source).text = source.bytes := by
  have room : source.bytes.length < (List.ofFn (name.strcpy source)).length := by
    rw [List.length_ofFn]
    omega
  have copied : (List.ofFn (name.strcpy source)).take source.bytes.length = source.bytes := by
    refine List.ext_getElem (by rw [List.length_take]; omega) fun position _ inside => ?_
    rw [List.getElem_take, List.getElem_ofFn]
    exact dif_pos inside
  have terminated : (List.ofFn (name.strcpy source))[source.bytes.length] = 0 := by
    rw [List.getElem_ofFn]
    simp [strcpy]
  rw [text, ← List.take_append_drop source.bytes.length (List.ofFn (name.strcpy source)), copied,
    List.drop_eq_getElem_cons room, terminated, List.takeWhile_append_of_pos]
  · simp
  · intro byte membership
    have nonzero : byte ≠ 0 := fun equality => source.noNul (equality ▸ membership)
    simpa using nonzero

theorem text_eq_nil {name : NameField} (terminated : name 0 = 0) : name.text = [] := by
  rw [text, List.ofFn_succ, terminated]
  simp

theorem text_clear (name : NameField) : name.clear.text = [] :=
  text_eq_nil (by simp [clear, maxFName])

end NameField

/-- The names of a directory tell its used entries from each other and from the unused ones. -/
structure Distinguished (dir : Directory) : Prop where
  unused : ∀ slot, (dir slot).used = 0 → (dir slot).name.text = []
  nonempty : ∀ slot, (dir slot).used ≠ 0 → (dir slot).name.text ≠ []
  distinct : ∀ first second, (dir first).used ≠ 0 → (dir second).used ≠ 0 →
    (dir first).name.text = (dir second).name.text → first = second

namespace Distinguished

variable {dir : Directory} {name : CString} {slot : Slot}

theorem used (distinguished : Distinguished dir) (nonempty : name.bytes ≠ [])
    (named : (dir slot).name.Matches name) : (dir slot).used ≠ 0 := by
  intro unused
  rw [NameField.Matches, distinguished.unused slot unused] at named
  exact nonempty named.symm

theorem search_eq_some_iff (distinguished : Distinguished dir) (nonempty : name.bytes ≠ []) :
    (search fun slot => (dir slot).name.Matches name) = some slot ↔
      (dir slot).used ≠ 0 ∧ (dir slot).name.Matches name := by
  constructor
  · intro found
    have named : (dir slot).name.Matches name := of_decide_eq_true (search_eq_some found).1
    exact ⟨distinguished.used nonempty named, named⟩
  · rintro ⟨used, named⟩
    cases found : search fun slot => decide ((dir slot).name.Matches name) with
    | none => exact absurd named (of_decide_eq_false (search_eq_none found slot))
    | some other =>
        have named' : (dir other).name.Matches name := of_decide_eq_true (search_eq_some found).1
        rw [distinguished.distinct other slot (distinguished.used nonempty named') used
          (named'.trans named.symm)]

theorem search_used (distinguished : Distinguished dir) (used : (dir slot).used ≠ 0)
    (named : (dir slot).name.Matches name) :
    (search fun slot => (dir slot).name.Matches name) = some slot := by
  have nonempty : name.bytes ≠ [] := by
    intro empty
    exact distinguished.nonempty slot used (named.trans empty)
  exact (distinguished.search_eq_some_iff nonempty).mpr ⟨used, named⟩

theorem search_eq_none_iff (distinguished : Distinguished dir) (nonempty : name.bytes ≠ []) :
    (search fun slot => (dir slot).name.Matches name) = none ↔
      ∀ slot, (dir slot).used ≠ 0 → ¬(dir slot).name.Matches name := by
  rw [Option.eq_none_iff_forall_not_mem]
  refine forall_congr' fun slot => ?_
  rw [Option.mem_def, distinguished.search_eq_some_iff nonempty, not_and]

theorem congr {dir' : Directory} (distinguished : Distinguished dir)
    (same : ∀ slot, (dir' slot).used = (dir slot).used ∧ (dir' slot).name = (dir slot).name) :
    Distinguished dir' := by
  refine ⟨fun slot => ?_, fun slot => ?_, fun first second => ?_⟩
  · rw [(same slot).1, (same slot).2]
    exact distinguished.unused slot
  · rw [(same slot).1, (same slot).2]
    exact distinguished.nonempty slot
  · rw [(same first).1, (same first).2, (same second).1, (same second).2]
    exact distinguished.distinct first second

theorem create {entry : DirEntry} (distinguished : Distinguished dir)
    (unused : (dir slot).used = 0) (used : entry.used ≠ 0) (text : entry.name.text = name.bytes)
    (new : ∀ other, ¬(dir other).name.Matches name) :
    Distinguished (Function.update dir slot entry) := by
  refine ⟨fun other isUnused => ?_, fun other isUsed => ?_, fun first second => ?_⟩
  · by_cases same : other = slot
    · rw [same, Function.update_self] at isUnused
      exact absurd isUnused used
    · rw [Function.update_of_ne same] at isUnused ⊢
      exact distinguished.unused other isUnused
  · by_cases same : other = slot
    · rw [same, Function.update_self, text]
      intro empty
      -- the unused entry has the empty name, so the scan would have found it
      exact new slot ((distinguished.unused slot unused).trans empty.symm)
    · rw [Function.update_of_ne same] at isUsed ⊢
      exact distinguished.nonempty other isUsed
  · by_cases firstSlot : first = slot <;> by_cases secondSlot : second = slot
    · exact fun _ _ _ => firstSlot.trans secondSlot.symm
    · rw [firstSlot, Function.update_self, Function.update_of_ne secondSlot, text]
      exact fun _ _ same => absurd same.symm (new second)
    · rw [secondSlot, Function.update_self, Function.update_of_ne firstSlot, text]
      exact fun _ _ same => absurd same (new first)
    · rw [Function.update_of_ne firstSlot, Function.update_of_ne secondSlot]
      exact distinguished.distinct first second

theorem wipe {entry : DirEntry} (distinguished : Distinguished dir) (unused : entry.used = 0)
    (empty : entry.name.text = []) : Distinguished (Function.update dir slot entry) := by
  have ne_slot : ∀ other, (Function.update dir slot entry other).used ≠ 0 → other ≠ slot := by
    rintro other isUsed rfl
    rw [Function.update_self] at isUsed
    exact isUsed unused
  refine ⟨fun other isUnused => ?_, fun other isUsed => ?_, fun first second => ?_⟩
  · by_cases same : other = slot
    · rw [same, Function.update_self]
      exact empty
    · rw [Function.update_of_ne same] at isUnused ⊢
      exact distinguished.unused other isUnused
  · have other := ne_slot other isUsed
    rw [Function.update_of_ne other] at isUsed ⊢
    exact distinguished.nonempty _ isUsed
  · intro usedFirst usedSecond
    have firstNe := ne_slot first usedFirst
    have secondNe := ne_slot second usedSecond
    rw [Function.update_of_ne firstNe] at usedFirst ⊢
    rw [Function.update_of_ne secondNe] at usedSecond ⊢
    exact distinguished.distinct first second usedFirst usedSecond

end Distinguished

/-! ## Open descriptors -/

/-- The number of open descriptors whose `file` field is a given head. -/
def State.openCount (state : State) (head : Int32) : Nat :=
  (Finset.univ.filter fun descriptor =>
    state.Open descriptor ∧ (state.fildes descriptor).file = head).card

theorem openCount_le (state : State) (head : Int32) : state.openCount head ≤ maxFildes := by
  have bound := Finset.card_le_univ (Finset.univ.filter fun descriptor =>
    state.Open descriptor ∧ (state.fildes descriptor).file = head)
  rwa [Fintype.card_fin] at bound

theorem openCount_pos_iff {state : State} {head : Int32} :
    0 < state.openCount head ↔
      ∃ descriptor, state.Open descriptor ∧ (state.fildes descriptor).file = head := by
  rw [State.openCount, Finset.card_pos]
  simp [Finset.Nonempty]

theorem openCount_closed {state : State} (closed : ∀ descriptor, ¬state.Open descriptor)
    (head : Int32) : state.openCount head = 0 := by
  by_contra nonzero
  obtain ⟨descriptor, isOpen, -⟩ := openCount_pos_iff.mp (Nat.pos_of_ne_zero nonzero)
  exact closed descriptor isOpen

theorem openCount_congr {before after : State}
    (same : ∀ descriptor, (after.fildes descriptor).used = (before.fildes descriptor).used ∧
      (after.fildes descriptor).file = (before.fildes descriptor).file) (head : Int32) :
    after.openCount head = before.openCount head := by
  unfold State.openCount State.Open
  congr 1
  ext descriptor
  simp [same descriptor]

theorem openCount_open {before after : State} (descriptor : Descriptor) (fd : FileDescriptor)
    (closed : ¬before.Open descriptor) (opened : fd.used ≠ 0)
    (fildes : after.fildes = Function.update before.fildes descriptor fd) (head : Int32) :
    after.openCount head = before.openCount head + if fd.file = head then 1 else 0 := by
  have extended : (Finset.univ.filter fun other =>
      after.Open other ∧ (after.fildes other).file = head) =
      if fd.file = head then insert descriptor (Finset.univ.filter fun other =>
        before.Open other ∧ (before.fildes other).file = head)
      else Finset.univ.filter fun other =>
        before.Open other ∧ (before.fildes other).file = head := by
    ext other
    unfold State.Open at closed ⊢
    by_cases same : other = descriptor
    · subst same
      by_cases hit : fd.file = head <;> simp [fildes, opened, hit, closed]
    · by_cases hit : fd.file = head <;> simp [fildes, same, hit]
  rw [State.openCount, extended]
  split
  · rw [Finset.card_insert_of_notMem (by simp [closed])]
    rfl
  · rfl

theorem openCount_close {before after : State} (descriptor : Descriptor) (fd : FileDescriptor)
    (wasOpen : before.Open descriptor) (closed : fd.used = 0)
    (fildes : after.fildes = Function.update before.fildes descriptor fd) (head : Int32) :
    before.openCount head =
      after.openCount head + if (before.fildes descriptor).file = head then 1 else 0 := by
  refine openCount_open descriptor (before.fildes descriptor) ?_ wasOpen ?_ head
  · simp [State.Open, fildes, closed]
  · rw [fildes, Function.update_idem, Function.update_eq_self]

/-! ## Soundness -/

/-- What every state of a session satisfies, with a chart of its files. -/
structure Sound (state : State) (chart : Slot → List BlockIndex) : Prop where
  active : state.device.active = true
  superBlock : state.fs = some layout
  charted : Charted state.fat state.dir chart
  unusedName : ∀ slot, ¬state.Used slot → (state.dir slot).name.text = []
  unusedHead : ∀ slot, ¬state.Used slot → (state.dir slot).head = 0 ∨ (state.dir slot).head = -1
  unusedCount : ∀ slot, ¬state.Used slot → (state.dir slot).refCnt = 0
  usedName : ∀ slot, state.Used slot → (state.dir slot).name.text ≠ []
  distinctNames : ∀ first second, state.Used first → state.Used second →
    (state.dir first).name.text = (state.dir second).name.text → first = second
  counted : ∀ slot, state.Used slot →
    (state.dir slot).refCnt = Int32.ofNat (state.openCount (state.dir slot).head)
  owned : ∀ descriptor, state.Open descriptor →
    ∃ slot, state.Used slot ∧ (state.dir slot).head = (state.fildes descriptor).file

namespace Sound

variable {state : State} {chart : Slot → List BlockIndex}

theorem distinguished (sound : Sound state chart) : Distinguished state.dir where
  unused slot unused := sound.unusedName slot (not_not.mpr unused)
  nonempty := sound.usedName
  distinct := sound.distinctNames

theorem superBlock_eq (sound : Sound state chart) : state.superBlock = .ok layout := by
  rw [State.superBlock, sound.superBlock]

theorem used_of_head (sound : Sound state chart) {slot other : Slot} (used : state.Used slot)
    (same : (state.dir other).head = (state.dir slot).head) : state.Used other := by
  by_contra unused
  have data := (sound.charted.head_data used).1
  rw [← same] at data
  rcases sound.unusedHead other unused with zero | end_
  · rw [zero] at data
    exact absurd data (by decide)
  · rw [end_] at data
    exact absurd data (by decide)

/-- The lookup by head block finds exactly the used entry with that head. -/
theorem searchHead_eq (sound : Sound state chart) {slot : Slot} (used : state.Used slot) :
    searchHead state.dir (state.dir slot).head = some slot := by
  cases found : searchHead state.dir (state.dir slot).head with
  | none => simpa using search_eq_none found slot
  | some other =>
      have same : (state.dir other).head = (state.dir slot).head := by
        simpa using (search_eq_some found).1
      rw [sound.charted.head_injective (sound.used_of_head used same) used same]

theorem length_lt_fuel (sound : Sound state chart) (slot : Slot) :
    (chart slot).length < chainFuel := by
  have bound := (sound.charted.nodup slot).length_le_card
  rw [Fintype.card_fin] at bound
  exact Nat.lt_succ_of_le bound

theorem refCnt_pos (sound : Sound state chart) {slot : Slot} {descriptor : Descriptor}
    (used : state.Used slot) (isOpen : state.Open descriptor)
    (denotes : (state.fildes descriptor).file = (state.dir slot).head) :
    (state.dir slot).refCnt > 0 := by
  have positive : 0 < state.openCount (state.dir slot).head :=
    openCount_pos_iff.mpr ⟨descriptor, isOpen, denotes⟩
  have bound := openCount_le state (state.dir slot).head
  simp only [maxFildes] at bound
  rw [sound.counted slot used, gt_iff_lt, Int32.lt_iff_toInt_lt, Int32.toInt_zero,
    Int32.toInt_ofNat_of_lt (by omega)]
  exact_mod_cast positive

end Sound

theorem fildesAt_eq_ok_iff {index : Int} {descriptor : Descriptor} :
    fildesAt index = .ok descriptor ↔ index = descriptor.val := by
  constructor
  · intro found
    unfold fildesAt at found
    split at found
    next index =>
      split at found
      next inside =>
        cases found
        rfl
      next => cases found
    next => cases found
  · rintro rfl
    exact dif_pos descriptor.isLt

theorem fildesAt_cases (index : Int) :
    (∃ descriptor : Descriptor, index = descriptor.val ∧ fildesAt index = .ok descriptor) ∨
      fildesAt index = .error (.outOfRange .fildes index) := by
  unfold fildesAt
  split
  next index =>
    split
    next inside => exact .inl ⟨⟨index, inside⟩, rfl, rfl⟩
    next => exact .inr rfl
  next => exact .inr rfl

/-- For a descriptor inside the table the validity test looks at its `used` field only. -/
theorem invalidFildes_iff {state : State} {descriptor : Descriptor} :
    invalidFildes state descriptor.val descriptor ↔ ¬state.Open descriptor := by
  have bound := descriptor.isLt
  unfold invalidFildes State.Open
  rw [not_not, or_iff_left]
  omega

/-! ## Descriptors -/

/-- A slot is the directory entry that an open descriptor denotes. -/
structure Denotes (state : State) (descriptor : Descriptor) (slot : Slot) : Prop where
  isOpen : state.Open descriptor
  used : state.Used slot
  head : (state.dir slot).head = (state.fildes descriptor).file

theorem Denotes.congr {other : State} {descriptor : Descriptor} {slot : Slot}
    (denotes : Denotes state descriptor slot) (dir : other.dir = state.dir)
    (fildes : other.fildes = state.fildes) : Denotes other descriptor slot where
  isOpen := by
    rw [State.Open, fildes]
    exact denotes.isOpen
  used := by
    rw [State.Used, dir]
    exact denotes.used
  head := by
    rw [dir, fildes]
    exact denotes.head

theorem Sound.denoted (sound : Sound state chart) {descriptor : Descriptor}
    (isOpen : state.Open descriptor) : ∃ slot, Denotes state descriptor slot := by
  obtain ⟨slot, used, head⟩ := sound.owned descriptor isOpen
  exact ⟨slot, isOpen, used, head⟩

theorem Denotes.unique (sound : Sound state chart) {descriptor : Descriptor} {first second : Slot}
    (denotesFirst : Denotes state descriptor first)
    (denotesSecond : Denotes state descriptor second) : first = second :=
  sound.charted.head_injective denotesFirst.used denotesSecond.used
    (denotesFirst.head.trans denotesSecond.head.symm)

theorem Denotes.searchHead_eq (sound : Sound state chart) {descriptor : Descriptor} {slot : Slot}
    (denotes : Denotes state descriptor slot) :
    searchHead state.dir (state.fildes descriptor).file = some slot :=
  denotes.head ▸ sound.searchHead_eq denotes.used

theorem Denotes.chain (sound : Sound state chart) {descriptor : Descriptor} {slot : Slot}
    (denotes : Denotes state descriptor slot) :
    FatChain state.fat (state.fildes descriptor).file (chart slot) :=
  denotes.head ▸ sound.charted.chain slot denotes.used

theorem Denotes.valid {descriptor : Descriptor} {slot : Slot}
    (denotes : Denotes state descriptor slot) :
    ¬invalidFildes state descriptor.val descriptor := by
  rw [invalidFildes_iff, not_not]
  exact denotes.isOpen

theorem fildesAt_val (descriptor : Descriptor) : fildesAt descriptor.val = .ok descriptor :=
  fildesAt_eq_ok_iff.mpr rfl

theorem fildesAt_outside {index : Int}
    (stopped : fildesAt index = .error (.outOfRange .fildes index)) :
    index < 0 ∨ maxFildes ≤ index := by
  by_contra inside
  rw [not_or, not_lt, not_le] at inside
  have valid := fildesAt_val ⟨index.toNat, by omega⟩
  rw [Int.toNat_of_nonneg inside.1, stopped] at valid
  cases valid

/-- An `int` given as a descriptor denotes a file, a closed descriptor, or nothing at all. -/
theorem Sound.fildes_cases (sound : Sound state chart) (fildesI : Int) :
    (∃ (descriptor : Descriptor) (slot : Slot), fildesI = descriptor.val ∧
      Denotes state descriptor slot) ∨
    (∃ descriptor : Descriptor, fildesI = descriptor.val ∧ ¬state.Open descriptor) ∨
    fildesAt fildesI = .error (.outOfRange .fildes fildesI) := by
  rcases fildesAt_cases fildesI with ⟨descriptor, rfl, -⟩ | stopped
  · by_cases isOpen : state.Open descriptor
    · obtain ⟨slot, denotes⟩ := sound.denoted isOpen
      exact .inl ⟨descriptor, slot, rfl, denotes⟩
    · exact .inr (.inl ⟨descriptor, rfl, isOpen⟩)
  · exact .inr (.inr stopped)

end EC440.FileSystem
