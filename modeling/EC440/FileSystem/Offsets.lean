import EC440.FileSystem.Accounting

/-!
# Sizes and seek pointers

Sizes stay within the limit whatever the offsets are.  An offset stays between
a lower bound and the size of its file, as long as `fs_truncate` moves it to a
place in between: only there is an `off_t` stored in an `int` unchecked.
-/

namespace EC440.FileSystem

open Linked Outcome

variable {tolerance : Tolerance} {state after : State} {chart chart' : Slot → List BlockIndex}
  {call : Call} {code : Int32}

/-! ## Integer conversions -/

theorem toSize_of_nonneg {value : Int} (nonneg : 0 ≤ value) (small : value < 2 ^ 64) :
    toSize value = value.toNat := by
  rw [toSize, Int.emod_eq_of_lt nonneg small]

theorem toSize_emod (value : Int) : (toSize value : Int) % 2 ^ 32 = value % 2 ^ 32 := by
  rw [toSize]
  omega

theorem toInt_ofInt_emod (value : Int) : (Int32.ofInt value).toInt % 2 ^ 32 = value % 2 ^ 32 := by
  rw [Int32.toInt_ofInt]
  exact Int.bmod_emod

/-- An `int` that takes a value within the file size limit, up to its width, takes its residue. -/
theorem toInt_ofInt_of_mod {value : Int} (small : toSize value % 2 ^ 32 ≤ maxFSize) :
    (Int32.ofInt value).toInt = (toSize value % 2 ^ 32 : Nat) := by
  have same := toInt_ofInt_emod value
  have upper := (Int32.ofInt value).toInt_lt
  have lower := (Int32.ofInt value).le_toInt
  rw [← toSize_emod value] at same
  simp only [maxFSize] at small
  omega

/-- An `int` that takes a value within the file size limit loses nothing. -/
theorem toInt_ofInt_of_toSize {value : Int} (small : toSize value ≤ maxFSize) :
    (Int32.ofInt value).toInt = toSize value := by
  have residue : toSize value % 2 ^ 32 = toSize value := by
    simp only [maxFSize] at small
    omega
  have exact_ := toInt_ofInt_of_mod (residue.symm ▸ small)
  rwa [residue] at exact_

theorem toInt_ofInt_of_within {value : Int} (nonneg : 0 ≤ value) (within : value ≤ maxFSize) :
    (Int32.ofInt value).toInt = value := by
  have exact_ : toSize value = value.toNat :=
    toSize_of_nonneg nonneg (by simp only [maxFSize] at within; omega)
  rw [toInt_ofInt_of_toSize (by omega), exact_]
  omega

/-! ## Where a write ends -/

theorem clampCount_emod {offset : Int32} {nbyte : UInt64}
    (large : toSize (offset.toInt + nbyte.toNat) > maxFSize) :
    (clampCount offset nbyte : Int) % 2 ^ 32 = (maxFSize - offset.toInt) % 2 ^ 32 := by
  rw [clampCount, if_pos large, toSize_emod, toInt_ofInt_emod]

/-- From any offset, a write ends within the limit as far as an `int` can tell. -/
theorem writeStop_cases (offset : Int32) (nbyte : UInt64) :
    writeStop offset nbyte ≤ maxFSize ∨ writeStop offset nbyte % 2 ^ 32 = maxFSize := by
  by_cases large : toSize (offset.toInt + nbyte.toNat) > maxFSize
  · right
    have count := clampCount_emod large
    have stop := toSize_emod (offset.toInt + clampCount offset nbyte)
    rw [writeStop]
    simp only [maxFSize] at count ⊢
    omega
  · left
    rw [writeStop, clampCount, if_neg large]
    exact not_lt.mp large

theorem writeStop_mod (offset : Int32) (nbyte : UInt64) :
    writeStop offset nbyte % 2 ^ 32 ≤ maxFSize := by
  rcases writeStop_cases offset nbyte with small | full
  · exact (Nat.mod_le _ _).trans small
  · exact full.le

theorem writeStop_le {offset : Int32} (nonneg : 0 ≤ offset.toInt)
    (within : offset.toInt ≤ maxFSize) (nbyte : UInt64) : writeStop offset nbyte ≤ maxFSize := by
  unfold writeStop clampCount
  by_cases large : toSize (offset.toInt + nbyte.toNat) > maxFSize
  · have rest : toSize ((maxFSize : Int) - offset.toInt) = (maxFSize - offset.toInt).toNat :=
      toSize_of_nonneg (by omega) (by simp only [maxFSize]; omega)
    have exact_ : (Int32.ofInt ((maxFSize : Int) - offset.toInt)).toInt =
        maxFSize - offset.toInt := toInt_ofInt_of_within (by omega) (by omega)
    rw [if_pos large, exact_, rest, Int.toNat_of_nonneg (by omega), add_sub_cancel,
      toSize_of_nonneg (by omega) (by decide), Int.toNat_natCast]
  · rw [if_neg large]
    exact not_lt.mp large

theorem writtenOffset_toInt {offset : Int32} (nonneg : 0 ≤ offset.toInt)
    (within : offset.toInt ≤ maxFSize) (nbyte : UInt64) :
    (Int32.ofInt (offset.toInt + clampCount offset nbyte)).toInt = writeStop offset nbyte :=
  toInt_ofInt_of_toSize (writeStop_le nonneg within nbyte)

theorem clampCount_eq {offset : Int32} {nbyte : UInt64} (nonneg : 0 ≤ offset.toInt)
    (within : offset.toInt + nbyte.toNat ≤ maxFSize) :
    clampCount offset nbyte = nbyte.toNat ∧
      writeStop offset nbyte = (offset.toInt + nbyte.toNat).toNat := by
  have exact_ : toSize (offset.toInt + nbyte.toNat) = (offset.toInt + nbyte.toNat).toNat :=
    toSize_of_nonneg (by omega) (by simp only [maxFSize] at within; omega)
  have count : clampCount offset nbyte = nbyte.toNat := if_neg (by omega)
  exact ⟨count, by rw [writeStop, count, exact_]⟩

theorem sizeAfter_toInt {size : Int32} {stop : Nat} (nonneg : 0 ≤ size.toInt)
    (within : stop ≤ maxFSize) : (sizeAfter size stop).toInt = max size.toInt stop := by
  have bound := size.toInt_lt
  have exact_ : toSize size.toInt = size.toInt.toNat := toSize_of_nonneg nonneg (by omega)
  simp only [maxFSize] at within
  unfold sizeAfter
  by_cases grown : stop > toSize size.toInt
  · rw [if_pos grown, Int32.toInt_ofNat_of_lt (by omega)]
    omega
  · rw [if_neg grown]
    omega

/-- A write never shrinks the file, and leaves its size and its own offset within the limit, from
wherever it starts. -/
theorem written_bounds {size : Int32} (nonneg : 0 ≤ size.toInt) (within : size.toInt ≤ maxFSize)
    (offset : Int32) (nbyte : UInt64) :
    0 ≤ (Int32.ofInt (offset.toInt + clampCount offset nbyte)).toInt ∧
      (Int32.ofInt (offset.toInt + clampCount offset nbyte)).toInt ≤
        (sizeAfter size (writeStop offset nbyte)).toInt ∧
      size.toInt ≤ (sizeAfter size (writeStop offset nbyte)).toInt ∧
      (sizeAfter size (writeStop offset nbyte)).toInt ≤ maxFSize := by
  have small := writeStop_mod offset nbyte
  have position : (Int32.ofInt (offset.toInt + clampCount offset nbyte)).toInt =
      (writeStop offset nbyte % 2 ^ 32 : Nat) := toInt_ofInt_of_mod small
  have stored : (Int32.ofNat (writeStop offset nbyte)).toInt =
      (writeStop offset nbyte % 2 ^ 32 : Nat) := by
    have same := toInt_ofInt_emod (writeStop offset nbyte)
    have upper := (Int32.ofInt (writeStop offset nbyte)).toInt_lt
    have lower := (Int32.ofInt (writeStop offset nbyte)).le_toInt
    rw [← Int32.ofInt_eq_ofNat]
    simp only [maxFSize] at small
    omega
  have exact_ : toSize size.toInt = size.toInt.toNat :=
    toSize_of_nonneg nonneg (by simp only [maxFSize] at within; omega)
  rw [position, sizeAfter]
  by_cases grown : writeStop offset nbyte > toSize size.toInt
  · rw [if_pos grown, stored]
    rcases writeStop_cases offset nbyte with below | full
    · have residue : writeStop offset nbyte % 2 ^ 32 = writeStop offset nbyte := by
        simp only [maxFSize] at below
        omega
      omega
    · omega
  · rw [if_neg grown]
    have residue := Nat.mod_le (writeStop offset nbyte) (2 ^ 32)
    omega

/-- Reading moves the offset forward, but not past the end. -/
theorem readOutcome_offset {size offset : Int32} (nonneg : 0 ≤ size.toInt)
    (within : size.toInt ≤ maxFSize) (nbyte : UInt64) :
    0 ≤ (readOutcome size offset nbyte).2.toInt ∧
      (readOutcome size offset nbyte).2.toInt ≤ size.toInt := by
  have exact_ : toSize size.toInt = size.toInt.toNat :=
    toSize_of_nonneg nonneg (by simp only [maxFSize] at within; omega)
  unfold readOutcome
  by_cases past : toSize (offset.toInt + nbyte.toNat) > toSize size.toInt
  · rw [if_pos past]
    exact ⟨nonneg, le_rfl⟩
  · rw [if_neg past]
    change 0 ≤ (Int32.ofInt (offset.toInt + nbyte.toNat)).toInt ∧
      (Int32.ofInt (offset.toInt + nbyte.toNat)).toInt ≤ size.toInt
    rw [toInt_ofInt_of_toSize (by omega)]
    omega

/-! ## Entries and descriptors after a call -/

theorem created_entry_of_ne {slot other : Slot} {fresh : BlockIndex} {name : CString}
    (distinct : other ≠ slot) : (state.created slot fresh name).dir other = state.dir other := by
  simp [State.created, distinct]

theorem created_size {slot : Slot} {fresh : BlockIndex} {name : CString} :
    ((state.created slot fresh name).dir slot).size = 0 := by
  simp [State.created]

theorem created_denotes (sound : Sound state chart) {slot other : Slot} {fresh : BlockIndex}
    {name : CString} {descriptor : Descriptor} (free : fresh ∈ freeBlocks state.fat)
    (denotes : Denotes (state.created slot fresh name) descriptor other) :
    other ≠ slot ∧ Denotes state descriptor other := by
  obtain ⟨isOpen, used, head⟩ := denotes
  have distinct : other ≠ slot := by
    rintro rfl
    have file : (state.fildes descriptor).file = fatNaming.ref fresh := by
      simpa [State.created] using head.symm
    have positive : 0 < state.openCount (fatNaming.ref fresh) :=
      openCount_pos_iff.mpr ⟨descriptor, isOpen, file⟩
    rw [sound.openCount_free free] at positive
    exact lt_irrefl 0 positive
  rw [State.Used, created_entry_of_ne distinct] at used
  rw [created_entry_of_ne distinct] at head
  exact ⟨distinct, isOpen, used, head⟩

theorem relink_size {slot other : Slot} {refCnt : Int32} {descriptor : Descriptor}
    {fd : FileDescriptor} :
    ((state.relink slot refCnt descriptor fd).dir other).size = (state.dir other).size := by
  by_cases same : other = slot
  · subst same
    simp [State.relink]
  · simp [State.relink, same]

theorem relink_fildes {slot : Slot} {refCnt : Int32} {descriptor : Descriptor}
    {fd : FileDescriptor} :
    (state.relink slot refCnt descriptor fd).fildes descriptor = fd := by
  simp [State.relink]

theorem relink_fildes_of_ne {slot : Slot} {refCnt : Int32} {descriptor other : Descriptor}
    {fd : FileDescriptor} (distinct : other ≠ descriptor) :
    (state.relink slot refCnt descriptor fd).fildes other = state.fildes other := by
  simp [State.relink, distinct]

theorem relink_denotes_of_ne {slot target : Slot} {refCnt : Int32} {descriptor other : Descriptor}
    {fd : FileDescriptor} (distinct : other ≠ descriptor)
    (denotes : Denotes (state.relink slot refCnt descriptor fd) other target) :
    Denotes state other target := by
  obtain ⟨isOpen, used, head⟩ := denotes
  rw [State.Open, relink_fildes_of_ne distinct] at isOpen
  rw [relink_fildes_of_ne distinct, (relink_entry _ _ _ _ _ _).2.2] at head
  exact ⟨isOpen, relink_used.mp used, head⟩

theorem deleted_entry_of_ne {slot other : Slot} {blocks : List BlockIndex}
    (distinct : other ≠ slot) : (state.deleted slot blocks).dir other = state.dir other := by
  simp [State.deleted, distinct]

theorem deleted_used {slot other : Slot} {blocks : List BlockIndex}
    (used : (state.deleted slot blocks).Used other) : other ≠ slot ∧ state.Used other := by
  have distinct : other ≠ slot := by
    rintro rfl
    simp [State.Used, State.deleted] at used
  rw [State.Used, deleted_entry_of_ne distinct] at used
  exact ⟨distinct, used⟩

theorem moved_fildes_self {descriptor : Descriptor} {offset : Int32} :
    ((state.moved descriptor offset).fildes descriptor).offset = offset := by
  simp [State.moved]

theorem moved_fildes_of_ne {descriptor other : Descriptor} {offset : Int32}
    (distinct : other ≠ descriptor) :
    (state.moved descriptor offset).fildes other = state.fildes other := by
  simp [State.moved, distinct]

theorem moved_denotes {descriptor reader : Descriptor} {offset : Int32} {slot : Slot}
    (denotes : Denotes (state.moved descriptor offset) reader slot) :
    Denotes state reader slot := by
  obtain ⟨isOpen, used, head⟩ := denotes
  have same := moved_fildes state descriptor offset reader
  rw [State.Open, same.1] at isOpen
  exact ⟨isOpen, used, head.trans same.2⟩

section Written

variable {garbage : Nat → Buffer} {slot : Slot} {descriptor : Descriptor} {buf : Nat → UInt8}
  {nbyte : UInt64} {fat : Fat} {blocks added : List BlockIndex}

theorem written_entry (other : Slot) :
    ((state.written garbage slot descriptor buf nbyte fat blocks).dir other).used =
        (state.dir other).used ∧
      ((state.written garbage slot descriptor buf nbyte fat blocks).dir other).head =
        (state.dir other).head := by
  by_cases same : other = slot
  · subst same
    simp [State.written, State.stored]
  · simp [State.written, State.stored, same]

theorem written_entry_of_ne {other : Slot} (distinct : other ≠ slot) :
    (state.written garbage slot descriptor buf nbyte fat blocks).dir other = state.dir other := by
  simp [State.written, State.stored, distinct]

theorem written_size :
    ((state.written garbage slot descriptor buf nbyte fat blocks).dir slot).size =
      sizeAfter (state.dir slot).size (writeStop (state.fildes descriptor).offset nbyte) := by
  simp [State.written, State.stored]

theorem written_denotes {reader : Descriptor} {other : Slot}
    (denotes : Denotes (state.written garbage slot descriptor buf nbyte fat blocks) reader other) :
    Denotes state reader other := by
  obtain ⟨isOpen, used, head⟩ := denotes
  have fd := moved_fildes state descriptor (Int32.ofInt ((state.fildes descriptor).offset.toInt +
    clampCount (state.fildes descriptor).offset nbyte)) reader
  refine ⟨?_, ?_, (written_entry other).2.symm.trans (head.trans fd.2)⟩
  · rw [State.Open, ← fd.1]
    exact isOpen
  · rw [State.Used, ← (written_entry other).1]
    exact used

theorem written_size_of_ne {other : Slot} (distinct : other ≠ slot) :
    ((state.written garbage slot descriptor buf nbyte fat blocks).dir other).size =
      (state.dir other).size := by
  rw [written_entry_of_ne distinct]

theorem written_offset :
    ((state.written garbage slot descriptor buf nbyte fat blocks).fildes descriptor).offset =
      Int32.ofInt ((state.fildes descriptor).offset.toInt +
        clampCount (state.fildes descriptor).offset nbyte) := by
  simp [State.written, State.stored]

theorem written_fildes_of_ne {reader : Descriptor} (distinct : reader ≠ descriptor) :
    (state.written garbage slot descriptor buf nbyte fat blocks).fildes reader =
      state.fildes reader := by
  simp [State.written, State.stored, distinct]

end Written

/-! ## Sizes -/

/-- Every file has a size within the limit. -/
def Sized (state : State) : Prop :=
  ∀ slot, state.Used slot →
    0 ≤ (state.dir slot).size.toInt ∧ (state.dir slot).size.toInt ≤ maxFSize

theorem Sized.created (sized : Sized state) {slot : Slot} {fresh : BlockIndex} {name : CString} :
    Sized (state.created slot fresh name) := by
  intro other used
  by_cases same : other = slot
  · subst same
    rw [created_size]
    exact ⟨le_rfl, by decide⟩
  · rw [State.Used, created_entry_of_ne same] at used
    rw [created_entry_of_ne same]
    exact sized other used

theorem Sized.relink (sized : Sized state) {slot : Slot} {refCnt : Int32}
    {descriptor : Descriptor} {fd : FileDescriptor} :
    Sized (state.relink slot refCnt descriptor fd) := by
  intro other used
  rw [relink_size]
  exact sized other (relink_used.mp used)

theorem Sized.deleted (sized : Sized state) {slot : Slot} {blocks : List BlockIndex} :
    Sized (state.deleted slot blocks) := by
  intro other used
  obtain ⟨distinct, used⟩ := deleted_used used
  rw [deleted_entry_of_ne distinct]
  exact sized other used

theorem Sized.written {garbage : Nat → Buffer} {slot : Slot} {descriptor : Descriptor}
    {buf : Nat → UInt8} {nbyte : UInt64} {fat : Fat} {blocks : List BlockIndex}
    (sized : Sized state) (denotes : Denotes state descriptor slot) :
    Sized (state.written garbage slot descriptor buf nbyte fat blocks) := by
  intro other used
  rw [State.Used, (written_entry other).1] at used
  by_cases same : other = slot
  · subst same
    rw [written_size]
    obtain ⟨nonneg, within⟩ := sized other used
    have bounds := written_bounds nonneg within (state.fildes descriptor).offset nbyte
    exact ⟨nonneg.trans bounds.2.2.1, bounds.2.2.2⟩
  · rw [written_size_of_ne same]
    exact sized other used

theorem Effect.sized (effect : Effect state chart call code after chart') (sized : Sized state) :
    Sized after := by
  cases effect with
  | idle => exact sized
  | created => exact sized.created
  | opened => exact sized.relink
  | closed => exact sized.relink
  | deleted => exact sized.deleted
  | sought | read | truncated => exact sized
  | written _ denotes => exact sized.written denotes

/-! ## Offsets -/

/-- Offsets lie between a lower bound and the size of their file. -/
structure Within (lower : Int) (state : State) : Prop where
  size : Sized state
  offset : ∀ descriptor slot, Denotes state descriptor slot →
    lower ≤ (state.fildes descriptor).offset.toInt ∧
      (state.fildes descriptor).offset.toInt ≤ (state.dir slot).size.toInt

/-- The offset that `fs_truncate` stores when it shortens the file of a descriptor. -/
def CutsWithin (lower : Int) (state : State) : Call → Prop
  | .truncate fildesI length =>
      ∀ (descriptor : Descriptor) (slot : Slot), fildesI = descriptor.val →
        Denotes state descriptor slot → length.toInt ≤ (state.dir slot).size.toInt →
          lower ≤ (Int32.ofInt length.toInt).toInt ∧
            (Int32.ofInt length.toInt).toInt ≤ (state.dir slot).size.toInt
  | _ => True

namespace Within

variable {lower : Int}

theorem relink (within : Within lower state) (start : lower ≤ 0) {slot : Slot} {refCnt : Int32}
    {descriptor : Descriptor} {fd : FileDescriptor} (rewound : fd.used ≠ 0 → fd.offset = 0) :
    Within lower (state.relink slot refCnt descriptor fd) := by
  refine ⟨within.size.relink, fun other target denotes => ?_⟩
  rw [relink_size]
  by_cases same : other = descriptor
  · subst same
    have isOpen := denotes.isOpen
    rw [State.Open, relink_fildes] at isOpen
    rw [relink_fildes, rewound isOpen]
    exact ⟨start, (within.size target (relink_used.mp denotes.used)).1⟩
  · rw [relink_fildes_of_ne same]
    exact within.offset other target (relink_denotes_of_ne same denotes)

theorem moved (within : Within lower state) (sound : Sound state chart) {slot : Slot}
    {descriptor : Descriptor} {offset : Int32} (denotes : Denotes state descriptor slot)
    (inside : lower ≤ offset.toInt ∧ offset.toInt ≤ (state.dir slot).size.toInt) :
    Within lower (state.moved descriptor offset) := by
  refine ⟨within.size, fun other target denotes' => ?_⟩
  have before := moved_denotes denotes'
  by_cases same : other = descriptor
  · subst same
    obtain rfl := before.unique sound denotes
    rw [moved_fildes_self]
    exact inside
  · rw [moved_fildes_of_ne same]
    exact within.offset other target before

theorem created (within : Within lower state) (sound : Sound state chart) {slot : Slot}
    {fresh : BlockIndex} {name : CString} (free : fresh ∈ freeBlocks state.fat) :
    Within lower (state.created slot fresh name) := by
  refine ⟨within.size.created, fun descriptor other denotes => ?_⟩
  obtain ⟨distinct, before⟩ := created_denotes sound free denotes
  rw [created_entry_of_ne distinct]
  exact within.offset descriptor other before

theorem deleted (within : Within lower state) {slot : Slot} {blocks : List BlockIndex} :
    Within lower (state.deleted slot blocks) := by
  refine ⟨within.size.deleted, fun descriptor other denotes => ?_⟩
  obtain ⟨isOpen, used, head⟩ := denotes
  obtain ⟨distinct, used⟩ := deleted_used used
  rw [deleted_entry_of_ne distinct] at head ⊢
  exact within.offset descriptor other ⟨isOpen, used, head⟩

theorem written (within : Within lower state) (sound : Sound state chart) (start : lower ≤ 0)
    {garbage : Nat → Buffer} {slot : Slot} {descriptor : Descriptor} {buf : Nat → UInt8}
    {nbyte : UInt64} {fat : Fat} {blocks : List BlockIndex}
    (denotes : Denotes state descriptor slot) :
    Within lower (state.written garbage slot descriptor buf nbyte fat blocks) := by
  refine ⟨within.size.written denotes, fun reader other denotes' => ?_⟩
  have before := written_denotes denotes'
  obtain ⟨nonneg, limit⟩ := within.size slot denotes.used
  have bounds := written_bounds nonneg limit (state.fildes descriptor).offset nbyte
  by_cases equal : reader = descriptor
  · subst equal
    obtain rfl := before.unique sound denotes
    rw [written_offset, written_size]
    exact ⟨start.trans bounds.1, bounds.2.1⟩
  · have old := within.offset reader other before
    rw [written_fildes_of_ne equal]
    by_cases same : other = slot
    · subst same
      rw [written_size]
      exact ⟨old.1, old.2.trans bounds.2.2.1⟩
    · rw [written_size_of_ne same]
      exact old

end Within

/-! ## One call -/

/-- A shortened file keeps its size, and the offset moves down to the new length. -/
theorem fsTruncate_cases {garbage : Nat → Buffer} {fildesI : Int} {length : Int64}
    (sound : Sound state chart)
    (done : fsTruncate tolerance garbage state fildesI length = .ok (code, after)) :
    code = -1 ∧ after = state ∨
    ∃ (descriptor : Descriptor) (slot : Slot), fildesI = descriptor.val ∧
      Denotes state descriptor slot ∧ length.toInt ≤ (state.dir slot).size.toInt ∧ code = 0 ∧
      after.dir = state.dir ∧ after.fildes = (state.moved descriptor
        (offsetAfter (state.fildes descriptor).offset length)).fildes := by
  rcases sound.fildes_cases fildesI with ⟨descriptor, slot, rfl, denotes⟩ |
    ⟨descriptor, rfl, closed⟩ | stopped
  · by_cases within : length.toInt ≤ (state.dir slot).size.toInt
    · rcases fsTruncate_open sound denotes garbage within with ⟨-, stopped⟩ |
        ⟨kept, last, tail, -, -, returns⟩
      · rw [stopped] at done
        cases done
      · rcases checkCopy_cases tolerance 1 length.toInt (leftover length) with passed | stopped
        · rw [returns, passed] at done
          cases done
          exact .inr ⟨descriptor, slot, rfl, denotes, within, rfl, rfl, rfl⟩
        · rw [returns, stopped] at done
          cases done
    · rw [fsTruncate_long sound denotes garbage (not_le.mp within)] at done
      cases done
      exact .inl ⟨rfl, rfl⟩
  · rw [fsTruncate_closed closed garbage length] at done
    cases done
    exact .inl ⟨rfl, rfl⟩
  · simp only [fsTruncate, stopped, bind, Except.bind] at done
    cases done

theorem Effect.within {lower : Int} (sound : Sound state chart) (start : lower ≤ 0)
    (within : Within lower state) (effect : Effect state chart call code after chart')
    (notTruncate : ∀ fildesI length, call ≠ .truncate fildesI length) : Within lower after := by
  cases effect with
  | idle => exact within
  | created _ _ _ free => exact within.created sound free
  | opened => exact within.relink start fun _ => rfl
  | closed => exact within.relink start fun isOpen => absurd rfl isOpen
  | deleted => exact within.deleted
  | sought denotes lower upper =>
      refine within.moved sound denotes ?_
      rw [toInt_ofInt_of_within lower (upper.trans (within.size _ denotes.used).2)]
      exact ⟨start.trans lower, upper⟩
  | @read slot descriptor nbyte denotes =>
      obtain ⟨nonneg, limit⟩ := within.size slot denotes.used
      have inside : 0 ≤ (readOutcome (state.dir slot).size (state.fildes descriptor).offset
          nbyte).2.toInt ∧ _ := readOutcome_offset nonneg limit nbyte
      exact within.moved sound denotes ⟨start.trans inside.1, inside.2⟩
  | written _ denotes => exact within.written sound start denotes
  | truncated => exact absurd rfl (notTruncate _ _)

/-- A call keeps the offsets within their bounds if `fs_truncate` stores one in between. -/
theorem exec_within {lower : Int} {garbage : Nat → Buffer} (sound : Sound state chart)
    (start : lower ≤ 0) (within : Within lower state) (cuts : CutsWithin lower state call)
    (done : exec tolerance garbage state call = .ok (code, after)) : Within lower after := by
  by_cases truncate : ∃ fildesI length, call = .truncate fildesI length
  · obtain ⟨fildesI, length, rfl⟩ := truncate
    rcases fsTruncate_cases sound done with ⟨-, rfl⟩ |
      ⟨descriptor, slot, rfl, denotes, short, -, dir, fildes⟩
    · exact within
    · have inside : lower ≤ (offsetAfter (state.fildes descriptor).offset length).toInt ∧
          (offsetAfter (state.fildes descriptor).offset length).toInt ≤
            (state.dir slot).size.toInt := by
        unfold offsetAfter
        split
        · exact cuts descriptor slot rfl denotes short
        · exact within.offset descriptor slot denotes
      have moved := within.moved sound denotes inside
      have used : ∀ other, after.Used other → state.Used other := fun other used => by
        rwa [State.Used, dir] at used
      refine ⟨fun other isUsed => ?_, fun reader other denotes' => ?_⟩
      · rw [dir]
        exact moved.size other (used other isUsed)
      · obtain ⟨isOpen, isUsed, head⟩ := denotes'
        rw [State.Open, fildes] at isOpen
        rw [dir, fildes] at head
        rw [dir, fildes]
        exact moved.offset reader other ⟨isOpen, used other isUsed, head⟩
  · obtain ⟨chart', effect⟩ := exec_effect sound done
    exact effect.within sound start within fun fildesI length same =>
      truncate ⟨fildesI, length, same⟩

/-- When `fs_truncate` stores an offset out of bounds, the descriptor is left there. -/
theorem cutsWithin_of_exec {garbage : Nat → Buffer} (sound : Sound state chart)
    (before : Within 0 state) (within : Within 0 after)
    (done : exec tolerance garbage state call = .ok (code, after)) : CutsWithin 0 state call := by
  cases call with
  | truncate fildesI length =>
      rintro descriptor slot rfl denotes short
      rcases fsTruncate_open sound denotes garbage short with ⟨-, stopped⟩ |
        ⟨kept, last, tail, -, -, returns⟩
      · rw [exec, stopped] at done
        cases done
      · rcases checkCopy_cases tolerance 1 length.toInt (leftover length) with passed | stopped
        · rw [exec, returns, passed] at done
          cases done
          by_cases nonneg : 0 ≤ length.toInt
          · rw [toInt_ofInt_of_within nonneg (short.trans (before.size slot denotes.used).2)]
            exact ⟨nonneg, short⟩
          · have down : (state.fildes descriptor).offset.toInt > length.toInt := by
              have position := (before.offset descriptor slot denotes).1
              omega
            have inside := within.offset descriptor slot ⟨?_, denotes.used, ?_⟩
            · simpa [State.truncated, offsetAfter, down] using inside
            · simpa [State.Open, State.truncated] using denotes.isOpen
            · simpa [State.truncated] using denotes.head
        · rw [exec, returns, stopped] at done
          cases done
  | _ => trivial

/-! ## Seek pointers of a session -/

/-- Every open descriptor belongs to a file and stands inside it. -/
def InsideFiles (state : State) : Prop :=
  ∀ descriptor, state.Open descriptor → ∃ slot, Denotes state descriptor slot ∧
    0 ≤ (state.fildes descriptor).offset.toInt ∧
    (state.fildes descriptor).offset.toInt ≤ (state.dir slot).size.toInt ∧
    (state.dir slot).size.toInt ≤ maxFSize

theorem Within.insideFiles (within : Within 0 state) (sound : Sound state chart) :
    InsideFiles state := by
  intro descriptor isOpen
  obtain ⟨slot, denotes⟩ := sound.denoted isOpen
  obtain ⟨nonneg, inside⟩ := within.offset descriptor slot denotes
  exact ⟨slot, denotes, nonneg, inside, (within.size slot denotes.used).2⟩

theorem InsideFiles.within (inside : InsideFiles state) (sound : Sound state chart)
    (sized : Sized state) : Within 0 state := by
  refine ⟨sized, fun descriptor slot denotes => ?_⟩
  obtain ⟨other, denotes', nonneg, upper, -⟩ := inside descriptor denotes.isOpen
  obtain rfl := denotes'.unique sound denotes
  exact ⟨nonneg, upper⟩

theorem FreshMount.within (fresh : FreshMount tolerance state) (lower : Int) :
    Within lower state where
  size slot used := absurd used (fresh.unused slot)
  offset _ slot denotes := absurd denotes.used (fresh.unused slot)

theorem Session.within {lower : Int} {start : State} (fresh : FreshMount tolerance start)
    (lowerStart : lower ≤ 0) (session : Session tolerance (CutsWithin lower) start state) :
    ∃ chart, Sound state chart ∧ Within lower state := by
  obtain ⟨chart, sound⟩ := fresh.start.sound
  refine invariant_of_reachable (fun state => ∃ chart, Sound state chart ∧ Within lower state) ?_
    ⟨chart, sound, fresh.within lower⟩ session
  rintro before after ⟨chart, sound, within⟩ ⟨garbage, call, code, cuts, done⟩
  obtain ⟨chart', effect⟩ := exec_effect sound done
  exact ⟨chart', effect.sound sound, exec_within sound lowerStart within cuts done⟩

/-- In every session whose truncations store offsets inside the file, all descriptors stand
inside their files; the first truncation that does not moves its descriptor out. -/
theorem seekPointers {start : State} (fresh : FreshMount tolerance start)
    (session : Session tolerance (CutsWithin 0) start state) :
    InsideFiles state ∧ ∀ garbage call code after,
      exec tolerance garbage state call = .ok (code, after) →
      (InsideFiles after ↔ CutsWithin 0 state call) := by
  obtain ⟨chart, sound, within⟩ := Session.within fresh le_rfl session
  refine ⟨within.insideFiles sound, fun garbage call code after done => ?_⟩
  obtain ⟨chart', effect⟩ := exec_effect sound done
  constructor
  · intro inside
    exact cutsWithin_of_exec sound within
      (inside.within (effect.sound sound) (effect.sized within.size)) done
  · intro cuts
    exact (exec_within sound le_rfl within cuts done).insideFiles (effect.sound sound)

theorem seekPointers_firstFile : ∃ start opened, FreshMount mountOnly start ∧
    Session mountOnly (CutsWithin 0) start opened ∧ opened.Open 0 ∧ InsideFiles opened := by
  obtain ⟨start, opened, _, fresh, session, -, -, denotes, -⟩ :=
    exists_firstFile (by decide : mountOnly .fildesReset = true)
  have cuts : Session mountOnly (CutsWithin 0) start opened := by
    refine session.weaken fun _ call first => ?_
    rcases first with rfl | rfl <;> trivial
  exact ⟨start, opened, fresh, cuts, denotes.isOpen, (seekPointers fresh cuts).1⟩

/-- A run also survives accesses outside the buffers on the heap. -/
def heapToo : Tolerance := fun access => access = .fildesReset ∨ access = .heap

/-- Cutting the first file to a length that is at most a page below 0 stores the length. -/
theorem truncate_firstFile {length : Int64} {opened : State} (sound : Sound opened chart)
    (listed : chart 63 = [10]) (denotes : Denotes opened 0 63)
    (size : (opened.dir 63).size = 0) (offset : (opened.fildes 0).offset = 0)
    (negative : length.toInt < 0) (steps : truncateSteps length = 0) :
    ∃ after, exec heapToo (fun _ _ => 0) opened (.truncate 0 length) = .ok (0, after) ∧
      after.dir = opened.dir ∧
      after.fildes = (opened.moved 0 (Int32.ofInt length.toInt)).fildes := by
  have within : length.toInt ≤ (opened.dir 63).size.toInt := by
    rw [size]
    exact negative.le
  have down : offsetAfter (opened.fildes 0).offset length = Int32.ofInt length.toInt := by
    rw [offsetAfter, offset]
    exact if_pos negative
  rcases fsTruncate_open sound denotes (fun _ _ => 0) within with ⟨short, -⟩ |
    ⟨kept, last, tail, -, -, returns⟩
  · rw [listed, steps] at short
    cases short
  · have passed : checkCopy heapToo 1 length.toInt (leftover length) = .ok () := by
      rw [checkCopy, if_neg (by omega)]
      rfl
    rw [passed, down] at returns
    exact ⟨_, returns, rfl, rfl⟩

/-- Cutting the new empty file to the length -4096 puts its descriptor before its start. -/
theorem seekPointers_broken : ∃ start opened after, FreshMount heapToo start ∧
    Session heapToo (fun _ _ => True) start opened ∧
    exec heapToo (fun _ _ => 0) opened (.truncate 0 (-4096)) = .ok (0, after) ∧
    Session heapToo (fun _ _ => True) start after ∧ after.Open 0 ∧
    (after.fildes 0).offset.toInt = -4096 ∧ ¬InsideFiles after := by
  obtain ⟨start, opened, chart, fresh, session, sound, rfl, denotes, size, offset⟩ :=
    exists_firstFile (by decide : heapToo .fildesReset = true)
  obtain ⟨after, done, -, fildes⟩ := truncate_firstFile sound (Function.update_self _ _ _) denotes
    size offset (by decide : (-4096 : Int64).toInt < 0) (by decide)
  have every : Session heapToo (fun _ _ => True) start opened := session.weaken fun _ _ _ => trivial
  have below : (after.fildes 0).offset.toInt = -4096 := by
    rw [fildes, moved_fildes_self]
    decide
  have isOpen : after.Open 0 := by
    rw [State.Open, fildes, (moved_fildes opened 0 _ 0).1]
    exact denotes.isOpen
  refine ⟨start, opened, after, fresh, every, done,
    every.tail ⟨fun _ _ => 0, _, 0, trivial, done⟩, isOpen, below, fun inside => ?_⟩
  obtain ⟨_, -, nonneg, -⟩ := inside 0 isOpen
  rw [below] at nonneg
  cases nonneg

end EC440.FileSystem
