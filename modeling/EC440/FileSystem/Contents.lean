import EC440.FileSystem.Offsets

/-!
# Contents of files

Byte `position` of a file is stored in block `position / BLOCK_SIZE` of its
chain.  Reading returns these bytes and writing replaces them, as far as the
chain reaches.  Sizes, offsets and chain lengths stay in step as long as files
only grow, which `Fitting` records.
-/

namespace EC440.FileSystem

open Linked Outcome

variable {tolerance : Tolerance} {state after : State} {chart chart' : Slot → List BlockIndex}
  {call : Call} {code : Int32}

/-! ## Bytes of a chain -/

theorem mod_blockSize (position : Nat) : position % blockSize < blockSize :=
  Nat.mod_lt _ (by decide)

def fileByte (image : BlockIndex → Block) (blocks : List BlockIndex) (position : Nat) :
    Option UInt8 :=
  (blocks[position / blockSize]?).map fun block =>
    image block ⟨position % blockSize, mod_blockSize position⟩

/-- The byte of the file `slot` at a position. -/
def State.byte? (state : State) (slot : Slot) (position : Nat) : Option UInt8 :=
  fileByte state.device.image (state.chain slot) position

theorem fileByte_eq_some (image : BlockIndex → Block) {blocks : List BlockIndex} {position : Nat}
    (inside : position < blockSize * blocks.length) :
    ∃ byte, fileByte image blocks position = some byte := by
  have index : position / blockSize < blocks.length := Nat.div_lt_of_lt_mul inside
  exact ⟨_, by rw [fileByte, List.getElem?_eq_getElem index, Option.map_some]⟩

theorem fileByte_congr {image image' : BlockIndex → Block} {blocks : List BlockIndex}
    (same : ∀ block ∈ blocks, image' block = image block) (position : Nat) :
    fileByte image' blocks position = fileByte image blocks position := by
  unfold fileByte
  cases found : blocks[position / blockSize]? with
  | none => rfl
  | some block =>
      rw [Option.map_some, Option.map_some, same block (List.mem_of_getElem? found)]

theorem fileByte_append {image : BlockIndex → Block} {blocks : List BlockIndex}
    {position : Nat} (added : List BlockIndex) (inside : position < blockSize * blocks.length) :
    fileByte image (blocks ++ added) position = fileByte image blocks position := by
  have index : position / blockSize < blocks.length := Nat.div_lt_of_lt_mul inside
  rw [fileByte, fileByte, List.getElem?_append_left index]

theorem fileByte_cons_of_lt {image : BlockIndex → Block} {block : BlockIndex}
    {rest : List BlockIndex} {position : Nat} (first : position < blockSize) :
    fileByte image (block :: rest) position = some (image block ⟨position, first⟩) := by
  simp only [fileByte, Nat.div_eq_of_lt first, List.getElem?_cons_zero, Option.map_some,
    Nat.mod_eq_of_lt first]

theorem fileByte_cons_add {image : BlockIndex → Block} {block : BlockIndex}
    {rest : List BlockIndex} (position : Nat) :
    fileByte image (block :: rest) (blockSize + position) = fileByte image rest position := by
  have index : (blockSize + position) / blockSize = position / blockSize + 1 :=
    Nat.add_div_left position (by decide)
  simp only [fileByte, index, List.getElem?_cons_succ, Nat.add_mod_left]

theorem position_succ (index position : Nat) :
    (index : Int) * blockSize + (blockSize + position : Nat) =
      (index + 1 : Nat) * blockSize + position := by
  push_cast
  ring

theorem loadBlocks_before {image : BlockIndex → Block} {blocks : List BlockIndex} {index : Nat}
    {buffer : Buffer} {offset : Int} (before : offset < index * blockSize) :
    loadBlocks image blocks index buffer offset = buffer offset := by
  induction blocks generalizing index buffer with
  | nil => rfl
  | cons block rest inductionHypothesis =>
      rw [loadBlocks, inductionHypothesis (by push_cast; linarith [Int.natCast_nonneg blockSize]),
        load_of_notMem fun inside => absurd inside.1 (not_le.mpr before)]

theorem loadBlocks_eq {image : BlockIndex → Block} {blocks : List BlockIndex} (index : Nat)
    (buffer : Buffer) {position : Nat} {byte : UInt8}
    (found : fileByte image blocks position = some byte) :
    loadBlocks image blocks index buffer (index * blockSize + position) = byte := by
  induction blocks generalizing index buffer position with
  | nil => simp [fileByte] at found
  | cons block rest inductionHypothesis =>
      rw [loadBlocks]
      by_cases first : position < blockSize
      · rw [loadBlocks_before (by push_cast; linarith [Int.ofNat_lt.mpr first]),
          load_of_mem (by omega) (by omega)]
        rw [fileByte_cons_of_lt first, Option.some.injEq] at found
        rw [← found]
        congr 2
        omega
      · obtain ⟨next, rfl⟩ := Nat.exists_eq_add_of_le (not_lt.mp first)
        rw [fileByte_cons_add] at found
        rw [position_succ]
        exact inductionHypothesis (index + 1) _ found

/-- Behind the chain the buffer of a read is not touched. -/
theorem loadBlocks_after {image : BlockIndex → Block} {blocks : List BlockIndex} (index : Nat)
    (buffer : Buffer) {offset : Int} (behind : (index + blocks.length : Nat) * blockSize ≤ offset) :
    loadBlocks image blocks index buffer offset = buffer offset := by
  induction blocks generalizing index buffer with
  | nil => rfl
  | cons block rest inductionHypothesis =>
      rw [List.length_cons] at behind
      push_cast at behind
      have width : (0 : Int) ≤ rest.length * blockSize := by positivity
      rw [loadBlocks, inductionHypothesis _ _ (by push_cast; linarith),
        load_of_notMem fun inside => by linarith [inside.2]]

theorem storeBlocks_eq {buffer : Buffer} {blocks : List BlockIndex} {index : Nat}
    {image : BlockIndex → Block} {position : Nat} (nodup : blocks.Nodup)
    (inside : position < blockSize * blocks.length) :
    fileByte (storeBlocks buffer blocks index image) blocks position =
      some (buffer (index * blockSize + position)) := by
  induction blocks generalizing index image position with
  | nil => simp at inside
  | cons block rest inductionHypothesis =>
      obtain ⟨absent, distinct⟩ := List.nodup_cons.mp nodup
      rw [storeBlocks]
      by_cases first : position < blockSize
      · rw [fileByte_cons_of_lt first, storeBlocks_of_notMem absent, Function.update_self]
        rfl
      · obtain ⟨next, rfl⟩ := Nat.exists_eq_add_of_le (not_lt.mp first)
        rw [List.length_cons, mul_add, mul_one] at inside
        rw [fileByte_cons_add, inductionHypothesis distinct (by omega), position_succ]

/-! ## Sessions in which files only grow -/

def Call.Grows : Call → Prop
  | .delete _ | .truncate _ _ => False
  | _ => True

/-- Sizes and offsets are in range, a chain is never longer than its size asks for, and a file
of one block that has outgrown it met a full disk. -/
structure Fitting (state : State) (chart : Slot → List BlockIndex) : Prop where
  size : ∀ slot, state.Used slot →
    0 ≤ (state.dir slot).size.toInt ∧ (state.dir slot).size.toInt ≤ maxFSize
  offset : ∀ descriptor slot, Denotes state descriptor slot →
    0 ≤ (state.fildes descriptor).offset.toInt ∧
      (state.fildes descriptor).offset.toInt ≤ (state.dir slot).size.toInt
  length : ∀ slot, state.Used slot →
    ((chart slot).length : Int) ≤ (state.dir slot).size.toInt / blockSize + 1
  full : ∀ slot, state.Used slot → (chart slot).length = 1 →
    (state.dir slot).size.toInt ≤ blockSize ∨ state.freeCount = 0
  tight : Tight state.fat chart

theorem freeCount_le (kept : ∀ block, after.fat block = 0 → state.fat block = 0) :
    after.freeCount ≤ state.freeCount := by
  refine Finset.card_le_card fun block free => ?_
  simp only [Finset.mem_filter, Finset.mem_univ, true_and] at free ⊢
  exact ⟨free.1, kept block free.2⟩

namespace Fitting

theorem within (fitting : Fitting state chart) : Within 0 state := ⟨fitting.size, fitting.offset⟩

theorem refile (fitting : Fitting state chart) (within : Within 0 after)
    (fat : after.fat = state.fat)
    (entry : ∀ slot, (after.dir slot).used = (state.dir slot).used ∧
      (after.dir slot).size = (state.dir slot).size) : Fitting after chart where
  size := within.size
  offset := within.offset
  length slot used := by
    rw [State.Used, (entry slot).1] at used
    rw [(entry slot).2]
    exact fitting.length slot used
  full slot used single := by
    rw [State.Used, (entry slot).1] at used
    rw [(entry slot).2, State.freeCount, fat]
    exact fitting.full slot used single
  tight := fat ▸ fitting.tight

theorem relink (fitting : Fitting state chart) {slot : Slot} {refCnt : Int32}
    {descriptor : Descriptor} {fd : FileDescriptor}
    (rewound : fd.used ≠ 0 → fd.offset = 0) :
    Fitting (state.relink slot refCnt descriptor fd) chart :=
  fitting.refile (fitting.within.relink le_rfl rewound) rfl fun _ =>
    ⟨(relink_entry _ _ _ _ _ _).1, relink_size⟩

theorem moved (fitting : Fitting state chart) (sound : Sound state chart) {slot : Slot}
    {descriptor : Descriptor} {offset : Int32} (denotes : Denotes state descriptor slot)
    (inside : 0 ≤ offset.toInt ∧ offset.toInt ≤ (state.dir slot).size.toInt) :
    Fitting (state.moved descriptor offset) chart :=
  fitting.refile (fitting.within.moved sound denotes inside) rfl fun _ => ⟨rfl, rfl⟩

theorem created (fitting : Fitting state chart) (sound : Sound state chart) {slot : Slot}
    {fresh : BlockIndex} {name : CString} (free : fresh ∈ freeBlocks state.fat)
    (tight : Tight (state.created slot fresh name).fat (Function.update chart slot [fresh])) :
    Fitting (state.created slot fresh name) (Function.update chart slot [fresh]) := by
  have shrunk : (state.created slot fresh name).freeCount ≤ state.freeCount := by
    refine freeCount_le fun block zero => ?_
    have other : block ≠ fresh := by
      rintro rfl
      simp [State.created] at zero
    simpa [State.created, other] using zero
  have within : Within 0 (state.created slot fresh name) :=
    fitting.within.created sound free
  refine ⟨within.size, within.offset, fun other used => ?_, fun other used single => ?_, tight⟩
  · by_cases same : other = slot
    · subst same
      rw [created_size, Function.update_self]
      exact (by decide : (1 : Int) ≤ (0 : Int32).toInt / blockSize + 1)
    · rw [State.Used, created_entry_of_ne same] at used
      rw [created_entry_of_ne same, Function.update_of_ne same]
      exact fitting.length other used
  · by_cases same : other = slot
    · subst same
      rw [created_size]
      exact .inl (by decide : (0 : Int32).toInt ≤ blockSize)
    · rw [State.Used, created_entry_of_ne same] at used
      rw [Function.update_of_ne same] at single
      rw [created_entry_of_ne same]
      exact (fitting.full other used single).imp_right fun none => by omega

end Fitting

/-! ### Writes -/

section Written

variable {garbage : Nat → Buffer} {slot : Slot} {descriptor : Descriptor} {buf : Nat → UInt8}
  {nbyte : UInt64} {fat : Fat} {blocks added : List BlockIndex}

theorem Sound.written (sound : Sound state chart) (garbage : Nat → Buffer) (buf : Nat → UInt8)
    (nbyte : UInt64) (denotes : Denotes state descriptor slot)
    (extended : Extended state chart slot added fat) :
    Sound (state.written garbage slot descriptor buf nbyte fat (chart slot ++ added))
      (Function.update chart slot (chart slot ++ added)) :=
  sound.stored denotes.used extended _ _ _ _

theorem written_used {other : Slot} :
    (state.written garbage slot descriptor buf nbyte fat blocks).Used other ↔ state.Used other := by
  rw [State.Used, State.Used, (written_entry other).1]

theorem appended_cases (state : State) (length stop : Nat) :
    length = 1 ∧ appended state length (stop / blockSize) ≤ stop / blockSize ∧
        (appended state length (stop / blockSize) = stop / blockSize ∨
          appended state length (stop / blockSize) = state.freeCount) ∨
      length ≠ 1 ∧ appended state length (stop / blockSize) = 0 := by
  unfold appended
  by_cases single : length = 1
  · rw [if_pos single]
    omega
  · rw [if_neg single]
    exact .inr ⟨single, rfl⟩

theorem Fitting.written (fitting : Fitting state chart) (sound : Sound state chart)
    (garbage : Nat → Buffer) (buf : Nat → UInt8)
    (denotes : Denotes state descriptor slot) (extended : Extended state chart slot added fat)
    (length : added.length = appended state (chart slot).length
      (writeStop (state.fildes descriptor).offset nbyte / blockSize)) :
    Fitting (state.written garbage slot descriptor buf nbyte fat (chart slot ++ added))
      (Function.update chart slot (chart slot ++ added)) := by
  obtain ⟨sizeNonneg, sizeWithin⟩ := fitting.size slot denotes.used
  obtain ⟨offsetNonneg, offsetWithin⟩ := fitting.offset descriptor slot denotes
  have stop := writeStop_le offsetNonneg (offsetWithin.trans sizeWithin) nbyte
  have size := sizeAfter_toInt sizeNonneg stop
  have grown := appended_cases state (chart slot).length
    (writeStop (state.fildes descriptor).offset nbyte)
  have positive : 0 < (chart slot).length :=
    List.length_pos_iff.mpr (sound.charted.nonempty slot denotes.used)
  have charted := sound.charted.extended denotes.used extended fun _ => ⟨rfl, rfl⟩
  have shrunk : (state.written garbage slot descriptor buf nbyte fat
      (chart slot ++ added)).freeCount ≤ state.freeCount := by
    refine freeCount_le fun block zero => ?_
    have absent := charted.notMem_of_zero zero slot
    rw [Function.update_self, List.mem_append, not_or] at absent
    rw [← extended.frame block absent.1 absent.2]
    exact zero
  have within : Within 0 (state.written garbage slot descriptor buf nbyte fat
      (chart slot ++ added)) := fitting.within.written sound le_rfl denotes
  have effect : Effect state chart (.write descriptor.val buf nbyte) _
      (state.written garbage slot descriptor buf nbyte fat (chart slot ++ added)) _ :=
    .written garbage denotes extended length
  refine ⟨within.size, within.offset, fun other used => ?_, fun other used single => ?_,
    effect.tight sound fitting.tight⟩
  · rw [State.Used, (written_entry other).1] at used
    have own := fitting.length other used
    by_cases same : other = slot
    · subst same
      rw [written_size, size, Function.update_self, List.length_append, length]
      simp only [blockSize] at own grown ⊢
      push_cast
      omega
    · rw [written_entry_of_ne same, Function.update_of_ne same]
      exact own
  · rw [State.Used, (written_entry other).1] at used
    have own := fitting.full other used
    by_cases same : other = slot
    · subst same
      rw [Function.update_self, List.length_append, length] at single
      rw [written_size, size]
      simp only [blockSize] at own grown single ⊢
      omega
    · rw [Function.update_of_ne same] at single
      rw [written_entry_of_ne same]
      exact (own single).imp_right fun none => by omega

end Written

theorem Effect.fitting (sound : Sound state chart) (fitting : Fitting state chart)
    (effect : Effect state chart call code after chart') (grows : call.Grows) :
    Fitting after chart' := by
  have tight := effect.tight sound fitting.tight
  cases effect with
  | idle => exact fitting
  | created _ _ _ free => exact fitting.created sound free tight
  | opened => exact fitting.relink fun _ => rfl
  | closed => exact fitting.relink fun isOpen => absurd rfl isOpen
  | deleted => exact grows.elim
  | sought denotes lower upper =>
      have limit := (fitting.size _ denotes.used).2
      refine fitting.moved sound denotes ?_
      rw [toInt_ofInt_of_within lower (upper.trans limit)]
      exact ⟨lower, upper⟩
  | read denotes =>
      have size := fitting.size _ denotes.used
      exact fitting.moved sound denotes (readOutcome_offset size.1 size.2 _)
  | written garbage denotes extended length => exact fitting.written sound _ _ denotes extended length
  | truncated => exact grows.elim

end EC440.FileSystem
