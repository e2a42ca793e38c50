import EC440.FileSystem.Entries

/-!
# Seeking, reading, writing and truncating

On an open descriptor each of these calls has one outcome, up to the accesses
outside its buffer.  The state it leaves is named here, together with the
chart that goes with it.
-/

namespace EC440.FileSystem

open Linked Outcome

variable {tolerance : Tolerance} {state : State} {chart : Slot → List BlockIndex}

def State.moved (state : State) (descriptor : Descriptor) (offset : Int32) : State :=
  { state with
    fildes := Function.update state.fildes descriptor { state.fildes descriptor with offset } }

theorem moved_fildes (state : State) (descriptor : Descriptor) (offset : Int32)
    (other : Descriptor) :
    ((state.moved descriptor offset).fildes other).used = (state.fildes other).used ∧
      ((state.moved descriptor offset).fildes other).file = (state.fildes other).file := by
  by_cases same : other = descriptor
  · subst same
    simp [State.moved]
  · simp [State.moved, same]

theorem Denotes.moved {reader : Descriptor} {slot : Slot} (denotes : Denotes state reader slot)
    (descriptor : Descriptor) (offset : Int32) :
    Denotes (state.moved descriptor offset) reader slot where
  isOpen := by
    rw [State.Open, (moved_fildes state descriptor offset reader).1]
    exact denotes.isOpen
  used := denotes.used
  head := denotes.head.trans (moved_fildes state descriptor offset reader).2.symm

theorem Sound.moved (sound : Sound state chart) (descriptor : Descriptor) (offset : Int32) :
    Sound (state.moved descriptor offset) chart :=
  sound.rechart sound.active rfl (fun _ => ⟨rfl, rfl, rfl, rfl⟩)
    (moved_fildes state descriptor offset) sound.charted

/-! ## fs_lseek -/

theorem fsLseek_open (sound : Sound state chart) {descriptor : Descriptor} {slot : Slot}
    (denotes : Denotes state descriptor slot) (offset : Int64) :
    fsLseek state descriptor.val offset =
      if 0 ≤ offset.toInt ∧ offset.toInt ≤ (state.dir slot).size.toInt then
        .ok (0, state.moved descriptor (Int32.ofInt offset.toInt))
      else .ok (-1, state) := by
  unfold fsLseek
  simp only [fildesAt_val, bind, Except.bind, if_neg denotes.isOpen, searchHeadUnbounded,
    denotes.searchHead_eq sound, Int64.lt_iff_toInt_lt, Int64.toInt_zero]
  by_cases negative : offset.toInt < 0
  · rw [if_pos negative, if_neg (by omega)]
  · rw [if_neg negative]
    by_cases past : offset.toInt > (state.dir slot).size.toInt
    · rw [if_pos past, if_neg (by omega)]
    · rw [if_neg past, if_pos (by omega)]
      rfl

theorem fsLseek_closed {descriptor : Descriptor} (closed : ¬state.Open descriptor)
    (offset : Int64) : fsLseek state descriptor.val offset = .ok (-1, state) := by
  unfold fsLseek
  simp only [fildesAt_val, bind, Except.bind]
  exact if_pos (not_not.mp closed)

/-! ## fs_read -/

/-- The test that the chain and the copied bytes lie within the buffer. -/
def checkTransfer (tolerance : Tolerance) (blocks : Int) (length : Nat) (offset : Int)
    (count : Nat) : Outcome Unit :=
  if Fits tolerance blocks 0 length then checkCopy tolerance blocks offset count
  else .error (.stray .heap)

theorem checkTransfer_cases (tolerance : Tolerance) (blocks : Int) (length : Nat) (offset : Int)
    (count : Nat) :
    checkTransfer tolerance blocks length offset count = .ok () ∨
      checkTransfer tolerance blocks length offset count = .error (.stray .heap) := by
  unfold checkTransfer checkCopy tolerate
  split_ifs <;> simp

/-- What `fs_read` returns and the offset it leaves. -/
def readOutcome (size offset : Int32) (nbyte : UInt64) : Int32 × Int32 :=
  if toSize (offset.toInt + nbyte.toNat) > toSize size.toInt then (size - offset, size)
  else (Int32.ofNat nbyte.toNat, Int32.ofInt (offset.toInt + nbyte.toNat))

theorem fsRead_open (tolerance : Tolerance) (sound : Sound state chart) {descriptor : Descriptor}
    {slot : Slot}
    (denotes : Denotes state descriptor slot) (garbage : Nat → Buffer) {nbyte : UInt64}
    (positive : 0 < nbyte.toNat) :
    fsRead tolerance garbage state descriptor.val nbyte =
      checkTransfer tolerance (numBlocks (state.dir slot).size) (chart slot).length
          (state.fildes descriptor).offset.toInt nbyte.toNat >>= fun _ =>
        .ok ((readOutcome (state.dir slot).size (state.fildes descriptor).offset nbyte).1,
          fun position : Nat => loadBlocks state.device.image (chart slot) 0 (garbage 0)
            ((state.fildes descriptor).offset.toInt + position),
          state.moved descriptor
            (readOutcome (state.dir slot).size (state.fildes descriptor).offset nbyte).2) := by
  have valid := denotes.valid
  have loaded := loadChain_eq tolerance (numBlocks (state.dir slot).size) sound.active
    (denotes.chain sound) chainFuel 0 (garbage 0) (sound.length_lt_fuel slot)
  have used : ¬(state.dir slot).used = 0 := denotes.used
  unfold fsRead
  simp only [fildesAt_val, bind, Except.bind, if_neg valid, if_neg (not_le.mpr positive),
    searchHeadUnbounded, denotes.searchHead_eq sound, if_neg used, loaded, checkTransfer,
    readOutcome]
  by_cases fits : Fits tolerance (numBlocks (state.dir slot).size) 0 (chart slot).length
  · simp only [if_pos fits]
    cases checkCopy tolerance (numBlocks (state.dir slot).size)
        (state.fildes descriptor).offset.toInt nbyte.toNat with
    | error stop => rfl
    | ok _ =>
        by_cases past : toSize ((state.fildes descriptor).offset.toInt + nbyte.toNat) >
            toSize (state.dir slot).size.toInt
        · simp only [if_pos past]
          rfl
        · simp only [if_neg past]
          rfl
  · simp only [if_neg fits]

theorem fsRead_zero {descriptor : Descriptor} {slot : Slot}
    (denotes : Denotes state descriptor slot) (garbage : Nat → Buffer) {nbyte : UInt64}
    (zero : nbyte.toNat ≤ 0) :
    fsRead tolerance garbage state descriptor.val nbyte = .ok (-1, fun _ => 0, state) := by
  have valid := denotes.valid
  unfold fsRead
  simp only [fildesAt_val, bind, Except.bind, if_neg valid]
  exact if_pos zero

theorem fsRead_closed {descriptor : Descriptor} (closed : ¬state.Open descriptor)
    (garbage : Nat → Buffer) (nbyte : UInt64) :
    fsRead tolerance garbage state descriptor.val nbyte = .ok (-1, fun _ => 0, state) := by
  unfold fsRead
  simp only [fildesAt_val, bind, Except.bind]
  exact if_pos (invalidFildes_iff.mpr closed)

/-! ## fs_write -/

/-- What the loop of `fs_write` leaves of the table when it appends the blocks `added` to the
chain of `slot`. -/
structure Extended (state : State) (chart : Slot → List BlockIndex) (slot : Slot)
    (added : List BlockIndex) (fat : Fat) : Prop where
  chain : FatChain fat (state.dir slot).head (chart slot ++ added)
  free : ∀ block ∈ added, block ∈ freeBlocks state.fat
  firstFit : FirstFit state.fat added
  frame : ∀ block, block ∉ chart slot → block ∉ added → fat block = state.fat block

/-- The number of blocks that `fs_write` appends: as many as requested and available to a file
of one block, none to a longer one. -/
def appended (state : State) (length requested : Nat) : Nat :=
  if length = 1 then min requested state.freeCount else 0

/-- Only on a chain of one block does the loop start at the last block. -/
theorem extendChain_spec (sound : Sound state chart) {slot : Slot} (used : state.Used slot)
    (requested : Nat) :
    ∃ added fat, extendChain layout requested state.fat (state.dir slot).head.toInt = .ok fat ∧
      Extended state chart slot added fat ∧
      added.length = appended state (chart slot).length requested := by
  obtain ⟨first, rest, listed, named⟩ := sound.charted.head_eq used
  have chain := sound.charted.chain slot used
  rw [named, toInt_ref]
  cases rest with
  | nil =>
      have single : FatChain state.fat (state.dir slot).head ([] ++ [first]) := by
        rwa [listed] at chain
      have nonzero : ∀ block ∈ [] ++ [first], state.fat block ≠ 0 := by
        intro block membership
        exact sound.charted.ne_zero (by rw [listed]; exact membership : block ∈ chart slot)
      obtain ⟨added, fat, done, chain', length, free, firstFit, frame⟩ :=
        extendChain_of_last requested single nonzero
      refine ⟨added, fat, done, ⟨by rw [listed]; exact chain', free, firstFit, ?_⟩, ?_⟩
      · intro block notOwn notAdded
        exact frame block (by simpa [listed] using notOwn) notAdded
      · rw [length, listed]
        rfl
  | cons second rest =>
      have linked : state.fat first ≠ -1 := by
        rw [listed, named] at chain
        have tail := (Chain.cons_iff.mp chain).2
        rw [(Chain.cons_iff.mp tail).1]
        exact ref_ne_neg_one second
      refine ⟨[], state.fat, extendChain_of_linked linked requested, ?_, by simp [appended, listed]⟩
      exact ⟨by rwa [List.append_nil], by simp, by simp [FirstFit], fun _ _ _ => rfl⟩

theorem Charted.extended (charted : Charted state.fat state.dir chart) {slot : Slot}
    {added : List BlockIndex} {fat : Fat} {dir : Directory} (used : state.Used slot)
    (extended : Extended state chart slot added fat)
    (entries : ∀ other, (dir other).used = (state.dir other).used ∧
      (dir other).head = (state.dir other).head) :
    Charted fat dir (Function.update chart slot (chart slot ++ added)) := by
  refine charted.replace (fun other _ => entries other) ?_ ?_ ?_ ?_ ?_
  · intro _
    refine ⟨by rw [(entries slot).2]; exact extended.chain, ?_⟩
    simp [charted.nonempty slot used]
  · intro unused
    exact absurd ((entries slot).1 ▸ unused) used
  · intro block membership
    exact (List.mem_append.mp membership).imp id fun inAdded =>
      (mem_freeBlocks.mp (extended.free block inAdded)).symm
  · intro block notOwn notBlocks
    exact extended.frame block notOwn fun inAdded => notBlocks (List.mem_append_right _ inAdded)
  · intro block own notBlocks
    exact absurd (List.mem_append_left _ own) notBlocks

/-- The size of a file after a write that ends at `stop`. -/
def sizeAfter (size : Int32) (stop : Nat) : Int32 :=
  if stop > toSize size.toInt then Int32.ofNat stop else size

/-- The buffer that `fs_write` writes back to the blocks of the file. -/
def writeBuffer (image : BlockIndex → Block) (blocks : List BlockIndex) (garbage buf : Buffer)
    (offset : Int) (count : Nat) : Buffer :=
  (loadBlocks image blocks 0 garbage).memcpy offset buf count

def State.stored (state : State) (slot : Slot) (descriptor : Descriptor) (fat : Fat)
    (size offset : Int32) (blocks : List BlockIndex) (buffer : Buffer) : State :=
  { state with
    device := { state.device with image := storeBlocks buffer blocks 0 state.device.image }
    fat
    dir := Function.update state.dir slot { state.dir slot with size }
    fildes := Function.update state.fildes descriptor { state.fildes descriptor with offset } }

/-- Where a write ends, as the `size_t` that `fs_write` compares with the size. -/
def writeStop (offset : Int32) (nbyte : UInt64) : Nat :=
  toSize (offset.toInt + clampCount offset nbyte)

/-- The state after a write through `descriptor` to the entry `slot`, whose chain has become
`blocks`. -/
def State.written (state : State) (garbage : Nat → Buffer) (slot : Slot) (descriptor : Descriptor)
    (buf : Nat → UInt8) (nbyte : UInt64) (fat : Fat) (blocks : List BlockIndex) : State :=
  let offset := (state.fildes descriptor).offset
  let count := clampCount offset nbyte
  state.stored slot descriptor fat (sizeAfter (state.dir slot).size (writeStop offset nbyte))
    (Int32.ofInt (offset.toInt + count)) blocks
    (writeBuffer state.device.image blocks (garbage 0) (fun position => buf position.toNat)
      offset.toInt count)

theorem fsWrite_open (tolerance : Tolerance) (sound : Sound state chart) {descriptor : Descriptor}
    {slot : Slot} (denotes : Denotes state descriptor slot) (garbage : Nat → Buffer)
    (buf : Nat → UInt8) (nbyte : UInt64) {offset : Int32} {count stop : Nat}
    (at_ : (state.fildes descriptor).offset = offset) (counted : clampCount offset nbyte = count)
    (stopped : writeStop offset nbyte = stop) :
    ∃ added fat, Extended state chart slot added fat ∧
      added.length = appended state (chart slot).length (stop / blockSize) ∧
      fsWrite tolerance garbage state descriptor.val buf nbyte =
        checkTransfer tolerance (numBlocks (sizeAfter (state.dir slot).size stop))
            (chart slot ++ added).length offset.toInt count >>= fun _ =>
          .ok (Int32.ofNat count,
            state.written garbage slot descriptor buf nbyte fat (chart slot ++ added)) := by
  have valid := denotes.valid
  have used : ¬(state.dir slot).used = 0 := denotes.used
  have stopAt : toSize (offset.toInt + count) = stop := by rw [← stopped, ← counted, writeStop]
  obtain ⟨added, fat, grown, extended, length⟩ :=
    extendChain_spec sound denotes.used (stop / blockSize)
  refine ⟨added, fat, extended, length, ?_⟩
  have chain := extended.chain
  rw [denotes.head] at chain grown
  have enough : (chart slot ++ added).length < chainFuel := by
    have bound := chain.length_le_card
    rw [Fintype.card_fin] at bound
    exact Nat.lt_succ_of_le bound
  unfold fsWrite
  simp only [fildesAt_val, bind, Except.bind, if_neg valid, denotes.searchHead_eq sound,
    if_neg used, sound.superBlock_eq, at_, counted, stopAt, grown,
    loadChain_eq tolerance _ sound.active chain chainFuel 0 (garbage 0) enough,
    storeChain_eq tolerance _ _ chain chainFuel 0 state.device sound.active enough,
    checkTransfer]
  by_cases fits : Fits tolerance (numBlocks (sizeAfter (state.dir slot).size stop)) 0
      (chart slot ++ added).length
  · simp only [State.written, at_, counted, stopped]
    rw [sizeAfter] at fits ⊢
    simp only [if_pos fits]
    cases checkCopy tolerance (numBlocks _) offset.toInt count with
    | error stop => rfl
    | ok _ => rfl
  · rw [sizeAfter] at fits ⊢
    simp only [if_neg fits]

theorem fsWrite_closed {descriptor : Descriptor} (closed : ¬state.Open descriptor)
    (garbage : Nat → Buffer) (buf : Nat → UInt8) (nbyte : UInt64) :
    fsWrite tolerance garbage state descriptor.val buf nbyte = .ok (-1, state) := by
  unfold fsWrite
  simp only [fildesAt_val, bind, Except.bind]
  exact if_pos (invalidFildes_iff.mpr closed)

theorem Sound.stored (sound : Sound state chart) {descriptor : Descriptor} {slot : Slot}
    {added : List BlockIndex} {fat : Fat} (used : state.Used slot)
    (extended : Extended state chart slot added fat) (size offset : Int32)
    (blocks : List BlockIndex) (buffer : Buffer) :
    Sound (state.stored slot descriptor fat size offset blocks buffer)
      (Function.update chart slot (chart slot ++ added)) := by
  have entry : ∀ other,
      (Function.update state.dir slot { state.dir slot with size } other).used =
        (state.dir other).used ∧
      (Function.update state.dir slot { state.dir slot with size } other).name =
        (state.dir other).name ∧
      (Function.update state.dir slot { state.dir slot with size } other).head =
        (state.dir other).head ∧
      (Function.update state.dir slot { state.dir slot with size } other).refCnt =
        (state.dir other).refCnt := by
    intro other
    by_cases same : other = slot
    · subst same
      simp
    · simp [same]
  refine sound.rechart sound.active rfl entry (moved_fildes state descriptor offset) ?_
  exact sound.charted.extended used extended fun other => ⟨(entry other).1, (entry other).2.2.1⟩

/-! ## fs_truncate -/

/-- The number of links that `fs_truncate` follows from the head to the new last block. -/
def truncateSteps (length : Int64) : Nat :=
  ((Int32.ofInt (length.toInt.tdiv blockSize)).toInt + 1).toNat

/-- The number of bytes of the new last block that `fs_truncate` overwrites. -/
def leftover (length : Int64) : Nat := (blockSize - length.toInt.tmod blockSize).toNat

/-- The new content of the last block: what follows the new length is overwritten. -/
def lastContent (garbage : Nat → Buffer) (block : Block) (length : Int64) : Block :=
  Buffer.blockAt
    (Memory.memcpy ((garbage 0).load 0 block) length.toInt (garbage 1) (leftover length)) 0

/-- The offset of the descriptor after the file has been cut. -/
def offsetAfter (offset : Int32) (length : Int64) : Int32 :=
  if offset.toInt > length.toInt then Int32.ofInt length.toInt else offset

/-- The state after the chain has been cut behind `last` and the blocks `tail` have been
overwritten and freed. -/
def State.truncated (state : State) (descriptor : Descriptor) (last : BlockIndex)
    (tail : List BlockIndex) (junk content : Block) (offset : Int32) : State :=
  { state with
    device := { state.device with
      image := Function.update (fun block => if block ∈ tail then junk else state.device.image block)
        last content }
    fat := release (Function.update state.fat last (-1)) tail
    fildes := Function.update state.fildes descriptor { state.fildes descriptor with offset } }

theorem fsTruncate_open (sound : Sound state chart) {descriptor : Descriptor} {slot : Slot}
    (denotes : Denotes state descriptor slot) (garbage : Nat → Buffer) {length : Int64}
    (within : length.toInt ≤ (state.dir slot).size.toInt) :
    (chart slot).length ≤ truncateSteps length ∧
      fsTruncate tolerance garbage state descriptor.val length =
        .error (.outOfRange .fat (-1)) ∨
    ∃ kept last tail, chart slot = kept ++ last :: tail ∧ kept.length = truncateSteps length ∧
      fsTruncate tolerance garbage state descriptor.val length =
        checkCopy tolerance 1 length.toInt (leftover length) >>= fun _ =>
          .ok (0, state.truncated descriptor last tail ((garbage 0).blockAt 0)
            (lastContent garbage (state.device.image last) length)
            (offsetAfter (state.fildes descriptor).offset length)) := by
  have valid := denotes.valid
  have used : ¬(state.dir slot).used = 0 := denotes.used
  have chain := sound.charted.chain slot denotes.used
  have nodup := sound.charted.nodup slot
  have outside : readFat state.fat (-1) = .error (.outOfRange .fat (-1)) := rfl
  have steps : ((Int32.ofInt (length.toInt.tdiv blockSize)).toInt + 1).toNat =
      truncateSteps length := rfl
  unfold fsTruncate
  simp only [fildesAt_val, bind, Except.bind, if_neg valid, denotes.searchHead_eq sound,
    if_neg used, if_neg (not_lt.mpr within), steps]
  rcases advance_spec chain (truncateSteps length) with
    ⟨bound, target, done, dropped⟩ | ⟨bound, stopped⟩
  · cases remaining : (chart slot).drop (truncateSteps length) with
    | nil =>
        -- the walk ends behind the last block
        rw [remaining] at dropped
        obtain rfl := Chain.nil_iff.mp dropped
        refine .inl ⟨List.drop_eq_nil_iff.mp remaining, ?_⟩
        simp only [done]
        rfl
    | cons last tail =>
        have split : chart slot = (chart slot).take (truncateSteps length) ++ last :: tail := by
          rw [← remaining, List.take_append_drop]
        rw [remaining] at dropped
        obtain ⟨rfl, rest⟩ := Chain.cons_iff.mp dropped
        rw [split] at nodup
        have notTail : last ∉ tail :=
          (List.nodup_cons.mp (List.nodup_append.mp nodup).2.1).1
        have short : tail.length < chainFuel := by
          have total := sound.length_lt_fuel slot
          rw [split, List.length_append, List.length_cons] at total
          omega
        have freed := freeTail_eq ((garbage 0).blockAt 0)
          (rest.update_of_notMem (-1) notTail) chainFuel state.device sound.active short
        refine .inr ⟨_, last, tail, split, by rw [List.length_take]; omega, ?_⟩
        have active : ({ state.device with
            image := fun block => if block ∈ tail then (garbage 0).blockAt 0
              else state.device.image block } : Device).active = true := sound.active
        simp only [done, toInt_ref, readFat_val, writeFat_val, freed, not_true_eq_false, if_false,
          blockRead_val active, blockWrite_val active, if_neg notTail]
        rfl
  · refine .inl ⟨bound.le, ?_⟩
    simp only [stopped]

theorem fsTruncate_long (sound : Sound state chart) {descriptor : Descriptor} {slot : Slot}
    (denotes : Denotes state descriptor slot) (garbage : Nat → Buffer) {length : Int64}
    (long : (state.dir slot).size.toInt < length.toInt) :
    fsTruncate tolerance garbage state descriptor.val length = .ok (-1, state) := by
  have valid := denotes.valid
  have used : ¬(state.dir slot).used = 0 := denotes.used
  unfold fsTruncate
  simp only [fildesAt_val, bind, Except.bind, if_neg valid, denotes.searchHead_eq sound,
    if_neg used]
  exact if_pos long

theorem fsTruncate_closed {descriptor : Descriptor} (closed : ¬state.Open descriptor)
    (garbage : Nat → Buffer) (length : Int64) :
    fsTruncate tolerance garbage state descriptor.val length = .ok (-1, state) := by
  unfold fsTruncate
  simp only [fildesAt_val, bind, Except.bind]
  exact if_pos (invalidFildes_iff.mpr closed)

theorem Sound.truncated (sound : Sound state chart) {descriptor : Descriptor} {slot : Slot}
    {kept tail : List BlockIndex} {last : BlockIndex} (used : state.Used slot)
    (split : chart slot = kept ++ last :: tail) (junk content : Block) (offset : Int32) :
    Sound (state.truncated descriptor last tail junk content offset)
      (Function.update chart slot (kept ++ [last])) := by
  have chain := sound.charted.chain slot used
  have nodup := sound.charted.nodup slot
  rw [split] at chain nodup
  have outside : ∀ block ∈ kept ++ [last], block ∉ tail := by
    rw [List.append_cons] at nodup
    exact fun block inKept inTail => List.disjoint_of_nodup_append nodup inKept inTail
  refine sound.rechart sound.active rfl (fun _ => ⟨rfl, rfl, rfl, rfl⟩)
    (moved_fildes state descriptor offset) ?_
  refine sound.charted.replace (fun _ _ => ⟨rfl, rfl⟩) ?_ ?_ ?_ ?_ ?_
  · intro _
    refine ⟨chain.cut.congr fun block membership => ?_, by simp⟩
    exact release_of_notMem (outside block membership)
  · intro unused
    exact absurd unused used
  · intro block membership
    left
    rw [split]
    simp only [List.mem_append, List.mem_cons, List.not_mem_nil, or_false] at membership ⊢
    tauto
  · intro block notOwn notKept
    rw [split] at notOwn
    simp only [List.mem_append, List.mem_cons, not_or] at notOwn
    exact (release_of_notMem notOwn.2.2).trans (Function.update_of_ne notOwn.2.1 _ _)
  · intro block own notKept
    rw [split] at own
    simp only [List.mem_append, List.mem_cons, List.not_mem_nil, or_false, not_or] at own notKept
    exact release_of_mem (by tauto)

end EC440.FileSystem
