import EC440.FileSystem.Sessions

/-!
# Byte images of the tables

Reading a table back from its bytes restores it, and transferring pages to the
disk and back restores the bytes.  Both directions are needed for the file
system that `make_fs` creates and for the one that `umount_fs` leaves.
-/

namespace EC440.FileSystem

open Outcome

/-! ## Integers -/

/-- A buffer agrees with an image on `length` bytes from a position on. -/
def Holds (buffer : Buffer) (position : Int) (image : Buffer) (length : Nat) : Prop :=
  ∀ offset : Int, 0 ≤ offset → offset < length → buffer (position + offset) = image offset

theorem Holds.part {buffer image : Buffer} {position : Int} {length : Nat}
    (holds : Holds buffer position image length) (start : Int) (width : Nat) (lower : 0 ≤ start)
    (upper : start + width ≤ length) :
    Holds buffer (position + start) (image.from_ start) width := by
  intro offset nonneg bound
  rw [add_assoc]
  exact holds (start + offset) (by omega) (by omega)

theorem Holds.congr {buffer image image' : Buffer} {position : Int} {length : Nat}
    (holds : Holds buffer position image length)
    (same : ∀ offset : Int, 0 ≤ offset → offset < length → image offset = image' offset) :
    Holds buffer position image' length := by
  intro offset nonneg bound
  rw [holds offset nonneg bound, same offset nonneg bound]

theorem readInt_eq {buffer : Buffer} {position : Int} {value : Int32}
    (holds : Holds buffer position (intBytes value) sizeofInt) : readInt buffer position = value := by
  have bytes : ∀ index : Nat, index < 4 → (buffer (position + index)).toNat =
      value.toUInt32.toNat / 256 ^ index % 256 := by
    intro index bound
    rw [holds index (by omega) (by simp only [sizeofInt]; omega), intBytes, Int.toNat_natCast,
      UInt8.toNat_ofNat']
    omega
  have byte0 := bytes 0 (by omega)
  have byte1 := bytes 1 (by omega)
  have byte2 := bytes 2 (by omega)
  have byte3 := bytes 3 (by omega)
  have bound := value.toUInt32.toNat_lt
  simp only [Nat.cast_zero, Nat.cast_one, Nat.cast_ofNat, add_zero] at byte0 byte1 byte2 byte3
  have total : (buffer position).toNat + 256 * (buffer (position + 1)).toNat +
      65536 * (buffer (position + 2)).toNat + 16777216 * (buffer (position + 3)).toNat =
      value.toUInt32.toNat := by
    rw [byte0, byte1, byte2, byte3]
    omega
  rw [readInt, total, UInt32.ofNat_toNat]
  rfl

theorem tiled_from {width : Nat} (positive : 0 < width) (piece : Nat → Buffer) (index : Nat)
    (offset : Int) (lower : 0 ≤ offset) (upper : offset < width) :
    (Memory.tiled width piece).from_ (index * width) offset = piece index offset := by
  rw [Memory.from_apply, Memory.tiled, add_comm, Int.add_mul_ediv_right _ _ (by omega),
    Int.add_mul_emod_self_right, Int.ediv_eq_zero_of_lt lower upper,
    Int.emod_eq_of_lt lower upper, zero_add, Int.toNat_natCast]

theorem Holds.tile {buffer : Buffer} {position : Int} {width count : Nat} {piece : Nat → Buffer}
    (holds : Holds buffer position (Memory.tiled width piece) (count * width))
    (index : Nat) (inside : index < count) :
    Holds buffer (position + index * width) (piece index) width := by
  have room : index * width + width ≤ count * width := by
    calc index * width + width = (index + 1) * width := by ring
      _ ≤ count * width := Nat.mul_le_mul_right _ inside
  refine (holds.part (index * width) width (by positivity) (by exact_mod_cast room)).congr ?_
  intro offset nonneg bound
  exact tiled_from (by omega) piece index offset nonneg bound

/-! ## Tables -/

theorem readEntry_eq {buffer : Buffer} {position : Int} {entry : DirEntry}
    (holds : Holds buffer position (entryBytes entry) sizeofDirEntry) :
    readEntry buffer position = entry := by
  have int : ∀ (start : Int) (value : Int32), 0 ≤ start → start ≤ 28 →
      (∀ offset : Int, 0 ≤ offset → offset < 4 →
        entryBytes entry (start + offset) = intBytes value offset) →
      readInt buffer (position + start) = value := by
    intro start value lower upper same
    refine readInt_eq ((holds.part start sizeofInt lower ?_).congr ?_)
    · simp only [sizeofInt, sizeofDirEntry]
      omega
    · exact fun offset nonneg bound => same offset nonneg bound
  have used := int 0 entry.used (by omega) (by omega) fun offset nonneg bound => by
    rw [entryBytes, if_pos (by omega), zero_add]
  have size := int 20 entry.size (by omega) (by omega) fun offset nonneg bound => by
    rw [entryBytes, if_neg (by omega), if_neg (by omega), if_pos (by omega),
      add_sub_cancel_left]
  have head := int 24 entry.head (by omega) (by omega) fun offset nonneg bound => by
    rw [entryBytes, if_neg (by omega), if_neg (by omega), if_neg (by omega), if_pos (by omega),
      add_sub_cancel_left]
  have refCnt := int 28 entry.refCnt (by omega) (by omega) fun offset nonneg bound => by
    rw [entryBytes, if_neg (by omega), if_neg (by omega), if_neg (by omega), if_neg (by omega),
      add_sub_cancel_left]
  have name : (fun character : Fin (maxFName + 1) => buffer (position + 4 + character.val)) =
      entry.name := by
    funext character
    have bound := character.isLt
    simp only [maxFName] at bound
    rw [add_assoc, holds (4 + character.val) (by omega) (by simp only [sizeofDirEntry]; omega),
      entryBytes, if_neg (by omega), if_pos (by omega), add_sub_cancel_left, Int.toNat_natCast,
      Fin.ofNat_val_eq_self]
  rw [add_zero] at used
  cases entry
  simp only [readEntry, used, size, head, refCnt, name]

theorem readDir_eq {buffer : Buffer} {dir : Directory}
    (holds : Holds buffer 0 (dirBytes dir) (maxFNum * sizeofDirEntry)) : readDir buffer = dir := by
  funext slot
  have entry := readEntry_eq (holds.tile _ slot.isLt)
  rw [Fin.ofNat_val_eq_self] at entry
  rw [← entry, readDir]
  congr 1
  ring

theorem readSuperBlock_eq {buffer : Buffer} {superBlock : SuperBlock}
    (holds : Holds buffer 0 (superBlockBytes superBlock) sizeofSuperBlock) :
    readSuperBlock buffer = superBlock := by
  have tiles : Holds buffer 0 (superBlockBytes superBlock) (5 * sizeofInt) := holds
  have fatIdx := readInt_eq (tiles.tile 0 (by omega))
  have fatLen := readInt_eq (tiles.tile 1 (by omega))
  have dirIdx := readInt_eq (tiles.tile 2 (by omega))
  have dirLen := readInt_eq (tiles.tile 3 (by omega))
  have dataIdx := readInt_eq (tiles.tile 4 (by omega))
  cases superBlock
  simp only [sizeofInt, Nat.cast_zero, Nat.cast_one, Nat.cast_ofNat, zero_mul, one_mul, zero_add,
    Int.reduceMul] at fatIdx fatLen dirIdx dirLen dataIdx
  simp only [readSuperBlock, fatIdx, fatLen, dirIdx, dirLen, dataIdx]

theorem readFatTable_eq {buffer : Buffer} {fat : Nat → Int32}
    (holds : Holds buffer 0 (Memory.tiled sizeofInt fun index => intBytes (fat index))
      (diskBlocks * sizeofInt)) : readFatTable buffer = fun block => fat block.val := by
  funext block
  have entry := readInt_eq (holds.tile _ block.isLt)
  rw [← entry, readFatTable]
  congr 1
  ring

/-! ## Pages on the disk -/

theorem load_of_mem {buffer : Buffer} {position offset : Int} {block : Block}
    (lower : position ≤ offset) (upper : offset < position + blockSize) :
    buffer.load position block offset = block ⟨(offset - position).toNat, by omega⟩ :=
  dif_pos ⟨lower, upper⟩

theorem load_of_notMem {buffer : Buffer} {position offset : Int} {block : Block}
    (outside : ¬(position ≤ offset ∧ offset < position + blockSize)) :
    buffer.load position block offset = buffer offset :=
  dif_neg outside

theorem load_blockAt {buffer source : Buffer} {position offset : Int} (lower : position ≤ offset)
    (upper : offset < position + blockSize) :
    buffer.load position (source.blockAt position) offset = source offset := by
  rw [load_of_mem lower upper, Buffer.blockAt]
  congr 1
  simp only
  omega

theorem readPages_eq {device : Device} {first : Int32} {source : Buffer} (count : Nat) {page : Nat}
    {buffer : Buffer} (before : Holds buffer 0 source (page * blockSize))
    (stored : ∀ index, page ≤ index → index < page + count →
      device.blockRead (first.toInt + index) = some (source.blockAt (index * blockSize))) :
    ∃ result, readPages device first count page buffer = some result ∧
      Holds result 0 source ((page + count) * blockSize) := by
  induction count generalizing page buffer with
  | zero => exact ⟨buffer, rfl, before⟩
  | succ count inductionHypothesis =>
      have next : Holds (buffer.load (page * blockSize) (source.blockAt (page * blockSize))) 0 source
          ((page + 1) * blockSize) := by
        intro offset nonneg bound
        rw [zero_add]
        rw [add_mul, one_mul, Nat.cast_add, Nat.cast_mul] at bound
        by_cases inPage : page * blockSize ≤ offset
        · exact load_blockAt inPage bound
        · rw [load_of_notMem fun inside => inPage inside.1]
          have held := before offset nonneg (by push_cast; omega)
          rwa [zero_add] at held
      obtain ⟨result, done, holds⟩ := inductionHypothesis next fun index lower upper =>
        stored index (by omega) (by omega)
      refine ⟨result, ?_, by rwa [add_right_comm] at holds⟩
      rw [readPages, stored page le_rfl (by omega)]
      exact done

/-- The disk after `count` pages of a buffer, from the `page`-th on, have been written behind
the block `base`. -/
def storePages (buffer : Buffer) (base page count : Nat) (image : BlockIndex → Block) :
    BlockIndex → Block := fun block =>
  if base + page ≤ block.val ∧ block.val < base + page + count then
    buffer.blockAt ((block.val - base : Nat) * blockSize)
  else image block

theorem storePages_succ (buffer : Buffer) (base page count : Nat) (image : BlockIndex → Block)
    (target : BlockIndex) (at_ : target.val = base + page) :
    storePages buffer base (page + 1) count
        (Function.update image target (buffer.blockAt (page * blockSize))) =
      storePages buffer base page (count + 1) image := by
  funext block
  unfold storePages
  by_cases same : block = target
  · subst same
    rw [if_neg (by omega), if_pos (by omega), Function.update_self]
    congr 2
    omega
  · have distinct : block.val ≠ base + page := fun equal => same (Fin.ext (equal.trans at_.symm))
    rw [Function.update_of_ne same]
    exact if_congr (by omega) rfl rfl

theorem writePages_eq {first : Int32} {base : Nat} (numbered : first.toInt = base)
    (buffer : Buffer) (count page : Nat) (device : Device) (active : device.active = true)
    (room : base + page + count ≤ diskBlocks) :
    writePages first buffer count page device =
      (true, { device with image := storePages buffer base page count device.image }) := by
  induction count generalizing page device with
  | zero =>
      have none : storePages buffer base page 0 device.image = device.image := by
        funext block
        exact if_neg (by omega)
      rw [none, writePages]
  | succ count inductionHypothesis =>
      have inside : base + page < diskBlocks := by omega
      have target : first.toInt + page = ((⟨base + page, inside⟩ : BlockIndex).val : Nat) := by
        rw [numbered]
        rfl
      rw [writePages, target, blockWrite_val active,
        ← storePages_succ buffer base page count device.image ⟨base + page, inside⟩ rfl]
      exact inductionHypothesis (page + 1) _ active (by omega)

theorem fillPages_eq (entry : Nat → Buffer) (pages : Nat) (buffer : Buffer) :
    (List.range pages).foldl (fun buffer (page : Nat) =>
      (List.range (blockSize / sizeofInt)).foldl (fun buffer (i : Nat) =>
        Memory.memcpy buffer (page * blockSize + i * sizeofInt) (entry i) sizeofInt) buffer)
        buffer =
      Memory.memcpy buffer 0 (Memory.tiled blockSize fun _ => Memory.tiled sizeofInt entry)
        (pages * blockSize) := by
  have inner : ∀ (buffer : Buffer) (page : Nat),
      (List.range (blockSize / sizeofInt)).foldl (fun buffer (i : Nat) =>
        Memory.memcpy buffer (page * blockSize + i * sizeofInt) (entry i) sizeofInt) buffer =
      Memory.memcpy buffer (page * blockSize) (Memory.tiled sizeofInt entry) blockSize := by
    intro buffer page
    exact Memory.foldl_memcpy sizeofInt (blockSize / sizeofInt) entry (page * blockSize) buffer
  simp only [inner]
  exact Memory.foldl_memcpy_zero blockSize pages (fun _ => Memory.tiled sizeofInt entry) buffer

/-- Entry by entry, the FAT pages hold the first 1024 entries over and over. -/
theorem holds_pages (entry : Nat → Buffer) (pages : Nat) (buffer : Buffer) :
    Holds (Memory.memcpy buffer 0 (Memory.tiled blockSize fun _ => Memory.tiled sizeofInt entry)
      (pages * blockSize)) 0 (Memory.tiled sizeofInt fun index => entry (index % 1024))
      (pages * blockSize) := by
  intro offset nonneg bound
  rw [zero_add, Memory.memcpy_of_mem nonneg (by omega), sub_zero]
  simp only [Memory.tiled, blockSize, sizeofInt]
  congr 1
  · omega
  · omega

/-! ## Bytes of the disk -/

def diskBytes (image : BlockIndex → Block) (first : Nat) : Buffer := fun offset =>
  image (Fin.ofNat _ (first + (offset / blockSize).toNat)) (Fin.ofNat _ (offset % blockSize).toNat)

theorem diskBytes_blockAt (image : BlockIndex → Block) (first index : Nat) :
    (diskBytes image first).blockAt (index * blockSize) = image (Fin.ofNat _ (first + index)) := by
  funext byte
  have small := byte.isLt
  have page : ((index : Int) * blockSize + byte.val) / blockSize = index := by
    simp only [blockSize] at small ⊢
    omega
  have rest : ((index : Int) * blockSize + byte.val) % blockSize = byte.val := by
    simp only [blockSize] at small ⊢
    omega
  rw [Buffer.blockAt, diskBytes, page, rest, Int.toNat_natCast, Int.toNat_natCast,
    Fin.ofNat_val_eq_self]

theorem Holds.readInt_eq {buffer image : Buffer} {length : Nat}
    (holds : Holds buffer 0 image length) {position : Int} (lower : 0 ≤ position)
    (upper : position + sizeofInt ≤ length) : readInt buffer position = readInt image position := by
  have byte : ∀ index : Int, 0 ≤ index → index < sizeofInt →
      buffer (position + index) = image (position + index) := by
    intro index nonneg bound
    have held := holds (position + index) (by omega) (by omega)
    rwa [zero_add] at held
  have byte0 := byte 0 (by decide) (by decide)
  rw [add_zero] at byte0
  simp only [readInt, byte0, byte 1 (by decide) (by decide), byte 2 (by decide) (by decide),
    byte 3 (by decide) (by decide)]

theorem Holds.readSuperBlock_eq {buffer image : Buffer}
    (holds : Holds buffer 0 image sizeofSuperBlock) :
    readSuperBlock buffer = readSuperBlock image := by
  simp only [readSuperBlock, holds.readInt_eq (by decide : (0 : Int) ≤ 0) (by decide),
    holds.readInt_eq (by decide : (0 : Int) ≤ 4) (by decide),
    holds.readInt_eq (by decide : (0 : Int) ≤ 8) (by decide),
    holds.readInt_eq (by decide : (0 : Int) ≤ 12) (by decide),
    holds.readInt_eq (by decide : (0 : Int) ≤ 16) (by decide)]

theorem Holds.readDir_eq {buffer image : Buffer}
    (holds : Holds buffer 0 image (maxFNum * sizeofDirEntry)) : readDir buffer = readDir image := by
  funext slot
  have small := slot.isLt
  simp only [maxFNum] at small
  have int : ∀ start : Int, 0 ≤ start → start ≤ 28 →
      readInt buffer (sizeofDirEntry * slot.val + start) =
        readInt image (sizeofDirEntry * slot.val + start) := by
    intro start lower upper
    apply holds.readInt_eq
    · simp only [sizeofDirEntry]
      omega
    · simp only [sizeofDirEntry, sizeofInt, maxFNum]
      omega
  have used := int 0 (by decide) (by decide)
  rw [add_zero] at used
  have name : (fun character : Fin (maxFName + 1) =>
      buffer (sizeofDirEntry * slot.val + 4 + character.val)) =
      fun character => image (sizeofDirEntry * slot.val + 4 + character.val) := by
    funext character
    have bound := character.isLt
    simp only [maxFName] at bound
    have held := holds (sizeofDirEntry * slot.val + 4 + character.val)
      (by simp only [sizeofDirEntry]; omega) (by simp only [sizeofDirEntry, maxFNum]; omega)
    rwa [zero_add] at held
  simp only [readDir, readEntry, used, name, int 20 (by decide) (by decide),
    int 24 (by decide) (by decide), int 28 (by decide) (by decide)]

theorem Holds.readFatTable_eq {buffer image : Buffer}
    (holds : Holds buffer 0 image (diskBlocks * sizeofInt)) :
    readFatTable buffer = readFatTable image := by
  funext block
  have small := block.isLt
  simp only [diskBlocks] at small
  apply holds.readInt_eq
  · simp only [sizeofInt]
    omega
  · simp only [sizeofInt, diskBlocks]
    omega

theorem holds_load (buffer : Buffer) (image : BlockIndex → Block) (block : BlockIndex) :
    Holds (buffer.load 0 (image block)) 0 (diskBytes image block.val) blockSize := by
  intro offset nonneg bound
  have whole := diskBytes_blockAt image block.val 0
  rw [Nat.cast_zero, zero_mul, add_zero, Fin.ofNat_val_eq_self] at whole
  rw [← whole, zero_add]
  exact load_blockAt nonneg (by omega)

theorem Holds.shorten {buffer image : Buffer} {position : Int} {length length' : Nat}
    (holds : Holds buffer position image length) (shorter : length' ≤ length) :
    Holds buffer position image length' :=
  fun offset nonneg bound => holds offset nonneg (by omega)

theorem holds_diskBytes {image : BlockIndex → Block} {source : Buffer} {first pages : Nat}
    (stored : ∀ index < pages, image (Fin.ofNat _ (first + index)) =
      source.blockAt (index * blockSize)) :
    Holds (diskBytes image first) 0 source (pages * blockSize) := by
  intro offset nonneg bound
  obtain ⟨page, value⟩ : ∃ page : Nat, offset / blockSize = page :=
    ⟨(offset / blockSize).toNat, (Int.toNat_of_nonneg (by simp only [blockSize]; omega)).symm⟩
  have inside : page < pages := by
    simp only [blockSize] at bound value
    push_cast at bound
    omega
  have small : (offset % blockSize).toNat < blockSize := by
    simp only [blockSize]
    omega
  rw [zero_add, diskBytes, value, Int.toNat_natCast, stored page inside, Buffer.blockAt]
  congr 1
  rw [Fin.val_ofNat, Nat.mod_eq_of_lt small, ← value]
  simp only [blockSize]
  omega

end EC440.FileSystem
