import EC440.FileSystem.Images

/-!
# Formatted disks

`Formatted` says which tables the metadata blocks of a disk hold.  `make_fs`
formats a disk, `mount_fs` reads the tables of a formatted disk, and
`umount_fs` formats the disk with the tables it has in memory, except that it
writes the first page of `FAT` to every FAT page.
-/

namespace EC440.FileSystem

open Outcome

/-- The metadata blocks of the disk hold the super block, a directory and the entries of a file
allocation table. -/
structure Formatted (image : BlockIndex → Block) (dir : Directory) (fat : Nat → Int32) : Prop where
  superBlock : ∃ source : Buffer, image 0 = source.blockAt 0 ∧
    Holds source 0 (superBlockBytes layout) sizeofSuperBlock
  directory : ∃ source : Buffer, image 1 = source.blockAt 0 ∧
    Holds source 0 (dirBytes dir) (maxFNum * sizeofDirEntry)
  table : ∃ source : Buffer,
    (∀ (index : Nat) (block : BlockIndex), index < 8 → block.val = 2 + index →
      image block = source.blockAt (index * blockSize)) ∧
    Holds source 0 (Memory.tiled sizeofInt fun index => intBytes (fat index))
      (diskBlocks * sizeofInt)

namespace Formatted

variable {image : BlockIndex → Block} {dir : Directory} {fat : Nat → Int32}

theorem readSuperBlock (formatted : Formatted image dir fat) :
    readSuperBlock (diskBytes image 0) = layout := by
  obtain ⟨source, block, holds⟩ := formatted.superBlock
  have shown : Holds (diskBytes image 0) 0 source (1 * blockSize) := by
    apply holds_diskBytes
    rintro index bound
    obtain rfl : index = 0 := by omega
    rw [Nat.cast_zero, zero_mul, ← block]
    rfl
  rw [(shown.shorten (by decide)).readSuperBlock_eq]
  exact readSuperBlock_eq holds

theorem readDir (formatted : Formatted image dir fat) : readDir (diskBytes image 1) = dir := by
  obtain ⟨source, block, holds⟩ := formatted.directory
  have shown : Holds (diskBytes image 1) 0 source (1 * blockSize) := by
    apply holds_diskBytes
    rintro index bound
    obtain rfl : index = 0 := by omega
    rw [Nat.cast_zero, zero_mul, ← block]
    rfl
  rw [(shown.shorten (by decide)).readDir_eq]
  exact readDir_eq holds

theorem readFatTable (formatted : Formatted image dir fat) :
    readFatTable (diskBytes image 2) = fun block => fat block.val := by
  obtain ⟨source, blocks, holds⟩ := formatted.table
  have shown : Holds (diskBytes image 2) 0 source (8 * blockSize) := by
    apply holds_diskBytes
    intro index bound
    apply blocks index _ bound
    rw [Fin.val_ofNat, Nat.mod_eq_of_lt]
    simp only [diskBlocks]
    omega
  rw [shown.readFatTable_eq]
  exact readFatTable_eq holds

end Formatted

theorem Holds.memcpy (target source : Buffer) (length : Nat) :
    Holds (Memory.memcpy target 0 source length) 0 source length := by
  intro offset nonneg bound
  rw [zero_add, Memory.memcpy_of_mem nonneg (by omega), sub_zero]

theorem fatIdx_add (index : Nat) (inside : 2 + index < diskBlocks) :
    layout.fatIdx.toInt + index = ((⟨2 + index, inside⟩ : BlockIndex).val : Nat) := by
  have value : layout.fatIdx.toInt = 2 := by decide
  rw [value]
  rfl

/-! ## mount_fs -/

def State.mounted (state : State) (dir : Directory) (fat : Nat → Int32) : State where
  device := { state.device with active := true }
  mount := true
  fs := some layout
  fildes := fun descriptor => { state.fildes descriptor with used := 0 }
  fat := fun block => fat block.val
  dir := dir

/-- On a disk with the super block of `make_fs`, `mount_fs` loads the blocks behind it. -/
theorem mountFs_layout (tolerance : Tolerance) (garbage : Nat → Buffer) {state : State}
    (inactive : state.device.active = false)
    (superBlock : readSuperBlock (diskBytes state.device.image 0) = layout) :
    mountFs tolerance garbage state =
      tolerate tolerance .fildesReset >>= fun _ =>
        .ok (0, state.mounted (readDir (diskBytes state.device.image 1))
          fun index => readInt (diskBytes state.device.image 2) (sizeofInt * index)) := by
  have opened : state.device.openDisk = some { state.device with active := true } := by
    simp [Device.openDisk, inactive]
  have active : ({ state.device with active := true } : Device).active = true := rfl
  have read0 : ({ state.device with active := true } : Device).blockRead 0 =
      some (state.device.image 0) := blockRead_val active 0
  have read1 : ({ state.device with active := true } : Device).blockRead layout.dirIdx.toInt =
      some (state.device.image 1) := blockRead_val active 1
  have super : readSuperBlock ((garbage 0).load 0 (state.device.image 0)) = layout := by
    rw [((holds_load (garbage 0) state.device.image 0).shorten (by decide)).readSuperBlock_eq]
    exact superBlock
  have directory : ∀ buffer : Buffer, readDir (buffer.load 0 (state.device.image 1)) =
      readDir (diskBytes state.device.image 1) :=
    fun buffer => ((holds_load buffer state.device.image 1).shorten (by decide)).readDir_eq
  have nothing : Holds (garbage 2) 0 (diskBytes state.device.image 2) (0 * blockSize) := by
    intro offset nonneg bound
    omega
  have pages : ∀ index : Nat, 0 ≤ index → index < 0 + 8 →
      ({ state.device with active := true } : Device).blockRead (layout.fatIdx.toInt + index) =
        some ((diskBytes state.device.image 2).blockAt (index * blockSize)) := by
    intro index _ bound
    have inside : 2 + index < diskBlocks := by
      simp only [diskBlocks]
      omega
    have same : (⟨2 + index, inside⟩ : BlockIndex) = Fin.ofNat _ (2 + index) :=
      Fin.ext (Nat.mod_eq_of_lt inside).symm
    rw [diskBytes_blockAt, ← same, fatIdx_add index inside]
    exact blockRead_val active _
  obtain ⟨table, read2, holdsTable⟩ := readPages_eq 8 nothing pages
  have restored : readFatTable table = readFatTable (diskBytes state.device.image 2) :=
    holdsTable.readFatTable_eq
  have noHeap : ¬8 * blockSize < sizeofInt * diskBlocks := by decide
  have count : layout.fatLen.toInt.toNat = 8 := by decide
  unfold mountFs
  simp only [opened, read0, super, read1, directory, count, read2, restored,
    if_neg noHeap]
  rfl

theorem mountFs_eq (tolerance : Tolerance) (garbage : Nat → Buffer) {state : State}
    {dir : Directory} {fat : Nat → Int32} (inactive : state.device.active = false)
    (formatted : Formatted state.device.image dir fat) :
    mountFs tolerance garbage state =
      tolerate tolerance .fildesReset >>= fun _ => .ok (0, state.mounted dir fat) := by
  have table : (fun block : BlockIndex =>
      readInt (diskBytes state.device.image 2) (sizeofInt * block.val)) = fun block => fat block.val :=
    formatted.readFatTable
  rw [mountFs_layout tolerance garbage inactive formatted.readSuperBlock, formatted.readDir]
  simp only [State.mounted, table]

/-! ## make_fs and umount_fs -/

theorem formatted_store {image : BlockIndex → Block} {dir : Directory} {fat : Nat → Int32}
    {source directory table : Buffer} (superBlock : image 0 = source.blockAt 0)
    (holdsSuper : Holds source 0 (superBlockBytes layout) sizeofSuperBlock)
    (holdsDir : Holds directory 0 (dirBytes dir) (maxFNum * sizeofDirEntry))
    (holdsTable : Holds table 0 (Memory.tiled sizeofInt fun index => intBytes (fat index))
      (diskBlocks * sizeofInt)) :
    Formatted (storePages table 2 0 8 (Function.update image 1 (directory.blockAt 0))) dir fat := by
  have other : ∀ block : BlockIndex, block.val < 2 →
      storePages table 2 0 8 (Function.update image 1 (directory.blockAt 0)) block =
        Function.update image 1 (directory.blockAt 0) block :=
    fun block small => if_neg (by omega)
  refine ⟨⟨source, ?_, holdsSuper⟩, ⟨directory, ?_, holdsDir⟩, ⟨table, ?_, holdsTable⟩⟩
  · rw [other 0 (by decide), Function.update_of_ne (by decide), superBlock]
  · rw [other 1 (by decide), Function.update_self]
  · intro index block bound value
    rw [storePages, if_pos (by omega)]
    congr 2
    omega

theorem layout_numbers : layout.dirIdx.toInt = ((1 : BlockIndex).val : Nat) ∧
    layout.fatIdx.toInt = (2 : Nat) ∧ layout.fatLen.toInt.toNat = 8 ∧
    ¬layout.dirLen.toInt * blockSize < blockSize := by decide

theorem blockWrite_zero {device : Device} (active : device.active = true) (content : Block) :
    device.blockWrite 0 content =
      some { device with image := Function.update device.image 0 content } :=
  blockWrite_val active 0 content

/-- On an open disk `make_fs` fails; otherwise it formats the disk. -/
theorem makeFs_cases (garbage : Nat → Buffer) (stack : NameField) (state : State) :
    (∃ failed, makeFs garbage stack state = (-1, failed)) ∧ state.device.active = true ∨
    ∃ image, makeFs garbage stack state =
        (0, { state with device := { active := false, image } }) ∧
      Formatted image (fun _ => blankDir stack) fun _ => 0 := by
  obtain ⟨dirIdx, fatIdx, fatLen, -⟩ := layout_numbers
  unfold makeFs
  cases inactive : state.device.active with
  | true =>
      have failed : state.device.makeDisk.openDisk = none := by
        simp [Device.openDisk, Device.makeDisk, inactive]
      refine .inl ⟨⟨{ state with device := state.device.makeDisk }, ?_⟩, rfl⟩
      simp only [failed]
  | false =>
      have opened : state.device.makeDisk.openDisk =
          some { state.device.makeDisk with active := true } := by
        simp [Device.openDisk, Device.makeDisk, inactive]
      have active : ∀ image, ({ active := true, image } : Device).active = true := fun _ => rfl
      have directory := Memory.foldl_memcpy_zero sizeofDirEntry maxFNum
        fun _ => entryBytes (blankDir stack)
      have table := fillPages_eq fun _ => intBytes 0
      simp only [opened, blockWrite_zero (active _), dirIdx, blockWrite_val (active _), fatLen,
        zeroPages, directory, table, writePages_eq fatIdx _ 8 0 _ (active _) (by decide),
        not_true_eq_false, if_false, Device.closeDisk, if_true]
      exact .inr ⟨_, rfl, formatted_store (Function.update_self _ _ _)
        (Holds.memcpy (garbage 0) _ _) (Holds.memcpy _ _ _)
        (holds_pages (fun _ => intBytes 0) 8 (garbage 1))⟩

/-- The FAT pages that `umount_fs` writes: on every page the first 1024 entries of `FAT`. -/
def fatImage (fat : Fat) (garbage : Buffer) : Buffer :=
  Memory.memcpy garbage 0
    (Memory.tiled blockSize fun _ => Memory.tiled sizeofInt fun i => intBytes (fat (Fin.ofNat _ i)))
    (8 * blockSize)

def State.unmountedImage (garbage : Nat → Buffer) (state : State) : BlockIndex → Block :=
  storePages (fatImage state.fat (garbage 1)) 2 0 8 (Function.update state.device.image 1
    (Buffer.blockAt (Memory.memcpy (garbage 0) 0 (dirBytes state.dir) (sizeofDirEntry * maxFNum)) 0))

def State.unmounted (garbage : Nat → Buffer) (state : State) : State :=
  { state with
    device := { active := false, image := state.unmountedImage garbage }
    mount := false
    fs := none }

theorem umountFs_eq (tolerance : Tolerance) (garbage : Nat → Buffer) {state : State}
    (mount : state.mount = true) (active : state.device.active = true)
    (fs : state.fs = some layout) :
    umountFs tolerance garbage state = .ok (0, state.unmounted garbage) := by
  obtain ⟨dirIdx, fatIdx, fatLen, noHeap⟩ := layout_numbers
  have superBlock : state.superBlock = .ok layout := by rw [State.superBlock, fs]
  have table := fillPages_eq fun i => intBytes (state.fat (Fin.ofNat _ i))
  have written : ∀ image, ({ active := state.device.active, image } : Device).active = true :=
    fun _ => active
  unfold umountFs
  rw [if_neg (not_not.mpr mount)]
  simp only [superBlock, bind, Except.bind, if_neg noHeap, dirIdx, blockWrite_val active, fatLen,
    fatPages, table, writePages_eq fatIdx _ 8 0 _ (written _) (by decide), not_true_eq_false,
    if_false, Device.closeDisk, if_pos active]
  rfl

theorem formatted_unmounted (garbage : Nat → Buffer) (state : State)
    (superBlock : ∃ source : Buffer, state.device.image 0 = source.blockAt 0 ∧
      Holds source 0 (superBlockBytes layout) sizeofSuperBlock) :
    Formatted (state.unmountedImage garbage) state.dir
      fun index => state.fat (Fin.ofNat _ (index % 1024)) := by
  obtain ⟨source, superBlock, holds⟩ := superBlock
  exact formatted_store superBlock holds (Holds.memcpy _ _ _)
    (holds_pages (fun i => intBytes (state.fat (Fin.ofNat _ i))) 8 (garbage 1))

/-! ## A fresh file system -/

/-- Right after mounting every entry is blank and every block is free. -/
theorem FreshMount.eq {tolerance : Tolerance} {state : State}
    (fresh : FreshMount tolerance state) :
    ∃ (made : State) (stack : NameField),
      state = made.mounted (fun _ => blankDir stack) (fun _ => 0) ∧
      Formatted made.device.image (fun _ => blankDir stack) (fun _ => 0) ∧
      tolerance .fildesReset = true := by
  obtain ⟨start, made, garbage, garbage', stack, done, mounted⟩ := fresh
  rcases makeFs_cases garbage stack start with ⟨⟨failed, stopped⟩, -⟩ | ⟨image, made', formatted⟩
  · rw [stopped] at done
    cases done
  rw [made'] at done
  cases done
  rw [mountFs_eq tolerance garbage' rfl formatted, tolerate_bind] at mounted
  split at mounted
  next tolerates =>
    cases mounted
    exact ⟨_, stack, rfl, formatted, tolerates⟩
  next => cases mounted

theorem FreshMount.unused {tolerance : Tolerance} {state : State}
    (fresh : FreshMount tolerance state) (slot : Slot) : ¬state.Used slot := by
  obtain ⟨made, stack, rfl, -, -⟩ := fresh.eq
  exact not_not.mpr rfl

def State.initial : State where
  device := { active := false, image := fun _ _ => 0 }
  mount := false
  fs := none
  fildes := fun _ => { used := 0, file := 0, offset := 0 }
  fat := fun _ => 0
  dir := fun _ => { used := 0, name := fun _ => 0, size := 0, head := 0, refCnt := 0 }

/-- Only the descriptor loop of `mount_fs` may leave its array. -/
def mountOnly : Tolerance := fun access => access = .fildesReset

/-- The first `make_fs` and `mount_fs` of the program give a fresh file system. -/
theorem exists_freshMount {tolerance : Tolerance} (tolerates : tolerance .fildesReset = true) :
    ∃ state, FreshMount tolerance state ∧ state.dir = (fun _ => blankDir fun _ => 0) ∧
      state.fat = (fun _ => 0) ∧ state.fildes = State.initial.fildes := by
  rcases makeFs_cases (fun _ _ => 0) (fun _ => 0) State.initial with ⟨-, active⟩ |
    ⟨image, made, formatted⟩
  · exact absurd active (by decide)
  · refine ⟨{ State.initial with device := { active := false, image } }.mounted
      (fun _ => blankDir fun _ => 0) fun _ => 0, ⟨_, _, _, fun _ _ => 0, _, made, ?_⟩, rfl, rfl, rfl⟩
    rw [mountFs_eq tolerance _ rfl formatted, tolerate_bind, if_pos tolerates]

theorem FreshMount.start {tolerance : Tolerance} {state : State}
    (fresh : FreshMount tolerance state) : SessionStart state := by
  have unused := fresh.unused
  obtain ⟨made, stack, rfl, -, -⟩ := fresh.eq
  refine ⟨rfl, rfl, ⟨?_, ?_, ?_⟩, fun _ _ => rfl, ?_, fun _ _ => .inr rfl, ?_, ?_,
    fun _ => rfl, fun _ => not_not.mpr rfl⟩
  · exact fun slot used => absurd used (unused slot)
  · exact fun first _ used => absurd used (unused first)
  · exact fun block _ => ⟨fun nonzero => absurd rfl nonzero,
      fun ⟨slot, used, _⟩ => absurd used (unused slot)⟩
  · exact fun slot _ => NameField.text_eq_nil (Function.update_self 0 0 stack)
  · exact fun slot used => absurd used (unused slot)
  · exact fun first _ used => absurd used (unused first)

/-! ## A first file -/

def fileName : CString := ⟨[102], by decide⟩

/-- The first file of a fresh file system takes the last directory entry and the first data
block, and the first descriptor. -/
theorem firstFile (tolerance : Tolerance) {state : State} (fs : state.fs = some layout)
    (dir : state.dir = fun _ => blankDir fun _ => 0) (fat : state.fat = fun _ => 0)
    (fildes : state.fildes = State.initial.fildes) :
    fsCreate state fileName = .ok (0, state.created 63 10 fileName) ∧
      fsOpen tolerance (state.created 63 10 fileName) fileName =
        .ok (0, (state.created 63 10 fileName).opened 63 0) := by
  have scanned : createScan state.dir fileName (List.finRange maxFNum) none = some (some 63) := by
    rw [dir]
    decide
  have free : firstFree state.fat layout = .ok ((10 : BlockIndex).val : Nat) := by
    rw [fat]
    rfl
  have superBlock : state.superBlock = .ok layout := by rw [State.superBlock, fs]
  have byName : search (fun file =>
      decide (((state.created 63 10 fileName).dir file).name.Matches fileName)) = some 63 := by
    simp only [State.created, dir]
    rfl
  have byUse : search (fun descriptor =>
      decide (((state.created 63 10 fileName).fildes descriptor).used = 0)) = some 0 := by
    simp only [State.created, fildes]
    rfl
  have used : ¬((state.created 63 10 fileName).dir 63).used = 0 := by
    simp [State.created]
  constructor
  · unfold fsCreate
    rw [if_neg (by decide)]
    simp only [scanned, superBlock, bind, Except.bind, free, writeFat_val]
    rfl
  · unfold fsOpen
    simp only [byName, if_neg used, byUse]
    rfl

end EC440.FileSystem
