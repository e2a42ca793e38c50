import EC440.FileSystem.Operations

/-!
# Making, mounting and unmounting

`make_fs`, `mount_fs` and `umount_fs` exchange the tables with the disk as raw
bytes.  The images below follow the layout of the structures on a machine with
four-byte little-endian integers and no padding between their members.
-/

namespace EC440.FileSystem

/-! ## Byte images -/

/-- The bytes of an `int`. -/
def intBytes (value : Int32) : Buffer := fun position =>
  UInt8.ofNat (value.toUInt32.toNat / 256 ^ position.toNat % 256)

/-- The `int` stored at a position. -/
def readInt (buffer : Buffer) (position : Int) : Int32 :=
  (UInt32.ofNat ((buffer position).toNat + 256 * (buffer (position + 1)).toNat +
    65536 * (buffer (position + 2)).toNat + 16777216 * (buffer (position + 3)).toNat)).toInt32

def sizeofInt : Nat := 4

def sizeofSuperBlock : Nat := 20

def sizeofDirEntry : Nat := 32

def superBlockBytes (superBlock : SuperBlock) : Buffer :=
  Memory.tiled sizeofInt fun field =>
    intBytes (match field with
      | 0 => superBlock.fatIdx
      | 1 => superBlock.fatLen
      | 2 => superBlock.dirIdx
      | 3 => superBlock.dirLen
      | _ => superBlock.dataIdx)

def readSuperBlock (buffer : Buffer) : SuperBlock where
  fatIdx := readInt buffer 0
  fatLen := readInt buffer 4
  dirIdx := readInt buffer 8
  dirLen := readInt buffer 12
  dataIdx := readInt buffer 16

/-- `used` at 0, `name` at 4, `size` at 20, `head` at 24 and `ref_cnt` at 28. -/
def entryBytes (entry : DirEntry) : Buffer := fun position =>
  if position < 4 then intBytes entry.used position
  else if position < 20 then entry.name (Fin.ofNat _ (position - 4).toNat)
  else if position < 24 then intBytes entry.size (position - 20)
  else if position < 28 then intBytes entry.head (position - 24)
  else intBytes entry.refCnt (position - 28)

def readEntry (buffer : Buffer) (position : Int) : DirEntry where
  used := readInt buffer position
  name := fun character => buffer (position + 4 + character.val)
  size := readInt buffer (position + 20)
  head := readInt buffer (position + 24)
  refCnt := readInt buffer (position + 28)

/-- The memory of `DIR`. -/
def dirBytes (dir : Directory) : Buffer :=
  Memory.tiled sizeofDirEntry fun slot => entryBytes (dir (Fin.ofNat _ slot))

/-- `memcpy(DIR, buffer, sizeof(dir_entry) * MAX_F_NUM)` -/
def readDir (buffer : Buffer) : Directory := fun slot =>
  readEntry buffer (sizeofDirEntry * slot.val)

/-- `memcpy(FAT, buffer, sizeof(int) * DISK_BLOCKS)` -/
def readFatTable (buffer : Buffer) : Fat := fun block =>
  readInt buffer (sizeofInt * block.val)

/-! ## make_fs -/

/-- The super block that `make_fs` computes. -/
def layout : SuperBlock :=
  let dirIdx := 1
  let dirLen := sizeofDirEntry * maxFNum / blockSize + 1
  let fatIdx := dirIdx + dirLen
  let fatLen := sizeofInt * diskBlocks / blockSize
  { dirIdx := Int32.ofNat dirIdx
    dirLen := Int32.ofNat dirLen
    fatIdx := Int32.ofNat fatIdx
    fatLen := Int32.ofNat fatLen
    dataIdx := Int32.ofNat (fatIdx + fatLen) }

/-- `for (page = 0; page < count; page++) block_write(first + page, buffer + page * BLOCK_SIZE)`
with the number of pages left.  The flag tells whether every `block_write` succeeded. -/
def writePages (first : Int32) (buffer : Buffer) : Nat → Nat → Device → Bool × Device
  | 0, _, device => (true, device)
  | remaining + 1, page, device =>
      match device.blockWrite (first.toInt + page) (buffer.blockAt (page * blockSize)) with
      | none => (false, device)
      | some device => writePages first buffer remaining (page + 1) device

/-- The loops of `make_fs` that zero the FAT pages. -/
def zeroPages (pages : Nat) (buffer : Buffer) : Buffer :=
  (List.range pages).foldl (fun buffer (page : Nat) =>
    (List.range (blockSize / sizeofInt)).foldl (fun buffer (i : Nat) =>
      buffer.memcpy (page * blockSize + i * sizeofInt) (intBytes 0) sizeofInt)
      buffer) buffer

/-- `blank_dir`: all but the first byte of the name is whatever the stack held. -/
def blankDir (stack : NameField) : DirEntry :=
  { used := 0, name := Function.update stack 0 0, size := 0, head := -1, refCnt := 0 }

def makeFs (garbage : Nat → Buffer) (stack : NameField) (state : State) : Int32 × State :=
  let device := state.device.makeDisk
  match device.openDisk with
  | none => (-1, { state with device })
  | some device =>
      let buffer : Buffer := (garbage 0).memcpy 0 (superBlockBytes layout) sizeofSuperBlock
      match device.blockWrite 0 (buffer.blockAt 0) with
      | none => (-1, { state with device })
      | some device =>
          let buffer : Buffer := buffer.memcpy 0 (fun _ => 0) blockSize
          let buffer : Buffer := (List.range maxFNum).foldl (fun buffer (i : Nat) =>
            buffer.memcpy (i * sizeofDirEntry) (entryBytes (blankDir stack)) sizeofDirEntry)
            buffer
          match device.blockWrite layout.dirIdx.toInt (buffer.blockAt 0) with
          | none => (-1, { state with device })
          | some device =>
              let pages := layout.fatLen.toInt.toNat
              let buffer := zeroPages pages (garbage 1)
              let (complete, device) := writePages layout.fatIdx buffer pages 0 device
              if ¬complete then
                (-1, { state with device })
              else
                match device.closeDisk with
                | none => (-1, { state with device })
                | some device => (0, { state with device })

/-! ## mount_fs -/

/-- `for (page = 0; page < count; page++) block_read(first + page, buffer + page * BLOCK_SIZE)`
with the number of pages left; `none` is a failed `block_read`. -/
def readPages (device : Device) (first : Int32) : Nat → Nat → Buffer → Option Buffer
  | 0, _, buffer => some buffer
  | remaining + 1, page, buffer =>
      match device.blockRead (first.toInt + page) with
      | none => none
      | some block =>
          readPages device first remaining (page + 1) (buffer.load (page * blockSize) block)

/-- The last loop runs up to `MAX_F_NUM`, twice the number of descriptors. -/
def mountFs (tolerance : Tolerance) (garbage : Nat → Buffer) (state : State) :
    Outcome (Int32 × State) :=
  match state.device.openDisk with
  | none => .ok (-1, state)
  | some device =>
      match device.blockRead 0 with
      | none => .ok (-1, { state with device, fs := some (readSuperBlock (garbage 1)) })
      | some block =>
          let buffer := (garbage 0).load 0 block
          let superBlock := readSuperBlock buffer
          match device.blockRead superBlock.dirIdx.toInt with
          | none => .ok (-1, { state with device, fs := some superBlock })
          | some block =>
              let buffer := Buffer.load (buffer.memcpy 0 (fun _ => 0) blockSize) 0 block
              let dir := readDir buffer
              let pages := superBlock.fatLen.toInt.toNat
              match readPages device superBlock.fatIdx pages 0 (garbage 2) with
              | none => .ok (-1, { state with device, dir, fs := some superBlock })
              | some buffer => do
                  if pages * blockSize < sizeofInt * diskBlocks then
                    tolerate tolerance .heap
                  tolerate tolerance .fildesReset
                  .ok (0, {
                    device, dir
                    mount := true
                    fs := some superBlock
                    fat := readFatTable buffer
                    fildes := fun descriptor => { state.fildes descriptor with used := 0 } })

/-! ## umount_fs -/

/-- The loops of `umount_fs` that fill the FAT pages.  The source address is `&FAT[i]` on
every page. -/
def fatPages (fat : Fat) (pages : Nat) (buffer : Buffer) : Buffer :=
  (List.range pages).foldl (fun buffer (page : Nat) =>
    (List.range (blockSize / sizeofInt)).foldl (fun buffer (i : Nat) =>
      buffer.memcpy (page * blockSize + i * sizeofInt)
        (intBytes (fat (Fin.ofNat _ i))) sizeofInt) buffer) buffer

def umountFs (tolerance : Tolerance) (garbage : Nat → Buffer) (state : State) :
    Outcome (Int32 × State) :=
  if ¬state.mount then
    .ok (-1, state)
  else do
    let superBlock ← state.superBlock
    if superBlock.dirLen.toInt * blockSize < blockSize then
      tolerate tolerance .heap
    let buffer : Buffer := (garbage 0).memcpy 0 (dirBytes state.dir) (sizeofDirEntry * maxFNum)
    match state.device.blockWrite superBlock.dirIdx.toInt (buffer.blockAt 0) with
    | none => .ok (-1, state)
    | some device =>
        let pages := superBlock.fatLen.toInt.toNat
        let buffer := fatPages state.fat pages (garbage 1)
        let (complete, device) := writePages superBlock.fatIdx buffer pages 0 device
        if ¬complete then
          .ok (-1, { state with device })
        else
          match device.closeDisk with
          | none => .ok (-1, { state with device })
          | some device => .ok (0, { state with device, mount := false, fs := none })

/-- A file system just made by `make_fs` and mounted by `mount_fs`. -/
def FreshMount (tolerance : Tolerance) (state : State) : Prop :=
  ∃ (start made : State) (garbage garbage' : Nat → Buffer) (stack : NameField),
    makeFs garbage stack start = (0, made) ∧
      mountFs tolerance garbage' made = .ok (0, state)

end EC440.FileSystem
