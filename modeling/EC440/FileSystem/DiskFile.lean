import EC440.FileSystem.State
import EC440.Library.Descriptors
import EC440.Library.Ranges

/-!
# The file behind the virtual disk

`disk.c` keeps the blocks in a file of the host, which it reads and writes by
`lseek`, `read` and `write`.  For the file system it is a `Device`, as long as
the file has its full size: `make_disk` does not look at what its writes return,
and a `block_read` behind the end of the file reports success.
-/

namespace EC440.FileSystem

open Descriptors Ranges

/-! ## The host -/

abbrev FileName := List UInt8

/-- What the calls of the host depend on: how many descriptors a process may have, which files it
may create and write, and to which size a file can grow. -/
structure Host where
  limit : Nat
  permits : FileName → Bool
  room : Nat

structure OpenFile where
  name : FileName
  offset : Nat
  deriving DecidableEq, Repr

/-- `active` and `handle`, and what the host knows of the files and of the descriptors. -/
structure Disk where
  active : Bool
  handle : Nat
  files : FileName → Option (List UInt8)
  table : Descriptors.Table OpenFile

namespace Disk

variable (host : Host) (disk : Disk)

def content (name : FileName) : List UInt8 :=
  (disk.files name).getD []

def setFile (name : FileName) (bytes : List UInt8) : Disk :=
  { disk with files := Function.update disk.files name (some bytes) }

def setOpen (fd : Nat) (file : OpenFile) : Disk :=
  { disk with table := Function.update disk.table fd (some file) }

/-- `lseek(fd, position, SEEK_SET)`: `none` is the return value -1. -/
def lseek (fd : Nat) (position : Int) : Option Disk :=
  match disk.table fd, position with
  | some file, .ofNat offset => some (disk.setOpen fd { file with offset })
  | _, _ => none

/-- `write(fd, data, _)`: `none` is the return value -1, and nothing else is told of how much has
been written. -/
def write (fd : Nat) (data : List UInt8) : Option Disk :=
  (disk.table fd).bind fun file =>
    let written := data.take (host.room - file.offset)
    if data ≠ [] ∧ written = [] then none
    else
      let bytes := disk.content file.name
      -- what a seek has passed over is read as zero
      let bytes := bytes ++ List.replicate (file.offset - bytes.length) 0
      some ((disk.setFile file.name (overwrite bytes file.offset written)).setOpen fd
        { file with offset := file.offset + written.length })

/-- `read(fd, _, count)` with the bytes that are read: `none` is the return value -1. -/
def read (fd count : Nat) : Option (List UInt8 × Disk) :=
  (disk.table fd).map fun file =>
    let bytes := slice (disk.content file.name) file.offset count
    (bytes, disk.setOpen fd { file with offset := file.offset + bytes.length })

end Disk

/-! ## disk.c -/

def Block.bytes (block : Block) : List UInt8 :=
  List.ofFn block

@[simp]
theorem Block.length_bytes (block : Block) : block.bytes.length = blockSize :=
  List.length_ofFn

/-- What `memset(buf, 0, BLOCK_SIZE)` leaves. -/
def zeroBlock : Block := fun _ => 0

namespace Disk

variable (host : Host) (disk : Disk)

/-- The loop of `make_disk`.  It does not look at what `write` returns. -/
def writeZeros (f : Nat) : Nat → Disk → Disk
  | 0, disk => disk
  | count + 1, disk => writeZeros f count ((disk.write host f zeroBlock.bytes).getD disk)

def makeDisk : Option FileName → Int32 × Disk
  | none => (-1, disk)
  | some name =>
      match if host.permits name then allocate host.limit disk.table { name, offset := 0 }
          else none with
      | none => (-1, disk)
      | some (table, f) =>
          let made := writeZeros host f diskBlocks { disk.setFile name [] with table }
          (0, { made with table := close made.table f })

def openDisk : Option FileName → Int32 × Disk
  | none => (-1, disk)
  | some name =>
      if disk.active then (-1, disk)
      else
        match if host.permits name ∧ (disk.files name).isSome then
            allocate host.limit disk.table { name, offset := 0 } else none with
        | none => (-1, disk)
        | some (table, f) => (0, { disk with table, handle := f, active := true })

def closeDisk : Int32 × Disk :=
  if disk.active then
    (0, { disk with table := close disk.table disk.handle, active := false, handle := 0 })
  else (-1, disk)

def blockWrite (block : Int) (buf : Block) : Int32 × Disk :=
  if disk.active ∧ 0 ≤ block ∧ block < diskBlocks then
    match disk.lseek disk.handle (block * blockSize) with
    | none => (-1, disk)
    | some sought =>
        match sought.write host sought.handle buf.bytes with
        | none => (-1, sought)
        | some written => (0, written)
  else (-1, disk)

/-- The buffer of the caller keeps what `read` does not store. -/
def blockRead (block : Int) (buf : Block) : (Int32 × Block) × Disk :=
  if disk.active ∧ 0 ≤ block ∧ block < diskBlocks then
    match disk.lseek disk.handle (block * blockSize) with
    | none => ((-1, buf), disk)
    | some sought =>
        match sought.read sought.handle blockSize with
        | none => ((-1, buf), sought)
        | some (bytes, seen) => ((0, fun byte => bytes[byte.val]?.getD (buf byte)), seen)
  else ((-1, buf), disk)

end Disk

/-! ## Calls -/

/-- A call of `disk.c`, with the buffer of the caller. -/
inductive DiskCall where
  | makeDisk
  | openDisk
  | closeDisk
  | blockWrite (block : Int) (buf : Block)
  | blockRead (block : Int) (buf : Block)

abbrev DiskReply := Int32 × Option Block

def Disk.exec (host : Host) (name : FileName) (disk : Disk) : DiskCall → DiskReply × Disk
  | .makeDisk => ((disk.makeDisk host name).map (·, none) id)
  | .openDisk => ((disk.openDisk host name).map (·, none) id)
  | .closeDisk => (disk.closeDisk.map (·, none) id)
  | .blockWrite block buf => ((disk.blockWrite host block buf).map (·, none) id)
  | .blockRead block buf => ((disk.blockRead block buf).map (fun reply => (reply.1, some reply.2)) id)

/-- An answer of the device, where `none` stands for -1. -/
def Device.answer (device : Device) : Option Device → DiskReply × Device
  | some after => ((0, none), after)
  | none => ((-1, none), device)

def Device.exec (device : Device) : DiskCall → DiskReply × Device
  | .makeDisk => ((0, none), device.makeDisk)
  | .openDisk => device.answer device.openDisk
  | .closeDisk => device.answer device.closeDisk
  | .blockWrite block buf => device.answer (device.blockWrite block buf)
  | .blockRead block buf =>
      match device.blockRead block with
      | some content => ((0, some content), device)
      | none => ((-1, some buf), device)

def replies {Machine : Type} (exec : Machine → DiskCall → DiskReply × Machine) :
    List DiskCall → Machine → List DiskReply
  | [], _ => []
  | call :: rest, machine => (exec machine call).1 :: replies exec rest (exec machine call).2

/-! ## make_disk -/

namespace Disk

variable {host : Host} {disk : Disk} {name : FileName} {f : Nat}

def filled (disk : Disk) (name : FileName) (f size : Nat) : Disk :=
  (disk.setFile name (List.replicate size 0)).setOpen f { name, offset := size }

theorem content_setFile (bytes : List UInt8) : (disk.setFile name bytes).content name = bytes := by
  simp [content, setFile]

theorem zeroBlock_take (count : Nat) :
    zeroBlock.bytes.take count = List.replicate (min count blockSize) 0 := by
  have zeros : zeroBlock.bytes = List.replicate blockSize 0 := List.ofFn_const ..
  rw [zeros, List.take_replicate]

theorem write_filled {size : Nat} (fits : size ≤ host.room) :
    (((disk.filled name f size).write host f zeroBlock.bytes).getD (disk.filled name f size)) =
      disk.filled name f (min (size + blockSize) host.room) := by
  have isOpen : (disk.filled name f size).table f = some { name, offset := size } :=
    Function.update_self ..
  have held : (disk.filled name f size).content name = List.replicate size 0 :=
    content_setFile _
  have isBlock : zeroBlock.bytes ≠ [] := by
    rw [← List.length_pos_iff, Block.length_bytes]
    decide
  simp only [write, isOpen, Option.bind_some, zeroBlock_take, held, List.length_replicate,
    Nat.sub_self, List.replicate_zero, List.append_nil]
  by_cases full : host.room = size
  · subst full
    rw [Nat.sub_self, Nat.zero_min, List.replicate_zero, if_pos ⟨isBlock, rfl⟩,
      Nat.min_eq_right (Nat.le_add_right ..)]
    rfl
  · have positive : 0 < min (host.room - size) blockSize := by
      have width : 0 < blockSize := by decide
      omega
    have notEmpty : List.replicate (min (host.room - size) blockSize) (0 : UInt8) ≠ [] := by
      rw [← List.length_pos_iff, List.length_replicate]
      exact positive
    have grown : size + min (host.room - size) blockSize = min (size + blockSize) host.room := by
      omega
    rw [if_neg fun failed => notEmpty failed.2]
    have appended : overwrite (List.replicate size (0 : UInt8)) size
        (List.replicate (min (host.room - size) blockSize) 0) =
          List.replicate (min (size + blockSize) host.room) 0 := by
      rw [overwrite, List.take_of_length_le (by simp), List.drop_of_length_le (by simp),
        List.append_nil, List.replicate_append_replicate, grown]
    rw [appended, grown]
    simp [filled, setFile, setOpen]

theorem writeZeros_filled {size : Nat} (fits : size ≤ host.room) (count : Nat) :
    writeZeros host f count (disk.filled name f size) =
      disk.filled name f (min (size + count * blockSize) host.room) := by
  induction count generalizing size with
  | zero =>
      rw [Nat.zero_mul, Nat.add_zero, Nat.min_eq_left fits]
      rfl
  | succ count inductionHypothesis =>
      have next : min (min (size + blockSize) host.room + count * blockSize) host.room =
          min (size + (count + 1) * blockSize) host.room := by
        rw [Nat.add_mul]
        omega
      rw [writeZeros, write_filled fits, inductionHypothesis (min_le_right ..), next]

/-- `make_disk` succeeds, however little of the file there is room for. -/
theorem makeDisk_eq {fd : Nat} (permits : host.permits name = true) (inside : fd < host.limit)
    (isFree : disk.table fd = none) :
    disk.makeDisk host (some name) =
      (0, disk.setFile name (List.replicate (min (diskBlocks * blockSize) host.room) 0)) := by
  rcases exists_allocate ({ name, offset := 0 } : OpenFile) inside isFree with
    ⟨f, allocated, newFree, -⟩
  have made : writeZeros host f diskBlocks (disk.filled name f 0) =
      disk.filled name f (min (diskBlocks * blockSize) host.room) := by
    rw [writeZeros_filled (Nat.zero_le _), Nat.zero_add]
  have started : { disk.setFile name [] with
      table := Function.update disk.table f (some { name, offset := 0 }) } =
        disk.filled name f 0 := rfl
  simp only [makeDisk, permits, if_true, allocated, started, made]
  have closed (offset : Nat) :
      close (Function.update disk.table f (some { name, offset })) f = disk.table := by
    rw [close, Function.update_idem, ← newFree, Function.update_eq_self]
  simp only [filled, setOpen, setFile, closed]

/-! ## Calls with an open file -/

section OpenFiles

variable {offset : Nat}

theorem openDisk_eq {fd : Nat} (permits : host.permits name = true) (closed : disk.active = false)
    (isFile : (disk.files name).isSome = true)
    (allocated : allocate host.limit disk.table { name, offset := 0 } =
      some (Function.update disk.table fd (some { name, offset := 0 }), fd)) :
    disk.openDisk host (some name) =
      (0, { disk.setOpen fd { name, offset := 0 } with handle := fd, active := true }) := by
  simp only [openDisk, closed, Bool.false_eq_true, if_false, permits, isFile, and_self, if_true,
    allocated]
  rfl

theorem lseek_block (isOpen : disk.table disk.handle = some { name, offset })
    (target : BlockIndex) :
    disk.lseek disk.handle (target.val * blockSize) =
      some (disk.setOpen disk.handle { name, offset := target.val * blockSize }) := by
  have position : ((target.val : Int) * (blockSize : Int)) =
      Int.ofNat (target.val * blockSize) := (Int.natCast_mul _ _).symm
  simp only [lseek, isOpen, position]

theorem setOpen_table (fd : Nat) (file : OpenFile) : (disk.setOpen fd file).table fd = some file :=
  Function.update_self ..

theorem setOpen_setOpen (fd : Nat) (file next : OpenFile) :
    (disk.setOpen fd file).setOpen fd next = disk.setOpen fd next := by
  simp only [setOpen, Function.update_idem]

/-- `block_read` stores as many bytes as there are and says nothing of the others. -/
theorem blockRead_eq (active : disk.active = true)
    (isOpen : disk.table disk.handle = some { name, offset }) (target : BlockIndex)
    (buf : Block) :
    let bytes := slice (disk.content name) (target.val * blockSize) blockSize
    disk.blockRead target.val buf =
      ((0, fun byte => bytes[byte.val]?.getD (buf byte)),
        disk.setOpen disk.handle
          { name, offset := target.val * blockSize + bytes.length }) := by
  intro bytes
  have inside : (0 : Int) ≤ target.val ∧ (target.val : Int) < diskBlocks :=
    ⟨Int.natCast_nonneg _, Int.ofNat_lt.mpr target.isLt⟩
  have sameHandle (file : OpenFile) :
      (disk.setOpen disk.handle file).handle = disk.handle := rfl
  have sameContent (file : OpenFile) :
      (disk.setOpen disk.handle file).content name = disk.content name := rfl
  simp only [blockRead, active, inside, and_self, if_true, lseek_block isOpen, read, sameHandle,
    setOpen_table, sameContent, Option.map_some, setOpen_setOpen]
  rfl

end OpenFiles

end Disk

/-! ## Full-sized files -/

def Disk.Spare (host : Host) (disk : Disk) : Prop :=
  ∃ first second, first ≠ second ∧ first < host.limit ∧ second < host.limit ∧
    disk.table first = none ∧
    (disk.table second = none ∨ disk.active = true ∧ second = disk.handle)

/-- The file holds the blocks of the device, and `handle` is open on it if the device is active. -/
structure Represents (host : Host) (name : FileName) (disk : Disk) (device : Device) : Prop where
  active : disk.active = device.active
  handle : disk.active = true → ∃ offset, disk.table disk.handle = some { name, offset }
  isFile : (disk.files name).isSome
  size : (disk.content name).length = diskBlocks * blockSize
  blocks : ∀ (block : BlockIndex) (byte : Fin blockSize),
    (disk.content name)[block.val * blockSize + byte.val]? = some (device.image block byte)
  spare : disk.Spare host

theorem blockIndex?_eq {block : Int} (inside : 0 ≤ block ∧ block < diskBlocks) :
    ∃ target : BlockIndex, blockIndex? block = some target ∧ block = target.val := by
  rcases Int.eq_ofNat_of_zero_le inside.1 with ⟨index, rfl⟩
  have bound : index < diskBlocks := Int.ofNat_lt.mp inside.2
  exact ⟨⟨index, bound⟩, dif_pos bound, rfl⟩

theorem blockIndex?_eq_none {block : Int} (outside : ¬(0 ≤ block ∧ block < diskBlocks)) :
    blockIndex? block = none := by
  cases block with
  | ofNat index =>
      refine dif_neg fun bound => outside ⟨Int.natCast_nonneg _, ?_⟩
      exact Int.ofNat_lt.mpr bound
  | negSucc index => rfl

theorem within_block_iff (target block : BlockIndex) (byte : Fin blockSize) :
    target.val * blockSize ≤ block.val * blockSize + byte.val ∧
      block.val * blockSize + byte.val < target.val * blockSize + blockSize ↔ block = target := by
  have bound := byte.isLt
  rw [Fin.ext_iff]
  unfold blockSize at bound ⊢
  omega

namespace Represents

variable {host : Host} {name : FileName} {disk : Disk} {device : Device}

theorem setOpen (represents : Represents host name disk device) (active : disk.active = true)
    (offset : Nat) :
    Represents host name (disk.setOpen disk.handle { name, offset }) device where
  active := represents.active
  handle := fun _ => ⟨offset, Function.update_self ..⟩
  isFile := represents.isFile
  size := represents.size
  blocks := represents.blocks
  spare := by
    rcases represents.handle active with ⟨offset, isOpen⟩
    rcases represents.spare with ⟨first, second, differ, inside, insideToo, free, freeToo⟩
    have notHandle : first ≠ disk.handle := by
      rintro rfl
      exact absurd (free.symm.trans isOpen) nofun
    refine ⟨first, second, differ, inside, insideToo, ?_, ?_⟩
    · exact (Function.update_of_ne notHandle ..).trans free
    · by_cases isHandle : second = disk.handle
      · exact .inr ⟨active, isHandle⟩
      · refine .inl ((Function.update_of_ne isHandle ..).trans ?_)
        exact freeToo.resolve_right fun same => isHandle same.2

theorem setBlock (represents : Represents host name disk device) (target : BlockIndex)
    (buf : Block) :
    Represents host name
      (disk.setFile name (overwrite (disk.content name) (target.val * blockSize) buf.bytes))
      { device with image := Function.update device.image target buf } := by
  have size := represents.size
  have bound := target.isLt
  have inside : target.val * blockSize + blockSize ≤ (disk.content name).length := by
    rw [size]
    unfold blockSize diskBlocks at *
    omega
  have starts : target.val * blockSize ≤ (disk.content name).length :=
    (Nat.le_add_right ..).trans inside
  constructor
  case active => exact represents.active
  case handle => exact represents.handle
  case isFile => simp [Disk.setFile]
  case size =>
      rw [Disk.content_setFile, length_overwrite starts, Block.length_bytes, max_eq_left inside,
        size]
  case blocks =>
      intro block byte
      rw [Disk.content_setFile, getElem?_overwrite starts, Block.length_bytes]
      by_cases same : block = target
      · subst same
        rw [if_pos ((within_block_iff block block byte).mpr rfl), Nat.add_sub_cancel_left,
          Block.bytes, List.getElem?_ofFn, dif_pos byte.isLt]
        change _ = some (Function.update device.image block buf block byte)
        rw [Function.update_self]
      · rw [if_neg fun within => same ((within_block_iff target block byte).mp within),
          represents.blocks]
        change _ = some (Function.update device.image target buf block byte)
        rw [Function.update_of_ne same]
  case spare => exact represents.spare

theorem zeros {disk : Disk} {active : Bool} (sameActive : disk.active = active)
    (handle : disk.active = true → ∃ offset, disk.table disk.handle = some { name, offset })
    (spare : disk.Spare host) :
    Represents host name (disk.setFile name (List.replicate (diskBlocks * blockSize) 0))
      { active, image := fun _ _ => 0 } where
  active := sameActive
  handle := handle
  isFile := by simp [Disk.setFile]
  size := by rw [Disk.content_setFile, List.length_replicate]
  blocks := by
    intro block byte
    have inside : block.val * blockSize + byte.val < diskBlocks * blockSize := by
      have bounds := And.intro block.isLt byte.isLt
      unfold blockSize diskBlocks at *
      omega
    rw [Disk.content_setFile, List.getElem?_replicate, if_pos inside]
  spare := spare

/-! ## Each call does what it does to the device -/

section Calls

variable (represents : Represents host name disk device) (permits : host.permits name = true)
  (room : diskBlocks * blockSize ≤ host.room)

include represents

theorem opened {fd : Nat} (inside : fd < host.limit)
    (closed : disk.active = false) :
    Represents host name
      { disk with
        table := Function.update disk.table fd (some { name, offset := 0 })
        handle := fd
        active := true }
      { device with active := true } where
  active := rfl
  handle := fun _ => ⟨0, Function.update_self ..⟩
  isFile := represents.isFile
  size := represents.size
  blocks := represents.blocks
  spare := by
    rcases represents.spare with ⟨first, second, differ, firstInside, secondInside, free, freeToo⟩
    have secondFree : disk.table second = none := by
      refine freeToo.resolve_right fun same => ?_
      rw [closed] at same
      exact absurd same.1 Bool.false_ne_true
    -- one of the two is still free, and the new handle is the other one that will be
    by_cases same : first = fd
    · refine ⟨second, fd, ?_, secondInside, inside, ?_, .inr ⟨rfl, rfl⟩⟩
      · exact fun isFd => differ (same.trans isFd.symm)
      · refine (Function.update_of_ne ?_ ..).trans secondFree
        exact fun isFd => differ (same.trans isFd.symm)
    · exact ⟨first, fd, same, firstInside, inside, (Function.update_of_ne same ..).trans free,
        .inr ⟨rfl, rfl⟩⟩

theorem closed :
    Represents host name
      { disk with table := close disk.table disk.handle, active := false, handle := 0 }
      { device with active := false } where
  active := rfl
  handle := nofun
  isFile := represents.isFile
  size := represents.size
  blocks := represents.blocks
  spare := by
    rcases represents.spare with ⟨first, second, differ, inside, insideToo, free, freeToo⟩
    refine ⟨first, second, differ, inside, insideToo, ?_, .inl ?_⟩
    · change close disk.table disk.handle first = none
      rw [close_apply, free, ite_self]
    · change close disk.table disk.handle second = none
      rw [close_apply]
      split
      · rfl
      · next notHandle => exact freeToo.resolve_right fun same => notHandle same.2

include permits

theorem openDisk :
    let reply := disk.openDisk host (some name)
    let answer := device.answer device.openDisk
    (reply.1, none) = answer.1 ∧ Represents host name reply.2 answer.2 := by
  by_cases active : disk.active = true
  · have deviceActive : device.active = true := represents.active ▸ active
    simp only [Disk.openDisk, Device.openDisk, active, deviceActive, if_true]
    exact ⟨rfl, represents⟩
  · have closed : disk.active = false := Bool.eq_false_iff.mpr active
    have deviceClosed : device.active = false := represents.active ▸ closed
    rcases represents.spare with ⟨first, second, -, inside, -, free, -⟩
    rcases exists_allocate ({ name, offset := 0 } : OpenFile) inside free with
      ⟨fd, allocated, -, fdInside⟩
    have opens := Disk.openDisk_eq permits closed represents.isFile allocated
    simp only [opens, Device.openDisk, deviceClosed, Bool.false_eq_true, if_false]
    exact ⟨rfl, represents.opened fdInside closed⟩

omit permits in
theorem closeDisk :
    let reply := disk.closeDisk
    let answer := device.answer device.closeDisk
    (reply.1, none) = answer.1 ∧ Represents host name reply.2 answer.2 := by
  by_cases active : disk.active = true
  · have deviceActive : device.active = true := represents.active ▸ active
    simp only [Disk.closeDisk, Device.closeDisk, active, deviceActive, if_true]
    exact ⟨rfl, represents.closed⟩
  · have deviceClosed : ¬device.active = true := represents.active ▸ active
    simp only [Disk.closeDisk, Device.closeDisk, if_neg active, if_neg deviceClosed]
    exact ⟨rfl, represents⟩

omit permits in
theorem blockRead (block : Int) (buf : Block) :
    let reply := disk.blockRead block buf
    let answer := device.exec (.blockRead block buf)
    (reply.1.1, some reply.1.2) = answer.1 ∧ Represents host name reply.2 answer.2 := by
  by_cases active : disk.active = true
  · have deviceActive : device.active = true := represents.active ▸ active
    by_cases inside : 0 ≤ block ∧ block < diskBlocks
    · rcases blockIndex?_eq inside with ⟨target, found, rfl⟩
      rcases represents.handle active with ⟨offset, isOpen⟩
      have whole : (fun byte : Fin blockSize => (slice (disk.content name)
          (target.val * blockSize) blockSize)[byte.val]?.getD (buf byte)) =
            device.image target := by
        funext byte
        rw [getElem?_slice, if_pos byte.isLt, represents.blocks target byte]
        rfl
      have answers : device.exec (.blockRead target.val buf) =
          ((0, some (device.image target)), device) := by
        simp only [Device.exec, Device.blockRead, deviceActive, if_true, found, Option.map_some]
      simp only [Disk.blockRead_eq active isOpen, whole, answers]
      exact ⟨trivial, represents.setOpen active _⟩
    · have refused : ¬(disk.active = true ∧ 0 ≤ block ∧ block < diskBlocks) :=
        fun all => inside all.2
      simp only [Disk.blockRead, Device.exec, Device.blockRead, if_neg refused,
        blockIndex?_eq_none inside, Option.map_none, ite_self]
      exact ⟨trivial, represents⟩
  · have deviceClosed : ¬device.active = true := represents.active ▸ active
    have refused : ¬(disk.active = true ∧ 0 ≤ block ∧ block < diskBlocks) :=
      fun all => active all.1
    simp only [Disk.blockRead, Device.exec, Device.blockRead, if_neg refused, if_neg deviceClosed]
    exact ⟨trivial, represents⟩

include room

omit permits in
theorem blockWrite (block : Int) (buf : Block) :
    let reply := disk.blockWrite host block buf
    let answer := device.answer (device.blockWrite block buf)
    (reply.1, none) = answer.1 ∧ Represents host name reply.2 answer.2 := by
  by_cases active : disk.active = true
  · have deviceActive : device.active = true := represents.active ▸ active
    by_cases inside : 0 ≤ block ∧ block < diskBlocks
    · rcases blockIndex?_eq inside with ⟨target, found, rfl⟩
      rcases represents.handle active with ⟨offset, isOpen⟩
      have sought := represents.setOpen active (target.val * blockSize)
      have sameHandle (file : OpenFile) :
          (disk.setOpen disk.handle file).handle = disk.handle := rfl
      have sameContent (file : OpenFile) :
          (disk.setOpen disk.handle file).content name = disk.content name := rfl
      have bound : target.val * blockSize + blockSize ≤ diskBlocks * blockSize := by
        have below := target.isLt
        unfold blockSize diskBlocks at *
        omega
      have whole : buf.bytes.take (host.room - target.val * blockSize) = buf.bytes := by
        apply List.take_of_length_le
        rw [Block.length_bytes]
        omega
      have noHole : List.replicate (target.val * blockSize - (disk.content name).length)
          (0 : UInt8) = [] := by
        rw [represents.size, Nat.sub_eq_zero_of_le (by omega)]
        rfl
      have notEmpty : ¬(buf.bytes ≠ [] ∧ buf.bytes = []) := fun both => both.1 both.2
      simp only [Disk.blockWrite, Device.blockWrite, active, deviceActive, inside, and_self,
        if_true, Disk.lseek_block isOpen, Disk.write, sameHandle, Disk.setOpen_table,
        Option.bind_some, whole, if_neg notEmpty, sameContent, noHole, List.append_nil, found,
        Option.map_some]
      have written := (sought.setBlock target buf).setOpen active
        (target.val * blockSize + buf.bytes.length)
      rw [deviceActive] at written
      exact ⟨rfl, written⟩
    · have refused : ¬(disk.active = true ∧ 0 ≤ block ∧ block < diskBlocks) :=
        fun all => inside all.2
      simp only [Disk.blockWrite, Device.blockWrite, if_neg refused, blockIndex?_eq_none inside,
        Option.map_none, ite_self]
      exact ⟨rfl, represents⟩
  · have deviceClosed : ¬device.active = true := represents.active ▸ active
    have refused : ¬(disk.active = true ∧ 0 ≤ block ∧ block < diskBlocks) :=
      fun all => active all.1
    simp only [Disk.blockWrite, Device.blockWrite, if_neg refused, if_neg deviceClosed]
    exact ⟨rfl, represents⟩

theorem makeDisk :
    let reply := disk.makeDisk host (some name)
    reply.1 = 0 ∧ Represents host name reply.2 device.makeDisk := by
  rcases represents.spare with ⟨first, second, -, inside, -, free, -⟩
  rw [Disk.makeDisk_eq permits inside free, min_eq_left room]
  exact ⟨rfl, .zeros represents.active represents.handle represents.spare⟩

theorem exec (call : DiskCall) :
    (disk.exec host name call).1 = (device.exec call).1 ∧
      Represents host name (disk.exec host name call).2 (device.exec call).2 := by
  cases call with
  | makeDisk =>
      have made := represents.makeDisk permits room
      exact ⟨congrArg (·, none) made.1, made.2⟩
  | openDisk => exact represents.openDisk permits
  | closeDisk => exact represents.closeDisk
  | blockWrite block buf => exact represents.blockWrite room block buf
  | blockRead block buf => exact represents.blockRead block buf

theorem replies (calls : List DiskCall) :
    replies (Disk.exec host name) calls disk = FileSystem.replies Device.exec calls device := by
  induction calls generalizing disk device with
  | nil => rfl
  | cons call rest inductionHypothesis =>
      have step := represents.exec permits room call
      exact congrArg₂ List.cons step.1 (inductionHypothesis step.2)

end Calls

end Represents

/-! ## Disks that do not fit -/

def lastBlock : BlockIndex := Fin.last 8191

def readLast : List DiskCall :=
  [.makeDisk, .openDisk, .blockRead lastBlock.val fun _ => 1]

/-- A file that is too short ends before the last byte of the last block. -/
theorem readLast_differs {host : Host} {name : FileName} {disk : Disk} {device : Device}
    (permits : host.permits name = true) (closed : disk.active = false)
    (deviceClosed : device.active = false) {fd : Nat} (inside : fd < host.limit)
    (isFree : disk.table fd = none) (noRoom : host.room < diskBlocks * blockSize) :
    replies (Disk.exec host name) readLast disk ≠ replies Device.exec readLast device := by
  rcases exists_allocate ({ name, offset := 0 } : OpenFile) inside isFree with
    ⟨new, allocated, -, -⟩
  let bytes : List UInt8 := List.replicate host.room 0
  let opened : Disk :=
    { (disk.setFile name bytes).setOpen new { name, offset := 0 } with
      handle := new
      active := true }
  let start : Nat := lastBlock.val * blockSize
  have make : disk.exec host name .makeDisk = ((0, none), disk.setFile name bytes) := by
    rw [Disk.exec, Disk.makeDisk_eq permits inside isFree, min_eq_right noRoom.le]
    rfl
  have opens : (disk.setFile name bytes).exec host name .openDisk = ((0, none), opened) := by
    have isFile : ((disk.setFile name bytes).files name).isSome = true := by simp [Disk.setFile]
    have opening : (disk.setFile name bytes).openDisk host (some name) = (0, opened) :=
      Disk.openDisk_eq permits closed isFile allocated
    rw [Disk.exec, opening]
    rfl
  have reads : (opened.exec host name (.blockRead lastBlock.val fun _ => 1)).1 =
      (0, some fun byte => (slice bytes start blockSize)[byte.val]?.getD 1) := by
    have isOpen : opened.table opened.handle = some { name, offset := 0 } :=
      Function.update_self ..
    have content : opened.content name = bytes := Disk.content_setFile _
    have active : opened.active = true := rfl
    simp only [Disk.exec, Disk.blockRead_eq active isOpen, content, Prod.map_fst]
    rfl
  have expected : replies Device.exec readLast device =
      [(0, none), (0, none), (0, some fun _ => 0)] := by
    rcases device with ⟨active, image⟩
    cases deviceClosed
    rfl
  have found : replies (Disk.exec host name) readLast disk =
      [(0, none), (0, none), (0, some fun byte => (slice bytes start blockSize)[byte.val]?.getD 1)]
      := by
    rw [readLast, replies, make, replies, opens, replies, reads]
    rfl
  intro same
  rw [expected, found] at same
  have lastByte := congrFun (Option.some.inj (congrArg Prod.snd
    (List.head_eq_of_cons_eq (List.tail_eq_of_cons_eq (List.tail_eq_of_cons_eq same)))))
    (Fin.last 4095)
  have behind : (slice bytes start blockSize)[(Fin.last 4095).val]? = none := by
    rw [getElem?_slice, if_pos (by decide), List.getElem?_replicate, if_neg]
    have total : start + (Fin.last 4095).val + 1 = diskBlocks * blockSize := rfl
    omega
  rw [behind] at lastByte
  exact absurd lastByte (by decide)

/-- After a successful `make_disk` all calls answer what they answer for the blocks of a device, if
and only if the host has room for the whole file. -/
theorem diskFile_refines_iff {host : Host} {name : FileName} {disk : Disk}
    {image : BlockIndex → Block} (permits : host.permits name = true)
    (closed : disk.active = false) (spare : disk.Spare host) :
    (∀ calls, replies (Disk.exec host name) (.makeDisk :: calls) disk =
      replies Device.exec (.makeDisk :: calls) { active := false, image }) ↔
      diskBlocks * blockSize ≤ host.room := by
  rcases spare with ⟨first, second, differ, inside, insideToo, free, freeToo⟩
  constructor
  · intro same
    by_contra noRoom
    exact readLast_differs permits closed rfl inside free (not_le.mp noRoom) (same _)
  · intro room calls
    have made := Disk.makeDisk_eq permits inside free
    rw [min_eq_left room] at made
    have represents : Represents host name
        (disk.setFile name (List.replicate (diskBlocks * blockSize) 0))
        { active := false, image := fun _ _ => 0 } :=
      .zeros closed (fun active => absurd (closed.symm.trans active) Bool.false_ne_true)
        ⟨first, second, differ, inside, insideToo, free, freeToo⟩
    have first : disk.exec host name .makeDisk =
        ((0, none), disk.setFile name (List.replicate (diskBlocks * blockSize) 0)) := by
      rw [Disk.exec, made]
      rfl
    rw [replies, replies, first]
    exact congrArg₂ List.cons rfl (represents.replies permits room calls)

def smallHost : Host where
  limit := 3
  permits := fun _ => true
  room := diskBlocks * blockSize

def noDisk : Disk where
  active := false
  handle := 0
  files := fun _ => none
  table := fun _ => none

theorem diskFile_refines_iff_small :
    (∀ calls, replies (Disk.exec smallHost [100]) (.makeDisk :: calls) noDisk =
      replies Device.exec (.makeDisk :: calls) { active := false, image := fun _ _ => 0 }) ↔
      diskBlocks * blockSize ≤ smallHost.room :=
  diskFile_refines_iff rfl rfl ⟨0, 1, by decide, by decide, by decide, rfl, .inl rfl⟩

end EC440.FileSystem
