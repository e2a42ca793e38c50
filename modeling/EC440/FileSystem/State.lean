import EC440.Library.Chain
import EC440.Library.Memory
import EC440.Library.Outcome

/-!
# State of the file system

The static tables of `fs.c` (`fs`, `fildes`, `FAT`, `DIR`, `mount`) and the
virtual disk of `disk.c`.  An access to one of the tables outside its bounds
stops the run.  A few accesses leave an array without influencing what the
program does next; these are the `Stray` accesses, and a `Tolerance` says
which of them a run survives.
-/

namespace EC440.FileSystem

def diskBlocks : Nat := 8192

def blockSize : Nat := 4096

def maxFName : Nat := 15

def maxFNum : Nat := 64

def maxFildes : Nat := 32

def maxFSize : Nat := 16777216

instance : NeZero diskBlocks := ⟨by decide⟩

instance : NeZero blockSize := ⟨by decide⟩

instance : NeZero maxFNum := ⟨by decide⟩

instance : NeZero maxFildes := ⟨by decide⟩

abbrev BlockIndex := Fin diskBlocks
abbrev Slot := Fin maxFNum
abbrev Descriptor := Fin maxFildes
abbrev Buffer := Memory UInt8
abbrev Block := Fin blockSize → UInt8

instance : LawfulBEq BlockIndex := inferInstance

/-! ## Stopping -/

inductive Table where
  | fat | dir | fildes
  deriving DecidableEq, Repr

/-- Accesses outside an array whose value the program does not use. -/
inductive Stray where
  /-- `DIR[MAX_F_NUM]`, read by a search loop just before its bound test. -/
  | dirPeek
  /-- `fildes[MAX_FILDES]`, read by a search loop just before its bound test. -/
  | fildesPeek
  /-- `fildes[32..63]`, cleared by the descriptor loop of `mount_fs`. -/
  | fildesReset
  /-- Bytes outside an allocated buffer. -/
  | heap
  deriving DecidableEq, Repr

inductive Stop where
  | outOfRange (table : Table) (index : Int)
  | stray (access : Stray)
  | nullSuperBlock
  | diverges
  deriving DecidableEq, Repr

abbrev Outcome := Except Stop

/-- The stray accesses that a run survives. -/
abbrev Tolerance := Stray → Bool

def tolerate (tolerance : Tolerance) (access : Stray) : Outcome Unit :=
  if tolerance access then .ok () else .error (.stray access)

/-! ## Strings -/

/-- The bytes before the terminating NUL of a C string. -/
structure CString where
  bytes : List UInt8
  noNul : (0 : UInt8) ∉ bytes
  deriving DecidableEq

/-- `char name[MAX_F_NAME + 1]` -/
abbrev NameField := Fin (maxFName + 1) → UInt8

namespace NameField

def text (name : NameField) : List UInt8 := (List.ofFn name).takeWhile (· ≠ 0)

/-- `strcpy(name, source)` -/
def strcpy (name : NameField) (source : CString) : NameField := fun position =>
  if inside : position.val < source.bytes.length then source.bytes[position.val]
  else if position.val = source.bytes.length then 0
  else name position

/-- `memset(name, '\0', MAX_F_NAME)` -/
def clear (name : NameField) : NameField := fun position =>
  if position.val < maxFName then 0 else name position

/-- `strcmp(name, other) == 0` -/
def Matches (name : NameField) (other : CString) : Prop := name.text = other.bytes

instance (name : NameField) (other : CString) : Decidable (name.Matches other) :=
  inferInstanceAs (Decidable (_ = _))

end NameField

/-! ## Tables -/

structure SuperBlock where
  fatIdx : Int32
  fatLen : Int32
  dirIdx : Int32
  dirLen : Int32
  dataIdx : Int32
  deriving DecidableEq

structure DirEntry where
  used : Int32
  name : NameField
  size : Int32
  head : Int32
  refCnt : Int32
  deriving DecidableEq

structure FileDescriptor where
  used : Int32
  file : Int32
  offset : Int32
  deriving DecidableEq

abbrev Fat := BlockIndex → Int32
abbrev Directory := Slot → DirEntry

/-- `active` of `disk.c` and the contents of the disk file. -/
structure Device where
  active : Bool
  image : BlockIndex → Block

structure State where
  device : Device
  mount : Bool
  fs : Option SuperBlock
  fildes : Descriptor → FileDescriptor
  fat : Fat
  dir : Directory

/-! ## Accesses -/

/-- The block that an `int` numbers. -/
def blockIndex? : Int → Option BlockIndex
  | .ofNat index => if inside : index < diskBlocks then some ⟨index, inside⟩ else none
  | .negSucc _ => none

/-- Evaluate `FAT[index]`. -/
def readFat (fat : Fat) (index : Int) : Outcome Int32 :=
  match blockIndex? index with
  | some block => .ok (fat block)
  | none => .error (.outOfRange .fat index)

/-- `FAT[index] = value` -/
def writeFat (fat : Fat) (index : Int) (value : Int32) : Outcome Fat :=
  match blockIndex? index with
  | some block => .ok (Function.update fat block value)
  | none => .error (.outOfRange .fat index)

/-- The descriptor that `fildes[index]` denotes. -/
def fildesAt : Int → Outcome Descriptor
  | .ofNat index =>
      if inside : index < maxFildes then .ok ⟨index, inside⟩
      else .error (.outOfRange .fildes index)
  | .negSucc index => .error (.outOfRange .fildes (.negSucc index))

/-- The first index of an array that passes a test, in the order of a search
loop that starts at 0. -/
def search {length : Nat} (test : Fin length → Bool) : Option (Fin length) :=
  (List.finRange length).find? test

/-- `fs->data_idx` and the other fields, through the pointer `fs`. -/
def State.superBlock (state : State) : Outcome SuperBlock :=
  match state.fs with
  | some superBlock => .ok superBlock
  | none => .error .nullSuperBlock

/-- Conversion of an `int` or `off_t` value to `size_t`. -/
def toSize (value : Int) : Nat := (value % 2 ^ 64).toNat

/-! ## The virtual disk -/

namespace Device

/-- `block_read`: `none` is the return value -1. -/
def blockRead (device : Device) (index : Int) : Option Block :=
  if device.active then (blockIndex? index).map device.image else none

/-- `block_write`: `none` is the return value -1. -/
def blockWrite (device : Device) (index : Int) (block : Block) : Option Device :=
  if device.active then
    (blockIndex? index).map fun target =>
      { device with image := Function.update device.image target block }
  else
    none

/-- `open_disk` on an existing disk file; `none` is the return value -1. -/
def openDisk (device : Device) : Option Device :=
  if device.active then none else some { device with active := true }

/-- `close_disk`: `none` is the return value -1. -/
def closeDisk (device : Device) : Option Device :=
  if device.active then some { device with active := false } else none

/-- `make_disk`: every block of the disk file is zero afterwards. -/
def makeDisk (device : Device) : Device :=
  { device with image := fun _ _ => 0 }

end Device

def Buffer.load (buffer : Buffer) (position : Int) (block : Block) : Buffer := fun offset =>
  if inside : position ≤ offset ∧ offset < position + blockSize then
    block ⟨(offset - position).toNat, by omega⟩
  else
    buffer offset

def Buffer.blockAt (buffer : Buffer) (position : Int) : Block :=
  fun byte => buffer (position + byte.val)

end EC440.FileSystem
