import EC440.Library.Chain
import EC440.Library.Outcome
import Mathlib.Data.UInt

/-!
# State of the thread local storage

The static variables of `tls.c`, the blocks it allocates and the pages it
maps.  `malloc` and `calloc` succeed, and a freed name is not handed out
again, so that an access to a freed block is an access to no block and stops
the run.  Where `mmap` puts a page, and whether it can, is up to the kernel.
-/

namespace EC440.LocalStorage

def hashSize : Nat := 31

instance : NeZero hashSize := ⟨by decide⟩

/-- `pthread_t` -/
abbrev Tid := UInt64

/-- `unsigned long int`, the start of a page -/
abbrev Address := UInt64

abbrev PagePtr := Nat
abbrev ElementPtr := Nat
abbrev Bucket := Fin hashSize

/-- `char *buffer` -/
abbrev Buffer := Nat → UInt8

/-! ## Stopping -/

inductive Stop where
  /-- A block that is not allocated is accessed. -/
  | useAfterFree
  /-- A page that is not mapped or not accessible is accessed (`SIGSEGV`). -/
  | fault
  /-- `pages[i]` outside the array. -/
  | outOfRange
  /-- The `exit(1)` of `tls_unprotect` and `tls_protect`. -/
  | protectFailed
  /-- `tls_write` uses the page that `mmap` did not map. -/
  | mapFailed
  /-- `indx++` leaves `int`. -/
  | overflow
  | diverges
  deriving DecidableEq, Repr

abbrev Outcome := Except Stop

/-! ## Memory -/

/-- `PROT_READ`, `PROT_WRITE` -/
structure Prot where
  read : Bool
  write : Bool
  deriving DecidableEq, Repr

def Prot.none : Prot := { read := false, write := false }

/-- `PROT_READ | PROT_WRITE` -/
def Prot.readWrite : Prot := { read := true, write := true }

/-- `PROT_WRITE` -/
def Prot.writeOnly : Prot := { read := false, write := true }

/-- A mapped page. -/
structure Frame where
  bytes : Nat → UInt8
  prot : Prot

abbrev PageMemory := Address → Option Frame

/-- `getpagesize()`, a power of two. -/
structure Machine where
  pageSize : Nat
  power : ∃ shift, 12 ≤ shift ∧ shift < 31 ∧ pageSize = 2 ^ shift

/-- How the kernel answers the `mmap` calls of one call of the library; `none` is
`MAP_FAILED`. -/
structure Kernel where
  place : PageMemory → Option Address
  place_unmapped : ∀ memory address, place memory = some address → memory address = none

/-- `mmap(0, page_size, prot, MAP_ANON | MAP_PRIVATE, 0, 0)` -/
def Kernel.mmap (kernel : Kernel) (memory : PageMemory) (prot : Prot) :
    Option (Address × PageMemory) :=
  (kernel.place memory).map fun address =>
    (address, Function.update memory address (some { bytes := fun _ => 0, prot }))

/-- `mprotect(address, page_size, prot)`, which fails only where nothing is mapped -/
def mprotect (memory : PageMemory) (address : Address) (prot : Prot) : Option PageMemory :=
  (memory address).map fun frame =>
    Function.update memory address (some { frame with prot })

/-- `munmap(address, page_size)` -/
def munmap (memory : PageMemory) (address : Address) : PageMemory :=
  Function.update memory address none

/-- The bytes of a page, if they may be read. -/
def load (memory : PageMemory) (address : Address) : Outcome (Nat → UInt8) :=
  match memory address with
  | none => .error .fault
  | some frame => if frame.prot.read then .ok frame.bytes else .error .fault

/-- Change the bytes of a page, if they may be written. -/
def store (memory : PageMemory) (address : Address)
    (change : (Nat → UInt8) → Nat → UInt8) : Outcome PageMemory :=
  match memory address with
  | none => .error .fault
  | some frame =>
      if frame.prot.write then
        .ok (Function.update memory address (some { frame with bytes := change frame.bytes }))
      else .error .fault

/-! ## Blocks -/

/-- `struct page`.  `ref_count` counts areas, of which a process has fewer than `INT_MAX`. -/
structure Page where
  address : Address
  refCount : Int

/-- `struct thread_local_storage` with the array that `pages` points to. -/
structure Tls where
  tid : Tid
  size : UInt32
  pageNum : UInt32
  pages : List PagePtr

/-- `struct hash_element` with the structure that `tls` points to, which is allocated and
freed together with it. -/
structure HashElement where
  tid : Tid
  tls : Tls
  next : Option ElementPtr

structure State where
  initialized : Bool
  pageSize : Int32
  hashTable : Bucket → Option ElementPtr
  elements : ElementPtr → Option HashElement
  pages : PagePtr → Option Page
  memory : PageMemory
  /-- The next names that `malloc` hands out. -/
  nextElement : ElementPtr
  nextPage : PagePtr

def State.initial (memory : PageMemory) : State where
  initialized := false
  pageSize := 0
  hashTable _ := none
  elements _ := none
  pages _ := none
  memory
  nextElement := 0
  nextPage := 0

namespace State

variable (state : State)

def element (pointer : ElementPtr) : Outcome HashElement :=
  match state.elements pointer with
  | none => .error .useAfterFree
  | some element => .ok element

def page (pointer : PagePtr) : Outcome Page :=
  match state.pages pointer with
  | none => .error .useAfterFree
  | some page => .ok page

/-- `pages[i]` -/
def slot (pages : List PagePtr) (index : Nat) : Outcome PagePtr :=
  match pages[index]? with
  | none => .error .outOfRange
  | some pointer => .ok pointer

@[simp]
theorem element_eq_ok_iff {pointer : ElementPtr} {element : HashElement} :
    state.element pointer = .ok element ↔ state.elements pointer = some element := by
  unfold State.element
  split <;> simp_all

@[simp]
theorem page_eq_ok_iff {pointer : PagePtr} {page : Page} :
    state.page pointer = .ok page ↔ state.pages pointer = some page := by
  unfold State.page
  split <;> simp_all

@[simp]
theorem slot_eq_ok_iff {pages : List PagePtr} {index : Nat} {pointer : PagePtr} :
    slot pages index = .ok pointer ↔ pages[index]? = some pointer := by
  unfold slot
  split <;> simp_all

end State

/-- `tid % HASH_SIZE` -/
def bucketOf (tid : Tid) : Bucket := Fin.ofNat hashSize tid.toNat

end EC440.LocalStorage
