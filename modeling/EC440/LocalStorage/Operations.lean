import EC440.LocalStorage.State

/-!
# The calls of tls.c

Every function takes the state and `tid`, the result of `pthread_self()`, and
returns its C return value with the state it leaves.
-/

namespace EC440.LocalStorage

open State

/-! ## Pages -/

/-- `mprotect` on a page; when it fails, the process ends. -/
def changeProt (prot : Prot) (state : State) (p : PagePtr) : Outcome State := do
  let page ← state.page p
  match mprotect state.memory page.address prot with
  | none => .error .protectFailed
  | some memory => .ok { state with memory }

def tlsUnprotect (state : State) (p : PagePtr) : Outcome State :=
  changeProt .readWrite state p

def tlsProtect (state : State) (p : PagePtr) : Outcome State :=
  changeProt .none state p

/-- `for (i = 0; i < count; i++)` with a body that uses `pages[i]`. -/
def forSlots (pages : List PagePtr) (body : State → PagePtr → Outcome State) (count : Nat)
    (state : State) : Outcome State :=
  (List.range count).foldlM (fun state i => do body state (← slot pages i)) state

/-! ## The hash table -/

/-- The loop of `hash_search` from `iter` on. -/
def searchFrom (state : State) (tid : Tid) : Nat → Option ElementPtr → Outcome (Option ElementPtr)
  | 0, _ => .error .diverges
  | _ + 1, none => .ok none
  | fuel + 1, some iter => do
      let element ← state.element iter
      if element.tid = tid then .ok (some iter) else searchFrom state tid fuel element.next

def hashSearch (state : State) (tid : Tid) : Outcome (Option ElementPtr) :=
  searchFrom state tid (state.nextElement + 1) (state.hashTable (bucketOf tid))

/-- The insertion at the head of a bucket that ends `tls_create` and `tls_clone`. -/
def insertElement (state : State) (tid : Tid) (tls : Tls) : State :=
  let index := bucketOf tid
  { state with
    elements := Function.update state.elements state.nextElement
      (some { tid, tls, next := state.hashTable index })
    hashTable := Function.update state.hashTable index (some state.nextElement)
    nextElement := state.nextElement + 1 }

/-! ## tls_create -/

def tlsInit (machine : Machine) (state : State) : State :=
  { state with initialized := true, pageSize := Int32.ofNat machine.pageSize }

/-- `if (!initialized) tls_init();` -/
def ensureInit (machine : Machine) (state : State) : State :=
  if state.initialized then state else tlsInit machine state

/-- `(size / page_size) + (size % page_size > 0)` -/
def pagesFor (pageSize : Int32) (size : UInt32) : UInt32 :=
  size / pageSize.toUInt32 + if size % pageSize.toUInt32 > 0 then 1 else 0

/-- A page just allocated and mapped at `address`, with `ref_count` 1. -/
def addPage (state : State) (address : Address) (memory : PageMemory) : State :=
  { state with
    memory
    pages := Function.update state.pages state.nextPage (some { address, refCount := 1 })
    nextPage := state.nextPage + 1 }

/-- The page loop of `tls_create`; `none` is the return from inside the loop when `mmap`
fails.  The pages allocated until then are lost. -/
def createPages (kernel : Kernel) : Nat → State → Option (List PagePtr) × State
  | 0, state => (some [], state)
  | count + 1, state =>
      match kernel.mmap state.memory .none with
      | none => (none, state)
      | some (address, memory) =>
          match createPages kernel count (addPage state address memory) with
          | (none, after) => (none, after)
          | (some pages, after) => (some (state.nextPage :: pages), after)

def tlsCreate (machine : Machine) (kernel : Kernel) (state : State) (tid : Tid) (size : UInt32) :
    Outcome (Int32 × State) := do
  let state := ensureInit machine state
  if size ≤ 0 then
    .ok (-1, state)
  else
    match ← hashSearch state tid with
    | some _ => .ok (-1, state)
    | none =>
        let pageNum := pagesFor state.pageSize size
        match createPages kernel pageNum.toNat state with
        | (none, state) => .ok (-1, state)
        | (some pages, state) => .ok (0, insertElement state tid { tid, size, pageNum, pages })

/-! ## tls_write and tls_read -/

/-- `indx++` -/
def increment (indx : Int32) : Outcome Int32 :=
  if indx = Int32.maxValue then .error .overflow else .ok (indx + 1)

/-- `working_tls->pages[slot] = copy` -/
def setSlot (element : HashElement) (slot : Nat) (copy : PagePtr) : HashElement :=
  { element with tls := { element.tls with pages := element.tls.pages.set slot copy } }

/-- `memcpy(target, source, page_size)` -/
def copyPage (pageSize : Int32) (source : Nat → UInt8) (target : Nat → UInt8) : Nat → UInt8 :=
  fun offset => if offset < pageSize.toInt.toNat then source offset else target offset

/-- `working_tls->pages[working_page] = copy; main_page->ref_count--;` -/
def replaceSlot (state : State) (pointer : ElementPtr) (element : HashElement) (workingPage : Nat)
    (mainPage : PagePtr) (main : Page) (copy : PagePtr) : State :=
  { state with
    elements := Function.update state.elements pointer (some (setSlot element workingPage copy))
    pages := Function.update state.pages mainPage
      (some { main with refCount := main.refCount - 1 }) }

/-- The private copy that `tls_write` makes of a shared page.  Returns the copy. -/
def copyOnWrite (kernel : Kernel) (state : State) (pointer : ElementPtr) (element : HashElement)
    (workingPage : Nat) (mainPage : PagePtr) (main : Page) : Outcome (PagePtr × State) :=
  match kernel.mmap state.memory .writeOnly with
  | none => .error .mapFailed
  | some (address, memory) => do
      let source ← load memory main.address
      let memory ← store memory address (copyPage state.pageSize source)
      let copy := state.nextPage
      let state := replaceSlot (addPage state address memory) pointer element workingPage mainPage
        main copy
      .ok (copy, ← tlsProtect state mainPage)

/-- `*(page->address + page_offset) = byte`.  An offset beyond the page meets no page. -/
def storeByte (state : State) (p : PagePtr) (pageOffset : Nat) (byte : UInt8) :
    Outcome State := do
  let page ← state.page p
  if pageOffset < state.pageSize.toInt.toNat then
    let memory ← store state.memory page.address fun bytes => Function.update bytes pageOffset byte
    .ok { state with memory }
  else
    .error .fault

/-- The body of the loop of `tls_write`. -/
def writeByte (kernel : Kernel) (pointer : ElementPtr) (state : State) (indx : Int32)
    (byte : UInt8) : Outcome State := do
  let element ← state.element pointer
  let workingPage := (indx / state.pageSize).toUInt32.toNat
  let pageOffset := (indx % state.pageSize).toUInt32.toNat
  let mainPage ← slot element.tls.pages workingPage
  let main ← state.page mainPage
  if main.refCount > 1 then
    let (copy, state) ← copyOnWrite kernel state pointer element workingPage mainPage main
    storeByte state copy pageOffset byte
  else
    storeByte state mainPage pageOffset byte

/-- `for (...; indx < limit; i++, indx++)` -/
def writeLoop (kernel : Kernel) (pointer : ElementPtr) (limit : UInt32) (buffer : Buffer) :
    Nat → State → Nat → Int32 → Outcome State
  | 0, _, _, _ => .error .diverges
  | fuel + 1, state, i, indx =>
      if indx.toUInt32 < limit then do
        let state ← writeByte kernel pointer state indx (buffer i)
        writeLoop kernel pointer limit buffer fuel state (i + 1) (← increment indx)
      else
        .ok state

def tlsWrite (kernel : Kernel) (state : State) (tid : Tid) (offset length : UInt32)
    (buffer : Buffer) : Outcome (Int32 × State) := do
  match ← hashSearch state tid with
  | none => .ok (-1, state)
  | some pointer =>
      let workingTls := (← state.element pointer).tls
      if offset + length > workingTls.size then
        .ok (-1, state)
      else
        let state ← forSlots workingTls.pages tlsUnprotect workingTls.pageNum.toNat state
        let state ← writeLoop kernel pointer (offset + length) buffer (length.toNat + 1) state 0
          offset.toInt32
        -- the loop may have replaced pages of the array
        let workingTls := (← state.element pointer).tls
        let state ← forSlots workingTls.pages tlsProtect workingTls.pageNum.toNat state
        .ok (0, state)

/-- `*src` in the body of the loop of `tls_read`. -/
def readByte (pointer : ElementPtr) (state : State) (indx : Int32) : Outcome UInt8 := do
  let element ← state.element pointer
  let workingPage := (indx / state.pageSize).toUInt32.toNat
  let pageOffset := (indx % state.pageSize).toUInt32.toNat
  let mainPage ← slot element.tls.pages workingPage
  let main ← state.page mainPage
  if pageOffset < state.pageSize.toInt.toNat then
    let bytes ← load state.memory main.address
    .ok (bytes pageOffset)
  else
    .error .fault

/-- The loop of `tls_read`, with the buffer it fills. -/
def readLoop (pointer : ElementPtr) (limit : UInt32) (state : State) :
    Nat → Buffer → Nat → Int32 → Outcome Buffer
  | 0, _, _, _ => .error .diverges
  | fuel + 1, buffer, i, indx =>
      if indx.toUInt32 < limit then do
        let byte ← readByte pointer state indx
        readLoop pointer limit state fuel (Function.update buffer i byte) (i + 1)
          (← increment indx)
      else
        .ok buffer

def tlsRead (state : State) (tid : Tid) (offset length : UInt32) (buffer : Buffer) :
    Outcome (Int32 × Buffer × State) := do
  match ← hashSearch state tid with
  | none => .ok (-1, buffer, state)
  | some pointer =>
      let workingTls := (← state.element pointer).tls
      if offset + length > workingTls.size then
        .ok (-1, buffer, state)
      else
        let state ← forSlots workingTls.pages tlsUnprotect workingTls.pageNum.toNat state
        let buffer ← readLoop pointer (offset + length) state (length.toNat + 1) buffer 0
          offset.toInt32
        let state ← forSlots workingTls.pages tlsProtect workingTls.pageNum.toNat state
        .ok (0, buffer, state)

/-! ## tls_destroy -/

/-- The body of the page loop of `tls_destroy`. -/
def releasePage (state : State) (p : PagePtr) : Outcome State := do
  let page ← state.page p
  if page.refCount = 1 then
    .ok { state with
      memory := munmap state.memory page.address
      pages := Function.update state.pages p none }
  else if page.refCount > 1 then
    .ok { state with
      pages := Function.update state.pages p (some { page with refCount := page.refCount - 1 }) }
  else
    .ok state

/-- `temp->next` where it is dereferenced. -/
def follow (element : HashElement) : Outcome ElementPtr :=
  match element.next with
  | none => .error .fault
  | some next => .ok next

/-- `while (temp->next->tid != tid) temp = temp->next;` -/
def findPrevious (state : State) (tid : Tid) : Nat → ElementPtr → Outcome ElementPtr
  | 0, _ => .error .diverges
  | fuel + 1, temp => do
      let next ← follow (← state.element temp)
      let after ← state.element next
      if after.tid ≠ tid then findPrevious state tid fuel next else .ok temp

/-- The removal of an element from its bucket.  When the element is the head of the bucket,
nothing is changed. -/
def unlinkElement (state : State) (element : HashElement) (tid : Tid) : Outcome State := do
  match state.hashTable (bucketOf tid) with
  | none => .error .fault
  | some temp =>
      let head ← state.element temp
      if head.tid ≠ element.tid then
        let previous ← findPrevious state element.tid (state.nextElement + 1) temp
        let before ← state.element previous
        .ok { state with
          elements := Function.update state.elements previous
            (some { before with next := element.next }) }
      else
        .ok state

def tlsDestroy (state : State) (tid : Tid) : Outcome (Int32 × State) := do
  match ← hashSearch state tid with
  | none => .ok (-1, state)
  | some pointer =>
      let element ← state.element pointer
      let state ← forSlots element.tls.pages releasePage element.tls.pageNum.toNat state
      let state ← unlinkElement state element tid
      .ok (0, { state with elements := Function.update state.elements pointer none })

/-! ## tls_clone -/

/-- `ref_count++` -/
def sharePage (state : State) (p : PagePtr) : Outcome State := do
  let page ← state.page p
  .ok { state with
    pages := Function.update state.pages p (some { page with refCount := page.refCount + 1 }) }

def tlsClone (state : State) (dstTid tid : Tid) : Outcome (Int32 × State) := do
  let dstElement ← hashSearch state dstTid
  let srcElement ← hashSearch state tid
  match dstElement, srcElement with
  | none, some pointer =>
      let srcTls := (← state.element pointer).tls
      let state ← forSlots srcTls.pages sharePage srcTls.pageNum.toNat state
      .ok (0, insertElement state dstTid
        { tid := dstTid
          size := srcTls.size
          pageNum := srcTls.pageNum
          pages := srcTls.pages.take srcTls.pageNum.toNat })
  | _, _ => .ok (-1, state)

/-! ## Calls -/

inductive Call where
  | create (size : UInt32)
  | write (offset length : UInt32) (buffer : Buffer)
  | read (offset length : UInt32) (buffer : Buffer)
  | destroy
  | clone (tid : Tid)

/-- What a call returns: the code and, for `tls_read`, the buffer it was given. -/
structure Reply where
  code : Int32
  buffer : Option Buffer

/-- A call by the thread `tid`. -/
def exec (machine : Machine) (kernel : Kernel) (state : State) (tid : Tid) :
    Call → Outcome (Reply × State)
  | .create size => do
      let (code, state) ← tlsCreate machine kernel state tid size
      .ok ({ code, buffer := none }, state)
  | .write offset length buffer => do
      let (code, state) ← tlsWrite kernel state tid offset length buffer
      .ok ({ code, buffer := none }, state)
  | .read offset length buffer => do
      let (code, buffer, state) ← tlsRead state tid offset length buffer
      .ok ({ code, buffer := some buffer }, state)
  | .destroy => do
      let (code, state) ← tlsDestroy state tid
      .ok ({ code, buffer := none }, state)
  | .clone source => do
      let (code, state) ← tlsClone state tid source
      .ok ({ code, buffer := none }, state)

end EC440.LocalStorage
