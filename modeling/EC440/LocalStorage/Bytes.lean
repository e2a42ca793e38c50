import EC440.LocalStorage.Pages

/-!
# Reading and writing bytes

`byteAt` is the byte that a slot holds at an offset.  One round of the loop of
`tls_write` changes exactly one of them, whether the page of the slot is the
thread's own or has to be copied first.
-/

namespace EC440.LocalStorage

open Linked References Outcome

variable {machine : Machine} {state after : State} {target base : Reference → Option PagePtr}
  {p q : PagePtr} {ref : Reference} {tid : Tid} {page : Page} {frame : Frame} {address : Address}
  {pointer : ElementPtr} {element : HashElement}

/-- The byte of a slot at an offset, whether it is accessible or not. -/
def State.byteAt (state : State) (target : Reference → Option PagePtr) (ref : Reference)
    (offset : Nat) : UInt8 :=
  match (target ref).bind state.frameOf with
  | none => 0
  | some frame => frame.bytes offset

theorem State.byteAt_eq (pointing : target ref = some p) (here : state.frameOf p = some frame)
    (offset : Nat) : state.byteAt target ref offset = frame.bytes offset := by
  simp [State.byteAt, pointing, here]

theorem State.byteAt_congr {target' : Reference → Option PagePtr} {state' : State}
    (pages : target' ref = target ref)
    (frames : ∀ p, target ref = some p →
      (state'.frameOf p).map (·.bytes) = (state.frameOf p).map (·.bytes)) (offset : Nat) :
    state'.byteAt target' ref offset = state.byteAt target ref offset := by
  unfold State.byteAt
  rw [pages]
  cases pointing : target ref with
  | none => rfl
  | some p =>
      have same := frames p pointing
      simp only [Option.bind_some]
      cases here : state.frameOf p <;> cases there : state'.frameOf p <;>
        simp_all

/-! ## Positions -/

namespace Machine

theorem pageSize_pos (machine : Machine) : 0 < machine.pageSize := by
  obtain ⟨shift, -, -, size⟩ := machine.power
  rw [size]
  exact Nat.two_pow_pos shift

theorem pageSize_lt (machine : Machine) : machine.pageSize < 2 ^ 31 := by
  obtain ⟨shift, -, upper, size⟩ := machine.power
  rw [size]
  exact Nat.pow_lt_pow_right (by decide) upper

/-- `page_size` -/
abbrev pageSizeInt (machine : Machine) : Int32 := Int32.ofNat machine.pageSize

@[simp]
theorem toNat_pageSizeInt (machine : Machine) :
    machine.pageSizeInt.toInt.toNat = machine.pageSize := by
  rw [Int32.toInt_ofNat_of_lt machine.pageSize_lt, Int.toNat_natCast]

end Machine

theorem toNat_ofNat {n : Nat} (small : n < 2 ^ 31) : (Int32.ofNat n).toUInt32.toNat = n := by
  rw [Int32.toUInt32_ofNat', UInt32.toNat_ofNat']
  exact Nat.mod_eq_of_lt (lt_trans small (by decide))

/-- `indx / page_size` -/
theorem workingPage_eq (machine : Machine) {n : Nat} (small : n < 2 ^ 31) :
    (Int32.ofNat n / machine.pageSizeInt).toUInt32.toNat = n / machine.pageSize := by
  rw [← Int32.ofNat_div small machine.pageSize_lt]
  exact toNat_ofNat (lt_of_le_of_lt (Nat.div_le_self ..) small)

/-- `indx % page_size` -/
theorem pageOffset_eq (machine : Machine) {n : Nat} (small : n < 2 ^ 31) :
    (Int32.ofNat n % machine.pageSizeInt).toUInt32.toNat = n % machine.pageSize := by
  rw [← Int32.ofNat_mod small machine.pageSize_lt]
  exact toNat_ofNat (lt_of_le_of_lt (Nat.mod_le ..) small)

theorem increment_ofNat {n : Nat} (small : n + 1 < 2 ^ 31) :
    increment (Int32.ofNat n) = .ok (Int32.ofNat (n + 1)) := by
  have below : Int32.ofNat n ≠ Int32.maxValue := by
    intro equality
    have values := congrArg (fun value : Int32 => value.toInt) equality
    simp only [Int32.toInt_ofNat_of_lt (lt_trans (Nat.lt_succ_self n) small)] at values
    have largest : Int32.maxValue.toInt = 2147483647 := by decide
    omega
  rw [increment, if_neg below, Int32.ofNat_add]
  rfl

theorem toInt32_eq (offset : UInt32) : offset.toInt32 = Int32.ofNat offset.toNat := by
  have same : offset.toInt32.toUInt32 = (Int32.ofNat offset.toNat).toUInt32 := by simp
  have back := congrArg UInt32.toInt32 same
  rwa [Int32.toInt32_toUInt32, Int32.toInt32_toUInt32] at back

/-! ## Storing a byte -/

def State.stored (state : State) (page : Page) (frame : Frame) (offset : Nat) (byte : UInt8) :
    State :=
  { state with
    memory := Function.update state.memory page.address
      (some { frame with bytes := Function.update frame.bytes offset byte }) }

theorem storeByte_eq {offset : Nat} (allocated : state.pages p = some page)
    (mapped : state.memory page.address = some frame) (writable : frame.prot.write = true)
    (inside : offset < state.pageSize.toInt.toNat) (byte : UInt8) :
    storeByte state p offset byte = .ok (state.stored page frame offset byte) := by
  have reached : state.page p = .ok page := (state.page_eq_ok_iff).mpr allocated
  simp only [storeByte, reached, bind, Except.bind, if_pos inside, store, mapped, writable, if_true]
  rfl

theorem Backed.stored (backed : Backed state target) (page : Page) (frame : Frame) (offset : Nat)
    (byte : UInt8) :
    Backed (state.stored page frame offset byte) target := by
  refine backed.of_mapped rfl rfl ?_
  intro other frame' here
  by_cases same : other = page.address
  · exact ⟨_, by simp [State.stored, same]; rfl⟩
  · exact ⟨frame', by simpa [State.stored, same] using here⟩

theorem frameOf_stored_self (allocated : state.pages p = some page) (offset : Nat) (byte : UInt8) :
    (state.stored page frame offset byte).frameOf p =
      some { frame with bytes := Function.update frame.bytes offset byte } := by
  simp [State.frameOf, State.stored, allocated]

theorem Backed.frameOf_stored (backed : Backed state target)
    (allocated : state.pages p = some page) (distinct : q ≠ p) (offset : Nat) (byte : UInt8) :
    (state.stored page frame offset byte).frameOf q = state.frameOf q := by
  cases other : state.pages q with
  | none => simp [State.frameOf, State.stored, other]
  | some page' =>
      have away : page'.address ≠ page.address := fun same =>
        distinct (backed.apart q p page' page other allocated same)
      simp [State.frameOf, State.stored, other, away]

/-! ## Copying a shared page -/

def copyFrame (pageSize : Int32) (frame : Frame) : Frame :=
  { bytes := copyPage pageSize frame.bytes fun _ => 0, prot := .writeOnly }

/-- A slot moved from a shared page to a private copy at `address`. -/
def State.copied (state : State) (pointer : ElementPtr) (element : HashElement) (slot : Nat)
    (p : PagePtr) (page : Page) (frame : Frame) (address : Address) : State :=
  let memory := Function.update state.memory address (some (copyFrame state.pageSize frame))
  { replaceSlot (addPage state address memory) pointer element slot p page state.nextPage with
    memory := reprotect memory [page.address] .none }

section Copied

variable {slot : Nat}

theorem copyOnWrite_eq (kernel : Kernel) (mapped : state.memory page.address = some frame)
    (readable : frame.prot.read = true) :
    copyOnWrite kernel state pointer element slot p page = .error .mapFailed ∨
      ∃ address, state.memory address = none ∧
        copyOnWrite kernel state pointer element slot p page =
          .ok (state.nextPage, state.copied pointer element slot p page frame address) := by
  rcases kernel.mmap_cases state.memory .writeOnly with failed | ⟨address, unmapped, placed⟩
  · left
    simp [copyOnWrite, failed]
  · right
    refine ⟨address, unmapped, ?_⟩
    have away : page.address ≠ address := by
      intro same
      rw [same, unmapped] at mapped
      cases mapped
    have source : load (Function.update state.memory address
        (some { bytes := fun _ => 0, prot := .writeOnly })) page.address = .ok frame.bytes := by
      simp [load, away, mapped, readable]
    have target : store (Function.update state.memory address
        (some { bytes := fun _ => 0, prot := .writeOnly })) address
        (copyPage state.pageSize frame.bytes) =
        .ok (Function.update state.memory address (some (copyFrame state.pageSize frame))) := by
      simp [store, Prot.writeOnly, copyFrame]
    have shared : (replaceSlot (addPage state address (Function.update state.memory address
        (some (copyFrame state.pageSize frame)))) pointer element slot p page
        state.nextPage).pages p = some { page with refCount := page.refCount - 1 } := by
      simp [replaceSlot]
    have left_ : (replaceSlot (addPage state address (Function.update state.memory address
        (some (copyFrame state.pageSize frame)))) pointer element slot p page
        state.nextPage).memory page.address = some frame := by
      simp [replaceSlot, addPage, away, mapped]
    simp only [copyOnWrite, placed, source, target, bind, Except.bind, tlsProtect,
      changeProt_eq .none shared left_]
    rfl

/-- The same, with a byte of the copy overwritten. -/
def State.copyWritten (state : State) (pointer : ElementPtr) (element : HashElement) (slot : Nat)
    (p : PagePtr) (page : Page) (frame : Frame) (address : Address) (offset : Nat) (byte : UInt8) :
    State :=
  (state.copied pointer element slot p page frame address).stored { address, refCount := 1 }
    (copyFrame state.pageSize frame) offset byte

theorem Backed.copied (backed : Backed state target) (pointing : target (tid, slot) = some p)
    (allocated : state.pages p = some page) (unmapped : state.memory address = none) :
    Backed (state.copied pointer element slot p page frame address)
      (Function.update target (tid, slot) (some state.nextPage)) := by
  have added := backed.addedPage unmapped (copyFrame state.pageSize frame)
  have old : p ≠ state.nextPage := backed.ne_nextPage pointing
  have still : (addPage state address (Function.update state.memory address
      (some (copyFrame state.pageSize frame)))).pages p = some page := by
    simp [addPage, old, allocated]
  have fresh : ∀ other, target other ≠ some state.nextPage := by
    intro other here
    exact backed.ne_nextPage here rfl
  have counter : state.refCount p = some page.refCount := by
    simp [State.refCount, allocated]
  have counts : Counted (Function.update target (tid, slot) (some state.nextPage))
      (Function.update (addPage state address (Function.update state.memory address
        (some (copyFrame state.pageSize frame)))).refCount p (some (page.refCount - 1))) := by
    refine (backed.counted.replace pointing counter fresh).congr ?_
    intro place r _
    by_cases first : r = p
    · subst first
      simp [old]
    · by_cases second : r = state.nextPage
      · subst second
        simp [first, State.refCount, addPage]
      · simp [first, second, State.refCount, addPage]
  have moved := added.recount still counts (backed.separate.update fun j => fresh _)
  exact (moved.reprotected [page.address] .none).of_mapped rfl rfl fun _ frame here => ⟨frame, here⟩

theorem memory_copied_copy (mapped : state.memory page.address = some frame)
    (unmapped : state.memory address = none) :
    (state.copied pointer element slot p page frame address).memory address =
      some (copyFrame state.pageSize frame) := by
  have away : address ≠ page.address := by
    rintro rfl
    simp [unmapped] at mapped
  simp [State.copied, reprotect, away]

theorem pages_copied_copy (old : p ≠ state.nextPage) :
    (state.copied pointer element slot p page frame address).pages state.nextPage =
      some { address, refCount := 1 } := by
  simp [State.copied, replaceSlot, addPage, old.symm]

/-- The other pages keep what they hold; the page left behind is protected. -/
theorem Backed.frameOf_copied (backed : Backed state target) (old : q ≠ state.nextPage)
    (allocated : state.pages p = some page) (mapped : state.memory page.address = some frame)
    (unmapped : state.memory address = none) :
    (state.copied pointer element slot p page frame address).frameOf q =
      if q = p then some { frame with prot := .none } else state.frameOf q := by
  have away : page.address ≠ address := by
    rintro rfl
    simp [unmapped] at mapped
  by_cases same : q = p
  · subst same
    simp [State.frameOf, State.copied, replaceSlot, addPage, reprotect, mapped, away]
  · rw [if_neg same]
    cases allocated' : state.pages q with
    | none => simp [State.frameOf, State.copied, replaceSlot, addPage, same, old, allocated']
    | some page' =>
        have distinct : page'.address ≠ page.address := fun equal =>
          same (backed.apart q p page' page allocated' allocated equal)
        obtain ⟨frame', mapped'⟩ := backed.mapped q page' allocated'
        have away' : page'.address ≠ address := by
          rintro rfl
          simp [unmapped] at mapped'
        simp [State.frameOf, State.copied, replaceSlot, addPage, same, old, allocated', reprotect,
          distinct, away']

end Copied

/-! ## One round of the loop of tls_write -/

def position (machine : Machine) (slot offset : Nat) : Nat := slot * machine.pageSize + offset

theorem position_eq_iff {slot offset n : Nat} (inside : offset < machine.pageSize) :
    position machine slot offset = n ↔
      slot = n / machine.pageSize ∧ offset = n % machine.pageSize := by
  have positive := machine.pageSize_pos
  constructor
  · rintro rfl
    refine ⟨?_, ?_⟩
    · rw [position, Nat.mul_comm, Nat.mul_add_div positive, Nat.div_eq_of_lt inside, Nat.add_zero]
    · rw [position, Nat.mul_comm, Nat.mul_add_mod, Nat.mod_eq_of_lt inside]
  · rintro ⟨rfl, rfl⟩
    rw [position, Nat.mul_comm]
    exact Nat.div_add_mod ..

/-- Every page of the area may be written, and read where it has to be copied. -/
def Unlocked (state : State) (pages : List PagePtr) : Prop :=
  ∀ p ∈ pages, ∀ frame, state.frameOf p = some frame → frame.prot.write = true ∧
    ∀ number, state.refCount p = some number → 1 < number → frame.prot.read = true

def HashElement.withPages (element : HashElement) (pages : List PagePtr) : HashElement :=
  { element with tls := { element.tls with pages } }

@[simp]
theorem HashElement.withPages_pages (pages : List PagePtr) :
    (element.withPages pages).tls.pages = pages := rfl

@[simp]
theorem HashElement.withPages_withPages (first second : List PagePtr) :
    (element.withPages first).withPages second = element.withPages second := rfl

/-- The references when `tid` has the area of `element`. -/
def areaOf (base : Reference → Option PagePtr) (tid : Tid) (element : HashElement) :
    Reference → Option PagePtr :=
  withSlots base tid fun index => element.tls.pages[index]?

theorem areaOf_set {slot : Nat} (copy : PagePtr) (inside : slot < element.tls.pages.length) :
    areaOf base tid (element.withPages (element.tls.pages.set slot copy)) =
      Function.update (areaOf base tid element) (tid, slot) (some copy) := by
  rw [areaOf, areaOf, update_withSlots]
  congr 1
  funext index
  by_cases here : index = slot
  · subst here
    simp [HashElement.withPages, inside]
  · simp [HashElement.withPages, here, Ne.symm here]

/-- The invariant of the loop of `tls_write`. -/
structure Writing (machine : Machine) (base : Reference → Option PagePtr) (tid : Tid)
    (pointer : ElementPtr) (state : State) (element : HashElement) : Prop where
  pageSize : state.pageSize = machine.pageSizeInt
  found : state.elements pointer = some element
  backed : Backed state (areaOf base tid element)
  unlocked : Unlocked state element.tls.pages

/-- What a round of the loop of `tls_write` leaves alone. -/
structure Rewritten (state after : State) (pointer : ElementPtr) (element : HashElement)
    (pages : List PagePtr) : Prop where
  initialized : after.initialized = state.initialized
  pageSize : after.pageSize = state.pageSize
  hashTable : after.hashTable = state.hashTable
  elements : after.elements =
    Function.update state.elements pointer (some (element.withPages pages))
  nextElement : after.nextElement = state.nextElement
  length : pages.length = element.tls.pages.length

theorem byteAt_write {target' : Reference → Option PagePtr} {n : Nat} {byte : UInt8}
    {frame' : Frame} (pointing : target' (tid, n / machine.pageSize) = some p)
    (here : after.frameOf p = some frame')
    (bytes : ∀ offset, offset < machine.pageSize → frame'.bytes offset =
      if offset = n % machine.pageSize then byte
      else state.byteAt target (tid, n / machine.pageSize) offset)
    (others : ∀ ref, ref ≠ (tid, n / machine.pageSize) → target' ref = target ref ∧
      ∀ q, target ref = some q → (after.frameOf q).map (·.bytes) = (state.frameOf q).map (·.bytes))
    (ref : Reference) {offset : Nat} (inside : offset < machine.pageSize) :
    after.byteAt target' ref offset =
      if ref.1 = tid ∧ position machine ref.2 offset = n then byte
      else state.byteAt target ref offset := by
  simp only [position_eq_iff inside]
  by_cases same : ref = (tid, n / machine.pageSize)
  · subst same
    rw [State.byteAt_eq pointing here, bytes offset inside]
    simp
  · have away : ¬(ref.1 = tid ∧ ref.2 = n / machine.pageSize ∧ offset = n % machine.pageSize) :=
      fun matching => same (Prod.ext matching.1 matching.2.1)
    rw [if_neg away]
    exact State.byteAt_congr (others ref same).1 (others ref same).2 offset

/-- Writing `buffer` from position `start` on has reached `after`. -/
structure Written (machine : Machine) (base : Reference → Option PagePtr) (tid : Tid)
    (pointer : ElementPtr) (state : State) (element : HashElement) (start count : Nat)
    (buffer : Buffer) (after : State) (pages : List PagePtr) : Prop where
  writing : Writing machine base tid pointer after (element.withPages pages)
  rewritten : Rewritten state after pointer element pages
  bytes : ∀ ref offset, offset < machine.pageSize →
    after.byteAt (areaOf base tid (element.withPages pages)) ref offset =
      if ref.1 = tid ∧ start ≤ position machine ref.2 offset ∧
        position machine ref.2 offset < start + count then
        buffer (position machine ref.2 offset - start)
      else state.byteAt (areaOf base tid element) ref offset

theorem written_one {position n : Nat} (own : Prop) [Decidable own] (buffer : Buffer)
    (old : UInt8) :
    (if own ∧ position = n then buffer 0 else old) =
      if own ∧ n ≤ position ∧ position < n + 1 then buffer (position - n) else old := by
  by_cases here : position = n
  · subst here
    simp
  · have away : ¬(n ≤ position ∧ position < n + 1) := by omega
    rw [if_neg (fun both => here both.2), if_neg (fun both => away both.2)]

namespace Writing

variable {n : Nat}

theorem slot_eq (_ : Writing machine base tid pointer state element)
    (held : element.tls.pages[n]? = some p) :
    areaOf base tid element (tid, n) = some p := by
  rw [areaOf, withSlots_self, held]

theorem writeByte_eq (writing : Writing machine base tid pointer state element)
    (kernel : Kernel) (small : n < 2 ^ 31)
    (held : element.tls.pages[n / machine.pageSize]? = some p)
    (allocated : state.pages p = some page) (byte : UInt8) :
    writeByte kernel pointer state (Int32.ofNat n) byte =
      if page.refCount > 1 then
        copyOnWrite kernel state pointer element (n / machine.pageSize) p page >>= fun result =>
          storeByte result.2 result.1 (n % machine.pageSize) byte
      else storeByte state p (n % machine.pageSize) byte := by
  have element_ : state.element pointer = .ok element :=
    (state.element_eq_ok_iff).mpr writing.found
  have slot_ : State.slot element.tls.pages (n / machine.pageSize) = .ok p :=
    State.slot_eq_ok_iff.mpr held
  have page_ : state.page p = .ok page := (state.page_eq_ok_iff).mpr allocated
  simp only [writeByte, element_, bind, Except.bind, writing.pageSize,
    workingPage_eq machine small, pageOffset_eq machine small, slot_, page_]

theorem offset_lt (writing : Writing machine base tid pointer state element) (n : Nat) :
    n % machine.pageSize < state.pageSize.toInt.toNat := by
  rw [writing.pageSize, Machine.toNat_pageSizeInt]
  exact Nat.mod_lt _ machine.pageSize_pos

/-- A page with a single reference is written in place. -/
theorem storeByte_private (writing : Writing machine base tid pointer state element)
    (held : element.tls.pages[n / machine.pageSize]? = some p)
    (allocated : state.pages p = some page) (mapped : state.memory page.address = some frame)
    (byte : UInt8) :
    storeByte state p (n % machine.pageSize) byte =
      .ok (state.stored page frame (n % machine.pageSize) byte) := by
  have frameOf : state.frameOf p = some frame := by simp [State.frameOf, allocated, mapped]
  have writable := (writing.unlocked p (List.mem_of_getElem? held) frame frameOf).1
  exact storeByte_eq allocated mapped writable (writing.offset_lt n) _

theorem writePrivate (writing : Writing machine base tid pointer state element)
    (held : element.tls.pages[n / machine.pageSize]? = some p)
    (allocated : state.pages p = some page) (mapped : state.memory page.address = some frame)
    (single : ¬page.refCount > 1) (buffer : Buffer) :
    Written machine base tid pointer state element n 1 buffer
      (state.stored page frame (n % machine.pageSize) (buffer 0)) element.tls.pages := by
  have pointing := writing.slot_eq held
  have frameOf : state.frameOf p = some frame := by simp [State.frameOf, allocated, mapped]
  have counter : state.refCount p = some page.refCount := by simp [State.refCount, allocated]
  have only : ∀ ref, areaOf base tid element ref = some p →
      ref = (tid, n / machine.pageSize) := fun ref again =>
    writing.backed.counted.unique counter (not_lt.mp single) again pointing
  have same : element.withPages element.tls.pages = element := rfl
  refine ⟨?_, ?_, ?_⟩
  · refine ⟨writing.pageSize, writing.found, writing.backed.stored .., ?_⟩
    intro q membership frame' here
    by_cases equal : q = p
    · subst equal
      rw [frameOf_stored_self allocated, Option.some.injEq] at here
      subst here
      exact writing.unlocked q membership frame frameOf
    · rw [writing.backed.frameOf_stored allocated equal] at here
      exact writing.unlocked q membership frame' here
  · refine ⟨rfl, rfl, rfl, ?_, rfl, rfl⟩
    rw [same, ← writing.found, Function.update_eq_self]
    rfl
  · intro ref offset within
    rw [same, byteAt_write pointing (frameOf_stored_self allocated _ _) ?_ ?_ ref within]
    · exact written_one ..
    · intro offset' _
      rw [State.byteAt_eq pointing frameOf]
      by_cases equal : offset' = n % machine.pageSize
      · simp [equal]
      · simp [equal]
    · intro ref' away
      refine ⟨rfl, fun q there => ?_⟩
      have distinct : q ≠ p := by
        rintro rfl
        exact away (only ref' there)
      rw [writing.backed.frameOf_stored allocated distinct]

/-- A shared page is copied first, and the copy written. -/
theorem storeByte_shared (writing : Writing machine base tid pointer state element)
    (kernel : Kernel) (held : element.tls.pages[n / machine.pageSize]? = some p)
    (allocated : state.pages p = some page) (mapped : state.memory page.address = some frame)
    (shared : page.refCount > 1) (byte : UInt8) :
    copyOnWrite kernel state pointer element (n / machine.pageSize) p page = .error .mapFailed ∨
      ∃ address, state.memory address = none ∧
        (copyOnWrite kernel state pointer element (n / machine.pageSize) p page >>= fun result =>
          storeByte result.2 result.1 (n % machine.pageSize) byte) =
          .ok (state.copyWritten pointer element (n / machine.pageSize) p page frame address
            (n % machine.pageSize) byte) := by
  have frameOf : state.frameOf p = some frame := by simp [State.frameOf, allocated, mapped]
  have counter : state.refCount p = some page.refCount := by simp [State.refCount, allocated]
  have old : p ≠ state.nextPage := writing.backed.ne_nextPage (writing.slot_eq held)
  have readable := (writing.unlocked p (List.mem_of_getElem? held) frame frameOf).2 _ counter shared
  refine (copyOnWrite_eq kernel mapped readable).imp_right ?_
  rintro ⟨address, unmapped, done⟩
  refine ⟨address, unmapped, ?_⟩
  rw [done]
  exact storeByte_eq (pages_copied_copy old) (memory_copied_copy mapped unmapped) rfl
    (writing.offset_lt n) _

theorem copyFrame_byte (writing : Writing machine base tid pointer state element) {ref : Reference}
    (pointing : areaOf base tid element ref = some p) (frameOf : state.frameOf p = some frame)
    {offset : Nat} (small : offset < machine.pageSize) :
    (copyFrame state.pageSize frame).bytes offset =
      state.byteAt (areaOf base tid element) ref offset := by
  have covered : offset < state.pageSize.toInt.toNat := by
    rw [writing.pageSize, Machine.toNat_pageSizeInt]
    exact small
  rw [State.byteAt_eq pointing frameOf]
  exact if_pos covered

theorem other_of_mem_set (writing : Writing machine base tid pointer state element) {slot : Nat}
    (held : element.tls.pages[slot]? = some p) {copy : PagePtr}
    (membership : q ∈ element.tls.pages.set slot copy) (notCopy : q ≠ copy) :
    (∃ j : Nat, element.tls.pages[j]? = some q) ∧ q ≠ p := by
  have slotInside := (List.getElem?_eq_some_iff.mp held).1
  obtain ⟨j, there⟩ := List.mem_iff_getElem?.mp membership
  have other : j ≠ slot := by
    rintro rfl
    rw [List.getElem?_set_self slotInside, Option.some.injEq] at there
    exact notCopy there.symm
  rw [List.getElem?_set_ne other.symm] at there
  refine ⟨⟨j, there⟩, ?_⟩
  rintro rfl
  exact other (writing.backed.separate _ _ _ _ (writing.slot_eq there) (writing.slot_eq held))

theorem copyFrame_update (writing : Writing machine base tid pointer state element)
    {ref : Reference} (pointing : areaOf base tid element ref = some p)
    (frameOf : state.frameOf p = some frame) (place : Nat) (byte : UInt8) {offset : Nat}
    (small : offset < machine.pageSize) :
    Function.update (copyFrame state.pageSize frame).bytes place byte offset =
      if offset = place then byte else state.byteAt (areaOf base tid element) ref offset := by
  by_cases equal : offset = place
  · simp [equal]
  · rw [Function.update_of_ne equal, if_neg equal]
    exact writing.copyFrame_byte pointing frameOf small

theorem writeShared (writing : Writing machine base tid pointer state element)
    (held : element.tls.pages[n / machine.pageSize]? = some p)
    (allocated : state.pages p = some page) (mapped : state.memory page.address = some frame)
    (unmapped : state.memory address = none) (buffer : Buffer) :
    Written machine base tid pointer state element n 1 buffer
      (state.copyWritten pointer element (n / machine.pageSize) p page frame address
        (n % machine.pageSize) (buffer 0))
      (element.tls.pages.set (n / machine.pageSize) state.nextPage) := by
  have pointing := writing.slot_eq held
  have frameOf : state.frameOf p = some frame := by simp [State.frameOf, allocated, mapped]
  have old : p ≠ state.nextPage := writing.backed.ne_nextPage pointing
  have backed : Backed (state.copied pointer element (n / machine.pageSize) p page frame address)
      (areaOf base tid (element.withPages
        (element.tls.pages.set (n / machine.pageSize) state.nextPage))) := by
    rw [areaOf_set _ (List.getElem?_eq_some_iff.mp held).1]
    exact writing.backed.copied pointing allocated unmapped
  have others : ∀ ref q, areaOf base tid element ref = some q →
      (state.copied pointer element (n / machine.pageSize) p page frame address).frameOf q =
        if q = p then some { frame with prot := .none } else state.frameOf q := fun ref q there =>
    writing.backed.frameOf_copied (writing.backed.ne_nextPage there) allocated mapped unmapped
  have counts : ∀ q, q ≠ p → q ≠ state.nextPage →
      (state.copied pointer element (n / machine.pageSize) p page frame address).refCount q =
        state.refCount q := by
    intro q first second
    simp [State.refCount, State.copied, replaceSlot, addPage, first, second]
  have copyAllocated : (state.copied pointer element (n / machine.pageSize) p page frame
      address).pages state.nextPage = some { address, refCount := 1 } := pages_copied_copy old
  have rewritten : Rewritten state (state.copied pointer element (n / machine.pageSize) p page
      frame address) pointer element (element.tls.pages.set (n / machine.pageSize)
        state.nextPage) := ⟨rfl, rfl, rfl, rfl, rfl, List.length_set⟩
  unfold State.copyWritten
  generalize state.copied pointer element (n / machine.pageSize) p page frame address = copied
    at backed others counts copyAllocated rewritten ⊢
  have slotInside := (List.getElem?_eq_some_iff.mp held).1
  have fresh : ∀ ref q, areaOf base tid element ref = some q → q ≠ state.nextPage :=
    fun ref q there => writing.backed.ne_nextPage there
  refine ⟨⟨rewritten.pageSize.trans writing.pageSize, ?_, backed.stored .., ?_⟩,
    ⟨rewritten.initialized, rewritten.pageSize, rewritten.hashTable, rewritten.elements,
      rewritten.nextElement, rewritten.length⟩, ?_⟩
  · rw [State.stored, rewritten.elements, Function.update_self]
  · intro q membership frame' here
    rw [HashElement.withPages_pages] at membership
    by_cases equal : q = state.nextPage
    · subst equal
      rw [frameOf_stored_self copyAllocated, Option.some.injEq] at here
      subst here
      refine ⟨rfl, fun number one several => ?_⟩
      simp only [State.refCount, State.stored, copyAllocated, Option.map_some,
        Option.some.injEq] at one
      omega
    · obtain ⟨⟨j, there⟩, distinct⟩ := writing.other_of_mem_set held membership equal
      rw [backed.frameOf_stored copyAllocated equal, others _ q (writing.slot_eq there),
        if_neg distinct] at here
      have earlier := writing.unlocked q (List.mem_of_getElem? there) frame' here
      refine ⟨earlier.1, fun number count several => earlier.2 number ?_ several⟩
      rw [← counts q distinct equal]
      exact count
  · intro ref offset within
    have moved : areaOf base tid (element.withPages
        (element.tls.pages.set (n / machine.pageSize) state.nextPage))
        (tid, n / machine.pageSize) = some state.nextPage := by
      rw [areaOf_set _ slotInside, Function.update_self]
    have contents (place : Nat) (small : place < machine.pageSize) :=
      writing.copyFrame_update pointing frameOf (n % machine.pageSize) (buffer 0) small
    have kept : ∀ ref, ref ≠ (tid, n / machine.pageSize) →
        areaOf base tid (element.withPages
          (element.tls.pages.set (n / machine.pageSize) state.nextPage)) ref =
          areaOf base tid element ref ∧
        ∀ q, areaOf base tid element ref = some q →
          ((copied.stored { address, refCount := 1 } (copyFrame state.pageSize frame)
            (n % machine.pageSize) (buffer 0)).frameOf q).map (·.bytes) =
          (state.frameOf q).map (·.bytes) := by
      intro ref' away
      refine ⟨by rw [areaOf_set _ slotInside, Function.update_of_ne away], fun q there => ?_⟩
      rw [backed.frameOf_stored copyAllocated (fresh ref' q there), others ref' q there]
      split
      next same =>
        subst same
        rw [frameOf]
        rfl
      next => rfl
    rw [byteAt_write moved (frameOf_stored_self copyAllocated _ _) contents kept ref within]
    exact written_one ..

theorem writeByte_cases (writing : Writing machine base tid pointer state element)
    (kernel : Kernel) (small : n < 2 ^ 31)
    (inside : n < element.tls.pages.length * machine.pageSize) (buffer : Buffer) :
    writeByte kernel pointer state (Int32.ofNat n) (buffer 0) = .error .mapFailed ∨
      ∃ after pages, writeByte kernel pointer state (Int32.ofNat n) (buffer 0) = .ok after ∧
        Written machine base tid pointer state element n 1 buffer after pages := by
  have slotInside : n / machine.pageSize < element.tls.pages.length :=
    Nat.div_lt_of_lt_mul (by rwa [Nat.mul_comm])
  have held := List.getElem?_eq_getElem slotInside
  obtain ⟨page, frame, allocated, mapped, -⟩ := writing.backed.page_of (writing.slot_eq held)
  rw [writing.writeByte_eq kernel small held allocated]
  by_cases shared : page.refCount > 1
  · rw [if_pos shared]
    rcases writing.storeByte_shared kernel held allocated mapped shared (buffer 0) with failed |
      ⟨address, unmapped, done⟩
    · left
      rw [failed]
      rfl
    · exact .inr ⟨_, _, done, writing.writeShared held allocated mapped unmapped buffer⟩
  · rw [if_neg shared]
    exact .inr ⟨_, _, writing.storeByte_private held allocated mapped (buffer 0),
      writing.writePrivate held allocated mapped shared buffer⟩

end Writing

namespace Written

variable {start count : Nat} {buffer : Buffer} {pages : List PagePtr}

theorem refl (writing : Writing machine base tid pointer state element) (start : Nat)
    (buffer : Buffer) :
    Written machine base tid pointer state element start 0 buffer state element.tls.pages := by
  refine ⟨writing, ⟨rfl, rfl, rfl, ?_, rfl, rfl⟩, ?_⟩
  · have same : element.withPages element.tls.pages = element := rfl
    rw [same, ← writing.found, Function.update_eq_self]
  · intro ref offset _
    rw [if_neg (by omega)]
    rfl

theorem trans {first second : Nat} {middle : State} {pages' : List PagePtr}
    (before : Written machine base tid pointer state element start first buffer middle pages)
    (later : Written machine base tid pointer middle (element.withPages pages) (start + first)
      second (fun k => buffer (first + k)) after pages') :
    Written machine base tid pointer state element start (first + second) buffer after pages' := by
  have rewritten := before.rewritten
  have rewritten' := later.rewritten
  refine ⟨later.writing, ⟨rewritten'.initialized.trans rewritten.initialized,
    rewritten'.pageSize.trans rewritten.pageSize, rewritten'.hashTable.trans rewritten.hashTable,
    ?_, rewritten'.nextElement.trans rewritten.nextElement,
    rewritten'.length.trans rewritten.length⟩, ?_⟩
  · rw [rewritten'.elements, rewritten.elements, Function.update_idem,
      HashElement.withPages_withPages]
  · intro ref offset inside
    have final := later.bytes ref offset inside
    rw [HashElement.withPages_withPages] at final
    rw [final, before.bytes ref offset inside]
    by_cases own : ref.1 = tid
    · by_cases early : start ≤ position machine ref.2 offset ∧
          position machine ref.2 offset < start + first
      · rw [if_neg (by omega), if_pos ⟨own, early⟩, if_pos ⟨own, early.1, by omega⟩]
      · by_cases late : start + first ≤ position machine ref.2 offset ∧
            position machine ref.2 offset < start + first + second
        · rw [if_pos ⟨own, late⟩, if_pos ⟨own, by omega, by omega⟩]
          congr 1
          omega
        · rw [if_neg fun both => late both.2, if_neg fun both => early both.2,
            if_neg (by omega)]
    · simp [own]

end Written

theorem writeLoop_cases (kernel : Kernel) (buffer : Buffer) {start count fuel : Nat}
    (writing : Writing machine base tid pointer state element) (enough : count < fuel)
    (small : start + count < 2 ^ 31)
    (inside : start + count ≤ element.tls.pages.length * machine.pageSize) (i : Nat) :
    writeLoop kernel pointer (UInt32.ofNat (start + count)) buffer fuel state i
        (Int32.ofNat start) = .error .mapFailed ∨
      ∃ after pages, writeLoop kernel pointer (UInt32.ofNat (start + count)) buffer fuel state i
          (Int32.ofNat start) = .ok after ∧
        Written machine base tid pointer state element start count (fun k => buffer (i + k))
          after pages := by
  induction count generalizing state element start i fuel with
  | zero =>
      right
      obtain ⟨fuel, rfl⟩ := Nat.exists_eq_succ_of_ne_zero (Nat.ne_of_gt enough)
      exact ⟨state, _, by simp [writeLoop], .refl writing start _⟩
  | succ count inductionHypothesis =>
      obtain ⟨fuel, rfl⟩ := Nat.exists_eq_succ_of_ne_zero (Nat.ne_of_gt (Nat.zero_lt_of_lt enough))
      have below : (Int32.ofNat start).toUInt32 < UInt32.ofNat (start + (count + 1)) := by
        rw [UInt32.lt_iff_toNat_lt, toNat_ofNat (by omega), UInt32.toNat_ofNat',
          Nat.mod_eq_of_lt (by omega)]
        omega
      simp only [writeLoop, if_pos below]
      have here : start < 2 ^ 31 := by omega
      have room : start < element.tls.pages.length * machine.pageSize := by omega
      rcases writing.writeByte_cases kernel here room (fun k => buffer (i + k)) with
        failed | ⟨middle, pages, done, written⟩
      · left
        rw [Nat.add_zero] at failed
        simp only [failed, bind, Except.bind]
      · have next : increment (Int32.ofNat start) = .ok (Int32.ofNat (start + 1)) :=
          increment_ofNat (by omega)
        have room' : start + 1 + count ≤
            (element.withPages pages).tls.pages.length * machine.pageSize := by
          rw [HashElement.withPages_pages, written.rewritten.length]
          omega
        have fuel_ : count < fuel := Nat.lt_of_succ_lt_succ enough
        have small' : start + 1 + count < 2 ^ 31 := by omega
        have later := inductionHypothesis written.writing fuel_ small' room' (i + 1)
        have shifted : start + (count + 1) = start + 1 + count := by omega
        rw [Nat.add_zero] at done
        simp only [done, next, bind, Except.bind, shifted]
        refine later.imp id ?_
        rintro ⟨after, pages', run, rest⟩
        refine ⟨after, pages', run, ?_⟩
        rw [Nat.add_comm count 1]
        refine written.trans ?_
        simpa only [Nat.add_assoc] using rest

/-! ## The loop of tls_read -/

def State.byteIn (state : State) (machine : Machine) (target : Reference → Option PagePtr)
    (tid : Tid) (n : Nat) : UInt8 :=
  state.byteAt target (tid, n / machine.pageSize) (n % machine.pageSize)

section Reading

variable {pages : List PagePtr}

theorem readByte_of_readable {n : Nat} (small : n < 2 ^ 31)
    (pageSize : state.pageSize = machine.pageSizeInt)
    (found : state.elements pointer = some element)
    (held : element.tls.pages[n / machine.pageSize]? = some p)
    (allocated : state.pages p = some page) (mapped : state.memory page.address = some frame)
    (readable : frame.prot.read = true) :
    readByte pointer state (Int32.ofNat n) = .ok (frame.bytes (n % machine.pageSize)) := by
  have element_ : state.element pointer = .ok element := (state.element_eq_ok_iff).mpr found
  have slot_ := State.slot_eq_ok_iff.mpr held
  have page_ := (state.page_eq_ok_iff).mpr allocated
  have small_ : n % machine.pageSize < machine.pageSizeInt.toInt.toNat := by
    rw [Machine.toNat_pageSizeInt]
    exact Nat.mod_lt _ machine.pageSize_pos
  simp only [readByte, element_, bind, Except.bind, pageSize, workingPage_eq machine small,
    pageOffset_eq machine small, slot_, page_, if_pos small_, load, mapped, readable, if_true]

theorem readByte_eq {n : Nat} (small : n < 2 ^ 31) (pageSize : state.pageSize = machine.pageSizeInt)
    (found : state.elements pointer = some element)
    (backed : Backed state (areaOf base tid element))
    (readable : ∀ p ∈ element.tls.pages, ∀ frame, state.frameOf p = some frame →
      frame.prot.read = true)
    (inside : n < element.tls.pages.length * machine.pageSize) :
    readByte pointer state (Int32.ofNat n) =
      .ok (state.byteIn machine (areaOf base tid element) tid n) := by
  have slotInside : n / machine.pageSize < element.tls.pages.length :=
    Nat.div_lt_of_lt_mul (by rwa [Nat.mul_comm])
  have held := List.getElem?_eq_getElem slotInside
  have pointing : areaOf base tid element (tid, n / machine.pageSize) =
      some element.tls.pages[n / machine.pageSize] := by rw [areaOf, withSlots_self, held]
  obtain ⟨page, frame, allocated, mapped, frameOf⟩ := backed.page_of pointing
  have access := readable _ (List.getElem_mem slotInside) frame frameOf
  rw [readByte_of_readable small pageSize found held allocated mapped access, State.byteIn,
    State.byteAt_eq pointing frameOf]

/-- The buffer after `count` bytes from position `start` on have been stored from `i` on. -/
def filled (bytes : Nat → UInt8) (buffer : Buffer) (start count i : Nat) : Buffer := fun k =>
  if i ≤ k ∧ k < i + count then bytes (start + (k - i)) else buffer k

theorem filled_succ (bytes : Nat → UInt8) (buffer : Buffer) (start count i : Nat) :
    filled bytes (Function.update buffer i (bytes start)) (start + 1) count (i + 1) =
      filled bytes buffer start (count + 1) i := by
  funext k
  unfold filled
  by_cases later : i + 1 ≤ k ∧ k < i + 1 + count
  · rw [if_pos later, if_pos (by omega)]
    congr 1
    omega
  · rw [if_neg later]
    by_cases first : k = i
    · subst first
      simp
    · rw [Function.update_of_ne first, if_neg (by omega)]

theorem readLoop_eq {start count fuel : Nat}
    (pageSize : state.pageSize = machine.pageSizeInt)
    (found : state.elements pointer = some element)
    (backed : Backed state (areaOf base tid element))
    (readable : ∀ p ∈ element.tls.pages, ∀ frame, state.frameOf p = some frame →
      frame.prot.read = true)
    (enough : count < fuel) (small : start + count < 2 ^ 31)
    (inside : start + count ≤ element.tls.pages.length * machine.pageSize) (i : Nat)
    (buffer : Buffer) :
    readLoop pointer (UInt32.ofNat (start + count)) state fuel buffer i (Int32.ofNat start) =
      .ok (filled (state.byteIn machine (areaOf base tid element) tid) buffer start count i) := by
  induction count generalizing start fuel i buffer with
  | zero =>
      obtain ⟨fuel, rfl⟩ := Nat.exists_eq_succ_of_ne_zero (Nat.ne_of_gt enough)
      have nothing : filled (state.byteIn machine (areaOf base tid element) tid) buffer start 0 i =
          buffer := by
        funext k
        exact if_neg (by omega)
      rw [nothing]
      simp [readLoop]
  | succ count inductionHypothesis =>
      obtain ⟨fuel, rfl⟩ := Nat.exists_eq_succ_of_ne_zero (Nat.ne_of_gt (Nat.zero_lt_of_lt enough))
      have below : (Int32.ofNat start).toUInt32 < UInt32.ofNat (start + (count + 1)) := by
        rw [UInt32.lt_iff_toNat_lt, toNat_ofNat (by omega), UInt32.toNat_ofNat',
          Nat.mod_eq_of_lt (by omega)]
        omega
      have here : start < 2 ^ 31 := by omega
      have room : start < element.tls.pages.length * machine.pageSize := by omega
      have next : increment (Int32.ofNat start) = .ok (Int32.ofNat (start + 1)) :=
        increment_ofNat (by omega)
      have shifted : start + (count + 1) = start + 1 + count := by omega
      simp only [readLoop, if_pos below, readByte_eq here pageSize found backed readable room, next,
        bind, Except.bind]
      rw [shifted, inductionHypothesis (by omega) (by omega) (by omega), filled_succ]

end Reading

end EC440.LocalStorage
