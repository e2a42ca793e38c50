import EC440.LocalStorage.Refinement

/-!
# Runs that share pages

Between the calls of a run without `tls_destroy` every page belongs to an area
and is inaccessible.  A call opens the pages of one area and closes them
again; the loop of `tls_write` leaves a page behind only after closing it.
-/

namespace EC440.LocalStorage

open References Outcome

variable {machine : Machine} {state after : State} {buckets : Bucket → List ElementPtr}
  {place : Tid → Option ElementPtr} {target base : Reference → Option PagePtr} {tid : Tid}
  {tls : Tls} {p : PagePtr} {page : Page} {frame : Frame} {address : Address}
  {pointer : ElementPtr} {element : HashElement} {pages : List PagePtr}

/-- The calls without `tls_destroy`, for areas that an `int` can index. -/
def Call.Sharing : Call → Prop
  | .create size => size.toNat < 2 ^ 31
  | .destroy => False
  | .write .. | .read .. | .clone _ => True

/-- The area of a thread, as `hash_search` finds it. -/
def State.area (state : State) (tid : Tid) : Option Tls :=
  match hashSearch state tid with
  | .ok (some pointer) => (state.elements pointer).map (·.tls)
  | _ => none

theorem Tabled.area_eq (table : Tabled state buckets place) :
    state.area = state.areaAt place := by
  funext tid
  rw [State.area, table.hashSearch_eq, State.areaAt]
  cases place tid <;> rfl

theorem Sound.area_eq (sound : Sound machine state buckets place) :
    state.area = state.areaAt place :=
  sound.table.area_eq

def Covered (state : State) (target : Reference → Option PagePtr) : Prop :=
  ∀ p frame, state.frameOf p = some frame → ∃ ref, target ref = some p

def Locked (state : State) : Prop :=
  ∀ p frame, state.frameOf p = some frame → frame.prot = .none

/-- Only the pages of one array are accessible. -/
def LockedBut (state : State) (pages : List PagePtr) : Prop :=
  ∀ p frame, state.frameOf p = some frame → p ∈ pages ∨ frame.prot = .none

structure Settled (machine : Machine) (state : State) (buckets : Bucket → List ElementPtr)
    (place : Tid → Option ElementPtr) : Prop where
  sound : Sound machine state buckets place
  small : ∀ tid tls, state.areaAt place tid = some tls → tls.size.toNat < 2 ^ 31
  covered : Covered state (references (state.areaAt place))
  locked : Locked state

theorem Settled.initial (machine : Machine) (memory : PageMemory) :
    Settled machine (.initial memory) (fun _ => []) fun _ => none where
  sound := .initial machine memory
  small := by simp [State.areaAt]
  covered := by simp [Covered, State.frameOf, State.initial]
  locked := by simp [Locked, State.frameOf, State.initial]

/-! ## Protecting the pages of an area -/

theorem Backed.lockedBut_of_withProt (backed : Backed state target) (locked : Locked state)
    (pages : List PagePtr) (prot : Prot) : LockedBut (state.withProt pages prot) pages := by
  intro p frame here
  rw [backed.frameOf_withProt] at here
  by_cases membership : p ∈ pages
  · exact .inl membership
  · rw [if_neg membership] at here
    exact .inr (locked p frame here)

theorem Backed.locked_of_lockedBut (backed : Backed state target)
    (locked : LockedBut state pages) : Locked (state.withProt pages .none) := by
  intro p frame here
  rw [backed.frameOf_withProt] at here
  by_cases membership : p ∈ pages
  · rw [if_pos membership, Option.map_eq_some_iff] at here
    obtain ⟨earlier, -, rfl⟩ := here
    rfl
  · rw [if_neg membership] at here
    exact (locked p frame here).resolve_left membership

theorem Backed.covered_withProt (backed : Backed state target) (covered : Covered state target)
    (pages : List PagePtr) (prot : Prot) : Covered (state.withProt pages prot) target := by
  intro p frame here
  rw [backed.frameOf_withProt] at here
  split at here
  next =>
    obtain ⟨earlier, before, -⟩ := Option.map_eq_some_iff.mp here
    exact covered p earlier before
  next => exact covered p frame here

theorem Settled.reopened (settled : Settled machine state buckets place)
    (area : state.areaAt place tid = some tls) :
    Settled machine ((state.withProt tls.pages .readWrite).withProt tls.pages .none) buckets
      place := by
  obtain ⟨-, soundOpen, -, -⟩ := settled.sound.changeProt area .readWrite
  obtain ⟨-, soundAfter, -, -⟩ := soundOpen.changeProt area .none
  exact ⟨soundAfter, settled.small,
    soundOpen.backed.covered_withProt
      (settled.sound.backed.covered_withProt settled.covered _ _) _ _,
    soundOpen.backed.locked_of_lockedBut
      (settled.sound.backed.lockedBut_of_withProt settled.locked _ _)⟩

/-! ## tls_create and tls_clone -/

theorem Backed.frameOf_addPage_of_ne (backed : Backed state target)
    (unmapped : state.memory address = none) (new : Frame) (other : p ≠ state.nextPage) :
    (addPage state address
      (Function.update state.memory address (some new))).frameOf p = state.frameOf p := by
  cases allocated : state.pages p with
  | none => simp [State.frameOf, addPage, other, allocated]
  | some page =>
      obtain ⟨frame, mapped⟩ := backed.mapped p page allocated
      have distinct : page.address ≠ address := by
        rintro rfl
        simp [unmapped] at mapped
      simp [State.frameOf, addPage, other, allocated, distinct]

theorem createPages_frames (kernel : Kernel) {count : Nat} (backed : Backed state target)
    (created : createPages kernel count state = (some pages, after)) (p : PagePtr) :
    after.frameOf p = state.frameOf p ∨
      p ∈ pages ∧ after.frameOf p = some { bytes := fun _ => 0, prot := .none } := by
  induction count generalizing state pages with
  | zero =>
      simp only [createPages, Prod.mk.injEq, Option.some.injEq] at created
      exact .inl (by rw [created.2])
  | succ count inductionHypothesis =>
      rcases kernel.mmap_cases state.memory .none with failed | ⟨address, unmapped, mapped⟩
      · simp [createPages, failed] at created
      · simp only [createPages, mapped] at created
        split at created
        next => simp at created
        next rest later tail =>
          simp only [Prod.mk.injEq, Option.some.injEq] at created
          obtain ⟨rfl, rfl⟩ := created
          have added := backed.addedPage unmapped { bytes := fun _ => 0, prot := .none }
          rcases inductionHypothesis added tail with same | ⟨membership, new⟩
          · by_cases first : p = state.nextPage
            · right
              refine ⟨by simp [first], ?_⟩
              rw [same]
              simp [first, State.frameOf, addPage]
            · left
              rw [same, backed.frameOf_addPage_of_ne unmapped _ first]
          · exact .inr ⟨List.mem_cons_of_mem _ membership, new⟩

theorem Tabled.areaAt_inserted (table : Tabled state buckets place)
    (untouched : Untouched state after) (tid : Tid) (tls : Tls) :
    (insertElement after tid tls).areaAt (insertedPlace state place tid) =
      Function.update (state.areaAt place) tid (some tls) := by
  have areas := (table.congr untouched.hashTable untouched.elements
    untouched.nextElement).areaAt_insert tid tls
  rwa [untouched.nextElement, areaAt_congr untouched.elements] at areas

theorem Settled.insert (settled : Settled machine state buckets place)
    (absent : place tid = none) (untouched : Untouched state after)
    (sound : Sound machine (insertElement after tid tls) (insertedBuckets state buckets tid)
      (insertedPlace state place tid))
    (small : tls.size.toNat < 2 ^ 31)
    (frames : ∀ p, after.frameOf p = state.frameOf p ∨
      p ∈ tls.pages ∧ after.frameOf p = some { bytes := fun _ => 0, prot := .none }) :
    Settled machine (insertElement after tid tls) (insertedBuckets state buckets tid)
      (insertedPlace state place tid) := by
  have areas := settled.sound.table.areaAt_inserted untouched tid tls
  have free : state.areaAt place tid = none :=
    settled.sound.table.areaAt_eq_none_iff.mpr absent
  have sameFrames : (insertElement after tid tls).frameOf = after.frameOf := rfl
  refine ⟨sound, ?_, ?_, ?_⟩
  · intro other tls' area
    rw [areas] at area
    by_cases same : other = tid
    · subst same
      rw [Function.update_self, Option.some.injEq] at area
      rwa [← area]
    · rw [Function.update_of_ne same] at area
      exact settled.small other tls' area
  · intro p frame here
    rw [areas, references_update]
    rcases frames p with old | ⟨membership, -⟩
    · rw [sameFrames, old] at here
      obtain ⟨⟨owner, slot⟩, pointing⟩ := settled.covered p frame here
      have other : owner ≠ tid := by
        rintro rfl
        simp [references, free] at pointing
      exact ⟨(owner, slot), by rw [withSlots_of_ne other, pointing]⟩
    · obtain ⟨slot, held⟩ := List.mem_iff_getElem?.mp membership
      exact ⟨(tid, slot), by rw [withSlots_self, held]⟩
  · intro p frame here
    rcases frames p with old | ⟨-, new⟩
    · rw [sameFrames, old] at here
      exact settled.locked p frame here
    · rw [sameFrames, new, Option.some.injEq] at here
      rw [← here]

theorem Settled.ready (settled : Settled machine state buckets place) :
    Settled machine (state.ready machine) buckets place :=
  ⟨settled.sound.ready, settled.small, settled.covered, settled.locked⟩

/-! ## The loop of tls_write -/

/-- The invariant of the loop: the pages of the area are accessible, all others are not. -/
structure Copying (machine : Machine) (base : Reference → Option PagePtr) (tid : Tid)
    (pointer : ElementPtr) (state : State) (element : HashElement) : Prop where
  writing : Writing machine base tid pointer state element
  covered : Covered state (areaOf base tid element)
  locked : LockedBut state element.tls.pages

namespace Copying

variable {n : Nat}

theorem writePrivate (copying : Copying machine base tid pointer state element)
    (held : element.tls.pages[n / machine.pageSize]? = some p)
    (allocated : state.pages p = some page) (mapped : state.memory page.address = some frame)
    (single : ¬page.refCount > 1) (byte : UInt8) :
    Copying machine base tid pointer
      (state.stored page frame (n % machine.pageSize) byte) element := by
  have backed := copying.writing.backed
  refine ⟨(copying.writing.writePrivate held allocated mapped single fun _ => byte).writing,
    ?_, ?_⟩
  · intro q frame' here
    by_cases same : q = p
    · exact ⟨_, same ▸ copying.writing.slot_eq held⟩
    · rw [backed.frameOf_stored allocated same] at here
      exact copying.covered q frame' here
  · intro q frame' here
    by_cases same : q = p
    · exact .inl (same ▸ List.mem_of_getElem? held)
    · rw [backed.frameOf_stored allocated same] at here
      exact copying.locked q frame' here

theorem writeShared (copying : Copying machine base tid pointer state element)
    (held : element.tls.pages[n / machine.pageSize]? = some p)
    (allocated : state.pages p = some page) (mapped : state.memory page.address = some frame)
    (shared : page.refCount > 1) (unmapped : state.memory address = none) (byte : UInt8) :
    Copying machine base tid pointer
      (state.copyWritten pointer element (n / machine.pageSize) p page frame address
        (n % machine.pageSize) byte)
      (element.withPages (element.tls.pages.set (n / machine.pageSize) state.nextPage)) := by
  have writing := copying.writing
  have pointing := writing.slot_eq held
  have slotInside := (List.getElem?_eq_some_iff.mp held).1
  have old : p ≠ state.nextPage := writing.backed.ne_nextPage pointing
  have counter : state.refCount p = some page.refCount := by simp [State.refCount, allocated]
  have backed : Backed (state.copied pointer element (n / machine.pageSize) p page frame address)
      (Function.update (areaOf base tid element) (tid, n / machine.pageSize)
        (some state.nextPage)) :=
    writing.backed.copied pointing allocated unmapped
  have frames : ∀ q, q ≠ state.nextPage →
      (state.copyWritten pointer element (n / machine.pageSize) p page frame address
        (n % machine.pageSize) byte).frameOf q =
        if q = p then some { frame with prot := .none } else state.frameOf q := by
    intro q other
    rw [State.copyWritten, backed.frameOf_stored (pages_copied_copy old) other,
      writing.backed.frameOf_copied other allocated mapped unmapped]
  have moved : ∀ ref, ref ≠ (tid, n / machine.pageSize) → ∀ q,
      areaOf base tid element ref = some q →
      areaOf base tid (element.withPages
        (element.tls.pages.set (n / machine.pageSize) state.nextPage)) ref = some q := by
    intro ref away q earlier
    rw [areaOf_set _ slotInside, Function.update_of_ne away, earlier]
  have former : ∀ q, q ≠ p → (∃ ref, areaOf base tid element ref = some q) →
      ∃ ref, areaOf base tid (element.withPages
        (element.tls.pages.set (n / machine.pageSize) state.nextPage)) ref = some q := by
    rintro q distinct ⟨ref, earlier⟩
    refine ⟨ref, moved ref ?_ q earlier⟩
    rintro rfl
    rw [pointing, Option.some.injEq] at earlier
    exact distinct earlier.symm
  refine ⟨(writing.writeShared held allocated mapped unmapped fun _ => byte).writing, ?_, ?_⟩
  · intro q frame' here
    by_cases fresh : q = state.nextPage
    · refine ⟨(tid, n / machine.pageSize), ?_⟩
      rw [areaOf_set _ slotInside, Function.update_self, fresh]
    · by_cases same : q = p
      · obtain ⟨ref, away, again⟩ := writing.backed.counted.exists_other pointing counter shared
        exact ⟨ref, moved ref away q (same ▸ again)⟩
      · rw [frames q fresh, if_neg same] at here
        exact former q same (copying.covered q frame' here)
  · intro q frame' here
    by_cases fresh : q = state.nextPage
    · left
      rw [HashElement.withPages_pages, fresh]
      exact List.mem_set slotInside _
    · rw [frames q fresh] at here
      by_cases same : q = p
      · rw [if_pos same, Option.some.injEq] at here
        exact .inr (by rw [← here])
      · rw [if_neg same] at here
        refine (copying.locked q frame' here).imp_left fun membership => ?_
        obtain ⟨slot, there⟩ := List.mem_iff_getElem?.mp membership
        rw [HashElement.withPages_pages]
        refine List.mem_iff_getElem?.mpr ⟨slot, ?_⟩
        rw [List.getElem?_set_ne, there]
        rintro rfl
        rw [held, Option.some.injEq] at there
        exact same there.symm

theorem writeByte (copying : Copying machine base tid pointer state element)
    (kernel : Kernel) (small : n < 2 ^ 31)
    (inside : n < element.tls.pages.length * machine.pageSize) {byte : UInt8}
    (written : writeByte kernel pointer state (Int32.ofNat n) byte = .ok after) :
    ∃ pages, Copying machine base tid pointer after (element.withPages pages) ∧
      pages.length = element.tls.pages.length := by
  have slotInside : n / machine.pageSize < element.tls.pages.length :=
    Nat.div_lt_of_lt_mul (by rwa [Nat.mul_comm])
  have held := List.getElem?_eq_getElem slotInside
  have writing := copying.writing
  obtain ⟨page, frame, allocated, mapped, -⟩ := writing.backed.page_of (writing.slot_eq held)
  rw [writing.writeByte_eq kernel small held allocated] at written
  by_cases shared : page.refCount > 1
  · rw [if_pos shared] at written
    rcases writing.storeByte_shared kernel held allocated mapped shared byte with failed |
      ⟨address, unmapped, done⟩
    · rw [failed] at written
      cases written
    · rw [done, Except.ok.injEq] at written
      subst written
      exact ⟨_, copying.writeShared held allocated mapped shared unmapped byte,
        List.length_set⟩
  · rw [if_neg shared, writing.storeByte_private held allocated mapped byte,
      Except.ok.injEq] at written
    subst written
    exact ⟨_, copying.writePrivate held allocated mapped shared byte, rfl⟩

theorem writeLoop (copying : Copying machine base tid pointer state element) (kernel : Kernel)
    {buffer : Buffer} {start count fuel i : Nat} (small : start + count < 2 ^ 31)
    (inside : start + count ≤ element.tls.pages.length * machine.pageSize)
    (run : writeLoop kernel pointer (UInt32.ofNat (start + count)) buffer fuel state i
      (Int32.ofNat start) = .ok after) :
    ∃ pages, Copying machine base tid pointer after (element.withPages pages) := by
  induction fuel generalizing state element start count i with
  | zero => cases run
  | succ fuel inductionHypothesis =>
      rw [LocalStorage.writeLoop] at run
      split at run
      next below =>
        have here : start < start + count := by
          rw [UInt32.lt_iff_toNat_lt, toNat_ofNat (by omega), UInt32.toNat_ofNat',
            Nat.mod_eq_of_lt (by omega)] at below
          exact below
        obtain ⟨middle, written, rest⟩ := bind_eq_ok_iff.mp run
        obtain ⟨next, incremented, rest⟩ := bind_eq_ok_iff.mp rest
        obtain ⟨pages, copying', length⟩ :=
          copying.writeByte kernel (by omega) (by omega) written
        rw [increment_ofNat (by omega), Except.ok.injEq] at incremented
        subst incremented
        have split : start + count = start + 1 + (count - 1) := by omega
        rw [split] at rest small inside
        obtain ⟨pages', final⟩ := inductionHypothesis copying' small
          (by rwa [HashElement.withPages_pages, length]) rest
        exact ⟨pages', final⟩
      next =>
        cases run
        exact ⟨element.tls.pages, copying⟩

end Copying

/-! ## Ranges -/

section Range

variable {offset length : UInt32}

/-- A range that passes the check of `tls_write` and `tls_read` lies inside the area, or its end
wraps around to a position before its start. -/
theorem range_cases {size : UInt32} (small : size.toNat < 2 ^ 31)
    (checked : ¬offset + length > size) :
    (offset.toNat + length.toNat < 2 ^ 31 ∧ offset.toNat + length.toNat ≤ size.toNat) ∨
      ¬offset < offset + length := by
  have sum : (offset + length).toNat ≤ size.toNat := by
    rw [gt_iff_lt, UInt32.lt_iff_toNat_lt] at checked
    exact not_lt.mp checked
  have first := offset.toNat_lt
  have second := length.toNat_lt
  rw [UInt32.lt_iff_toNat_lt]
  rw [UInt32.toNat_add] at sum ⊢
  omega

/-- A range that wraps around contains no position: the loops end at once. -/
theorem tlsWrite_wrapped (sound : Sound machine state buckets place)
    (placed : place tid = some pointer) (found : state.elements pointer = some element)
    (checked : ¬offset + length > element.tls.size) (wrapped : ¬offset < offset + length)
    (kernel : Kernel) (buffer : Buffer) :
    tlsWrite kernel state tid offset length buffer = tlsWrite kernel state tid 0 0 buffer := by
  have reached : state.element pointer = .ok element := (state.element_eq_ok_iff).mpr found
  have unchecked : ¬(0 : UInt32) + 0 > element.tls.size := by simp
  have nothing : ¬(0 : UInt32) < 0 + 0 := by decide
  simp only [tlsWrite, sound.table.hashSearch_eq, placed, reached, if_neg checked,
    if_neg unchecked, bind, Except.bind, writeLoop, UInt32.toUInt32_toInt32, if_neg wrapped,
    if_neg nothing]

theorem tlsRead_wrapped (sound : Sound machine state buckets place)
    (placed : place tid = some pointer) (found : state.elements pointer = some element)
    (checked : ¬offset + length > element.tls.size) (wrapped : ¬offset < offset + length)
    (buffer : Buffer) :
    tlsRead state tid offset length buffer = tlsRead state tid 0 0 buffer := by
  have reached : state.element pointer = .ok element := (state.element_eq_ok_iff).mpr found
  have unchecked : ¬(0 : UInt32) + 0 > element.tls.size := by simp
  have nothing : ¬(0 : UInt32) < 0 + 0 := by decide
  simp only [tlsRead, sound.table.hashSearch_eq, placed, reached, if_neg checked,
    if_neg unchecked, bind, Except.bind, readLoop, UInt32.toUInt32_toInt32, if_neg wrapped,
    if_neg nothing]

end Range

/-! ## Calls -/

def Quiet (machine : Machine) (state : State) : Prop :=
  ∃ buckets place, Settled machine state buckets place

/-- The call returns, and leaves a state between calls. -/
def Completes (machine : Machine) (kernel : Kernel) (state : State) (tid : Tid) (call : Call) :
    Prop :=
  ∃ reply after, exec machine kernel state tid call = .ok (reply, after) ∧ Quiet machine after

namespace Settled

variable {kernel : Kernel} {call : Call}

theorem create (settled : Settled machine state buckets place) {size : UInt32}
    (small : size.toNat < 2 ^ 31) (served : Served machine kernel state tid (.create size)) :
    Completes machine kernel state tid (.create size) := by
  have sound := settled.sound
  have returned := tlsCreate_eq sound kernel tid size
  by_cases failing : size = 0 ∨ place tid ≠ none
  · rw [if_pos failing] at returned
    refine ⟨{ code := -1, buffer := none }, _, ?_, _, _, settled.ready⟩
    simp only [exec, returned, bind, Except.bind]
  rw [if_neg failing] at returned
  have absent : place tid = none := not_not.mp fun placed => failing (.inr placed)
  cases created : createdPages machine kernel state size with
  | mk pages after =>
      rw [created] at returned
      cases pages with
      | none =>
          refine absurd (by rw [created]) (served (fun zero => failing (.inl zero)) ?_)
          rw [sound.table.hashSearch_eq, absent]
      | some pages =>
          have untouched := (createPages_frame kernel
            (pagesFor machine.pageSizeInt size).toNat sound.ready.backed).1
          rw [← createdPages, created] at untouched
          have inserted := (createdPages_done sound kernel absent created).1
          have settled' := settled.ready.insert absent untouched inserted small
            (createPages_frames kernel sound.ready.backed created)
          refine ⟨{ code := 0, buffer := none }, _, ?_, _, _, settled'⟩
          simp only [exec, returned, bind, Except.bind]

theorem clone (settled : Settled machine state buckets place) (source : Tid) :
    Completes machine kernel state tid (.clone source) := by
  have sound := settled.sound
  by_cases failing : place tid ≠ none ∨ place source = none
  · refine ⟨{ code := -1, buffer := none }, state, ?_, _, _, settled⟩
    simp only [exec, tlsClone_failed sound failing, bind, Except.bind]
  · obtain ⟨absent, present⟩ := not_or.mp failing
    have absent' : place tid = none := not_not.mp absent
    obtain ⟨tls, area⟩ : ∃ tls, state.areaAt place source = some tls :=
      Option.ne_none_iff_exists'.mp (mt sound.table.areaAt_eq_none_iff.mp present)
    obtain ⟨middle, done, untouched, frames, backed⟩ := tlsClone_eq sound absent' area
    have sourceSized := sound.sized source tls area
    have sized : Sized machine middle (clonedTls tid tls) :=
      ⟨untouched.initialized.trans sourceSized.initialized, sourceSized.length,
        sourceSized.pageNum⟩
    have small : (clonedTls tid tls).size.toNat < 2 ^ 31 := settled.small source tls area
    have settled' := settled.insert absent' untouched
      (sound.insert absent' untouched sized backed) small fun p => .inl (by rw [frames])
    refine ⟨{ code := 0, buffer := none }, _, ?_, _, _, settled'⟩
    simp only [exec, done, bind, Except.bind]

theorem element_of (settled : Settled machine state buckets place)
    (placed : place tid = some pointer) :
    ∃ element, state.element pointer = .ok element ∧ state.elements pointer = some element ∧
      state.areaAt place tid = some element.tls := by
  obtain ⟨element, reached, -, area⟩ := settled.sound.table.element_eq placed
  exact ⟨element, reached, (state.element_eq_ok_iff).mp reached, area⟩

theorem read_inside (settled : Settled machine state buckets place) {offset length : UInt32}
    (buffer : Buffer) (area : state.areaAt place tid = some tls)
    (small : offset.toNat + length.toNat < 2 ^ 31)
    (fits : offset.toNat + length.toNat ≤ tls.size.toNat) :
    Completes machine kernel state tid (.read offset length buffer) := by
  have returned := tlsRead_eq settled.sound area buffer small fits
  refine ⟨{ code := 0, buffer := some (filled (state.byteIn machine
    (references (state.areaAt place)) tid) buffer offset.toNat length.toNat 0) }, _, ?_, _, _,
    settled.reopened area⟩
  simp only [exec, returned, bind, Except.bind]

theorem read (settled : Settled machine state buckets place) (offset length : UInt32)
    (buffer : Buffer) : Completes machine kernel state tid (.read offset length buffer) := by
  have sound := settled.sound
  cases placed : place tid with
  | none =>
      refine ⟨{ code := -1, buffer := some buffer }, state, ?_, _, _, settled⟩
      simp only [exec, tlsRead, sound.table.hashSearch_eq, placed, bind, Except.bind]
  | some pointer =>
      obtain ⟨element, reached, found, area⟩ := settled.element_of placed
      by_cases checked : offset + length > element.tls.size
      · refine ⟨{ code := -1, buffer := some buffer }, state, ?_, _, _, settled⟩
        simp only [exec, tlsRead, sound.table.hashSearch_eq, placed, reached, if_pos checked,
          bind, Except.bind]
      · rcases range_cases (settled.small tid element.tls area) checked with
          ⟨small, fits⟩ | wrapped
        · exact settled.read_inside buffer area small fits
        · have same := tlsRead_wrapped sound placed found checked wrapped buffer
          have nothing : Completes machine kernel state tid (.read 0 0 buffer) :=
            settled.read_inside buffer area (by decide) (Nat.zero_le _)
          simpa only [Completes, exec, same] using nothing

theorem copying (settled : Settled machine state buckets place)
    (placed : place tid = some pointer) (found : state.elements pointer = some element) :
    Copying machine (references (state.areaAt place)) tid pointer
      (state.withProt element.tls.pages .readWrite) element := by
  have area : state.areaAt place tid = some element.tls := by
    simp [State.areaAt, placed, found]
  have backed := settled.sound.backed
  refine ⟨settled.sound.writing placed found, ?_,
    backed.lockedBut_of_withProt settled.locked _ _⟩
  rw [areaOf_references area]
  exact backed.covered_withProt settled.covered _ _

theorem closed (settled : Settled machine state buckets place)
    (area : state.areaAt place tid = some element.tls)
    (areas : after.areaAt place = Function.update (state.areaAt place) tid
      (some (element.withPages pages).tls))
    (sound : Sound machine after buckets place)
    (copying : Copying machine (references (state.areaAt place)) tid pointer after
      (element.withPages pages)) :
    Settled machine (after.withProt pages .none) buckets place := by
  have here : after.areaAt place tid = some (element.withPages pages).tls := by
    rw [areas, Function.update_self]
  obtain ⟨-, soundAfter, -, -⟩ := sound.changeProt here .none
  have sameAreas : (after.withProt pages .none).areaAt place = after.areaAt place := rfl
  refine ⟨soundAfter, ?_, ?_, sound.backed.locked_of_lockedBut copying.locked⟩
  · intro other tls' there
    rw [sameAreas, areas] at there
    by_cases same : other = tid
    · subst same
      rw [Function.update_self, Option.some.injEq] at there
      rw [← there]
      exact settled.small other element.tls area
    · rw [Function.update_of_ne same] at there
      exact settled.small other tls' there
  · refine sound.backed.covered_withProt ?_ _ _
    rw [areas, references_update]
    exact copying.covered

theorem write_inside (settled : Settled machine state buckets place) {offset length : UInt32}
    (buffer : Buffer) (placed : place tid = some pointer)
    (found : state.elements pointer = some element)
    (small : offset.toNat + length.toNat < 2 ^ 31)
    (fits : offset.toNat + length.toNat ≤ element.tls.size.toNat)
    (served : tlsWrite kernel state tid offset length buffer ≠ .error .mapFailed) :
    Completes machine kernel state tid (.write offset length buffer) := by
  have sound := settled.sound
  have area : state.areaAt place tid = some element.tls := by
    simp [State.areaAt, placed, found]
  have room := (sound.sized tid element.tls area).room
  have whole := tlsWrite_eq sound placed found kernel buffer small fits
  rcases writeLoop_cases kernel buffer (sound.writing placed found)
    (Nat.lt_succ_self length.toNat) small (le_trans fits room) 0 with
    failed | ⟨middle, pages, loop, written⟩
  · refine absurd ?_ served
    rw [whole, failed]
    rfl
  obtain ⟨pages', copying⟩ :=
    (settled.copying placed found).writeLoop kernel small (le_trans fits room) loop
  have same : pages' = pages := by
    have left := copying.writing.found
    rw [written.writing.found, Option.some.injEq] at left
    exact congrArg (fun element : HashElement => element.tls.pages) left.symm
  subst same
  obtain ⟨-, soundOpen, -, -⟩ := sound.changeProt area .readWrite
  have areasOpen : (state.withProt element.tls.pages .readWrite).areaAt place =
      state.areaAt place := rfl
  rw [← areasOpen] at written
  obtain ⟨soundMiddle, areas⟩ := soundOpen.written placed found written
  have areaMiddle : middle.areaAt place tid = some (element.withPages pages').tls := by
    rw [areas, Function.update_self]
  have protect : forSlots (element.withPages pages').tls.pages tlsProtect
      (element.withPages pages').tls.pageNum.toNat middle =
      .ok (middle.withProt pages' .none) := (soundMiddle.changeProt areaMiddle .none).1
  have reached := (middle.element_eq_ok_iff).mpr copying.writing.found
  refine ⟨{ code := 0, buffer := none }, _, ?_, _, _,
    settled.closed area areas soundMiddle copying⟩
  simp only [exec, whole, loop, reached, protect, bind, Except.bind]

theorem write (settled : Settled machine state buckets place) {offset length : UInt32}
    {buffer : Buffer}
    (served : Served machine kernel state tid (.write offset length buffer)) :
    Completes machine kernel state tid (.write offset length buffer) := by
  have sound := settled.sound
  cases placed : place tid with
  | none =>
      refine ⟨{ code := -1, buffer := none }, state, ?_, _, _, settled⟩
      simp only [exec, tlsWrite, sound.table.hashSearch_eq, placed, bind, Except.bind]
  | some pointer =>
      obtain ⟨element, reached, found, area⟩ := settled.element_of placed
      by_cases checked : offset + length > element.tls.size
      · refine ⟨{ code := -1, buffer := none }, state, ?_, _, _, settled⟩
        simp only [exec, tlsWrite, sound.table.hashSearch_eq, placed, reached, if_pos checked,
          bind, Except.bind]
      · rcases range_cases (settled.small tid element.tls area) checked with
          ⟨small, fits⟩ | wrapped
        · exact settled.write_inside buffer placed found small fits served
        · have same := tlsWrite_wrapped sound placed found checked wrapped kernel buffer
          have nothing : Completes machine kernel state tid (.write 0 0 buffer) := by
            refine settled.write_inside buffer placed found (by decide) (Nat.zero_le _) ?_
            rw [← same]
            exact served
          simpa only [Completes, exec, same] using nothing

end Settled

theorem Quiet.exec {kernel : Kernel} {call : Call} (quiet : Quiet machine state)
    (sharing : call.Sharing) (served : Served machine kernel state tid call) :
    Completes machine kernel state tid call := by
  obtain ⟨buckets, place, settled⟩ := quiet
  cases call with
  | create size => exact settled.create sharing served
  | write => exact settled.write served
  | read offset length buffer => exact settled.read offset length buffer
  | destroy => exact absurd sharing id
  | clone source => exact settled.clone source

theorem Quiet.initial (machine : Machine) (memory : PageMemory) :
    Quiet machine (.initial memory) :=
  ⟨_, _, .initial machine memory⟩

theorem Quiet.play (quiet : Quiet machine state) {events : List Event}
    (sharing : ∀ event ∈ events, event.call.Sharing) (served : AllServed machine state events) :
    ∃ replies final, play machine state events = .ok (replies, final) ∧ Quiet machine final := by
  induction events generalizing state with
  | nil => exact ⟨[], state, rfl, quiet⟩
  | cons event rest inductionHypothesis =>
      obtain ⟨reply, after, done, quiet'⟩ :=
        quiet.exec (sharing event List.mem_cons_self) served.1
      obtain ⟨replies, final, run, quiet''⟩ := inductionHypothesis quiet'
        (fun other membership => sharing other (List.mem_cons_of_mem _ membership))
        (served.2 _ _ done)
      refine ⟨reply :: replies, final, ?_, quiet''⟩
      simp only [LocalStorage.play, done, run, bind, Except.bind]

def Protected (state : State) : Prop :=
  ∀ ref p, references state.area ref = some p →
    ∃ frame, state.frameOf p = some frame ∧ frame.prot = .none

theorem Quiet.protected (quiet : Quiet machine state) : Protected state := by
  obtain ⟨buckets, place, settled⟩ := quiet
  intro ref p pointing
  rw [settled.sound.area_eq] at pointing
  obtain ⟨page, frame, -, -, here⟩ := settled.sound.backed.page_of pointing
  exact ⟨frame, here, settled.locked p frame here⟩

/-- In every sequence of calls no byte and no page is read or written without the right to do so,
which would stop the run with `fault`, and after it the pages of all areas are inaccessible. -/
theorem pagesProtected (machine : Machine) (memory : PageMemory) (events : List Event)
    (sharing : ∀ event ∈ events, event.call.Sharing)
    (served : AllServed machine (.initial memory) events) :
    ∃ replies final, play machine (.initial memory) events = .ok (replies, final) ∧
      Protected final := by
  obtain ⟨replies, final, run, quiet⟩ := (Quiet.initial machine memory).play sharing served
  exact ⟨replies, final, run, quiet.protected⟩

theorem cloneAndWrite_sharing : ∀ event ∈ cloneAndWrite, event.call.Sharing := by
  simp [cloneAndWrite, Call.Sharing]

theorem pagesProtected_cloneAndWrite :
    ∃ replies final, play page4096 (.initial fun _ => none) cloneAndWrite =
      .ok (replies, final) ∧ Protected final :=
  pagesProtected page4096 _ cloneAndWrite cloneAndWrite_sharing cloneAndWrite_served

end EC440.LocalStorage
