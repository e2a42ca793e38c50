import EC440.LocalStorage.Invariant
import EC440.LocalStorage.PrivateArrays

/-!
# Calls in sound states

For each call of `tls.c` what it returns in a sound state, that it leaves a
sound state, and which arrays it changes.
-/

namespace EC440.LocalStorage

open Linked References Outcome

variable {machine : Machine} {state after : State} {buckets : Bucket → List ElementPtr}
  {place : Tid → Option ElementPtr} {tid : Tid} {pointer : ElementPtr} {element : HashElement}

def insertedBuckets (state : State) (buckets : Bucket → List ElementPtr) (tid : Tid) :
    Bucket → List ElementPtr :=
  Function.update buckets (bucketOf tid) (state.nextElement :: buckets (bucketOf tid))

def insertedPlace (state : State) (place : Tid → Option ElementPtr) (tid : Tid) :
    Tid → Option ElementPtr :=
  Function.update place tid (some state.nextElement)

theorem Sound.insert (sound : Sound machine state buckets place) (absent : place tid = none)
    {tls : Tls} (untouched : Untouched state after) (sized : Sized machine after tls)
    (backed : Backed after (withSlots (references (state.areaAt place)) tid
      fun index => tls.pages[index]?)) :
    Sound machine (insertElement after tid tls) (insertedBuckets state buckets tid)
      (insertedPlace state place tid) := by
  have table := sound.table.congr untouched.hashTable untouched.elements untouched.nextElement
  have inserted := table.insert absent tls
  have areas := table.areaAt_insert tid tls
  rw [untouched.nextElement] at inserted areas
  rw [areaAt_congr untouched.elements] at areas
  refine ⟨inserted, ?_, ?_, ?_⟩
  · rw [insertedPlace, areas, references_update]
    exact backed.of_mapped rfl rfl fun _ frame mapped => ⟨frame, mapped⟩
  · intro other tls' area
    rw [insertedPlace, areas] at area
    by_cases same : other = tid
    · subst same
      rw [Function.update_self, Option.some.injEq] at area
      subst area
      exact ⟨sized.initialized, sized.length, sized.pageNum⟩
    · rw [Function.update_of_ne same] at area
      obtain ⟨initialized, length, pageNum⟩ := sound.sized other tls' area
      exact ⟨untouched.initialized.trans initialized, length, pageNum⟩
  · intro initialized
    have before : state.initialized = true := untouched.initialized.symm.trans initialized
    exact untouched.pageSize.trans (sound.pageSize before)

theorem Sound.array_insert (sound : Sound machine state buckets place) (absent : place tid = none)
    {tls : Tls} (untouched : Untouched state after) (sized : Sized machine after tls)
    (backed : Backed after (withSlots (references (state.areaAt place)) tid
      fun index => tls.pages[index]?))
    (frames : ∀ ref p, references (state.areaAt place) ref = some p →
      (after.frameOf p).map (·.bytes) = (state.frameOf p).map (·.bytes))
    {bytes : List UInt8} (length : bytes.length = tls.size.toNat)
    (contents : ∀ n, (inside : n < bytes.length) → after.byteIn machine
      (withSlots (references (state.areaAt place)) tid fun index => tls.pages[index]?) tid n =
        bytes[n]) :
    (insertElement after tid tls).array machine =
      Function.update (state.array machine) tid (some bytes) := by
  have inserted := sound.insert absent untouched sized backed
  have table := sound.table.congr untouched.hashTable untouched.elements untouched.nextElement
  have areas := table.areaAt_insert tid tls
  rw [untouched.nextElement, areaAt_congr untouched.elements] at areas
  rw [inserted.array_eq, sound.array_eq, insertedPlace, areas]
  funext other
  by_cases same : other = tid
  · subst same
    rw [Function.update_self, arrayOf, Function.update_self, Option.map_some, references_update]
    congr 1
    apply List.ext_getElem
    · simp [length]
    · intro n _ inside
      rw [List.getElem_map, List.getElem_range]
      exact contents n inside
  · rw [Function.update_of_ne same]
    exact arrayOf_frame (Function.update_of_ne same _ _) fun slot p => frames _ p

/-! ## tls_create -/

/-- The page loop of `tls_create` in a state in which the call gets there. -/
def createdPages (machine : Machine) (kernel : Kernel) (state : State) (size : UInt32) :
    Option (List PagePtr) × State :=
  createPages kernel (pagesFor machine.pageSizeInt size).toNat (state.ready machine)

theorem tlsCreate_eq (sound : Sound machine state buckets place) (kernel : Kernel) (tid : Tid)
    (size : UInt32) :
    tlsCreate machine kernel state tid size =
      if size = 0 ∨ place tid ≠ none then .ok (-1, state.ready machine)
      else match createdPages machine kernel state size with
        | (none, after) => .ok (-1, after)
        | (some pages, after) => .ok (0, insertElement after tid
            { tid, size, pageNum := pagesFor machine.pageSizeInt size, pages }) := by
  have empty : size ≤ 0 ↔ size = 0 := by
    rw [← UInt32.toNat_inj, UInt32.le_iff_toNat_le]
    exact Nat.le_zero
  simp only [tlsCreate, sound.ensureInit_eq, sound.ready.table.hashSearch_eq, empty]
  by_cases zero : size = 0
  · rw [if_pos zero, if_pos (.inl zero)]
  · rw [if_neg zero]
    cases placed : place tid with
    | some pointer => simp [bind, Except.bind]
    | none =>
        rw [if_neg (by simp [zero])]
        rfl

/-- The page loop fails: the pages mapped so far are lost, no area changes. -/
theorem createdPages_failed (sound : Sound machine state buckets place) (kernel : Kernel)
    {size : UInt32} (failed : createdPages machine kernel state size = (none, after)) :
    Sound machine after buckets place ∧ after.array machine = state.array machine := by
  obtain ⟨untouched, backed, frames⟩ := createPages_frame kernel
    (pagesFor machine.pageSizeInt size).toNat sound.ready.backed
  rw [← createdPages, failed] at untouched backed frames
  have sound' := sound.ready.of_untouched untouched backed
  refine ⟨sound', sound.array_untouched sound' untouched.elements ?_⟩
  intro ref p pointing
  rw [frames ref p pointing]
  rfl

/-- The page loop succeeds: the thread gets an array of zeros. -/
theorem createdPages_done (sound : Sound machine state buckets place) (kernel : Kernel)
    (absent : place tid = none) {size : UInt32} {pages : List PagePtr}
    (created : createdPages machine kernel state size = (some pages, after)) :
    Sound machine (insertElement after tid
        { tid, size, pageNum := pagesFor machine.pageSizeInt size, pages })
        (insertedBuckets state buckets tid) (insertedPlace state place tid) ∧
      (insertElement after tid { tid, size, pageNum := pagesFor machine.pageSizeInt size, pages }
        ).array machine =
        Function.update (state.array machine) tid (some (List.replicate size.toNat 0)) := by
  have area : state.areaAt place tid = none := sound.table.areaAt_eq_none_iff.mpr absent
  have readyBacked : Backed (state.ready machine) (references (state.areaAt place)) :=
    sound.ready.backed
  have backed : Backed (state.ready machine) (withSlots (references (state.areaAt place)) tid
      fun index => ([] : List PagePtr)[index]?) := by
    simpa only [List.getElem?_nil, ← references_of_none area] using readyBacked
  obtain ⟨length, backedAfter, zeroed⟩ := createPages_some kernel backed created
  rw [List.nil_append] at backedAfter
  have frame := createPages_frame kernel (pagesFor machine.pageSizeInt size).toNat readyBacked
  rw [← createdPages, created] at frame
  have untouched : Untouched (state.ready machine) after := frame.1
  have frames : ∀ ref p, references (state.areaAt place) ref = some p →
      (after.frameOf p).map (·.bytes) = ((state.ready machine).frameOf p).map (·.bytes) :=
    fun ref p pointing => congrArg _ (frame.2.2 ref p pointing)
  have sized : Sized machine after
      { tid, size, pageNum := pagesFor machine.pageSizeInt size, pages } :=
    ⟨untouched.initialized, length, rfl⟩
  have contents : ∀ n, (inside : n < (List.replicate size.toNat (0 : UInt8)).length) →
      after.byteIn machine (withSlots (references (state.areaAt place)) tid
        fun index => pages[index]?) tid n = (List.replicate size.toNat 0)[n] := by
    intro n inside
    rw [List.getElem_replicate]
    have slotInside : n / machine.pageSize < pages.length := by
      have room := sized.room
      simp only [List.length_replicate] at inside
      exact Nat.div_lt_of_lt_mul (by rw [Nat.mul_comm]; exact lt_of_lt_of_le inside room)
    have pointing : withSlots (references (state.areaAt place)) tid (fun index => pages[index]?)
        (tid, n / machine.pageSize) = some pages[n / machine.pageSize] := by
      rw [withSlots_self, List.getElem?_eq_getElem slotInside]
    rw [State.byteIn, State.byteAt_eq pointing (zeroed _ (List.getElem_mem slotInside))]
  refine ⟨sound.ready.insert absent untouched sized backedAfter, ?_⟩
  have arrays := sound.ready.array_insert absent untouched sized backedAfter frames
    List.length_replicate contents
  rw [arrays, sound.array_untouched sound.ready rfl fun _ _ _ => rfl]

/-! ## tls_clone -/

/-- The area that `tls_clone` sets up. -/
def clonedTls (tid : Tid) (tls : Tls) : Tls := { tls with tid }

theorem tlsClone_failed (sound : Sound machine state buckets place) {source : Tid}
    (failed : place tid ≠ none ∨ place source = none) :
    tlsClone state tid source = .ok (-1, state) := by
  simp only [tlsClone, sound.table.hashSearch_eq, bind, Except.bind]
  rcases failed with present | missing
  · obtain ⟨pointer, placed⟩ := Option.ne_none_iff_exists'.mp present
    simp [placed]
  · simp [missing]

theorem Sound.shared (sound : Sound machine state buckets place) {source : Tid} {tls : Tls}
    (absent : place tid = none) (area : state.areaAt place source = some tls) :
    ∃ middle, forSlots tls.pages sharePage tls.pageNum.toNat state = .ok middle ∧
      Untouched state middle ∧ middle.frameOf = state.frameOf ∧
      Backed middle (withSlots (references (state.areaAt place)) tid
        fun index => (clonedTls tid tls).pages[index]?) := by
  have other : source ≠ tid := by
    rintro rfl
    rw [sound.table.areaAt_eq_none_iff.mpr absent] at area
    cases area
  have free : state.areaAt place tid = none := sound.table.areaAt_eq_none_iff.mpr absent
  have backed : Backed state (withSlots (references (state.areaAt place)) tid
      fun index => ([] : List PagePtr)[index]?) := by
    simpa only [List.getElem?_nil, ← references_of_none free] using sound.backed
  have shared : ∀ index, references (state.areaAt place) (source, index) =
      ([] ++ tls.pages)[index]? := by
    intro index
    simp [references, area]
  obtain ⟨middle, run, untouched, -, frames, backedAfter⟩ := sharePages other backed shared
  refine ⟨middle, ?_, untouched, frames, backedAfter⟩
  rw [← (sound.sized source tls area).length, forSlots_eq, run]

theorem Sound.element_of_areaAt (sound : Sound machine state buckets place) {tls : Tls}
    (area : state.areaAt place tid = some tls) :
    ∃ pointer element, place tid = some pointer ∧ state.element pointer = .ok element ∧
      element.tls = tls := by
  cases placed : place tid with
  | none =>
      rw [sound.table.areaAt_eq_none_iff.mpr placed] at area
      cases area
  | some pointer =>
      obtain ⟨element, found, -, area'⟩ := sound.table.element_eq placed
      rw [area, Option.some.injEq] at area'
      exact ⟨pointer, element, rfl, found, area'.symm⟩

theorem tlsClone_eq (sound : Sound machine state buckets place) {source : Tid} {tls : Tls}
    (absent : place tid = none) (area : state.areaAt place source = some tls) :
    ∃ middle, tlsClone state tid source = .ok (0, insertElement middle tid (clonedTls tid tls)) ∧
      Untouched state middle ∧ middle.frameOf = state.frameOf ∧
      Backed middle (withSlots (references (state.areaAt place)) tid
        fun index => (clonedTls tid tls).pages[index]?) := by
  obtain ⟨middle, run, untouched, frames, backed⟩ := sound.shared absent area
  obtain ⟨pointer, element, placed, found, rfl⟩ := sound.element_of_areaAt area
  refine ⟨middle, ?_, untouched, frames, backed⟩
  simp only [tlsClone, sound.table.hashSearch_eq, absent, placed, found, run, bind, Except.bind]
  rw [← (sound.sized source element.tls area).length]
  simp only [List.take_length]
  rfl

theorem tlsClone_done (sound : Sound machine state buckets place) {source : Tid}
    (absent : place tid = none) (present : place source ≠ none) :
    ∃ after, tlsClone state tid source = .ok (0, after) ∧
      Sound machine after (insertedBuckets state buckets tid) (insertedPlace state place tid) ∧
      after.array machine =
        Function.update (state.array machine) tid (state.array machine source) := by
  obtain ⟨tls, area⟩ : ∃ tls, state.areaAt place source = some tls :=
    Option.ne_none_iff_exists'.mp (mt sound.table.areaAt_eq_none_iff.mp present)
  obtain ⟨middle, done, untouched, frames, backed⟩ := tlsClone_eq sound absent area
  have sourceSized := sound.sized source tls area
  have sized : Sized machine middle (clonedTls tid tls) :=
    ⟨untouched.initialized.trans sourceSized.initialized, sourceSized.length,
      sourceSized.pageNum⟩
  have kept : ∀ ref p, references (state.areaAt place) ref = some p →
      (middle.frameOf p).map (·.bytes) = (state.frameOf p).map (·.bytes) :=
    fun ref p _ => by rw [frames]
  have here : state.array machine source = some ((List.range tls.size.toNat).map
      (state.byteIn machine (references (state.areaAt place)) source)) := by
    rw [sound.array_eq, arrayOf, area]
    rfl
  refine ⟨_, done, sound.insert absent untouched sized backed, ?_⟩
  rw [here]
  refine sound.array_insert absent untouched sized backed kept (by simp [clonedTls]) ?_
  intro n inside
  rw [List.getElem_map, List.getElem_range, State.byteIn, State.byteIn, State.byteAt,
    State.byteAt, withSlots_self, frames, references, area]
  rfl

/-! ## tls_write and tls_read -/

def State.withProt (state : State) (pages : List PagePtr) (prot : Prot) : State :=
  { state with memory := reprotect state.memory (state.addresses pages) prot }

theorem Backed.frameOf_withProt {target : Reference → Option PagePtr}
    (backed : Backed state target) (pages : List PagePtr) (prot : Prot) (p : PagePtr) :
    (state.withProt pages prot).frameOf p =
      if p ∈ pages then (state.frameOf p).map fun frame => { frame with prot }
      else state.frameOf p := by
  cases allocated : state.pages p with
  | none => simp [State.frameOf, State.withProt, allocated]
  | some page =>
      have touched : page.address ∈ state.addresses pages ↔ p ∈ pages := by
        rw [State.addresses, List.mem_filterMap]
        constructor
        · rintro ⟨q, membership, same⟩
          obtain ⟨other, allocated', same⟩ := Option.map_eq_some_iff.mp same
          rwa [backed.apart p q page other allocated allocated' same.symm]
        · exact fun membership => ⟨p, membership, by simp [allocated]⟩
      simp [State.frameOf, State.withProt, allocated, reprotect, touched]

theorem Sound.changeProt (sound : Sound machine state buckets place) {tls : Tls}
    (area : state.areaAt place tid = some tls) (prot : Prot) :
    forSlots tls.pages (changeProt prot) tls.pageNum.toNat state =
        .ok (state.withProt tls.pages prot) ∧
      Sound machine (state.withProt tls.pages prot) buckets place ∧
      (state.withProt tls.pages prot).array machine = state.array machine ∧
      ∀ p ∈ tls.pages, ∀ frame, (state.withProt tls.pages prot).frameOf p = some frame →
        frame.prot = prot := by
  have usable : ∀ p ∈ tls.pages, ∃ page frame, state.pages p = some page ∧
      state.memory page.address = some frame := by
    intro p membership
    obtain ⟨index, here⟩ := List.mem_iff_getElem?.mp membership
    have pointing : references (state.areaAt place) (tid, index) = some p := by
      simp [references, area, here]
    obtain ⟨page, frame, allocated, mapped, -⟩ := sound.backed.page_of pointing
    exact ⟨page, frame, allocated, mapped⟩
  have sound' : Sound machine (state.withProt tls.pages prot) buckets place :=
    sound.of_untouched ⟨rfl, rfl, rfl, rfl, rfl⟩ (sound.backed.reprotected _ prot)
  refine ⟨?_, sound', ?_, ?_⟩
  · rw [← (sound.sized tid tls area).length, forSlots_eq]
    exact changeProt_loop prot usable
  · exact sound.array_untouched sound' rfl fun _ p _ => bytes_reprotect _ prot p
  · intro p membership frame here
    obtain ⟨page, frame', allocated, mapped⟩ := usable p membership
    have touched : page.address ∈ state.addresses tls.pages :=
      List.mem_filterMap.mpr ⟨p, membership, by simp [allocated]⟩
    simp only [State.frameOf, State.withProt, allocated, Option.bind_some, reprotect,
      if_pos touched, mapped, Option.map_some, Option.some.injEq] at here
    rw [← here]

theorem toNat_range {offset length : UInt32} (small : offset.toNat + length.toNat < 2 ^ 31) :
    (offset + length).toNat = offset.toNat + length.toNat := by
  rw [UInt32.toNat_add]
  exact Nat.mod_eq_of_lt (lt_trans small (by decide))

theorem range_eq {offset length : UInt32} (small : offset.toNat + length.toNat < 2 ^ 31) :
    offset + length = UInt32.ofNat (offset.toNat + length.toNat) := by
  rw [← UInt32.toNat_inj, toNat_range small, UInt32.toNat_ofNat']
  exact (Nat.mod_eq_of_lt (lt_trans small (by decide))).symm

theorem outside_iff {offset length size : UInt32}
    (small : offset.toNat + length.toNat < 2 ^ 31) :
    offset + length > size ↔ ¬offset.toNat + length.toNat ≤ size.toNat := by
  rw [gt_iff_lt, UInt32.lt_iff_toNat_lt, toNat_range small]
  exact not_le.symm

theorem areaOf_references {areas : Tid → Option Tls} (area : areas tid = some element.tls) :
    areaOf (references areas) tid element = references areas :=
  (references_of_areas area).symm

theorem Sound.written (sound : Sound machine state buckets place)
    (placed : place tid = some pointer) (found : state.elements pointer = some element)
    {start count : Nat} {buffer : Buffer} {pages : List PagePtr}
    (written : Written machine (references (state.areaAt place)) tid pointer state element start
      count buffer after pages) :
    Sound machine after buckets place ∧
      after.areaAt place =
        Function.update (state.areaAt place) tid (some (element.withPages pages).tls) := by
  have rewritten := written.rewritten
  have areas := sound.table.areaAt_update placed rewritten.elements
  have area : state.areaAt place tid = some element.tls := by
    simp [State.areaAt, placed, found]
  refine ⟨⟨?_, ?_, ?_, ?_⟩, areas⟩
  · have sameTid : (element.withPages pages).tid = element.tid := rfl
    exact sound.table.update_element found sameTid rfl rewritten.hashTable rewritten.elements
      rewritten.nextElement
  · rw [areas, references_update]
    exact written.writing.backed
  · intro other tls here
    rw [areas] at here
    by_cases same : other = tid
    · subst same
      rw [Function.update_self, Option.some.injEq] at here
      subst here
      obtain ⟨initialized, length, pageNum⟩ := sound.sized other _ area
      exact ⟨rewritten.initialized.trans initialized, rewritten.length.trans length, pageNum⟩
    · rw [Function.update_of_ne same] at here
      obtain ⟨initialized, length, pageNum⟩ := sound.sized other tls here
      exact ⟨rewritten.initialized.trans initialized, length, pageNum⟩
  · intro initialized
    rw [rewritten.pageSize]
    exact sound.pageSize (rewritten.initialized.symm.trans initialized)

theorem Sound.array_written (sound : Sound machine state buckets place)
    (placed : place tid = some pointer) (found : state.elements pointer = some element)
    {start count : Nat} {buffer : Buffer} {pages : List PagePtr} {array : List UInt8}
    (here : state.array machine tid = some array) (inside : start + count ≤ array.length)
    (written : Written machine (references (state.areaAt place)) tid pointer state element start
      count buffer after pages) :
    after.array machine = Function.update (state.array machine) tid
      (some (Private.overwrite array start ((List.range count).map buffer))) := by
  obtain ⟨sound', areas⟩ := sound.written placed found written
  have area : state.areaAt place tid = some element.tls := by
    simp [State.areaAt, placed, found]
  have old := areaOf_references area
  have new : areaOf (references (state.areaAt place)) tid (element.withPages pages) =
      references (after.areaAt place) := by
    rw [areas, references_update]
    rfl
  have bytes : ∀ other n, after.byteIn machine (references (after.areaAt place)) other n =
      if other = tid ∧ start ≤ n ∧ n < start + count then buffer (n - start)
      else state.byteIn machine (references (state.areaAt place)) other n := by
    intro other n
    have round := written.bytes (other, n / machine.pageSize) (n % machine.pageSize)
      (Nat.mod_lt n machine.pageSize_pos)
    have whole : position machine (n / machine.pageSize) (n % machine.pageSize) = n :=
      Nat.div_add_mod' n machine.pageSize
    rwa [whole, old, new] at round
  funext other
  by_cases same : other = tid
  · subst same
    rw [Function.update_self, sound'.array_eq, arrayOf, areas, Function.update_self,
      Option.map_some]
    rw [sound.array_eq, arrayOf, area, Option.map_some, Option.some.injEq] at here
    subst here
    congr 1
    rw [List.length_map, List.length_range] at inside
    apply Private.map_range_overwrite inside
    intro n _
    rw [← areas, bytes other n]
    simp
  · rw [Function.update_of_ne same, sound'.array_eq, sound.array_eq]
    apply arrayOf_congr
    · rw [areas, Function.update_of_ne same]
    · intro tls _ n _
      rw [bytes other n, if_neg fun both => same both.1]

section Range

variable {offset length : UInt32} {array : List UInt8}

theorem tlsWrite_failed (sound : Sound machine state buckets place) (kernel : Kernel) (tid : Tid)
    (buffer : Buffer) (small : offset.toNat + length.toNat < 2 ^ 31)
    (outside : ∀ array, state.array machine tid = some array →
      ¬offset.toNat + length.toNat ≤ array.length) :
    tlsWrite kernel state tid offset length buffer = .ok (-1, state) := by
  simp only [tlsWrite, sound.table.hashSearch_eq, bind, Except.bind]
  cases placed : place tid with
  | none => rfl
  | some pointer =>
      obtain ⟨element, found, -, area⟩ := sound.table.element_eq placed
      have long := outside _ (by rw [sound.array_eq, arrayOf, area]; rfl)
      rw [List.length_map, List.length_range, ← outside_iff small] at long
      simp only [found, if_pos long]

theorem tlsRead_failed (sound : Sound machine state buckets place) (tid : Tid) (buffer : Buffer)
    (small : offset.toNat + length.toNat < 2 ^ 31)
    (outside : ∀ array, state.array machine tid = some array →
      ¬offset.toNat + length.toNat ≤ array.length) :
    tlsRead state tid offset length buffer = .ok (-1, buffer, state) := by
  simp only [tlsRead, sound.table.hashSearch_eq, bind, Except.bind]
  cases placed : place tid with
  | none => rfl
  | some pointer =>
      obtain ⟨element, found, -, area⟩ := sound.table.element_eq placed
      have long := outside _ (by rw [sound.array_eq, arrayOf, area]; rfl)
      rw [List.length_map, List.length_range, ← outside_iff small] at long
      simp only [found, if_pos long]

/-- A range inside the area: `tls_write` unprotects the pages, runs its loop, and protects the
pages of the area that the loop leaves. -/
theorem tlsWrite_eq (sound : Sound machine state buckets place)
    (placed : place tid = some pointer) (found : state.elements pointer = some element)
    (kernel : Kernel) (buffer : Buffer) (small : offset.toNat + length.toNat < 2 ^ 31)
    (fits : offset.toNat + length.toNat ≤ element.tls.size.toNat) :
    tlsWrite kernel state tid offset length buffer =
      writeLoop kernel pointer (UInt32.ofNat (offset.toNat + length.toNat)) buffer
        (length.toNat + 1) (state.withProt element.tls.pages .readWrite) 0
        (Int32.ofNat offset.toNat) >>= (fun state => do
      let workingTls := (← state.element pointer).tls
      let state ← forSlots workingTls.pages tlsProtect workingTls.pageNum.toNat state
      .ok (0, state)) := by
  have area : state.areaAt place tid = some element.tls := by
    simp [State.areaAt, placed, found]
  have short : ¬offset + length > element.tls.size := fun long => (outside_iff small).mp long fits
  have unprotect : forSlots element.tls.pages tlsUnprotect element.tls.pageNum.toNat state =
      .ok (state.withProt element.tls.pages .readWrite) := (sound.changeProt area .readWrite).1
  have reached : state.element pointer = .ok element := (state.element_eq_ok_iff).mpr found
  simp only [tlsWrite, sound.table.hashSearch_eq, placed, reached, if_neg short, unprotect, bind,
    Except.bind, ← range_eq small, ← toInt32_eq]

theorem Sound.writing (sound : Sound machine state buckets place)
    (placed : place tid = some pointer) (found : state.elements pointer = some element) :
    Writing machine (references (state.areaAt place)) tid pointer
      (state.withProt element.tls.pages .readWrite) element := by
  have area : state.areaAt place tid = some element.tls := by
    simp [State.areaAt, placed, found]
  obtain ⟨-, soundOpen, -, prots⟩ := sound.changeProt area .readWrite
  refine ⟨sound.pageSize (sound.sized tid element.tls area).initialized, found, ?_, ?_⟩
  · rw [areaOf_references area]
    exact soundOpen.backed
  · intro p membership frame there
    rw [prots p membership frame there]
    exact ⟨rfl, fun _ _ _ => rfl⟩

/-- The bytes of the range are replaced, unless `mmap` fails. -/
theorem tlsWrite_done (sound : Sound machine state buckets place) (kernel : Kernel)
    (buffer : Buffer) (small : offset.toNat + length.toNat < 2 ^ 31)
    (here : state.array machine tid = some array)
    (inside : offset.toNat + length.toNat ≤ array.length) :
    tlsWrite kernel state tid offset length buffer = .error .mapFailed ∨
      ∃ after, tlsWrite kernel state tid offset length buffer = .ok (0, after) ∧
        Sound machine after buckets place ∧
        after.array machine = Function.update (state.array machine) tid
          (some (Private.overwrite array offset.toNat ((List.range length.toNat).map buffer))) := by
  cases placed : place tid with
  | none =>
      rw [sound.array_eq_none_iff.mpr placed] at here
      cases here
  | some pointer =>
  obtain ⟨element, reached, -, area⟩ := sound.table.element_eq placed
  have found := (state.element_eq_ok_iff).mp reached
  have size := here
  rw [sound.array_eq, arrayOf, area, Option.map_some, Option.some.injEq] at size
  have fits : offset.toNat + length.toNat ≤ element.tls.size.toNat := by
    rw [← size, List.length_map, List.length_range] at inside
    exact inside
  obtain ⟨-, soundOpen, arrayOpen, -⟩ := sound.changeProt area .readWrite
  have foundOpen : (state.withProt element.tls.pages .readWrite).elements pointer =
      some element := found
  have room := (sound.sized tid element.tls area).room
  rw [tlsWrite_eq sound placed found kernel buffer small fits]
  refine (writeLoop_cases kernel buffer (sound.writing placed found)
    (Nat.lt_succ_self length.toNat) small (le_trans fits room) 0).imp (fun failed => ?_) ?_
  · rw [failed]
    rfl
  rintro ⟨middle, pages, loop, written⟩
  have fromStart : Written machine (references (state.areaAt place)) tid pointer
      (state.withProt element.tls.pages .readWrite) element offset.toNat length.toNat buffer
      middle pages := by
    simpa only [Nat.zero_add] using written
  have areasOpen : (state.withProt element.tls.pages .readWrite).areaAt place =
      state.areaAt place := rfl
  rw [← areasOpen] at fromStart
  obtain ⟨soundMiddle, areas⟩ := soundOpen.written placed foundOpen fromStart
  have arrayMiddle := soundOpen.array_written placed foundOpen (arrayOpen.symm ▸ here) inside
    fromStart
  have areaMiddle : middle.areaAt place tid = some (element.withPages pages).tls := by
    rw [areas, Function.update_self]
  obtain ⟨protect, soundAfter, arrayAfter, -⟩ := soundMiddle.changeProt areaMiddle .none
  have protect' : forSlots (element.withPages pages).tls.pages tlsProtect
      (element.withPages pages).tls.pageNum.toNat middle =
      .ok (middle.withProt (element.withPages pages).tls.pages .none) := protect
  refine ⟨_, ?_, soundAfter, ?_⟩
  · have reached := (middle.element_eq_ok_iff).mpr written.writing.found
    rw [loop]
    simp only [reached, protect', bind, Except.bind]
  · rw [arrayAfter, arrayMiddle, arrayOpen]

/-- `tls_read` stores the bytes of the range in the buffer, and protects the pages again. -/
theorem tlsRead_eq (sound : Sound machine state buckets place) {tls : Tls}
    (area : state.areaAt place tid = some tls) (buffer : Buffer)
    (small : offset.toNat + length.toNat < 2 ^ 31)
    (fits : offset.toNat + length.toNat ≤ tls.size.toNat) :
    tlsRead state tid offset length buffer =
      .ok (0, filled (state.byteIn machine (references (state.areaAt place)) tid) buffer
          offset.toNat length.toNat 0,
        (state.withProt tls.pages .readWrite).withProt tls.pages .none) := by
  obtain ⟨pointer, element, placed, found, rfl⟩ := sound.element_of_areaAt area
  have short : ¬offset + length > element.tls.size := fun long =>
    (outside_iff small).mp long fits
  have sized := sound.sized tid element.tls area
  obtain ⟨run, soundOpen, -, prots⟩ := sound.changeProt area .readWrite
  have unprotect : forSlots element.tls.pages tlsUnprotect element.tls.pageNum.toNat state =
      .ok (state.withProt element.tls.pages .readWrite) := run
  have protect : forSlots element.tls.pages tlsProtect element.tls.pageNum.toNat
      (state.withProt element.tls.pages .readWrite) =
      .ok ((state.withProt element.tls.pages .readWrite).withProt element.tls.pages .none) :=
    (soundOpen.changeProt area .none).1
  have foundOpen : (state.withProt element.tls.pages .readWrite).elements pointer =
      some element := (state.element_eq_ok_iff).mp found
  have backed : Backed (state.withProt element.tls.pages .readWrite)
      (areaOf (references (state.areaAt place)) tid element) := by
    rw [areaOf_references area]
    exact soundOpen.backed
  have readable : ∀ p ∈ element.tls.pages, ∀ frame,
      (state.withProt element.tls.pages .readWrite).frameOf p = some frame →
        frame.prot.read = true := by
    intro p membership frame there
    rw [prots p membership frame there]
    rfl
  have pageSize : (state.withProt element.tls.pages .readWrite).pageSize = machine.pageSizeInt :=
    sound.pageSize sized.initialized
  have loop := readLoop_eq pageSize foundOpen backed readable
    (Nat.lt_succ_self length.toNat) small (le_trans fits sized.room) 0 buffer
  have content : (state.withProt element.tls.pages .readWrite).byteIn machine
      (areaOf (references (state.areaAt place)) tid element) tid =
      state.byteIn machine (references (state.areaAt place)) tid := by
    funext n
    rw [areaOf_references area]
    exact State.byteAt_congr rfl (fun p _ => bytes_reprotect _ _ p) _
  rw [← content]
  simp only [tlsRead, sound.table.hashSearch_eq, placed, found, if_neg short, unprotect, bind,
    Except.bind]
  rw [range_eq small, toInt32_eq, loop]
  simp only [protect]

theorem tlsRead_done (sound : Sound machine state buckets place) (buffer : Buffer)
    (small : offset.toNat + length.toNat < 2 ^ 31) (here : state.array machine tid = some array)
    (inside : offset.toNat + length.toNat ≤ array.length) :
    ∃ after, tlsRead state tid offset length buffer =
        .ok (0, Private.fill buffer (Private.slice array offset.toNat length.toNat), after) ∧
      Sound machine after buckets place ∧ after.array machine = state.array machine := by
  rw [sound.array_eq, arrayOf, Option.map_eq_some_iff] at here
  obtain ⟨tls, area, rfl⟩ := here
  rw [List.length_map, List.length_range] at inside
  obtain ⟨-, soundOpen, arrayOpen, -⟩ := sound.changeProt area .readWrite
  obtain ⟨-, soundAfter, arrayAfter, -⟩ := soundOpen.changeProt area .none
  refine ⟨_, ?_, soundAfter, arrayAfter.trans arrayOpen⟩
  rw [tlsRead_eq sound area buffer small inside, Private.fill_slice buffer inside]
  simp only [Except.ok.injEq, Prod.mk.injEq, true_and, and_true]
  funext k
  simp only [filled, Nat.zero_le, Nat.zero_add, true_and, Nat.sub_zero]

end Range

end EC440.LocalStorage
