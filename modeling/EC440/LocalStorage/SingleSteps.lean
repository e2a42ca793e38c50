import EC440.LocalStorage.Readers

/-!
# Single steps of a write

What one `mprotect`, one stored byte and one copy of a shared page make of a
state in which other threads may be inside calls as well.  A step is gentle if
the other threads keep their areas, their bytes, and the right to use the pages
that the step spares.
-/

namespace EC440.LocalStorage

open References Outcome

variable {machine : Machine} {state after : State} {buckets : Bucket → List ElementPtr}
  {place : Tid → Option ElementPtr} {tid other : Tid} {tls : Tls} {p q : PagePtr} {page : Page}
  {frame : Frame} {address : Address} {pointer : ElementPtr} {element : HashElement}
  {spared : PagePtr → Prop} {access : Access} {n : Nat}

def State.ownByte (state : State) (machine : Machine) (place : Tid → Option ElementPtr)
    (tid : Tid) (n : Nat) : UInt8 :=
  state.byteIn machine (references (state.areaAt place)) tid n

/-- A page that a thread may use for its access: it is writable, and readable where that is
needed. -/
def Usable (state : State) (access : Access) (p : PagePtr) : Prop :=
  ∀ frame, state.frameOf p = some frame → frame.prot.write = true ∧
    (access = .read → frame.prot.read = true) ∧
    ∀ number, state.refCount p = some number → 1 < number → frame.prot.read = true

/-- What a step of a thread leaves to the others. -/
structure Gentle (machine : Machine) (place : Tid → Option ElementPtr) (tid : Tid)
    (spared : PagePtr → Prop) (state after : State) : Prop where
  areas : ∀ other, other ≠ tid → after.areaAt place other = state.areaAt place other
  size : (after.areaAt place tid).map (·.size) = (state.areaAt place tid).map (·.size)
  allocated : ∀ p, state.pages p ≠ none → after.pages p ≠ none
  alone : ∀ p, state.refCount p = some 1 → after.refCount p = some 1
  usable : ∀ p access, spared p → state.pages p ≠ none → Usable state access p →
    Usable after access p
  bytes : ∀ other, other ≠ tid → ∀ n,
    after.ownByte machine place other n = state.ownByte machine place other n

theorem Gentle.refl (tid : Tid) (spared : PagePtr → Prop) (state : State) :
    Gentle machine place tid spared state state :=
  ⟨fun _ _ => rfl, rfl, fun _ => id, fun _ => id, fun _ _ _ _ => id, fun _ _ _ => rfl⟩

/-! ## mprotect -/

theorem ownByte_withProt (pages : List PagePtr) (prot : Prot) (tid : Tid) (n : Nat) :
    (state.withProt pages prot).ownByte machine place tid n =
      state.ownByte machine place tid n := by
  apply State.byteAt_congr rfl
  intro q _
  exact bytes_reprotect _ prot q

theorem Sound.gentle_withProt (sound : Sound machine state buckets place) (tid : Tid)
    {prot : Prot} (spares : prot = .readWrite ∨ ∀ q, spared q → q ≠ p) :
    Gentle machine place tid spared state (state.withProt [p] prot) where
  areas _ _ := rfl
  size := rfl
  allocated _ := id
  alone _ := id
  usable q access isSpared _ usable frame here := by
    rw [sound.backed.frameOf_withProt] at here
    by_cases same : q = p
    · rcases spares with rfl | others
      · rw [if_pos (List.mem_singleton.mpr same)] at here
        obtain ⟨earlier, -, rfl⟩ := Option.map_eq_some_iff.mp here
        exact ⟨rfl, fun _ => rfl, fun _ _ _ => rfl⟩
      · exact absurd same (others q isSpared)
    · rw [if_neg (mt List.mem_singleton.mp same)] at here
      exact usable frame here
  bytes other _ := ownByte_withProt [p] prot other

theorem Sound.usable_opened (sound : Sound machine state buckets place) (access : Access) :
    Usable (state.withProt [p] .readWrite) access p := by
  intro frame here
  rw [sound.backed.frameOf_withProt, if_pos (List.mem_singleton_self p)] at here
  obtain ⟨earlier, -, rfl⟩ := Option.map_eq_some_iff.mp here
  exact ⟨rfl, fun _ => rfl, fun _ _ _ => rfl⟩

/-! ## A stored byte -/

theorem references_slot (area : state.areaAt place tid = some tls)
    (held : tls.pages[n / machine.pageSize]? = some p) :
    references (state.areaAt place) (tid, n / machine.pageSize) = some p := by
  simp [references, area, held]

theorem Sound.stored (sound : Sound machine state buckets place) (page : Page) (frame : Frame)
    (offset : Nat) (byte : UInt8) :
    Sound machine (state.stored page frame offset byte) buckets place :=
  sound.of_untouched ⟨rfl, rfl, rfl, rfl, rfl⟩ (sound.backed.stored page frame offset byte)

theorem Sound.ownByte_stored (sound : Sound machine state buckets place)
    (area : state.areaAt place tid = some tls)
    (held : tls.pages[n / machine.pageSize]? = some p) (allocated : state.pages p = some page)
    (mapped : state.memory page.address = some frame) (single : page.refCount ≤ 1) (byte : UInt8)
    (other : Tid) (m : Nat) :
    (state.stored page frame (n % machine.pageSize) byte).ownByte machine place other m =
      if other = tid ∧ m = n then byte else state.ownByte machine place other m := by
  have pointing := references_slot area held
  have frameOf : state.frameOf p = some frame := by simp [State.frameOf, allocated, mapped]
  have counter : state.refCount p = some page.refCount := by simp [State.refCount, allocated]
  have written := @byteAt_write machine state (state.stored page frame (n % machine.pageSize) byte)
    (references (state.areaAt place)) p tid (references (state.areaAt place)) n byte _ pointing
    (frameOf_stored_self allocated _ byte) ?_ ?_ (other, m / machine.pageSize)
    (m % machine.pageSize) (Nat.mod_lt m machine.pageSize_pos)
  · have whole : position machine (m / machine.pageSize) (m % machine.pageSize) = m :=
      Nat.div_add_mod' m machine.pageSize
    rwa [whole] at written
  · intro offset _
    rw [State.byteAt_eq pointing frameOf]
    by_cases same : offset = n % machine.pageSize
    · simp [same]
    · simp [same]
  · intro ref away
    refine ⟨rfl, fun q there => ?_⟩
    have distinct : q ≠ p := by
      rintro rfl
      exact away (sound.backed.counted.unique counter single there pointing)
    rw [sound.backed.frameOf_stored allocated distinct]

theorem Sound.gentle_stored (sound : Sound machine state buckets place)
    (area : state.areaAt place tid = some tls)
    (held : tls.pages[n / machine.pageSize]? = some p) (allocated : state.pages p = some page)
    (mapped : state.memory page.address = some frame) (single : page.refCount ≤ 1) (byte : UInt8) :
    Gentle machine place tid spared state
      (state.stored page frame (n % machine.pageSize) byte) where
  areas _ _ := rfl
  size := rfl
  allocated _ := id
  alone _ := id
  usable q access _ _ usable frame' here := by
    have frameOf : state.frameOf p = some frame := by simp [State.frameOf, allocated, mapped]
    by_cases same : q = p
    · subst same
      rw [frameOf_stored_self allocated, Option.some.injEq] at here
      subst here
      exact usable frame frameOf
    · rw [sound.backed.frameOf_stored allocated same] at here
      exact usable frame' here
  bytes other distinct m := by
    rw [sound.ownByte_stored area held allocated mapped single byte other m,
      if_neg fun both => distinct both.1]

/-! ## A shared page copied -/

/-- A slot moved to a copy of its page at `address`, before the page is protected. -/
def State.duplicated (state : State) (pointer : ElementPtr) (element : HashElement) (slot : Nat)
    (p : PagePtr) (page : Page) (frame : Frame) (address : Address) : State :=
  replaceSlot (addPage state address (Function.update state.memory address
    (some (copyFrame state.pageSize frame)))) pointer element slot p page state.nextPage

theorem copyShared_eq (kernel : Kernel) {slot : Nat}
    (mapped : state.memory page.address = some frame) (readable : frame.prot.read = true) :
    copyShared kernel state pointer element slot p page =
      match kernel.place state.memory with
      | none => .error .mapFailed
      | some address =>
          .ok (state.nextPage, state.duplicated pointer element slot p page frame address) := by
  cases placed : kernel.place state.memory with
  | none => simp [copyShared, Kernel.mmap, placed]
  | some address =>
      have unmapped := kernel.place_unmapped _ _ placed
      have away : page.address ≠ address := by
        intro same
        rw [same, unmapped] at mapped
        cases mapped
      have source : load (Function.update state.memory address
          (some { bytes := fun _ => 0, prot := .writeOnly })) page.address = .ok frame.bytes := by
        simp [load, away, mapped, readable]
      have target : store (Function.update state.memory address
          (some { bytes := fun _ => 0, prot := .writeOnly })) address
          (copyPage state.pageSize frame.bytes) =
          .ok (Function.update state.memory address (some (copyFrame state.pageSize frame))) := by
        simp [store, Prot.writeOnly, copyFrame]
      simp only [copyShared, Kernel.mmap, placed, Option.map_some, source, target, bind,
        Except.bind]
      rfl

section Duplicated

variable {slot : Nat}

theorem Backed.duplicated {target : Reference → Option PagePtr} (backed : Backed state target)
    (pointing : target (tid, slot) = some p) (allocated : state.pages p = some page)
    (mapped : state.memory page.address = some frame) (unmapped : state.memory address = none) :
    Backed (state.duplicated pointer element slot p page frame address)
      (Function.update target (tid, slot) (some state.nextPage)) := by
  have away : page.address ≠ address := by
    intro same
    rw [same, unmapped] at mapped
    cases mapped
  have copied := @Backed.copied state target p tid page frame address pointer element slot backed
    pointing allocated unmapped
  refine copied.of_mapped rfl rfl ?_
  intro there frame' here
  simp only [State.copied, reprotect] at here
  split at here
  next touched =>
    obtain ⟨earlier, before, -⟩ := Option.map_eq_some_iff.mp here
    exact ⟨earlier, before⟩
  next => exact ⟨frame', here⟩

theorem frameOf_duplicated_copy (old : p ≠ state.nextPage) :
    (state.duplicated pointer element slot p page frame address).frameOf state.nextPage =
      some (copyFrame state.pageSize frame) := by
  simp [State.frameOf, State.duplicated, replaceSlot, addPage, old.symm]

theorem refCount_duplicated (old : p ≠ state.nextPage) (allocated : state.pages p = some page) :
    (state.duplicated pointer element slot p page frame address).refCount q =
      if q = state.nextPage then some 1
      else if q = p then some (page.refCount - 1) else state.refCount q := by
  by_cases isCopy : q = state.nextPage
  · subst isCopy
    simp [State.refCount, State.duplicated, replaceSlot, addPage, old.symm]
  · by_cases same : q = p
    · subst same
      simp [State.refCount, State.duplicated, replaceSlot, isCopy]
    · simp [State.refCount, State.duplicated, replaceSlot, addPage, isCopy, same]

theorem Backed.frameOf_duplicated {target : Reference → Option PagePtr}
    (backed : Backed state target) (allocated : state.pages p = some page)
    (unmapped : state.memory address = none) (old : q ≠ state.nextPage) :
    (state.duplicated pointer element slot p page frame address).frameOf q = state.frameOf q := by
  have away : ∀ r other, state.pages r = some other → other.address ≠ address := by
    rintro r other isPage rfl
    obtain ⟨frame', mapped'⟩ := backed.mapped r other isPage
    rw [unmapped] at mapped'
    cases mapped'
  by_cases same : q = p
  · subst same
    simp [State.frameOf, State.duplicated, replaceSlot, addPage, allocated,
      away q page allocated]
  · cases isPage : state.pages q with
    | none => simp [State.frameOf, State.duplicated, replaceSlot, addPage, same, old, isPage]
    | some other =>
        simp [State.frameOf, State.duplicated, replaceSlot, addPage, same, old, isPage,
          away q other isPage]

end Duplicated

theorem Sound.rewritten (sound : Sound machine state buckets place)
    (placed : place tid = some pointer) (found : state.elements pointer = some element)
    {pages : List PagePtr} (rewritten : Rewritten state after pointer element pages)
    (backed : Backed after (references (Function.update (state.areaAt place) tid
      (some (element.withPages pages).tls)))) :
    Sound machine after buckets place ∧ after.areaAt place =
      Function.update (state.areaAt place) tid (some (element.withPages pages).tls) := by
  have areas := sound.table.areaAt_update placed rewritten.elements
  have area : state.areaAt place tid = some element.tls := by
    simp [State.areaAt, placed, found]
  have sameTid : (element.withPages pages).tid = element.tid := rfl
  refine ⟨⟨?_, ?_, ?_, ?_⟩, areas⟩
  · exact sound.table.update_element found sameTid rfl rewritten.hashTable rewritten.elements
      rewritten.nextElement
  · rwa [areas]
  · intro other tls here
    rw [areas] at here
    by_cases same : other = tid
    · subst same
      rw [Function.update_self, Option.some.injEq] at here
      subst here
      obtain ⟨initialized, length, pageNum⟩ := sound.sized other _ area
      exact ⟨rewritten.initialized.trans initialized, rewritten.length.trans length, pageNum⟩
    · rw [Function.update_of_ne same] at here
      obtain ⟨initialized, length, pageNum⟩ := sound.sized other tls here
      exact ⟨rewritten.initialized.trans initialized, length, pageNum⟩
  · intro initialized
    rw [rewritten.pageSize]
    exact sound.pageSize (rewritten.initialized.symm.trans initialized)

/-- The slot of a shared page moved to a copy of it. -/
theorem Sound.duplicated (sound : Sound machine state buckets place)
    (placed : place tid = some pointer) (found : state.elements pointer = some element)
    {slot : Nat} (held : element.tls.pages[slot]? = some p)
    (allocated : state.pages p = some page) (mapped : state.memory page.address = some frame)
    (unmapped : state.memory address = none) :
    Sound machine (state.duplicated pointer element slot p page frame address) buckets place ∧
      (state.duplicated pointer element slot p page frame address).areaAt place =
        Function.update (state.areaAt place) tid
          (some (element.withPages (element.tls.pages.set slot state.nextPage)).tls) ∧
      references (Function.update (state.areaAt place) tid
          (some (element.withPages (element.tls.pages.set slot state.nextPage)).tls)) =
        Function.update (references (state.areaAt place)) (tid, slot) (some state.nextPage) := by
  have area : state.areaAt place tid = some element.tls := by
    simp [State.areaAt, placed, found]
  have pointing : references (state.areaAt place) (tid, slot) = some p := by
    simp [references, area, held]
  have moved : references (Function.update (state.areaAt place) tid
      (some (element.withPages (element.tls.pages.set slot state.nextPage)).tls)) =
      Function.update (references (state.areaAt place)) (tid, slot) (some state.nextPage) := by
    rw [references_update]
    have set := @areaOf_set (references (state.areaAt place)) tid element slot state.nextPage
      (List.getElem?_eq_some_iff.mp held).1
    rwa [areaOf_references area] at set
  have rewritten : Rewritten state (state.duplicated pointer element slot p page frame address)
      pointer element (element.tls.pages.set slot state.nextPage) :=
    ⟨rfl, rfl, rfl, rfl, rfl, List.length_set⟩
  have backed : Backed (state.duplicated pointer element slot p page frame address)
      (references (Function.update (state.areaAt place) tid
        (some (element.withPages (element.tls.pages.set slot state.nextPage)).tls))) := by
    rw [moved]
    exact sound.backed.duplicated pointing allocated mapped unmapped
  have sound' := sound.rewritten placed found rewritten backed
  exact ⟨sound'.1, sound'.2, moved⟩

theorem Sound.ownByte_duplicated (sound : Sound machine state buckets place)
    (placed : place tid = some pointer) (found : state.elements pointer = some element)
    {slot : Nat} (held : element.tls.pages[slot]? = some p)
    (allocated : state.pages p = some page) (mapped : state.memory page.address = some frame)
    (unmapped : state.memory address = none) (other : Tid) (n : Nat) :
    (state.duplicated pointer element slot p page frame address).ownByte machine place other n =
      state.ownByte machine place other n := by
  have area : state.areaAt place tid = some element.tls := by
    simp [State.areaAt, placed, found]
  have pointing : references (state.areaAt place) (tid, slot) = some p := by
    simp [references, area, held]
  have frameOf : state.frameOf p = some frame := by simp [State.frameOf, allocated, mapped]
  obtain ⟨-, areas, moved⟩ := sound.duplicated placed found held allocated mapped unmapped
  have initialized := (sound.sized tid element.tls area).initialized
  rw [State.ownByte, State.ownByte, State.byteIn, State.byteIn, areas, moved]
  by_cases here : (other, n / machine.pageSize) = (tid, slot)
  · rw [here, State.byteAt_eq (Function.update_self ..)
      (frameOf_duplicated_copy (sound.backed.ne_nextPage pointing)),
      State.byteAt_eq pointing frameOf]
    have within : n % machine.pageSize < state.pageSize.toInt.toNat := by
      rw [sound.pageSize initialized, Machine.toNat_pageSizeInt]
      exact Nat.mod_lt n machine.pageSize_pos
    simp only [copyFrame, copyPage, if_pos within]
  · apply State.byteAt_congr (Function.update_of_ne here ..)
    intro q there
    rw [sound.backed.frameOf_duplicated allocated unmapped (sound.backed.ne_nextPage there)]

theorem Sound.gentle_duplicated (sound : Sound machine state buckets place)
    (placed : place tid = some pointer) (found : state.elements pointer = some element)
    {slot : Nat} (held : element.tls.pages[slot]? = some p)
    (allocated : state.pages p = some page) (mapped : state.memory page.address = some frame)
    (unmapped : state.memory address = none) (shared : page.refCount > 1) :
    Gentle machine place tid spared state
      (state.duplicated pointer element slot p page frame address) := by
  have area : state.areaAt place tid = some element.tls := by
    simp [State.areaAt, placed, found]
  have pointing : references (state.areaAt place) (tid, slot) = some p := by
    simp [references, area, held]
  have old : p ≠ state.nextPage := sound.backed.ne_nextPage pointing
  have counter : state.refCount p = some page.refCount := by simp [State.refCount, allocated]
  have absent : state.pages state.nextPage = none := by
    cases here : state.pages state.nextPage with
    | none => rfl
    | some other => exact absurd (sound.backed.below _ other here) (lt_irrefl _)
  obtain ⟨-, areas, -⟩ := sound.duplicated placed found held allocated mapped unmapped
  constructor
  · intro other distinct
    rw [areas, Function.update_of_ne distinct]
  · rw [areas, Function.update_self, area]
    rfl
  · intro q isPage
    by_cases same : q = p
    · simp [State.duplicated, replaceSlot, same]
    · by_cases isCopy : q = state.nextPage
      · simp [State.duplicated, replaceSlot, addPage, isCopy, old.symm]
      · simpa [State.duplicated, replaceSlot, addPage, same, isCopy] using isPage
  · intro q single
    have isOld : q ≠ state.nextPage := by
      rintro rfl
      simp [State.refCount, absent] at single
    have isOther : q ≠ p := by
      rintro rfl
      rw [counter, Option.some.injEq] at single
      exact absurd single shared.ne'
    rw [refCount_duplicated old allocated, if_neg isOld, if_neg isOther, single]
  · intro q access _ isPage usable frame' here
    have isOld : q ≠ state.nextPage := fun same => isPage (same ▸ absent)
    rw [sound.backed.frameOf_duplicated allocated unmapped isOld] at here
    obtain ⟨writable, reads, copies⟩ := usable frame' here
    refine ⟨writable, reads, fun number counts several => ?_⟩
    rw [refCount_duplicated old allocated, if_neg isOld] at counts
    by_cases same : q = p
    · subst same
      exact copies page.refCount counter shared
    · rw [if_neg same] at counts
      exact copies number counts several
  · intro other _ n
    exact sound.ownByte_duplicated placed found held allocated mapped unmapped other n

theorem Sound.duplicated_copy (sound : Sound machine state buckets place) (frame : Frame)
    (address : Address) (placed : place tid = some pointer)
    (found : state.elements pointer = some element)
    {slot : Nat} (held : element.tls.pages[slot]? = some p)
    (allocated : state.pages p = some page) :
    (state.duplicated pointer element slot p page frame address).refCount state.nextPage =
        some 1 ∧
      Usable (state.duplicated pointer element slot p page frame address) .write
        state.nextPage := by
  have area : state.areaAt place tid = some element.tls := by
    simp [State.areaAt, placed, found]
  have pointing : references (state.areaAt place) (tid, slot) = some p := by
    simp [references, area, held]
  have old : p ≠ state.nextPage := sound.backed.ne_nextPage pointing
  have counts : (state.duplicated pointer element slot p page frame address).refCount
      state.nextPage = some 1 := by
    rw [refCount_duplicated old allocated, if_pos rfl]
  constructor
  · exact counts
  · intro frame' here
    rw [frameOf_duplicated_copy old, Option.some.injEq] at here
    subst here
    refine ⟨rfl, (by simp), ?_⟩
    intro number many several
    rw [counts, Option.some.injEq] at many
    exact absurd several (by omega)

end EC440.LocalStorage
