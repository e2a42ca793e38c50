import EC440.LocalStorage.Bounds

/-!
# What tls_write copies

The loop of `tls_write` decides at every byte whether to copy the page, by a
count that it changes itself.  `Copies` says which slots have moved to a fresh
page after some rounds; a round extends it by the slot of its byte.
-/

namespace EC440.LocalStorage

open References Outcome

variable {machine : Machine} {state middle after : State} {buckets : Bucket → List ElementPtr}
  {place : Tid → Option ElementPtr} {base : Reference → Option PagePtr} {tid : Tid} {p q : PagePtr}
  {page : Page} {frame : Frame} {address : Address} {pointer : ElementPtr}
  {element : HashElement} {pages pages' pages'' : List PagePtr} {touched touched' : Nat → Prop}
  {kernel : Kernel}

/-- The pages of an area after the slots in `touched` have been written: a slot with a page of its
own keeps it, a slot with a shared page gets a page that was not there, and nothing else is
allocated. -/
structure Copies (state after : State) (pages pages' : List PagePtr) (touched : Nat → Prop) :
    Prop where
  length : pages'.length = pages.length
  /-- Slots outside the range. -/
  untouched : ∀ (slot : Nat) (p : PagePtr), pages[slot]? = some p → ¬touched slot →
    pages'[slot]? = some p
  /-- Slots with a page of their own. -/
  single : ∀ (slot : Nat) (p : PagePtr) (page : Page), pages[slot]? = some p →
    state.pages p = some page → page.refCount ≤ 1 → pages'[slot]? = some p
  /-- Slots of the range with a shared page. -/
  copied : ∀ (slot : Nat) (p : PagePtr) (page : Page), pages[slot]? = some p → touched slot →
    state.pages p = some page → 1 < page.refCount → ∃ copy address,
      pages'[slot]? = some copy ∧ state.pages copy = none ∧
      after.pages copy = some { address, refCount := 1 } ∧
      after.pages p = some { page with refCount := page.refCount - 1 }
  /-- There is one new page for each of these slots. -/
  fresh : ∀ q, state.pages q = none → after.pages q ≠ none →
    ∃ (slot : Nat) (p : PagePtr) (page : Page), touched slot ∧ pages[slot]? = some p ∧
      state.pages p = some page ∧ 1 < page.refCount ∧ pages'[slot]? = some q
  /-- All other pages stay as they are. -/
  kept : ∀ q page, state.pages q = some page →
    (∀ slot : Nat, touched slot → pages[slot]? = some q → page.refCount ≤ 1) →
    after.pages q = some page

def Allocated (state : State) (pages : List PagePtr) : Prop :=
  ∀ (slot : Nat) (p : PagePtr), pages[slot]? = some p → ∃ page, state.pages p = some page

namespace Copies

theorem refl (state : State) (pages : List PagePtr) :
    Copies state state pages pages fun _ => False where
  length := rfl
  untouched _ _ held _ := held
  single _ _ _ held _ _ := held
  copied _ _ _ _ impossible := absurd impossible id
  fresh _ absent present := absurd absent present
  kept _ _ here _ := here

theorem congr (copies : Copies state after pages pages' touched)
    (same : ∀ slot, touched slot ↔ touched' slot) : Copies state after pages pages' touched' := by
  have equal : touched = touched' := funext fun slot => propext (same slot)
  rwa [← equal]

theorem origin (copies : Copies state after pages pages' touched)
    (allocated : Allocated state pages) {slot : Nat} (held : pages'[slot]? = some q) :
    pages[slot]? = some q ∨
      state.pages q = none ∧ ∃ address, after.pages q = some { address, refCount := 1 } := by
  have inside := (List.getElem?_eq_some_iff.mp held).1
  rw [copies.length] at inside
  have before := List.getElem?_eq_getElem inside
  by_cases here : touched slot
  · rcases allocated slot _ before with ⟨page, there⟩
    by_cases shared : 1 < page.refCount
    · rcases copies.copied slot _ page before here there shared with
        ⟨copy, address, moved, absent, present, -⟩
      rw [held, Option.some.injEq] at moved
      subst moved
      exact .inr ⟨absent, address, present⟩
    · have same := copies.single slot _ page before there (not_lt.mp shared)
      rw [held] at same
      exact .inl (before.trans same.symm)
  · have same := copies.untouched slot _ before here
    rw [held] at same
    exact .inl (before.trans same.symm)

theorem present (copies : Copies state after pages pages' touched)
    (here : state.pages q = some page) : ∃ page', after.pages q = some page' := by
  by_cases moved : ∃ slot, touched slot ∧ pages[slot]? = some q ∧ 1 < page.refCount
  · rcases moved with ⟨slot, inside, held, shared⟩
    rcases copies.copied slot q page held inside here shared with ⟨-, -, -, -, -, left⟩
    exact ⟨_, left⟩
  · refine ⟨page, copies.kept q page here ?_⟩
    intro slot inside held
    by_contra shared
    exact moved ⟨slot, inside, held, not_le.mp shared⟩

theorem slot_unique {pages : List PagePtr} (distinct : pages.Nodup) {i j : Nat}
    (here : pages[i]? = some q) (there : pages[j]? = some q) : i = j :=
  (List.getElem?_inj (List.getElem?_eq_some_iff.mp here).1 distinct).mp (here.trans there.symm)

theorem steady (copies : Copies state after pages pages' touched) (distinct : pages.Nodup)
    {slot : Nat} (held : pages[slot]? = some q) (here : state.pages q = some page)
    (alone : page.refCount ≤ 1 ∨ ¬touched slot) : after.pages q = some page := by
  apply copies.kept q page here
  intro slot' inside held'
  rw [slot_unique distinct held' held] at inside
  exact alone.resolve_right (not_not.mpr inside)

theorem remote (copies : Copies state after pages pages' touched)
    (allocated : Allocated state pages) (here : state.pages q = some page) {slot : Nat}
    (held : pages'[slot]? = some q) : pages[slot]? = some q := by
  rcases copies.origin allocated held with before | ⟨absent, -⟩
  · exact before
  · rw [absent] at here
    cases here

theorem alone_of_touched (copies : Copies state after pages pages' touched)
    (distinct : pages.Nodup) {slot : Nat} (before : pages[slot]? = some q)
    (held : pages'[slot]? = some q) (here : state.pages q = some page) {page' : Page}
    (there : after.pages q = some page') (shared : 1 < page'.refCount) : ¬touched slot := by
  intro inside
  by_cases several : 1 < page.refCount
  · rcases copies.copied slot q page before inside here several with
      ⟨copy, address, moved, absent, -, -⟩
    rw [held, Option.some.injEq] at moved
    rw [← moved, here] at absent
    cases absent
  · have same := copies.steady distinct before here (.inl (not_lt.mp several))
    rw [there, Option.some.injEq] at same
    exact several (same ▸ shared)

theorem fresh_trans (first : Copies state middle pages pages' touched)
    (second : Copies middle after pages' pages'' touched') (allocated : Allocated state pages)
    (distinct : pages.Nodup) (absent : state.pages q = none) (present : after.pages q ≠ none) :
    ∃ (slot : Nat) (p : PagePtr) (page : Page), (touched slot ∨ touched' slot) ∧
      pages[slot]? = some p ∧ state.pages p = some page ∧ 1 < page.refCount ∧
      pages''[slot]? = some q := by
  cases there : middle.pages q with
  | none =>
      rcases second.fresh q there present with
        ⟨slot, p, page, inside, held, here, shared, moved⟩
      rcases first.origin allocated held with before | ⟨-, address, alone⟩
      · rcases allocated slot p before with ⟨page', here'⟩
        have outside := first.alone_of_touched distinct before held here' here shared
        have same := first.steady distinct before here' (.inr outside)
        rw [here, Option.some.injEq] at same
        exact ⟨slot, p, page', .inr inside, before, here', same ▸ shared, moved⟩
      · rw [here, Option.some.injEq] at alone
        rw [alone] at shared
        exact absurd shared (lt_irrefl _)
  | some page' =>
      rcases first.fresh q absent (by rw [there]; simp) with
        ⟨slot, p, page, inside, held, here, shared, moved⟩
      rcases first.copied slot p page held inside here shared with
        ⟨copy, address, moved', -, alone, -⟩
      rw [moved, Option.some.injEq] at moved'
      subst moved'
      exact ⟨slot, p, page, .inl inside, held, here, shared,
        second.single slot q _ moved alone le_rfl⟩

theorem trans (first : Copies state middle pages pages' touched)
    (second : Copies middle after pages' pages'' touched') (allocated : Allocated state pages)
    (distinct : pages.Nodup) :
    Copies state after pages pages'' fun slot => touched slot ∨ touched' slot := by
  constructor
  · exact second.length.trans first.length
  · intro slot p held outside
    rcases not_or.mp outside with ⟨before, later⟩
    exact second.untouched slot p (first.untouched slot p held before) later
  · intro slot p page held here alone
    exact second.single slot p page (first.single slot p page held here alone)
      (first.steady distinct held here (.inl alone)) alone
  · intro slot p page held either here shared
    by_cases inside : touched slot
    · rcases first.copied slot p page held inside here shared with
        ⟨copy, address, moved, absent, present, left⟩
      refine ⟨copy, address, second.single slot copy _ moved present le_rfl, absent, ?_, ?_⟩
      · exact second.kept copy _ present fun _ _ _ => le_rfl
      · apply second.kept p _ left
        intro slot' inside' held'
        obtain rfl : slot' = slot :=
          slot_unique distinct (first.remote allocated here held') held
        rw [moved, Option.some.injEq] at held'
        rw [held', here] at absent
        cases absent
    · have held' := first.untouched slot p held inside
      have here' := first.steady distinct held here (.inr inside)
      rcases second.copied slot p page held' (either.resolve_left inside) here' shared with
        ⟨copy, address, moved, absent, present, left⟩
      refine ⟨copy, address, moved, ?_, present, left⟩
      cases before : state.pages copy with
      | none => rfl
      | some page' =>
          rcases first.present before with ⟨page'', there⟩
          rw [there] at absent
          cases absent
  · exact fun q absent present => first.fresh_trans second allocated distinct absent present
  · intro q page here alone
    have there := first.kept q page here fun slot inside => alone slot (.inl inside)
    apply second.kept q page there
    intro slot inside held
    exact alone slot (.inr inside) (first.remote allocated here held)

end Copies

/-! ## Rounds -/

namespace Writing

variable {n : Nat}

theorem nodup (writing : Writing machine base tid pointer state element) :
    element.tls.pages.Nodup := by
  rw [List.nodup_iff_getElem?_ne_getElem?]
  intro i j before inside same
  have held := List.getElem?_eq_getElem inside
  rw [held] at same
  exact before.ne (writing.backed.separate tid i j _ (writing.slot_eq same)
    (writing.slot_eq held))

theorem allocated (writing : Writing machine base tid pointer state element) :
    Allocated state element.tls.pages := by
  intro slot p held
  rcases writing.backed.page_of (writing.slot_eq held) with ⟨page, -, here, -⟩
  exact ⟨page, here⟩

theorem copies_private (_ : Writing machine base tid pointer state element)
    (held : element.tls.pages[n / machine.pageSize]? = some p)
    (allocated : state.pages p = some page) (alone : ¬page.refCount > 1) (byte : UInt8) :
    Copies state (state.stored page frame (n % machine.pageSize) byte) element.tls.pages
      element.tls.pages fun slot => n / machine.pageSize = slot where
  length := rfl
  untouched _ _ held _ := held
  single _ _ _ held _ _ := held
  copied slot q page' held' inside here shared := by
    subst inside
    rw [held, Option.some.injEq] at held'
    subst held'
    rw [allocated, Option.some.injEq] at here
    exact absurd (here ▸ shared) alone
  fresh _ absent present := absurd absent present
  kept _ _ here _ := here

theorem copies_shared (writing : Writing machine base tid pointer state element)
    (held : element.tls.pages[n / machine.pageSize]? = some p)
    (allocated : state.pages p = some page) (shared : page.refCount > 1) (byte : UInt8) :
    Copies state
      (state.copyWritten pointer element (n / machine.pageSize) p page frame address
        (n % machine.pageSize) byte) element.tls.pages
      (element.tls.pages.set (n / machine.pageSize) state.nextPage)
      fun slot => n / machine.pageSize = slot := by
  have inside := (List.getElem?_eq_some_iff.mp held).1
  have old : p ≠ state.nextPage := writing.backed.ne_nextPage (writing.slot_eq held)
  have absent : state.pages state.nextPage = none := by
    cases here : state.pages state.nextPage with
    | none => rfl
    | some page' => exact absurd (writing.backed.below _ page' here) (lt_irrefl _)
  have pages : (state.copyWritten pointer element (n / machine.pageSize) p page frame address
      (n % machine.pageSize) byte).pages = Function.update (Function.update state.pages
        state.nextPage (some { address, refCount := 1 })) p
          (some { page with refCount := page.refCount - 1 }) := rfl
  constructor
  · exact List.length_set
  · intro slot q held' outside
    rw [List.getElem?_set_ne outside, held']
  · intro slot q page' held' here alone
    rw [List.getElem?_set_ne ?_, held']
    rintro rfl
    rw [held, Option.some.injEq] at held'
    subst held'
    rw [allocated, Option.some.injEq] at here
    exact absurd (here ▸ alone) (not_le.mpr shared)
  · rintro slot q page' held' rfl here -
    rw [held, Option.some.injEq] at held'
    subst held'
    rw [allocated, Option.some.injEq] at here
    subst here
    refine ⟨state.nextPage, address, List.getElem?_set_self inside, absent, ?_, ?_⟩
    · rw [pages, Function.update_of_ne old.symm, Function.update_self]
    · rw [pages, Function.update_self]
  · intro q absent' present
    have new : q = state.nextPage := by
      by_contra other
      rw [pages] at present
      by_cases left : q = p
      · rw [left, allocated] at absent'
        cases absent'
      · rw [Function.update_of_ne left, Function.update_of_ne other] at present
        exact present absent'
    exact ⟨_, p, page, rfl, held, allocated, shared, by rw [new, List.getElem?_set_self inside]⟩
  · intro q page' here alone
    have left : q ≠ p := by
      rintro rfl
      rw [allocated, Option.some.injEq] at here
      exact absurd (here ▸ alone _ rfl held) (not_le.mpr shared)
    have other : q ≠ state.nextPage := by
      rintro rfl
      rw [absent] at here
      cases here
    rw [pages, Function.update_of_ne left, Function.update_of_ne other, here]

theorem copies_round (writing : Writing machine base tid pointer state element)
    (small : n < 2 ^ 31) (inside : n < element.tls.pages.length * machine.pageSize)
    {byte : UInt8} (done : writeByte kernel pointer state (Int32.ofNat n) byte = .ok after) :
    ∃ pages, Writing machine base tid pointer after (element.withPages pages) ∧
      Copies state after element.tls.pages pages fun slot => n / machine.pageSize = slot := by
  have slotInside : n / machine.pageSize < element.tls.pages.length :=
    Nat.div_lt_of_lt_mul (by rwa [Nat.mul_comm])
  have held := List.getElem?_eq_getElem slotInside
  rcases writing.backed.page_of (writing.slot_eq held) with ⟨page, frame, allocated, mapped, -⟩
  rw [writing.writeByte_eq kernel small held allocated] at done
  by_cases shared : page.refCount > 1
  · rw [if_pos shared] at done
    rcases writing.storeByte_shared kernel held allocated mapped shared byte with
      failed | ⟨address, unmapped, done'⟩
    · rw [failed] at done
      cases done
    · rw [done', Except.ok.injEq] at done
      subst done
      exact ⟨_, (writing.writeShared held allocated mapped unmapped fun _ => byte).writing,
        writing.copies_shared held allocated shared byte⟩
  · rw [if_neg shared, writing.storeByte_private held allocated mapped byte,
      Except.ok.injEq] at done
    subst done
    exact ⟨_, (writing.writePrivate held allocated mapped shared fun _ => byte).writing,
      writing.copies_private held allocated shared byte⟩

theorem copies_loop (writing : Writing machine base tid pointer state element) {buffer : Buffer}
    {start count fuel i : Nat} (small : start + count < 2 ^ 31)
    (inside : start + count ≤ element.tls.pages.length * machine.pageSize)
    (run : writeLoop kernel pointer (UInt32.ofNat (start + count)) buffer fuel state i
      (Int32.ofNat start) = .ok after) :
    ∃ pages, Writing machine base tid pointer after (element.withPages pages) ∧
      Copies state after element.tls.pages pages fun slot =>
        ∃ n, start ≤ n ∧ n < start + count ∧ n / machine.pageSize = slot := by
  induction fuel generalizing state element start count i with
  | zero => cases run
  | succ fuel inductionHypothesis =>
      rw [LocalStorage.writeLoop] at run
      split at run
      next below =>
        have here : start < start + count := by
          rw [UInt32.lt_iff_toNat_lt, toNat_ofNat (by omega), UInt32.toNat_ofNat',
            Nat.mod_eq_of_lt (by omega)] at below
          exact below
        rcases bind_eq_ok_iff.mp run with ⟨middle, written, rest⟩
        rcases bind_eq_ok_iff.mp rest with ⟨next, incremented, rest⟩
        rcases writing.copies_round (by omega) (by omega) written with
          ⟨pages, writing', first⟩
        rw [increment_ofNat (by omega), Except.ok.injEq] at incremented
        subst incremented
        have split : start + count = start + 1 + (count - 1) := by omega
        rw [split] at rest small inside
        rcases inductionHypothesis writing' small
          (by rwa [HashElement.withPages_pages, first.length]) rest with ⟨pages', final, second⟩
        refine ⟨pages', final, ?_⟩
        have both := first.trans second writing.allocated writing.nodup
        refine both.congr fun slot => ?_
        constructor
        · rintro (same | ⟨n, lower, upper, same⟩)
          · exact ⟨start, le_rfl, here, same⟩
          · exact ⟨n, by omega, by omega, same⟩
        · rintro ⟨n, lower, upper, same⟩
          by_cases first : n = start
          · exact .inl (first ▸ same)
          · exact .inr ⟨n, by omega, by omega, same⟩
      next outside =>
        cases run
        refine ⟨element.tls.pages, writing, (Copies.refl _ _).congr fun slot => ?_⟩
        constructor
        · exact False.elim
        · rintro ⟨n, lower, upper, -⟩
          apply outside
          rw [UInt32.lt_iff_toNat_lt, toNat_ofNat (by omega), UInt32.toNat_ofNat',
            Nat.mod_eq_of_lt (by omega)]
          omega

end Writing

/-! ## The call -/

def Intersects (machine : Machine) (offset length : UInt32) (slot : Nat) : Prop :=
  ∃ n, offset.toNat ≤ n ∧ n < offset.toNat + length.toNat ∧ n / machine.pageSize = slot

/-- The state after a `tls_write` by the owner of an element. -/
structure Rewrites (state after : State) (pointer : ElementPtr) (element : HashElement)
    (pages : List PagePtr) (touched : Nat → Prop) : Prop where
  hashTable : after.hashTable = state.hashTable
  nextElement : after.nextElement = state.nextElement
  elements : after.elements =
    Function.update state.elements pointer (some (element.withPages pages))
  copies : Copies state after element.tls.pages pages touched
  distinct : pages.Nodup

section Range

variable {offset length : UInt32} {buffer : Buffer} {code : Int32}

theorem Sound.write_inside (sound : Sound machine state buckets place)
    (placed : place tid = some pointer) (found : state.elements pointer = some element)
    (small : offset.toNat + length.toNat < 2 ^ 31)
    (fits : offset.toNat + length.toNat ≤ element.tls.size.toNat)
    (done : tlsWrite kernel state tid offset length buffer = .ok (code, after)) :
    code = 0 ∧ Sound machine after buckets place ∧
      ∃ pages, Rewrites state after pointer element pages (Intersects machine offset length) := by
  have area : state.areaAt place tid = some element.tls := by
    simp [State.areaAt, placed, found]
  have inside := le_trans fits (sound.sized tid element.tls area).room
  have writing := sound.writing placed found
  rw [tlsWrite_eq sound placed found kernel buffer small fits] at done
  rcases bind_eq_ok_iff.mp done with ⟨middle, loop, done⟩
  rcases writing.copies_loop small inside loop with ⟨pages, writing', copies⟩
  rcases writeLoop_cases kernel buffer writing (Nat.lt_succ_self length.toNat) small inside 0 with
    failed | ⟨middle', pages', loop', written⟩
  · rw [loop] at failed
    cases failed
  rw [loop, Except.ok.injEq] at loop'
  subst loop'
  have same : pages' = pages := by
    have left := writing'.found
    rw [written.writing.found, Option.some.injEq] at left
    exact congrArg (fun element : HashElement => element.tls.pages) left
  subst same
  rcases sound.changeProt area .readWrite with ⟨-, soundOpen, -, -⟩
  have areasOpen : (state.withProt element.tls.pages .readWrite).areaAt place =
      state.areaAt place := rfl
  have rewritten := written.rewritten
  rw [← areasOpen] at written
  rcases soundOpen.written placed found written with ⟨soundMiddle, areas⟩
  have areaMiddle : middle.areaAt place tid = some (element.withPages pages').tls := by
    rw [areas, Function.update_self]
  rcases soundMiddle.changeProt areaMiddle .none with ⟨protect, soundAfter, -, -⟩
  have protect' : forSlots (element.withPages pages').tls.pages tlsProtect
      (element.withPages pages').tls.pageNum.toNat middle =
      .ok (middle.withProt pages' .none) := protect
  have reached := (middle.element_eq_ok_iff).mpr writing'.found
  simp only [reached, protect', bind, Except.bind, Except.ok.injEq, Prod.mk.injEq] at done
  rcases done with ⟨rfl, rfl⟩
  refine ⟨rfl, soundAfter, pages', rewritten.hashTable, rewritten.nextElement,
    rewritten.elements, ?_, writing'.nodup⟩
  exact ⟨copies.length, copies.untouched, copies.single, copies.copied, copies.fresh, copies.kept⟩

theorem Sound.write_wrapped (sound : Sound machine state buckets place)
    (placed : place tid = some pointer) (found : state.elements pointer = some element)
    (checked : ¬offset + length > element.tls.size) (wrapped : ¬offset < offset + length)
    (done : tlsWrite kernel state tid offset length buffer = .ok (code, after)) :
    code = 0 ∧ Sound machine after buckets place ∧
      ∃ pages, Rewrites state after pointer element pages fun _ => False := by
  rw [tlsWrite_wrapped sound placed found checked wrapped] at done
  have nothing : (0 : UInt32).toNat + (0 : UInt32).toNat < 2 ^ 31 := by decide
  rcases sound.write_inside placed found nothing (Nat.zero_le _) done with
    ⟨code, sound', pages, rewrites⟩
  refine ⟨code, sound', pages, rewrites.hashTable, rewrites.nextElement, rewrites.elements, ?_,
    rewrites.distinct⟩
  refine rewrites.copies.congr fun slot => ⟨?_, False.elim⟩
  rintro ⟨n, lower, upper, -⟩
  exact absurd (lt_of_le_of_lt lower upper) (lt_irrefl _)

/-- Every `tls_write` that returns: it fails, or it works on the range, or the range wraps around
and nothing is written. -/
theorem Sound.write_cases (sound : Sound machine state buckets place)
    (small : ∀ tid tls, state.areaAt place tid = some tls → tls.size.toNat < 2 ^ 31)
    (done : tlsWrite kernel state tid offset length buffer = .ok (code, after)) :
    (code = -1 ∧ after = state) ∨
      ∃ pointer element pages, code = 0 ∧ place tid = some pointer ∧
        state.elements pointer = some element ∧ Sound machine after buckets place ∧
        ((offset.toNat + length.toNat < 2 ^ 32 ∧
            Rewrites state after pointer element pages (Intersects machine offset length)) ∨
          (¬offset.toNat + length.toNat < 2 ^ 32 ∧
            Rewrites state after pointer element pages fun _ => False)) := by
  cases placed : place tid with
  | none =>
      left
      simp only [tlsWrite, sound.table.hashSearch_eq, placed, bind, Except.bind,
        Except.ok.injEq, Prod.mk.injEq] at done
      exact ⟨done.1.symm, done.2.symm⟩
  | some pointer =>
      rcases sound.table.element_eq placed with ⟨element, reached, -, area⟩
      have found := (state.element_eq_ok_iff).mp reached
      by_cases checked : offset + length > element.tls.size
      · left
        simp only [tlsWrite, sound.table.hashSearch_eq, placed, reached, if_pos checked, bind,
          Except.bind, Except.ok.injEq, Prod.mk.injEq] at done
        exact ⟨done.1.symm, done.2.symm⟩
      · right
        rcases range_cases (small tid element.tls area) checked with ⟨short, fits⟩ | wrapped
        · rcases sound.write_inside placed found short fits done with
            ⟨code, sound', pages, rewrites⟩
          exact ⟨pointer, element, pages, code, rfl, found, sound', .inl ⟨by omega, rewrites⟩⟩
        · rcases sound.write_wrapped placed found checked wrapped done with
            ⟨code, sound', pages, rewrites⟩
          refine ⟨pointer, element, pages, code, rfl, found, sound', ?_⟩
          by_cases short : offset.toNat + length.toNat < 2 ^ 32
          · refine .inl ⟨short, rewrites.hashTable, rewrites.nextElement, rewrites.elements,
              rewrites.copies.congr fun slot => ⟨False.elim, ?_⟩, rewrites.distinct⟩
            rintro ⟨n, lower, upper, -⟩
            apply wrapped
            rw [UInt32.lt_iff_toNat_lt, UInt32.toNat_add, Nat.mod_eq_of_lt short]
            omega
          · exact .inr ⟨short, rewrites⟩

end Range

end EC440.LocalStorage
