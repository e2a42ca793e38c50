import EC440.Library.References
import EC440.LocalStorage.Operations

/-!
# Pages and their references

A reference is a slot of the storage area of a thread.  `Backed` ties the
reference counts of the pages to the references, and the pages to mapped
memory.  The loops over `pages[]` move references one at a time; each lemma
follows such a loop and says which references it has moved.
-/

namespace EC440.LocalStorage

open Linked References Outcome

/-- A slot of the area of a thread. -/
abbrev Reference := Tid × Nat

variable {state after : State} {target : Reference → Option PagePtr} {p q : PagePtr}
  {ref : Reference} {tid : Tid} {page : Page} {frame : Frame} {address : Address}

def State.refCount (state : State) (p : PagePtr) : Option Int :=
  (state.pages p).map (·.refCount)

def State.frameOf (state : State) (p : PagePtr) : Option Frame :=
  (state.pages p).bind fun page => state.memory page.address

/-- The slots of one thread refer to different pages. -/
def Separate (target : Reference → Option PagePtr) : Prop :=
  ∀ tid i j p, target (tid, i) = some p → target (tid, j) = some p → i = j

structure Backed (state : State) (target : Reference → Option PagePtr) : Prop where
  counted : Counted target state.refCount
  mapped : ∀ p page, state.pages p = some page → ∃ frame, state.memory page.address = some frame
  apart : ∀ p q page other, state.pages p = some page → state.pages q = some other →
    page.address = other.address → p = q
  below : ∀ p page, state.pages p = some page → p < state.nextPage
  separate : Separate target

theorem Separate.update (separate : Separate target) {index : Nat}
    (new : ∀ j, target (tid, j) ≠ some p) :
    Separate (Function.update target (tid, index) (some p)) := by
  intro owner i j q first second
  by_cases here : (owner, i) = (tid, index) <;> by_cases there : (owner, j) = (tid, index)
  · exact (Prod.mk.inj (here.trans there.symm)).2
  · obtain ⟨rfl, rfl⟩ := Prod.mk.inj here
    rw [Function.update_self, Option.some.injEq] at first
    rw [Function.update_of_ne there, ← first] at second
    exact absurd second (new _)
  · obtain ⟨rfl, rfl⟩ := Prod.mk.inj there
    rw [Function.update_self, Option.some.injEq] at second
    rw [Function.update_of_ne here, ← second] at first
    exact absurd first (new _)
  · rw [Function.update_of_ne here] at first
    rw [Function.update_of_ne there] at second
    exact separate _ _ _ _ first second

theorem Separate.unset (separate : Separate target) (ref : Reference) :
    Separate (Function.update target ref none) := by
  have earlier : ∀ place q, Function.update target ref none place = some q →
      target place = some q := by
    intro place q here
    by_cases same : place = ref
    · simp [same] at here
    · rwa [Function.update_of_ne same] at here
  exact fun tid i j q first second => separate tid i j q (earlier _ _ first) (earlier _ _ second)

def references (areas : Tid → Option Tls) : Reference → Option PagePtr :=
  fun ref => (areas ref.1).bind fun tls => tls.pages[ref.2]?

/-- The references of one thread replaced by `slots`. -/
def withSlots (target : Reference → Option PagePtr) (tid : Tid) (slots : Nat → Option PagePtr) :
    Reference → Option PagePtr :=
  fun ref => if ref.1 = tid then slots ref.2 else target ref

section WithSlots

variable {slots : Nat → Option PagePtr}

@[simp]
theorem withSlots_self (index : Nat) : withSlots target tid slots (tid, index) = slots index :=
  if_pos rfl

theorem withSlots_of_ne (other : ref.1 ≠ tid) : withSlots target tid slots ref = target ref :=
  if_neg other

theorem update_withSlots (index : Nat) (new : Option PagePtr) :
    Function.update (withSlots target tid slots) (tid, index) new =
      withSlots target tid (Function.update slots index new) := by
  funext ⟨owner, slot⟩
  by_cases same : owner = tid
  · subst same
    by_cases here : slot = index
    · simp [here]
    · have distinct : (owner, slot) ≠ (owner, index) := by simp [here]
      rw [Function.update_of_ne distinct]
      simp [here]
  · have distinct : (owner, slot) ≠ (tid, index) := by simp [same]
    rw [Function.update_of_ne distinct, withSlots_of_ne same, withSlots_of_ne same]

theorem update_getElem? (pages : List PagePtr) (p : PagePtr) :
    Function.update (fun index => pages[index]?) pages.length (some p) =
      fun index => (pages ++ [p])[index]? := by
  funext index
  by_cases last : index = pages.length
  · simp [last]
  · rw [Function.update_of_ne last]
    by_cases before : index < pages.length
    · rw [List.getElem?_append_left before]
    · rw [List.getElem?_eq_none (by omega),
        List.getElem?_eq_none (by simp only [List.length_append, List.length_singleton]; omega)]

theorem references_update (areas : Tid → Option Tls) (tid : Tid) (tls : Tls) :
    references (Function.update areas tid (some tls)) =
      withSlots (references areas) tid fun index => tls.pages[index]? := by
  funext ⟨owner, slot⟩
  by_cases same : owner = tid
  · subst same
    simp [references]
  · simp [references, withSlots, same]

theorem references_remove (areas : Tid → Option Tls) (tid : Tid) :
    references (Function.update areas tid none) =
      withSlots (references areas) tid fun _ => none := by
  funext ⟨owner, slot⟩
  by_cases same : owner = tid
  · subst same
    simp [references]
  · simp [references, withSlots, same]

theorem references_of_areas {areas : Tid → Option Tls} {tls : Tls} (area : areas tid = some tls) :
    references areas = withSlots (references areas) tid fun index => tls.pages[index]? := by
  rw [← references_update, ← area, Function.update_eq_self]

theorem references_of_none {areas : Tid → Option Tls} (area : areas tid = none) :
    references areas = withSlots (references areas) tid fun _ => none := by
  rw [← references_remove, ← area, Function.update_eq_self]

end WithSlots

/-- What a loop over pages leaves alone. -/
structure Untouched (state after : State) : Prop where
  initialized : after.initialized = state.initialized
  pageSize : after.pageSize = state.pageSize
  hashTable : after.hashTable = state.hashTable
  elements : after.elements = state.elements
  nextElement : after.nextElement = state.nextElement

theorem Untouched.trans {middle : State} (first : Untouched state middle)
    (second : Untouched middle after) : Untouched state after where
  initialized := second.initialized.trans first.initialized
  pageSize := second.pageSize.trans first.pageSize
  hashTable := second.hashTable.trans first.hashTable
  elements := second.elements.trans first.elements
  nextElement := second.nextElement.trans first.nextElement

theorem forSlots_eq {pages : List PagePtr} {body : State → PagePtr → Outcome State} :
    forSlots pages body pages.length state = pages.foldlM body state := by
  induction pages generalizing state with
  | nil => rfl
  | cons p rest inductionHypothesis =>
      have shifted : ∀ state : State,
          (List.range rest.length).foldlM (fun state i => do
            body state (← State.slot (p :: rest) (i + 1))) state =
          forSlots rest body rest.length state := fun state => rfl
      rw [forSlots, List.length_cons, List.range_succ_eq_map, List.foldlM_cons,
        List.foldlM_cons]
      simp only [List.foldlM_map, shifted, inductionHypothesis]
      rfl

namespace Backed

theorem page_of (backed : Backed state target) (pointing : target ref = some p) :
    ∃ page frame, state.pages p = some page ∧ state.memory page.address = some frame ∧
      state.frameOf p = some frame := by
  have counts := backed.counted.counts _ _ pointing
  rw [State.refCount, Option.map_eq_some_iff] at counts
  obtain ⟨page, allocated, -⟩ := counts
  obtain ⟨frame, mapped⟩ := backed.mapped _ _ allocated
  exact ⟨page, frame, allocated, mapped, by simp [State.frameOf, allocated, mapped]⟩

theorem ne_nextPage (backed : Backed state target) (pointing : target ref = some p) :
    p ≠ state.nextPage := by
  obtain ⟨page, frame, allocated, -⟩ := backed.page_of pointing
  exact (backed.below _ _ allocated).ne

theorem of_mapped (backed : Backed state target) (pages : after.pages = state.pages)
    (nextPage : after.nextPage = state.nextPage)
    (mapped : ∀ address frame, state.memory address = some frame →
      ∃ frame', after.memory address = some frame') : Backed after target where
  counted := by
    have same : after.refCount = state.refCount := by
      funext p
      simp [State.refCount, pages]
    simpa only [same] using backed.counted
  mapped p page allocated := by
    obtain ⟨frame, here⟩ := backed.mapped p page (by simpa only [pages] using allocated)
    exact mapped _ _ here
  apart := by simpa only [pages] using backed.apart
  below := by simpa only [pages, nextPage] using backed.below
  separate := backed.separate

end Backed

/-! ## mprotect -/

def reprotect (memory : PageMemory) (addresses : List Address) (prot : Prot) : PageMemory :=
  fun address =>
    if address ∈ addresses then (memory address).map fun frame => { frame with prot }
    else memory address

def State.addresses (state : State) (pages : List PagePtr) : List Address :=
  pages.filterMap fun p => (state.pages p).map (·.address)

theorem reprotect_reprotect (memory : PageMemory) (first second : List Address) (prot : Prot) :
    reprotect (reprotect memory first prot) second prot =
      reprotect memory (first ++ second) prot := by
  funext address
  unfold reprotect
  by_cases inFirst : address ∈ first <;> by_cases inSecond : address ∈ second <;>
    simp [inFirst, inSecond, Option.map_map, Function.comp_def]

theorem update_eq_reprotect {memory : PageMemory} (mapped : memory address = some frame)
    (prot : Prot) :
    Function.update memory address (some { frame with prot }) =
      reprotect memory [address] prot := by
  funext other
  by_cases same : other = address
  · subst same
    simp [reprotect, mapped]
  · simp [reprotect, same]

theorem changeProt_eq (prot : Prot) (allocated : state.pages p = some page)
    (mapped : state.memory page.address = some frame) :
    changeProt prot state p =
      .ok { state with memory := reprotect state.memory [page.address] prot } := by
  have reached : state.page p = .ok page := (state.page_eq_ok_iff).mpr allocated
  simp only [changeProt, reached, bind, Except.bind, mprotect, mapped, Option.map_some,
    update_eq_reprotect mapped]

theorem changeProt_loop (prot : Prot) {pages : List PagePtr}
    (usable : ∀ p ∈ pages, ∃ page frame, state.pages p = some page ∧
      state.memory page.address = some frame) :
    pages.foldlM (changeProt prot) state =
      .ok { state with memory := reprotect state.memory (state.addresses pages) prot } := by
  induction pages generalizing state with
  | nil =>
      have unchanged : reprotect state.memory [] prot = state.memory := by
        funext address
        simp [reprotect]
      simp [State.addresses, unchanged, pure, Except.pure]
  | cons p rest inductionHypothesis =>
      obtain ⟨page, frame, allocated, mapped⟩ := usable p List.mem_cons_self
      rw [List.foldlM_cons, changeProt_eq prot allocated mapped]
      simp only [bind, Except.bind]
      rw [inductionHypothesis]
      · have addresses : state.addresses (p :: rest) = [page.address] ++ state.addresses rest := by
          simp [State.addresses, allocated]
        simp only [addresses, ← reprotect_reprotect]
        rfl
      · intro q membership
        obtain ⟨page', frame', allocated', mapped'⟩ := usable q (List.mem_cons_of_mem _ membership)
        refine ⟨page', ?_⟩
        by_cases touched : page'.address = page.address
        · exact ⟨{ frame' with prot }, allocated', by simp [reprotect, ← touched, mapped']⟩
        · exact ⟨frame', allocated', by simp [reprotect, touched, mapped']⟩

theorem Backed.reprotected (backed : Backed state target) (addresses : List Address) (prot : Prot) :
    Backed { state with memory := reprotect state.memory addresses prot } target := by
  refine backed.of_mapped rfl rfl ?_
  intro address frame mapped
  by_cases touched : address ∈ addresses
  · exact ⟨{ frame with prot }, by simp [reprotect, touched, mapped]⟩
  · exact ⟨frame, by simp [reprotect, touched, mapped]⟩

theorem bytes_reprotect (addresses : List Address) (prot : Prot) (p : PagePtr) :
    (({ state with memory := reprotect state.memory addresses prot } : State).frameOf p).map
      (·.bytes) = (state.frameOf p).map (·.bytes) := by
  cases allocated : state.pages p with
  | none => simp [State.frameOf, allocated]
  | some page =>
      by_cases touched : page.address ∈ addresses
      · simp [State.frameOf, allocated, reprotect, touched, Function.comp_def]
      · simp [State.frameOf, allocated, reprotect, touched]

/-! ## tls_create -/

namespace Backed

theorem addedPage (backed : Backed state target) (unmapped : state.memory address = none)
    (frame : Frame) :
    Backed (addPage state address (Function.update state.memory address (some frame))) target where
  counted := by
    refine backed.counted.congr ?_
    intro ref p pointing
    simp [State.refCount, addPage, backed.ne_nextPage pointing]
  mapped p page allocated := by
    by_cases same : page.address = address
    · exact ⟨frame, by simp [addPage, same]⟩
    · have old : state.pages p = some page := by
        by_cases fresh : p = state.nextPage
        · subst fresh
          simp only [addPage, Function.update_self, Option.some.injEq] at allocated
          exact absurd (by rw [← allocated]) same
        · simpa [addPage, fresh] using allocated
      obtain ⟨frame', mapped⟩ := backed.mapped _ _ old
      exact ⟨frame', by simpa [addPage, same] using mapped⟩
  apart p q page other allocated otherAllocated same := by
    have away : ∀ q other, state.pages q = some other → other.address ≠ address := by
      rintro q other old rfl
      obtain ⟨frame', mapped⟩ := backed.mapped _ _ old
      simp [unmapped] at mapped
    by_cases first : p = state.nextPage <;> by_cases second : q = state.nextPage
    · rw [first, second]
    · simp only [addPage, first, second, Function.update_self, Option.some.injEq,
        ne_eq, not_false_eq_true, Function.update_of_ne] at allocated otherAllocated
      rw [← allocated] at same
      exact absurd same.symm (away _ _ otherAllocated)
    · simp only [addPage, first, second, Function.update_self, Option.some.injEq,
        ne_eq, not_false_eq_true, Function.update_of_ne] at allocated otherAllocated
      rw [← otherAllocated] at same
      exact absurd same (away _ _ allocated)
    · simp only [addPage, first, second, ne_eq, not_false_eq_true,
        Function.update_of_ne] at allocated otherAllocated
      exact backed.apart _ _ _ _ allocated otherAllocated same
  below p page allocated := by
    by_cases fresh : p = state.nextPage
    · subst fresh
      exact Nat.lt_succ_self _
    · refine Nat.lt_succ_of_lt (backed.below p page ?_)
      simpa [addPage, fresh] using allocated
  separate := backed.separate

theorem frameOf_addPage (backed : Backed state target) (unmapped : state.memory address = none)
    (new : Frame) (pointing : target ref = some p) :
    (addPage state address
      (Function.update state.memory address (some new))).frameOf p = state.frameOf p := by
  obtain ⟨page, frame, allocated, mapped, -⟩ := backed.page_of pointing
  have distinct : page.address ≠ address := by
    rintro rfl
    simp [unmapped] at mapped
  simp [State.frameOf, addPage, backed.ne_nextPage pointing, allocated, distinct]

theorem adoptPage (backed : Backed state target) (unmapped : state.memory address = none)
    (frame : Frame) {index : Nat} (unset : target (tid, index) = none) :
    Backed (addPage state address (Function.update state.memory address (some frame)))
      (Function.update target (tid, index) (some state.nextPage)) := by
  have added := backed.addedPage unmapped frame
  have fresh : ∀ other, target other ≠ some state.nextPage := by
    intro other pointing
    exact backed.ne_nextPage pointing rfl
  refine ⟨?_, added.mapped, added.apart, added.below, backed.separate.update fun j => fresh _⟩
  refine (backed.counted.adopt unset fresh).congr ?_
  intro place p pointing
  by_cases same : p = state.nextPage
  · subst same
    simp [State.refCount, addPage]
  · simp [State.refCount, addPage, same]

end Backed

theorem Kernel.mmap_cases (kernel : Kernel) (memory : PageMemory) (prot : Prot) :
    kernel.mmap memory prot = none ∨ ∃ address, memory address = none ∧
      kernel.mmap memory prot =
        some (address, Function.update memory address (some { bytes := fun _ => 0, prot })) := by
  cases placed : kernel.place memory with
  | none => exact .inl (by simp [Kernel.mmap, placed])
  | some address =>
      exact .inr ⟨address, kernel.place_unmapped _ _ placed, by simp [Kernel.mmap, placed]⟩

/-- The page loop of `tls_create` does not disturb the references that exist. -/
theorem createPages_frame (kernel : Kernel) (count : Nat) (backed : Backed state target) :
    Untouched state (createPages kernel count state).2 ∧
      Backed (createPages kernel count state).2 target ∧
      ∀ ref p, target ref = some p →
        (createPages kernel count state).2.frameOf p = state.frameOf p := by
  induction count generalizing state with
  | zero => exact ⟨⟨rfl, rfl, rfl, rfl, rfl⟩, backed, fun _ _ _ => rfl⟩
  | succ count inductionHypothesis =>
      rcases kernel.mmap_cases state.memory .none with failed | ⟨address, unmapped, mapped⟩
      · simp only [createPages, failed]
        exact ⟨⟨rfl, rfl, rfl, rfl, rfl⟩, backed, fun _ _ _ => trivial⟩
      · obtain ⟨untouched, later, frames⟩ :=
          inductionHypothesis (backed.addedPage unmapped { bytes := fun _ => 0, prot := .none })
        have first : Untouched state (addPage state address (Function.update state.memory address
            (some { bytes := fun _ => 0, prot := .none }))) := ⟨rfl, rfl, rfl, rfl, rfl⟩
        have same : (createPages kernel (count + 1) state).2 =
            (createPages kernel count (addPage state address (Function.update state.memory address
              (some { bytes := fun _ => 0, prot := .none })))).2 := by
          simp only [createPages, mapped]
          split <;> simp_all
        rw [same]
        refine ⟨first.trans untouched, later, ?_⟩
        intro ref p pointing
        exact (frames ref p pointing).trans (backed.frameOf_addPage unmapped _ pointing)

/-- When every `mmap` succeeds, the loop hands out as many pages as asked for; they are zeroed
and inaccessible, and become the slots behind those that the thread already has. -/
theorem createPages_some (kernel : Kernel) {count : Nat} {pages done : List PagePtr}
    (backed : Backed state (withSlots target tid fun index => done[index]?))
    (created : createPages kernel count state = (some pages, after)) :
    pages.length = count ∧
      Backed after (withSlots target tid fun index => (done ++ pages)[index]?) ∧
      ∀ p ∈ pages, after.frameOf p = some { bytes := fun _ => 0, prot := .none } := by
  induction count generalizing state pages done with
  | zero =>
      simp only [createPages, Prod.mk.injEq, Option.some.injEq] at created
      obtain ⟨rfl, rfl⟩ := created
      exact ⟨rfl, by simpa using backed, by simp⟩
  | succ count inductionHypothesis =>
      rcases kernel.mmap_cases state.memory .none with failed | ⟨address, unmapped, mapped⟩
      · simp [createPages, failed] at created
      · simp only [createPages, mapped] at created
        split at created
        next => simp at created
        next rest later tail =>
          simp only [Prod.mk.injEq, Option.some.injEq] at created
          obtain ⟨rfl, rfl⟩ := created
          have unset : withSlots target tid (fun index => done[index]?) (tid, done.length) =
              none := by simp
          have adopted := backed.adoptPage unmapped { bytes := fun _ => 0, prot := .none } unset
          rw [update_withSlots, update_getElem?] at adopted
          obtain ⟨length, backedAfter, zeroed⟩ := inductionHypothesis adopted tail
          refine ⟨by simp [length], by simpa using backedAfter, ?_⟩
          intro p membership
          rcases List.mem_cons.mp membership with rfl | inRest
          · have pointing : withSlots target tid
                (fun index => (done ++ [state.nextPage])[index]?) (tid, done.length) =
                some state.nextPage := by simp
            have kept := (createPages_frame kernel count adopted).2.2 _ _ pointing
            rw [tail] at kept
            rw [kept]
            simp [State.frameOf, addPage]
          · exact zeroed p inRest

/-! ## tls_clone -/

def State.recount (state : State) (p : PagePtr) (page : Page) (number : Int) : State :=
  { state with pages := Function.update state.pages p (some { page with refCount := number }) }

theorem sharePage_eq (allocated : state.pages p = some page) :
    sharePage state p = .ok (state.recount p page (page.refCount + 1)) := by
  have reached : state.page p = .ok page := (state.page_eq_ok_iff).mpr allocated
  simp only [sharePage, reached, bind, Except.bind]
  rfl

theorem frameOf_recount (allocated : state.pages p = some page) (number : Int) :
    (state.recount p page number).frameOf = state.frameOf := by
  funext q
  by_cases same : q = p
  · subst same
    simp [State.frameOf, State.recount, allocated]
  · simp [State.frameOf, State.recount, same]

theorem refCount_recount (number : Int) :
    (state.recount p page number).refCount =
      Function.update state.refCount p (some number) := by
  funext q
  by_cases same : q = p
  · subst same
    simp [State.refCount, State.recount]
  · simp [State.refCount, State.recount, same]

namespace Backed

theorem recount (backed : Backed state target) (allocated : state.pages p = some page)
    {number : Int} {target' : Reference → Option PagePtr}
    (counted : Counted target' (Function.update state.refCount p (some number)))
    (separate : Separate target') : Backed (state.recount p page number) target' := by
  have earlier : ∀ q other, (state.recount p page number).pages q = some other →
      ∃ old, state.pages q = some old ∧ old.address = other.address := by
    intro q other here
    by_cases same : q = p
    · subst same
      simp only [State.recount, Function.update_self, Option.some.injEq] at here
      exact ⟨page, allocated, by rw [← here]⟩
    · exact ⟨other, by simpa [State.recount, same] using here, rfl⟩
  refine ⟨?_, ?_, ?_, ?_, separate⟩
  · rwa [refCount_recount]
  · intro q other here
    obtain ⟨old, before, same⟩ := earlier q other here
    rw [← same]
    exact backed.mapped q old before
  · intro q r other other' here there equal
    obtain ⟨old, before, same⟩ := earlier q other here
    obtain ⟨old', before', same'⟩ := earlier r other' there
    exact backed.apart q r old old' before before' (by rw [same, same', equal])
  · intro q other here
    obtain ⟨old, before, -⟩ := earlier q other here
    exact backed.below q old before

theorem share (backed : Backed state target) (allocated : state.pages p = some page)
    {index : Nat} (unset : target (tid, index) = none) (pointing : target ref = some p)
    (new : ∀ j, target (tid, j) ≠ some p) :
    Backed (state.recount p page (page.refCount + 1))
      (Function.update target (tid, index) (some p)) := by
  have counter : state.refCount p = some page.refCount := by
    simp [State.refCount, allocated]
  exact backed.recount allocated (backed.counted.share unset pointing counter)
    (backed.separate.update new)

end Backed

theorem sharePages {source : Tid} {done rest : List PagePtr} (other : source ≠ tid)
    (backed : Backed state (withSlots target tid fun index => done[index]?))
    (shared : ∀ index, target (source, index) = (done ++ rest)[index]?) :
    ∃ after, rest.foldlM sharePage state = .ok after ∧ Untouched state after ∧
      after.memory = state.memory ∧ after.frameOf = state.frameOf ∧
      Backed after (withSlots target tid fun index => (done ++ rest)[index]?) := by
  induction rest generalizing state done with
  | nil =>
      exact ⟨state, rfl, ⟨rfl, rfl, rfl, rfl, rfl⟩, rfl, rfl, by simpa using backed⟩
  | cons p rest inductionHypothesis =>
      have held : ∀ index, withSlots target tid (fun index => done[index]?) (source, index) =
          (done ++ p :: rest)[index]? := fun index => by
        rw [withSlots_of_ne other, shared]
      have pointing : withSlots target tid (fun index => done[index]?) (source, done.length) =
          some p := by
        rw [held]
        simp
      obtain ⟨page, frame, allocated, -⟩ := backed.page_of pointing
      have unset : withSlots target tid (fun index => done[index]?) (tid, done.length) = none := by
        simp
      have new : ∀ j, withSlots target tid (fun index => done[index]?) (tid, j) ≠ some p := by
        intro j again
        rw [withSlots_self] at again
        have inside : j < done.length := (List.getElem?_eq_some_iff.mp again).1
        have earlier : withSlots target tid (fun index => done[index]?) (source, j) = some p := by
          rw [held, List.getElem?_append_left inside, again]
        exact absurd (backed.separate _ _ _ _ earlier pointing) inside.ne
      have moved := backed.share allocated unset pointing new
      rw [update_withSlots, update_getElem?] at moved
      obtain ⟨after, run, untouched, memory, frames, backedAfter⟩ :=
        inductionHypothesis moved (by simpa using shared)
      have first : Untouched state (state.recount p page (page.refCount + 1)) :=
        ⟨rfl, rfl, rfl, rfl, rfl⟩
      refine ⟨after, ?_, first.trans untouched, memory, ?_, ?_⟩
      · rw [List.foldlM_cons, sharePage_eq allocated]
        exact run
      · rw [frames, frameOf_recount allocated]
      · simpa using backedAfter

/-! ## tls_destroy -/

def State.freed (state : State) (p : PagePtr) (page : Page) : State :=
  { state with
    memory := munmap state.memory page.address
    pages := Function.update state.pages p none }

theorem releasePage_eq (allocated : state.pages p = some page) (positive : 0 < page.refCount) :
    releasePage state p = .ok (if page.refCount = 1 then state.freed p page
      else state.recount p page (page.refCount - 1)) := by
  have reached : state.page p = .ok page := (state.page_eq_ok_iff).mpr allocated
  simp only [releasePage, reached, bind, Except.bind]
  split_ifs with single several
  · rfl
  · rfl
  · omega

namespace Backed

/-- Giving up a slot frees its page exactly if no other slot refers to it. -/
theorem release (backed : Backed state target) (pointing : target ref = some p) :
    ∃ after, releasePage state p = .ok after ∧ Untouched state after ∧
      Backed after (Function.update target ref none) ∧
      ∀ other q, other ≠ ref → target other = some q → after.frameOf q = state.frameOf q := by
  obtain ⟨page, frame, allocated, mapped, -⟩ := backed.page_of pointing
  have counter : state.refCount p = some page.refCount := by simp [State.refCount, allocated]
  have positive := backed.counted.pos pointing counter
  have separate := backed.separate.unset ref
  rw [releasePage_eq allocated positive]
  by_cases single : page.refCount = 1
  · rw [if_pos single]
    have remaining : ∀ q other, (state.freed p page).pages q = some other →
        q ≠ p ∧ state.pages q = some other := by
      intro q other here
      have distinct : q ≠ p := by
        rintro rfl
        simp [State.freed] at here
      exact ⟨distinct, by simpa [State.freed, distinct] using here⟩
    have away : ∀ q other, q ≠ p → state.pages q = some other →
        other.address ≠ page.address :=
      fun q other distinct before same => distinct (backed.apart q p other page before allocated same)
    refine ⟨_, rfl, ⟨rfl, rfl, rfl, rfl, rfl⟩, ⟨?_, ?_, ?_, ?_, separate⟩, ?_⟩
    · have counts := backed.counted.forget pointing counter single.le none
      have same : (state.freed p page).refCount = Function.update state.refCount p none := by
        funext q
        by_cases here : q = p
        · simp [State.refCount, State.freed, here]
        · simp [State.refCount, State.freed, here]
      rwa [same]
    · intro q other here
      obtain ⟨distinct, before⟩ := remaining q other here
      obtain ⟨frame', mapped'⟩ := backed.mapped q other before
      exact ⟨frame', by simpa [State.freed, munmap, away q other distinct before] using mapped'⟩
    · intro q r other other' here there same
      exact backed.apart q r other other' (remaining q other here).2 (remaining r other' there).2
        same
    · intro q other here
      exact backed.below q other (remaining q other here).2
    · intro place q elsewhere here
      have distinct : q ≠ p := by
        rintro rfl
        exact elsewhere (backed.counted.unique counter single.le here pointing)
      obtain ⟨other, frame', before, -⟩ := backed.page_of here
      simp [State.frameOf, State.freed, munmap, distinct, before, away q other distinct before]
  · rw [if_neg single]
    refine ⟨_, rfl, ⟨rfl, rfl, rfl, rfl, rfl⟩, ?_, ?_⟩
    · exact backed.recount allocated (backed.counted.drop pointing counter) separate
    · intro place q _ _
      rw [frameOf_recount allocated]

end Backed

/-- The loop of `tls_destroy`: the references of the thread go, those of the others stay. -/
theorem releasePages {done rest : List PagePtr}
    (backed : Backed state (withSlots target tid fun index =>
      if index < done.length then none else (done ++ rest)[index]?)) :
    ∃ after, rest.foldlM releasePage state = .ok after ∧ Untouched state after ∧
      Backed after (withSlots target tid fun _ => none) ∧
      ∀ ref q, ref.1 ≠ tid → target ref = some q → after.frameOf q = state.frameOf q := by
  induction rest generalizing state done with
  | nil =>
      have gone : (fun index => if index < done.length then none else (done ++ [])[index]?) =
          fun _ : Nat => (none : Option PagePtr) := by
        funext index
        split
        next => rfl
        next beyond => simpa using beyond
      rw [gone] at backed
      exact ⟨state, rfl, ⟨rfl, rfl, rfl, rfl, rfl⟩, backed, fun _ _ _ _ => rfl⟩
  | cons p rest inductionHypothesis =>
      have pointing : withSlots target tid (fun index =>
          if index < done.length then none else (done ++ p :: rest)[index]?)
          (tid, done.length) = some p := by
        simp
      obtain ⟨middle, released, untouched, backedMiddle, frames⟩ := backed.release pointing
      have shifted : Function.update (fun index =>
          if index < done.length then none else (done ++ p :: rest)[index]?) done.length none =
          fun index =>
            if index < (done ++ [p]).length then none else ((done ++ [p]) ++ rest)[index]? := by
        funext index
        by_cases last : index = done.length
        · simp [last]
        · by_cases before : index < done.length
          · have within : index < done.length + 1 := by omega
            simp [last, before, within]
          · have beyond : ¬index < done.length + 1 := by omega
            simp [last, before, beyond]
      rw [update_withSlots, shifted] at backedMiddle
      obtain ⟨after, run, untouchedAfter, backedAfter, framesAfter⟩ :=
        inductionHypothesis backedMiddle
      refine ⟨after, ?_, untouched.trans untouchedAfter, backedAfter, ?_⟩
      · rw [List.foldlM_cons, released]
        exact run
      · intro ref q elsewhere here
        rw [framesAfter ref q elsewhere here]
        refine frames ref q ?_ (by rw [withSlots_of_ne elsewhere, here])
        rintro rfl
        exact elsewhere rfl

end EC440.LocalStorage
