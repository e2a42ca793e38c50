import EC440.LocalStorage.Bounds

/-!
# The handler of page faults

`tls_handle_page_fault` looks for the page of the fault among the pages of all
areas.  It keeps the start of that page in an `int`, which is extended again
when it is compared with the `unsigned long int` of a page.
-/

namespace EC440.LocalStorage

open Linked Outcome

variable {machine : Machine} {state : State} {buckets : Bucket → List ElementPtr}
  {place : Tid → Option ElementPtr} {element : HashElement} {siAddr address : Address}

/-! ## tls_handle_page_fault -/

/-- The signals that the handler is installed for. -/
inductive Signal where
  | sigsegv
  | sigbus
  deriving DecidableEq, Repr

inductive Handler where
  /-- `SIG_DFL` -/
  | default
  | tlsHandlePageFault
  deriving DecidableEq, Repr

inductive Ending where
  /-- `pthread_exit(NULL)` -/
  | threadExits
  /-- `raise(sig)` -/
  | raises (sig : Signal)
  deriving DecidableEq, Repr

/-- The end of the handler, with the handlers that it leaves installed. -/
structure Handled where
  ending : Ending
  handlers : Signal → Handler

/-- `((unsigned long int)si->si_addr) & ~(page_size - 1)`, as an `int` -/
def pFault (pageSize : Int32) (siAddr : Address) : Int32 :=
  (siAddr &&& (~~~(pageSize - 1)).toInt64.toUInt64).toUInt32.toInt32

/-- `p_fault == page->address`, in `unsigned long int` -/
def faultsIn (pFault : Int32) (page : Page) : Bool :=
  pFault.toInt64.toUInt64 = page.address

def searchPages (state : State) (pFault : Int32) (workingTls : Tls) : Outcome Bool :=
  (List.range workingTls.pageNum.toNat).anyM fun j => do
    let page ← state.page (← State.slot workingTls.pages j)
    .ok (faultsIn pFault page)

def searchElements (state : State) (pFault : Int32) : Nat → Option ElementPtr → Outcome Bool
  | 0, _ => .error .diverges
  | _ + 1, none => .ok false
  | fuel + 1, some element => do
      let element ← state.element element
      if ← searchPages state pFault element.tls then
        .ok true
      else
        searchElements state pFault fuel element.next

def searchTable (state : State) (pFault : Int32) : Outcome Bool :=
  (List.finRange hashSize).anyM fun i =>
    searchElements state pFault (state.nextElement + 1) (state.hashTable i)

def tlsHandlePageFault (state : State) (handlers : Signal → Handler) (sig : Signal)
    (siAddr : Address) : Outcome Handled := do
  if ← searchTable state (pFault state.pageSize siAddr) then
    .ok { ending := .threadExits, handlers }
  else
    let handlers := Function.update handlers .sigsegv .default
    let handlers := Function.update handlers .sigbus .default
    .ok { ending := .raises sig, handlers }

/-! ## The start of a page -/

def pageStart (machine : Machine) (address : Address) : Address :=
  UInt64.ofNat (address.toNat / machine.pageSize * machine.pageSize)

/-- An address stored in an `int` and extended again. -/
def throughInt (address : Address) : Address := address.toUInt32.toInt32.toInt64.toUInt64

theorem pageStart_toNat (machine : Machine) (address : Address) :
    (pageStart machine address).toNat = address.toNat / machine.pageSize * machine.pageSize := by
  rw [pageStart, UInt64.toNat_ofNat']
  exact Nat.mod_eq_of_lt (lt_of_le_of_lt (Nat.div_mul_le_self ..) address.toNat_lt)

/-- `~(page_size - 1)`, extended to `unsigned long int` -/
theorem mask_bits (machine : Machine) {shift : Nat} (upper : shift < 31)
    (size : machine.pageSize = 2 ^ shift) :
    (~~~(machine.pageSizeInt - 1)).toInt64.toUInt64.toBitVec =
      ~~~(BitVec.ofNat 64 (2 ^ shift - 1)) := by
  have less : machine.pageSizeInt - 1 = Int32.ofNat (2 ^ shift - 1) := by
    have sum : Int32.ofNat (2 ^ shift - 1) + 1 = machine.pageSizeInt := by
      rw [Machine.pageSizeInt, size, ← Nat.sub_add_cancel (Nat.two_pow_pos shift),
        Int32.ofNat_add]
      rfl
    rw [← sum, Int32.add_sub_cancel]
  have positive : (BitVec.ofNat 32 (2 ^ shift - 1)).msb = false := by
    rw [BitVec.msb_eq_getLsbD_last, BitVec.getLsbD_ofNat, Nat.testBit_two_pow_sub_one]
    simp
    omega
  have extended : (~~~(machine.pageSizeInt - 1)).toInt64.toUInt64.toBitVec =
      (~~~(BitVec.ofNat 32 (2 ^ shift - 1))).signExtend 64 := by
    rw [less]
    rfl
  rw [extended, BitVec.signExtend_not (by decide),
    BitVec.signExtend_eq_setWidth_of_msb_false positive]
  congr 1
  apply BitVec.eq_of_toNat_eq
  have small : 2 ^ shift < 2 ^ 31 := Nat.pow_lt_pow_right (by decide) upper
  simp
  omega

theorem mask_eq (machine : Machine) (siAddr : Address) :
    siAddr &&& (~~~(machine.pageSizeInt - 1)).toInt64.toUInt64 = pageStart machine siAddr := by
  rcases machine.power with ⟨shift, -, upper, size⟩
  apply UInt64.toBitVec_inj.mp
  apply BitVec.eq_of_getLsbD_eq
  intro i inside
  rw [UInt64.toBitVec_and, mask_bits machine upper size, BitVec.getLsbD_and, BitVec.getLsbD_not,
    BitVec.getLsbD_ofNat, Nat.testBit_two_pow_sub_one]
  change (siAddr.toNat.testBit i && _) = (pageStart machine siAddr).toNat.testBit i
  rw [pageStart_toNat, size, Nat.testBit_mul_two_pow, Nat.testBit_div_two_pow]
  by_cases high : shift ≤ i
  · have notLow : ¬i < shift := not_lt.mpr high
    simp [high, inside, notLow]
  · have low : i < shift := not_le.mp high
    simp [high, inside, low]

/-- What the handler compares with the pages. -/
theorem pFault_eq (machine : Machine) (siAddr : Address) :
    (pFault machine.pageSizeInt siAddr).toInt64.toUInt64 =
      throughInt (pageStart machine siAddr) := by
  rw [pFault, mask_eq]
  rfl

/-- An `int` keeps the addresses of the lowest and of the highest 2 GiB. -/
theorem throughInt_eq_self_iff (address : Address) :
    throughInt address = address ↔
      address.toNat < 2 ^ 31 ∨ 2 ^ 64 - 2 ^ 31 ≤ address.toNat := by
  have bits : (throughInt address).toNat =
      ((address.toBitVec.setWidth 32).signExtend 64).toNat := rfl
  rw [← UInt64.toNat_inj, bits, BitVec.toNat_signExtend]
  have range := address.toNat_lt
  have low : (address.toBitVec.setWidth 32).toNat = address.toNat % 2 ^ 32 := by
    rw [BitVec.toNat_setWidth]
    rfl
  have top : (address.toBitVec.setWidth 32).msb = decide (2 ^ 31 ≤ address.toNat % 2 ^ 32) := by
    rw [BitVec.msb_eq_decide, low]
  rw [BitVec.toNat_setWidth, low, top]
  by_cases negative : 2 ^ 31 ≤ address.toNat % 2 ^ 32
  · simp only [negative, decide_true, if_true]
    omega
  · simp only [negative, decide_false]
    simp
    omega

/-! ## Searching the table -/

/-- A hash table of areas, with the pages of every area allocated at page-aligned addresses. -/
structure Listed (machine : Machine) (state : State) (buckets : Bucket → List ElementPtr)
    (place : Tid → Option ElementPtr) : Prop where
  table : Tabled state buckets place
  length : ∀ tid tls, state.areaAt place tid = some tls → tls.pages.length = tls.pageNum.toNat
  allocated : ∀ tid tls, state.areaAt place tid = some tls → ∀ p ∈ tls.pages,
    ∃ page, state.pages p = some page ∧ machine.pageSize ∣ page.address.toNat
  pageSize : state.pageSize = machine.pageSizeInt

/-- A page of an area of some thread starts at the address. -/
def LivePage (state : State) (address : Address) : Prop :=
  ∃ tid tls p page, state.area tid = some tls ∧ p ∈ tls.pages ∧ state.pages p = some page ∧
    page.address = address

def InArea (machine : Machine) (state : State) (address : Address) : Prop :=
  ∃ tid tls p page, state.area tid = some tls ∧ p ∈ tls.pages ∧ state.pages p = some page ∧
    page.address.toNat ≤ address.toNat ∧ address.toNat < page.address.toNat + machine.pageSize

theorem anyM_eq {α : Type} {test : α → Outcome Bool} {matching : α → Bool} {items : List α}
    (tests : ∀ item ∈ items, test item = .ok (matching item)) :
    items.anyM test = .ok (items.any matching) := by
  induction items with
  | nil => rfl
  | cons item rest inductionHypothesis =>
      have later := inductionHypothesis fun other membership =>
        tests other (List.mem_cons_of_mem _ membership)
      rw [List.anyM, tests item List.mem_cons_self, List.any_cons]
      cases matching item with
      | true => rfl
      | false => exact later

def matchesPage (state : State) (pFault : Int32) (p : PagePtr) : Bool :=
  (state.pages p).any (faultsIn pFault)

def matchesElement (state : State) (pFault : Int32) (pointer : ElementPtr) : Bool :=
  (state.elements pointer).any fun element => element.tls.pages.any (matchesPage state pFault)

namespace Listed

variable {pFault : Int32}

theorem searchPages_eq (listed : Listed machine state buckets place) {tid : Tid} {tls : Tls}
    (area : state.areaAt place tid = some tls) :
    searchPages state pFault tls = .ok (tls.pages.any (matchesPage state pFault)) := by
  have test : ∀ j ∈ List.range tls.pageNum.toNat,
      (do
        let page ← state.page (← State.slot tls.pages j)
        .ok (faultsIn pFault page) : Outcome Bool) =
        .ok ((tls.pages[j]?).any (matchesPage state pFault)) := by
    intro j inside
    rw [List.mem_range, ← listed.length tid tls area] at inside
    have held := List.getElem?_eq_getElem inside
    rcases listed.allocated tid tls area _ (List.getElem_mem inside) with ⟨page, allocated, -⟩
    have slot : State.slot tls.pages j = .ok tls.pages[j] := State.slot_eq_ok_iff.mpr held
    have reached : state.page tls.pages[j] = .ok page := (state.page_eq_ok_iff).mpr allocated
    simp [slot, reached, held, matchesPage, allocated, bind, Except.bind]
  rw [searchPages, anyM_eq test]
  congr 1
  rw [← listed.length tid tls area, Bool.eq_iff_iff, List.any_eq_true, List.any_eq_true]
  constructor
  · rintro ⟨j, inside, found⟩
    rw [List.mem_range] at inside
    rw [List.getElem?_eq_getElem inside, Option.any_some] at found
    exact ⟨_, List.getElem_mem inside, found⟩
  · rintro ⟨p, membership, found⟩
    rcases List.mem_iff_getElem?.mp membership with ⟨j, held⟩
    refine ⟨j, List.mem_range.mpr (List.getElem?_eq_some_iff.mp held).1, ?_⟩
    rw [held, Option.any_some, found]

theorem searchElements_eq (listed : Listed machine state buckets place) {fuel : Nat}
    {link : Option ElementPtr} {nodes : List ElementPtr}
    (chain : Chain (Naming.pointer ElementPtr) state.next link nodes)
    (placed : ∀ pointer ∈ nodes, ∃ tid, place tid = some pointer)
    (enough : nodes.length < fuel) :
    searchElements state pFault fuel link =
      .ok (nodes.any (matchesElement state pFault)) := by
  induction chain generalizing fuel with
  | stop =>
      cases fuel with
      | zero => exact absurd enough (Nat.not_lt_zero _)
      | succ fuel => rfl
  | @cons pointer nodes rest inductionHypothesis =>
      cases fuel with
      | zero => exact absurd enough (Nat.not_lt_zero _)
      | succ fuel =>
          rcases placed pointer List.mem_cons_self with ⟨tid, here⟩
          rcases listed.table.element_eq here with ⟨element, reached, -, area⟩
          have found := (state.element_eq_ok_iff).mp reached
          have later := @inductionHypothesis fuel
            (fun other membership => placed other (List.mem_cons_of_mem _ membership))
            (Nat.lt_of_succ_lt_succ enough)
          rw [State.next_eq found] at later
          simp only [Naming.pointer, searchElements, reached, listed.searchPages_eq area, bind,
            Except.bind, List.any_cons, matchesElement, found, Option.any_some]
          cases element.tls.pages.any (matchesPage state pFault) with
          | true => rfl
          | false => simpa [matchesElement] using later

theorem searchTable_eq (listed : Listed machine state buckets place) :
    searchTable state pFault = .ok ((List.finRange hashSize).any fun i =>
      (buckets i).any (matchesElement state pFault)) := by
  apply anyM_eq
  intro i _
  apply listed.searchElements_eq (listed.table.chain i)
  · intro pointer membership
    rcases (listed.table.mem_iff i pointer).mp membership with ⟨tid, -, placed⟩
    exact ⟨tid, placed⟩
  · exact Nat.lt_succ_of_le (listed.table.length_le i)

end Listed

theorem Listed.searchTable_iff (listed : Listed machine state buckets place) (pFault : Int32) :
    ∃ found, searchTable state pFault = .ok found ∧
      (found = true ↔ LivePage state pFault.toInt64.toUInt64) := by
  refine ⟨_, listed.searchTable_eq, ?_⟩
  simp only [List.any_eq_true, List.mem_finRange, true_and, matchesElement, matchesPage,
    Option.any_eq_true, faultsIn, decide_eq_true_eq]
  constructor
  · rintro ⟨i, pointer, membership, element, found, p, here, page, allocated, same⟩
    rcases (listed.table.mem_iff i pointer).mp membership with ⟨tid, -, placed⟩
    refine ⟨tid, element.tls, p, page, ?_, here, allocated, same.symm⟩
    rw [listed.table.area_eq]
    simp [State.areaAt, placed, found]
  · rintro ⟨tid, tls, p, page, area, here, allocated, same⟩
    rw [listed.table.area_eq, State.areaAt, Option.bind_eq_some_iff] at area
    rcases area with ⟨pointer, placed, area⟩
    rcases Option.map_eq_some_iff.mp area with ⟨element, found, rfl⟩
    exact ⟨bucketOf tid, pointer, listed.table.mem placed, element, found, p, here, page,
      allocated, same.symm⟩

/-! ## Classification -/

/-- Only the thread ends if the address lies in an area; otherwise the signal is raised again, with
the default handlers. -/
structure Classified (machine : Machine) (state : State) (handlers : Signal → Handler)
    (sig : Signal) (siAddr : Address) : Prop where
  inside : InArea machine state siAddr →
    tlsHandlePageFault state handlers sig siAddr = .ok { ending := .threadExits, handlers }
  outside : ¬InArea machine state siAddr →
    tlsHandlePageFault state handlers sig siAddr =
      .ok { ending := .raises sig, handlers := fun _ => .default }

/-- An aligned page holds the address exactly if the page of the address starts where it does. -/
theorem holds_iff {start : Address} (aligned : machine.pageSize ∣ start.toNat) :
    (start.toNat ≤ address.toNat ∧ address.toNat < start.toNat + machine.pageSize) ↔
      start = pageStart machine address := by
  rw [← UInt64.toNat_inj, pageStart_toNat]
  rcases aligned with ⟨slot, multiple⟩
  rw [multiple, Nat.mul_comm machine.pageSize slot]
  have positive := machine.pageSize_pos
  have division := Nat.div_add_mod' address.toNat machine.pageSize
  have remainder := Nat.mod_lt address.toNat positive
  constructor
  · rintro ⟨lower, upper⟩
    congr 1
    symm
    apply Nat.div_eq_of_lt_le lower
    rwa [Nat.succ_mul]
  · intro same
    omega

theorem Listed.inArea_iff (listed : Listed machine state buckets place) :
    InArea machine state address ↔ LivePage state (pageStart machine address) := by
  have aligned : ∀ tid tls p page, state.area tid = some tls → p ∈ tls.pages →
      state.pages p = some page → machine.pageSize ∣ page.address.toNat := by
    intro tid tls p page area membership allocated
    rw [listed.table.area_eq] at area
    rcases listed.allocated tid tls area p membership with ⟨page', allocated', aligned⟩
    rw [allocated, Option.some.injEq] at allocated'
    rwa [allocated']
  constructor
  · rintro ⟨tid, tls, p, page, area, membership, allocated, lower, upper⟩
    refine ⟨tid, tls, p, page, area, membership, allocated, ?_⟩
    exact (holds_iff (aligned tid tls p page area membership allocated)).mp ⟨lower, upper⟩
  · rintro ⟨tid, tls, p, page, area, membership, allocated, same⟩
    refine ⟨tid, tls, p, page, area, membership, allocated, ?_⟩
    exact (holds_iff (aligned tid tls p page area membership allocated)).mpr same

/-- The handler ends the thread exactly if a page starts at the address left by the `int`. -/
theorem Listed.handler_cases (listed : Listed machine state buckets place)
    (handlers : Signal → Handler) (sig : Signal) (siAddr : Address) :
    (LivePage state (throughInt (pageStart machine siAddr)) ∧
      tlsHandlePageFault state handlers sig siAddr = .ok { ending := .threadExits, handlers }) ∨
    (¬LivePage state (throughInt (pageStart machine siAddr)) ∧
      tlsHandlePageFault state handlers sig siAddr =
        .ok { ending := .raises sig, handlers := fun _ => .default }) := by
  rcases listed.searchTable_iff (pFault machine.pageSizeInt siAddr) with ⟨found, searched, live⟩
  rw [pFault_eq] at live
  rw [tlsHandlePageFault, listed.pageSize, searched]
  cases found with
  | true => exact .inl ⟨live.mp rfl, rfl⟩
  | false =>
      right
      refine ⟨fun page => Bool.false_ne_true (live.mpr page), ?_⟩
      have defaults : Function.update (Function.update handlers .sigsegv .default) .sigbus
          .default = fun _ => .default := by
        funext signal
        cases signal <;> rfl
      rw [← defaults]
      rfl

/-- The handler tells the faults apart exactly if the start of the page and what the `int` leaves
of it are both starts of pages of areas, or neither of them is. -/
theorem faultsClassified_iff (listed : Listed machine state buckets place)
    (handlers : Signal → Handler) (sig : Signal) (siAddr : Address) :
    Classified machine state handlers sig siAddr ↔
      (LivePage state (pageStart machine siAddr) ↔
        LivePage state (throughInt (pageStart machine siAddr))) := by
  rw [← listed.inArea_iff]
  have cases' := listed.handler_cases handlers sig siAddr
  constructor
  · rintro ⟨inside, outside⟩
    constructor
    · intro area
      rcases cases' with ⟨live, -⟩ | ⟨-, raised⟩
      · exact live
      · rw [inside area] at raised
        cases raised
    · intro live
      by_contra area
      rcases cases' with ⟨-, exits⟩ | ⟨dead, -⟩
      · rw [outside area] at exits
        cases exits
      · exact dead live
  · intro same
    constructor
    · intro area
      rcases cases' with ⟨-, exits⟩ | ⟨dead, -⟩
      · exact exits
      · exact absurd (same.mp area) dead
    · intro area
      rcases cases' with ⟨live, -⟩ | ⟨-, raised⟩
      · exact absurd (same.mpr live) area
      · exact raised

theorem Sound.listed (sound : Sound machine state buckets place)
    (initialized : state.initialized = true)
    (aligned : ∀ p page, state.pages p = some page → machine.pageSize ∣ page.address.toNat) :
    Listed machine state buckets place where
  table := sound.table
  length tid tls area := (sound.sized tid tls area).length
  allocated tid tls area p membership := by
    rcases List.mem_iff_getElem?.mp membership with ⟨slot, held⟩
    have pointing : references (state.areaAt place) (tid, slot) = some p := by
      simp [references, area, held]
    rcases sound.backed.page_of pointing with ⟨page, -, allocated, -⟩
    exact ⟨page, allocated, aligned p page allocated⟩
  pageSize := sound.pageSize initialized

/-- A kernel with one free page, where Linux maps pages. -/
def highPage : Kernel where
  place memory := if memory 0x7ffff7ff5000 = none then some 0x7ffff7ff5000 else none
  place_unmapped memory address placed := by
    rw [Option.ite_none_right_eq_some, Option.some.injEq] at placed
    rw [← placed.2]
    exact placed.1

theorem areaFrom_listed (kernel : Kernel) (address : Address) {replies : List Reply}
    (served : AllServed page4096 (.initial fun _ => none)
      [{ tid := 1, call := .create 1, kernel }])
    (played : play page4096 (.initial fun _ => none) [{ tid := 1, call := .create 1, kernel }] =
      .ok (replies, areaFrom kernel))
    (pages : (areaFrom kernel).pages =
      Function.update (fun _ => none) 0 (some { address, refCount := 1 }))
    (initialized : (areaFrom kernel).initialized = true) (aligned : 4096 ∣ address.toNat) :
    ∃ buckets place, Listed page4096 (areaFrom kernel) buckets place := by
  have sharing : ∀ event ∈ [({ tid := 1, call := .create 1, kernel } : Event)],
      event.call.Sharing := by
    simp [Call.Sharing]
  rcases (Quiet.initial page4096 fun _ => none).play sharing served with
    ⟨replies', final, played', buckets, place, settled⟩
  rw [played, Except.ok.injEq, Prod.mk.injEq] at played'
  rcases played' with ⟨-, rfl⟩
  refine ⟨buckets, place, settled.sound.listed initialized ?_⟩
  intro p page allocated
  rw [pages] at allocated
  by_cases first : p = 0
  · subst first
    rw [Function.update_self, Option.some.injEq] at allocated
    rw [← allocated]
    exact aligned
  · rw [Function.update_of_ne first] at allocated
    cases allocated

/-- An address in the area of a thread, below 2 GiB: the thread ends. -/
theorem faultsClassified_low :
    tlsHandlePageFault (areaFrom twoPages) (fun _ => .tlsHandlePageFault) .sigsegv 5000 =
      .ok { ending := .threadExits, handlers := fun _ => .tlsHandlePageFault } := by
  have served : AllServed page4096 (.initial fun _ => none)
      [{ tid := 1, call := .create 1, kernel := twoPages }] :=
    ⟨fun _ _ => by decide, fun _ _ _ => trivial⟩
  rcases areaFrom_listed twoPages 4096 served rfl rfl rfl (by decide) with
    ⟨buckets, place, listed⟩
  have low : throughInt (pageStart page4096 5000) = pageStart page4096 5000 := by decide
  have classified := (faultsClassified_iff listed (fun _ => .tlsHandlePageFault) .sigsegv
    5000).mpr (by rw [low])
  apply classified.inside
  exact ⟨1, _, 0, { address := 4096, refCount := 1 }, rfl, List.mem_singleton_self 0, rfl,
    by decide, by decide⟩

/-- An address in the area of a thread, where Linux maps pages: the signal is raised again. -/
theorem faultsClassified_broken :
    ¬∀ (machine : Machine) (state : State) (buckets : Bucket → List ElementPtr)
      (place : Tid → Option ElementPtr) (handlers : Signal → Handler) (sig : Signal)
      (siAddr : Address), Listed machine state buckets place →
      Classified machine state handlers sig siAddr := by
  intro always
  have served : AllServed page4096 (.initial fun _ => none)
      [{ tid := 1, call := .create 1, kernel := highPage }] :=
    ⟨fun _ _ => by decide, fun _ _ _ => trivial⟩
  rcases areaFrom_listed highPage 0x7ffff7ff5000 served rfl rfl rfl (by decide) with
    ⟨buckets, place, listed⟩
  have classified := always page4096 (areaFrom highPage) buckets place
    (fun _ => .tlsHandlePageFault) .sigsegv 0x7ffff7ff5010 listed
  have exits := classified.inside ⟨1, _, 0, { address := 0x7ffff7ff5000, refCount := 1 }, rfl,
    List.mem_singleton_self 0, rfl, by decide, by decide⟩
  cases exits

end EC440.LocalStorage
