import EC440.LocalStorage.Copies
import EC440.LocalStorage.Removal

/-!
# Tables with freed heads

A `tls_destroy` of the head of a bucket leaves the bucket pointing to a freed
element.  Every later search in that bucket stops the run; the other buckets
go on as if the head had been taken out.  So every state that a run reaches is
a sound one, up to the heads of such buckets.
-/

namespace EC440.LocalStorage

open Linked References Outcome

variable {machine : Machine} {state after : State} {buckets : Bucket → List ElementPtr}
  {place : Tid → Option ElementPtr} {tid : Tid} {pointer : ElementPtr} {element : HashElement}
  {kernel : Kernel} {table : Bucket → Option ElementPtr}

/-! ## Another hash table -/

def State.withTable (state : State) (table : Bucket → Option ElementPtr) : State :=
  { state with hashTable := table }

/-- A step that neither reads nor writes the hash table. -/
def Aside (step : State → Outcome State) : Prop :=
  ∀ state table, step (state.withTable table) = (·.withTable table) <$> step state

theorem Aside.ok {step : State → Outcome State} (aside : Aside step)
    (done : step (state.withTable table) = .ok after) :
    ∃ after', step state = .ok after' ∧ after = after'.withTable table := by
  rw [aside state table] at done
  cases here : step state with
  | error reason =>
      rw [here] at done
      cases done
  | ok after' =>
      rw [here] at done
      cases done
      exact ⟨after', rfl, rfl⟩

theorem aside_changeProt (prot : Prot) (p : PagePtr) : Aside (changeProt prot · p) := by
  intro state table
  have page : (state.withTable table).page p = state.page p := rfl
  have memory : (state.withTable table).memory = state.memory := rfl
  simp only [changeProt, page, memory]
  cases state.page p with
  | error reason => rfl
  | ok page =>
      simp only [bind, Except.bind]
      cases mprotect state.memory page.address prot <;> rfl

theorem aside_tlsUnprotect (p : PagePtr) : Aside (tlsUnprotect · p) :=
  aside_changeProt .readWrite p

theorem aside_tlsProtect (p : PagePtr) : Aside (tlsProtect · p) :=
  aside_changeProt .none p

theorem aside_storeByte (p : PagePtr) (pageOffset : Nat) (byte : UInt8) :
    Aside (storeByte · p pageOffset byte) := by
  intro state table
  have page : (state.withTable table).page p = state.page p := rfl
  have memory : (state.withTable table).memory = state.memory := rfl
  have pageSize : (state.withTable table).pageSize = state.pageSize := rfl
  simp only [storeByte, page, memory, pageSize]
  cases state.page p with
  | error reason => rfl
  | ok page =>
      simp only [bind, Except.bind]
      split
      · cases store state.memory page.address
          fun bytes => Function.update bytes pageOffset byte <;> rfl
      · rfl

theorem aside_sharePage (p : PagePtr) : Aside (sharePage · p) := by
  intro state table
  have page : (state.withTable table).page p = state.page p := rfl
  simp only [sharePage, page]
  cases state.page p <;> rfl

theorem aside_releasePage (p : PagePtr) : Aside (releasePage · p) := by
  intro state table
  have page : (state.withTable table).page p = state.page p := rfl
  simp only [releasePage, page]
  cases state.page p with
  | error reason => rfl
  | ok page =>
      simp only [bind, Except.bind]
      split
      · rfl
      · split <;> rfl

theorem aside_forSlots {body : State → PagePtr → Outcome State}
    (aside : ∀ p, Aside (body · p)) (pages : List PagePtr) (count : Nat) :
    Aside (forSlots pages body count) := by
  intro state table
  unfold forSlots
  induction List.range count generalizing state with
  | nil => rfl
  | cons i rest inductionHypothesis =>
      simp only [List.foldlM_cons]
      cases State.slot pages i with
      | error reason => rfl
      | ok p =>
          have here := aside p state table
          simp only [bind, Except.bind] at here ⊢
          rw [here]
          cases body state p with
          | error reason => rfl
          | ok middle => exact inductionHypothesis middle

theorem copyOnWrite_withTable (kernel : Kernel) (state : State)
    (table : Bucket → Option ElementPtr) (pointer : ElementPtr) (element : HashElement)
    (slot : Nat) (p : PagePtr) (page : Page) :
    copyOnWrite kernel (state.withTable table) pointer element slot p page =
      (fun result => (result.1, result.2.withTable table)) <$>
        copyOnWrite kernel state pointer element slot p page := by
  have memory : (state.withTable table).memory = state.memory := rfl
  have pageSize : (state.withTable table).pageSize = state.pageSize := rfl
  have next : (state.withTable table).nextPage = state.nextPage := rfl
  simp only [copyOnWrite, memory, pageSize, next]
  cases kernel.mmap state.memory .writeOnly with
  | none => rfl
  | some mapped =>
      rcases mapped with ⟨address, memory⟩
      simp only [bind, Except.bind]
      cases load memory page.address with
      | error reason => rfl
      | ok source =>
          simp only
          cases store memory address (copyPage state.pageSize source) with
          | error reason => rfl
          | ok memory =>
              have here := aside_changeProt .none p (replaceSlot (addPage state address memory)
                pointer element slot p page state.nextPage) table
              have same : replaceSlot (addPage (state.withTable table) address memory) pointer
                  element slot p page state.nextPage =
                  (replaceSlot (addPage state address memory) pointer element slot p page
                    state.nextPage).withTable table := rfl
              simp only [same, tlsProtect, here]
              cases changeProt .none (replaceSlot (addPage state address memory) pointer element
                slot p page state.nextPage) p <;> rfl

theorem aside_writeByte (kernel : Kernel) (pointer : ElementPtr) (indx : Int32) (byte : UInt8) :
    Aside (writeByte kernel pointer · indx byte) := by
  intro state table
  have found : (state.withTable table).element pointer = state.element pointer := rfl
  have pageSize : (state.withTable table).pageSize = state.pageSize := rfl
  have reached : ∀ p, (state.withTable table).page p = state.page p := fun _ => rfl
  simp only [writeByte, found, pageSize, reached, copyOnWrite_withTable]
  cases state.element pointer with
  | error reason => rfl
  | ok element =>
      simp only [bind, Except.bind]
      cases State.slot element.tls.pages (indx / state.pageSize).toUInt32.toNat with
      | error reason => rfl
      | ok mainPage =>
          simp only
          cases state.page mainPage with
          | error reason => rfl
          | ok main =>
              simp only
              split
              · cases copyOnWrite kernel state pointer element
                  (indx / state.pageSize).toUInt32.toNat mainPage main with
                | error reason => rfl
                | ok result => exact aside_storeByte result.1 _ byte result.2 table
              · exact aside_storeByte mainPage _ byte state table

theorem aside_writeLoop (kernel : Kernel) (pointer : ElementPtr) (limit : UInt32)
    (buffer : Buffer) (fuel i : Nat) (indx : Int32) :
    Aside (writeLoop kernel pointer limit buffer fuel · i indx) := by
  intro state table
  induction fuel generalizing state i indx with
  | zero => rfl
  | succ fuel inductionHypothesis =>
      simp only [writeLoop]
      split
      · have here := aside_writeByte kernel pointer indx (buffer i) state table
        simp only [bind, Except.bind] at here ⊢
        rw [here]
        cases writeByte kernel pointer state indx (buffer i) with
        | error reason => rfl
        | ok middle =>
            simp only [Functor.map, Except.map]
            cases increment indx with
            | error reason => rfl
            | ok next => exact inductionHypothesis (i + 1) next middle
      · rfl

theorem createPages_withTable (kernel : Kernel) (count : Nat) (state : State)
    (table : Bucket → Option ElementPtr) :
    createPages kernel count (state.withTable table) =
      ((createPages kernel count state).1, (createPages kernel count state).2.withTable table) := by
  induction count generalizing state with
  | zero => rfl
  | succ count inductionHypothesis =>
      have memory : (state.withTable table).memory = state.memory := rfl
      simp only [createPages, memory]
      cases kernel.mmap state.memory .none with
      | none => rfl
      | some mapped =>
          rcases mapped with ⟨address, memory⟩
          have added : addPage (state.withTable table) address memory =
              (addPage state address memory).withTable table := rfl
          simp only [added, inductionHypothesis]
          rcases createPages kernel count (addPage state address memory) with ⟨pages, after⟩
          cases pages <;> rfl

theorem searchFrom_withTable (state : State) (table : Bucket → Option ElementPtr) (tid : Tid)
    (fuel : Nat) (link : Option ElementPtr) :
    searchFrom (state.withTable table) tid fuel link = searchFrom state tid fuel link := by
  induction fuel generalizing link with
  | zero => rfl
  | succ fuel inductionHypothesis =>
      cases link with
      | none => rfl
      | some iter =>
          have found : (state.withTable table).element iter = state.element iter := rfl
          simp only [searchFrom, found, inductionHypothesis]

theorem findPrevious_withTable (state : State) (table : Bucket → Option ElementPtr) (tid : Tid)
    (fuel : Nat) (temp : ElementPtr) :
    findPrevious (state.withTable table) tid fuel temp = findPrevious state tid fuel temp := by
  induction fuel generalizing temp with
  | zero => rfl
  | succ fuel inductionHypothesis =>
      have found : ∀ iter, (state.withTable table).element iter = state.element iter :=
        fun _ => rfl
      simp only [findPrevious, found, inductionHypothesis]

theorem hashSearch_live (same : table (bucketOf tid) = state.hashTable (bucketOf tid)) :
    hashSearch (state.withTable table) tid = hashSearch state tid := by
  unfold hashSearch
  rw [searchFrom_withTable]
  change searchFrom state tid (state.nextElement + 1) (table (bucketOf tid)) = _
  rw [same]

theorem hashSearch_dead (head : table (bucketOf tid) = some pointer)
    (absent : state.elements pointer = none) :
    hashSearch (state.withTable table) tid = .error .useAfterFree := by
  have reached : state.element pointer = .error .useAfterFree := by
    rw [State.element, absent]
  unfold hashSearch
  rw [searchFrom_withTable]
  change searchFrom state tid (state.nextElement + 1) (table (bucketOf tid)) = _
  rw [head]
  simp only [searchFrom, reached, bind, Except.bind]

/-! ## Freed heads -/

/-- The buckets are those of the state, except that some have a freed head. -/
def FreedHeads (state : State) (table : Bucket → Option ElementPtr) : Prop :=
  ∀ index, table index = state.hashTable index ∨
    ∃ pointer, table index = some pointer ∧ state.elements pointer = none ∧
      pointer < state.nextElement

namespace FreedHeads

theorem congr (freed : FreedHeads state table) (hashTable : after.hashTable = state.hashTable)
    (nextElement : after.nextElement = state.nextElement)
    (elements : ∀ pointer, state.elements pointer = none → after.elements pointer = none) :
    FreedHeads after table := by
  intro index
  rw [hashTable, nextElement]
  refine (freed index).imp_right ?_
  rintro ⟨pointer, head, absent, old⟩
  exact ⟨pointer, head, elements pointer absent, old⟩

theorem hashSearch_cases (freed : FreedHeads state table) (tid : Tid) :
    (table (bucketOf tid) = state.hashTable (bucketOf tid) ∧
      hashSearch (state.withTable table) tid = hashSearch state tid) ∨
    hashSearch (state.withTable table) tid = .error .useAfterFree := by
  rcases freed (bucketOf tid) with same | ⟨pointer, head, absent, -⟩
  · exact .inl ⟨same, hashSearch_live same⟩
  · exact .inr (hashSearch_dead head absent)

theorem hashSearch_ok (freed : FreedHeads state table) {result : Option ElementPtr}
    (found : hashSearch (state.withTable table) tid = .ok result) :
    table (bucketOf tid) = state.hashTable (bucketOf tid) ∧ hashSearch state tid = .ok result := by
  rcases freed.hashSearch_cases tid with ⟨same, search⟩ | stopped
  · exact ⟨same, search ▸ found⟩
  · rw [stopped] at found
    cases found

theorem insert (freed : FreedHeads state table)
    (same : table (bucketOf tid) = state.hashTable (bucketOf tid)) (tls : Tls) :
    ∃ table', insertElement (state.withTable table) tid tls =
        (insertElement state tid tls).withTable table' ∧
      FreedHeads (insertElement state tid tls) table' := by
  refine ⟨Function.update table (bucketOf tid) (some state.nextElement), ?_, ?_⟩
  · have next : (state.withTable table).hashTable (bucketOf tid) =
        state.hashTable (bucketOf tid) := same
    unfold insertElement
    simp only [next]
    rfl
  · intro index
    by_cases own : index = bucketOf tid
    · subst own
      left
      rw [Function.update_self]
      exact (Function.update_self (bucketOf tid) (some state.nextElement) state.hashTable).symm
    · rw [Function.update_of_ne own]
      have others : (insertElement state tid tls).hashTable index = state.hashTable index :=
        Function.update_of_ne own _ _
      rw [others]
      refine (freed index).imp_right ?_
      rintro ⟨pointer, head, absent, old⟩
      refine ⟨pointer, head, ?_, Nat.lt_succ_of_lt old⟩
      have elements : (insertElement state tid tls).elements pointer = state.elements pointer :=
        Function.update_of_ne (Nat.ne_of_lt old) _ _
      rw [elements, absent]

end FreedHeads

/-- A sound state, up to freed heads of buckets, with areas that an `int` can index. -/
structure Repaired (machine : Machine) (state : State) (buckets : Bucket → List ElementPtr)
    (place : Tid → Option ElementPtr) (table : Bucket → Option ElementPtr) : Prop where
  sound : Sound machine state buckets place
  small : ∀ tid tls, state.areaAt place tid = some tls → tls.size.toNat < 2 ^ 31
  freed : FreedHeads state table

/-- A state that a run reaches. -/
def Repairable (machine : Machine) (state : State) : Prop :=
  ∃ repaired table buckets place, state = repaired.withTable table ∧
    Repaired machine repaired buckets place table

theorem Repairable.initial (machine : Machine) (memory : PageMemory) :
    Repairable machine (.initial memory) :=
  ⟨.initial memory, (State.initial memory).hashTable, _, _, rfl, .initial machine memory,
    by simp [State.areaAt], fun _ => .inl rfl⟩

/-! ## A head taken out -/

def State.beheaded (state : State) (tid : Tid) (pointer : ElementPtr) (element : HashElement) :
    State :=
  { state with
    elements := Function.update state.elements pointer none
    hashTable := Function.update state.hashTable (bucketOf tid) element.next }

theorem next_beheaded {node : ElementPtr} (away : node ≠ pointer) :
    (state.beheaded tid pointer element).next node = state.next node := by
  simp [State.next, State.beheaded, away]

theorem Tabled.behead (tabled : Tabled state buckets place) (placed : place tid = some pointer)
    {rest : List ElementPtr} (bucket : buckets (bucketOf tid) = pointer :: rest)
    (found : state.elements pointer = some element) :
    Tabled (state.beheaded tid pointer element) (Function.update buckets (bucketOf tid) rest)
      (Function.update place tid none) := by
  have nodup := (tabled.chain (bucketOf tid)).nodup
  rw [bucket] at nodup
  have fresh : pointer ∉ rest := (List.nodup_cons.mp nodup).1
  have elsewhere : ∀ index, index ≠ bucketOf tid → ∀ node ∈ buckets index, node ≠ pointer := by
    rintro index other node membership rfl
    exact other (tabled.bucket_unique membership (by simp [bucket]))
  constructor
  · intro index
    by_cases same : index = bucketOf tid
    · subst same
      have chain := tabled.chain (bucketOf tid)
      rw [bucket] at chain
      have tail := (Chain.cons_iff.mp chain).2
      rw [State.next_eq found] at tail
      have link : (state.beheaded tid pointer element).hashTable (bucketOf tid) =
          element.next := by
        simp [State.beheaded]
      rw [Function.update_self, link]
      exact tail.congr fun node membership =>
        next_beheaded (ne_of_mem_of_not_mem membership fresh)
    · have link : (state.beheaded tid pointer element).hashTable index =
          state.hashTable index := by
        simp [State.beheaded, same]
      rw [Function.update_of_ne same, link]
      exact (tabled.chain index).congr fun node membership =>
        next_beheaded (elsewhere index same node membership)
  · intro index node
    rw [tabled.mem_erase_iff placed]
    by_cases same : index = bucketOf tid
    · subst same
      rw [Function.update_self, bucket, List.mem_cons]
      constructor
      · intro membership
        exact ⟨.inr membership, ne_of_mem_of_not_mem membership fresh⟩
      · rintro ⟨membership, away⟩
        exact membership.resolve_left away
    · rw [Function.update_of_ne same]
      exact ⟨fun membership => ⟨membership, elsewhere index same node membership⟩, And.left⟩
  · intro other node owned
    by_cases same : other = tid
    · simp [same] at owned
    · rw [Function.update_of_ne same] at owned
      rcases tabled.element _ _ owned with ⟨element', found', matching⟩
      have away : node ≠ pointer := by
        rintro rfl
        exact same (tabled.place_injective owned placed)
      exact ⟨element', by simpa [State.beheaded, away] using found', matching⟩
  · intro other node owned
    by_cases same : other = tid
    · simp [same] at owned
    · rw [Function.update_of_ne same] at owned
      exact tabled.below _ _ owned

theorem Tabled.areaAt_behead (tabled : Tabled state buckets place)
    (placed : place tid = some pointer) (element : HashElement) :
    (state.beheaded tid pointer element).areaAt (Function.update place tid none) =
      Function.update (state.areaAt place) tid none := by
  funext other
  by_cases same : other = tid
  · subst same
    simp [State.areaAt]
  · rw [Function.update_of_ne same]
    unfold State.areaAt
    rw [Function.update_of_ne same]
    cases owned : place other with
    | none => rfl
    | some node =>
        have away : node ≠ pointer := by
          rintro rfl
          exact same (tabled.place_injective owned placed)
        simp [State.beheaded, away]

/-- A bucket whose head is freed, and not taken out. -/
theorem FreedHeads.behead (freed : FreedHeads state table)
    (tabled : Tabled state buckets place) (placed : place tid = some pointer)
    (head : table (bucketOf tid) = some pointer) (element : HashElement) :
    FreedHeads (state.beheaded tid pointer element) table := by
  intro index
  by_cases same : index = bucketOf tid
  · subst same
    right
    exact ⟨pointer, head, Function.update_self .., tabled.below _ _ placed⟩
  · have others : (state.beheaded tid pointer element).hashTable index =
        state.hashTable index := by
      simp [State.beheaded, same]
    rw [others]
    refine (freed index).imp_right ?_
    rintro ⟨other, head', absent, old⟩
    refine ⟨other, head', ?_, old⟩
    by_cases equal : other = pointer
    · simp [State.beheaded, equal]
    · simp [State.beheaded, equal, absent]

theorem FreedHeads.remove {previous : ElementPtr} {before : HashElement}
    (freed : FreedHeads state table) (foundBefore : state.elements previous = some before)
    (pointer : ElementPtr) (element : HashElement) :
    FreedHeads (state.removed previous before pointer element) table := by
  refine freed.congr rfl rfl ?_
  intro other absent
  have away : other ≠ previous := by
    rintro rfl
    rw [foundBefore] at absent
    cases absent
  by_cases equal : other = pointer
  · simp [State.removed, equal]
  · simp [State.removed, equal, away, absent]

/-! ## Calls -/

namespace Repaired

variable {offset length : UInt32} {buffer : Buffer} {code : Int32}

theorem small_remove {areas areas' : Tid → Option Tls}
    (removed : areas' = Function.update areas tid none)
    (small : ∀ tid tls, areas tid = some tls → tls.size.toNat < 2 ^ 31) :
    ∀ tid tls, areas' tid = some tls → tls.size.toNat < 2 ^ 31 := by
  intro other tls area
  rw [removed] at area
  by_cases same : other = tid
  · simp [same] at area
  · rw [Function.update_of_ne same] at area
    exact small other tls area

theorem small_insert {areas areas' : Tid → Option Tls} {tls : Tls}
    (inserted : areas' = Function.update areas tid (some tls)) (size : tls.size.toNat < 2 ^ 31)
    (small : ∀ tid tls, areas tid = some tls → tls.size.toNat < 2 ^ 31) :
    ∀ tid tls, areas' tid = some tls → tls.size.toNat < 2 ^ 31 := by
  intro other tls' area
  rw [inserted] at area
  by_cases same : other = tid
  · subst same
    rw [Function.update_self, Option.some.injEq] at area
    rwa [← area]
  · rw [Function.update_of_ne same] at area
    exact small other tls' area

theorem create (repaired : Repaired machine state buckets place table) {size : UInt32}
    (short : size.toNat < 2 ^ 31)
    (done : tlsCreate machine kernel (state.withTable table) tid size = .ok (code, after)) :
    Repairable machine after := by
  have sound := repaired.sound
  have ready := sound.ready
  have freed : FreedHeads (state.ready machine) table :=
    repaired.freed.congr rfl rfl fun _ absent => absent
  have initialized : ensureInit machine (state.withTable table) =
      (state.ready machine).withTable table := by
    rw [← sound.ensureInit_eq]
    unfold ensureInit
    cases initialized : state.initialized with
    | true => simp [State.withTable, initialized]
    | false => simp [State.withTable, initialized, tlsInit]
  have unchanged : Repairable machine ((state.ready machine).withTable table) :=
    ⟨_, table, buckets, place, rfl, ready, repaired.small, freed⟩
  simp only [tlsCreate, initialized] at done
  split at done
  · cases done
    exact unchanged
  rcases bind_eq_ok_iff.mp done with ⟨found, searched, done⟩
  rcases freed.hashSearch_ok searched with ⟨same, searched'⟩
  cases found with
  | some pointer =>
      cases done
      exact unchanged
  | none =>
      have absent : place tid = none := by
        rw [ready.table.hashSearch_eq, Except.ok.injEq] at searched'
        exact searched'
      have pageSize : ((state.ready machine).withTable table).pageSize = machine.pageSizeInt := rfl
      simp only [pageSize, createPages_withTable] at done
      have untouched := (createPages_frame kernel (pagesFor machine.pageSizeInt size).toNat
        ready.backed).1
      have freed' := freed.congr untouched.hashTable untouched.nextElement
        fun pointer absent => by rw [untouched.elements, absent]
      cases created : createdPages machine kernel state size with
      | mk pages middle =>
          have same' : createPages kernel (pagesFor machine.pageSizeInt size).toNat
              (state.ready machine) = (pages, middle) := created
          rw [same'] at untouched freed' done
          cases pages with
          | none =>
              cases done
              have kept := createdPages_failed sound kernel created
              refine ⟨middle, table, buckets, place, rfl, kept.1, ?_, freed'⟩
              rw [areaAt_congr untouched.elements]
              exact repaired.small
          | some pages =>
              cases done
              have bucket : table (bucketOf tid) = middle.hashTable (bucketOf tid) := by
                rw [untouched.hashTable]
                exact same
              rcases freed'.insert bucket
                { tid, size, pageNum := pagesFor machine.pageSizeInt size, pages } with
                ⟨table', equal, freed''⟩
              refine ⟨_, table', _, _, equal,
                (createdPages_done sound kernel absent created).1, ?_, freed''⟩
              exact small_insert (sound.ready.table.areaAt_inserted untouched tid _) short
                repaired.small

theorem clone (repaired : Repaired machine state buckets place table) {source : Tid}
    (done : tlsClone (state.withTable table) tid source = .ok (code, after)) :
    Repairable machine after := by
  have sound := repaired.sound
  have unchanged : Repairable machine (state.withTable table) :=
    ⟨state, table, buckets, place, rfl, repaired⟩
  rcases bind_eq_ok_iff.mp done with ⟨dstElement, searched, done⟩
  rcases bind_eq_ok_iff.mp done with ⟨srcElement, searched', done⟩
  rcases repaired.freed.hashSearch_ok searched with ⟨bucket, dst⟩
  rcases repaired.freed.hashSearch_ok searched' with ⟨-, src⟩
  rw [sound.table.hashSearch_eq, Except.ok.injEq] at dst src
  cases dstElement with
  | some pointer =>
      cases done
      exact unchanged
  | none =>
      cases srcElement with
      | none =>
          cases done
          exact unchanged
      | some pointer =>
          rcases sound.table.element_eq src with ⟨element, found, -, area⟩
          have found' : (state.withTable table).element pointer = .ok element := found
          rcases sound.shared dst area with ⟨middle, run, untouched, -, backed⟩
          have run' := aside_forSlots aside_sharePage element.tls.pages
            element.tls.pageNum.toNat state table
          rw [run] at run'
          have sized := sound.sized source element.tls area
          have whole : element.tls.pages.take element.tls.pageNum.toNat = element.tls.pages := by
            rw [← sized.length, List.take_length]
          simp only [found', run', bind, Except.bind, Functor.map, Except.map, whole] at done
          cases done
          have freed : FreedHeads middle table :=
            repaired.freed.congr untouched.hashTable untouched.nextElement
              fun pointer absent => by rw [untouched.elements, absent]
          have bucket' : table (bucketOf tid) = middle.hashTable (bucketOf tid) := by
            rw [untouched.hashTable]
            exact bucket
          rcases freed.insert bucket' (clonedTls tid element.tls) with ⟨table', equal, freed'⟩
          have sized' : Sized machine middle (clonedTls tid element.tls) :=
            ⟨untouched.initialized.trans sized.initialized, sized.length, sized.pageNum⟩
          refine ⟨_, table', _, _, equal, sound.insert dst untouched sized' backed, ?_, freed'⟩
          exact small_insert (sound.table.areaAt_inserted untouched tid _)
            (repaired.small source element.tls area) repaired.small

theorem tlsWrite_ok (repaired : Repaired machine state buckets place table)
    (done : tlsWrite kernel (state.withTable table) tid offset length buffer =
      .ok (code, after)) :
    ∃ after', tlsWrite kernel state tid offset length buffer = .ok (code, after') ∧
      after = after'.withTable table := by
  rcases bind_eq_ok_iff.mp done with ⟨found, searched, done⟩
  have searched' := (repaired.freed.hashSearch_ok searched).2
  cases found with
  | none =>
      cases done
      exact ⟨state, by simp only [tlsWrite, searched', bind, Except.bind], rfl⟩
  | some pointer =>
      rcases bind_eq_ok_iff.mp done with ⟨block, reached, done⟩
      have reached' : state.element pointer = .ok block := reached
      dsimp only at done
      split at done
      next outside =>
        cases done
        refine ⟨state, ?_, rfl⟩
        simp only [tlsWrite, searched', reached', if_pos outside, bind, Except.bind]
      next inside =>
        rcases bind_eq_ok_iff.mp done with ⟨opened, unprotect, done⟩
        rcases bind_eq_ok_iff.mp done with ⟨written, loop, done⟩
        rcases bind_eq_ok_iff.mp done with ⟨block', found, done⟩
        rcases bind_eq_ok_iff.mp done with ⟨closed, protect, done⟩
        cases done
        rcases (aside_forSlots aside_tlsUnprotect _ _).ok unprotect with
          ⟨opened', unprotect', rfl⟩
        rcases (aside_writeLoop _ _ _ _ _ _ _).ok loop with ⟨written', loop', rfl⟩
        rcases (aside_forSlots aside_tlsProtect _ _).ok protect with
          ⟨closed', protect', rfl⟩
        have found' : written'.element pointer = .ok block' := found
        refine ⟨closed', ?_, rfl⟩
        simp only [tlsWrite, searched', reached', if_neg inside, unprotect', loop', found', protect',
          bind, Except.bind]

theorem write (repaired : Repaired machine state buckets place table)
    (done : tlsWrite kernel (state.withTable table) tid offset length buffer =
      .ok (code, after)) : Repairable machine after := by
  rcases repaired.tlsWrite_ok done with ⟨after', done', rfl⟩
  have sound := repaired.sound
  rcases sound.write_cases repaired.small done' with ⟨-, rfl⟩ |
    ⟨pointer, element, pages, -, placed, found, sound', rewrites⟩
  · exact ⟨after', table, buckets, place, rfl, repaired⟩
  · have rewritten : after'.hashTable = state.hashTable ∧
        after'.nextElement = state.nextElement ∧ after'.elements =
          Function.update state.elements pointer (some (element.withPages pages)) := by
      rcases rewrites with ⟨-, rewrites⟩ | ⟨-, rewrites⟩
      · exact ⟨rewrites.hashTable, rewrites.nextElement, rewrites.elements⟩
      · exact ⟨rewrites.hashTable, rewrites.nextElement, rewrites.elements⟩
    rcases rewritten with ⟨hashTable, nextElement, elements⟩
    have area : state.areaAt place tid = some element.tls := by
      simp [State.areaAt, placed, found]
    refine ⟨after', table, buckets, place, rfl, sound', ?_,
      repaired.freed.congr hashTable nextElement ?_⟩
    · exact small_insert (sound.table.areaAt_update placed elements)
        (repaired.small tid element.tls area) repaired.small
    · intro other absent
      have away : other ≠ pointer := by
        rintro rfl
        rw [found] at absent
        cases absent
      rw [elements, Function.update_of_ne away, absent]

theorem read (repaired : Repaired machine state buckets place table) {filled : Buffer}
    (done : tlsRead (state.withTable table) tid offset length buffer =
      .ok (code, filled, after)) : Repairable machine after := by
  have sound := repaired.sound
  have unchanged : Repairable machine (state.withTable table) :=
    ⟨state, table, buckets, place, rfl, repaired⟩
  rcases bind_eq_ok_iff.mp done with ⟨found, searched, done⟩
  have searched' := (repaired.freed.hashSearch_ok searched).2
  rw [sound.table.hashSearch_eq, Except.ok.injEq] at searched'
  cases found with
  | none =>
      cases done
      exact unchanged
  | some pointer =>
      rcases sound.table.element_eq searched' with ⟨element, found, -, area⟩
      rcases bind_eq_ok_iff.mp done with ⟨block, reached, done⟩
      have reached' : state.element pointer = .ok block := reached
      rw [found, Except.ok.injEq] at reached'
      subst reached'
      dsimp only at done
      split at done
      next =>
        cases done
        exact unchanged
      next inside =>
        rcases bind_eq_ok_iff.mp done with ⟨opened, unprotect, done⟩
        rcases bind_eq_ok_iff.mp done with ⟨filled', -, done⟩
        rcases bind_eq_ok_iff.mp done with ⟨closed, protect, done⟩
        cases done
        rcases (aside_forSlots aside_tlsUnprotect _ _).ok unprotect with
          ⟨opened', unprotect', rfl⟩
        rcases (aside_forSlots aside_tlsProtect _ _).ok protect with
          ⟨closed', protect', rfl⟩
        rcases sound.changeProt area .readWrite with ⟨open_, soundOpen, -, -⟩
        rcases soundOpen.changeProt area .none with ⟨close, soundAfter, -, -⟩
        obtain rfl := Except.ok.inj (open_.symm.trans unprotect')
        obtain rfl := Except.ok.inj (close.symm.trans protect')
        exact ⟨_, table, buckets, place, rfl, soundAfter, repaired.small,
          repaired.freed.congr rfl rfl fun _ absent => absent⟩

theorem unlink {middle unlinked : State} (repaired : Repaired machine state buckets place table)
    (placed : place tid = some pointer) (found : state.elements pointer = some element)
    (untouched : Untouched state middle)
    (backed : Backed middle (references (Function.update (state.areaAt place) tid none)))
    (bucket : table (bucketOf tid) = state.hashTable (bucketOf tid))
    (done : unlinkElement (middle.withTable table) element tid = .ok unlinked) :
    Repairable machine
      { unlinked with elements := Function.update unlinked.elements pointer none } := by
  have sound := repaired.sound
  have tabled := sound.table.congr untouched.hashTable untouched.elements untouched.nextElement
  have areas : middle.areaAt place = state.areaAt place := areaAt_congr untouched.elements
  rw [← untouched.elements] at found
  rw [← untouched.hashTable] at bucket
  have matching : element.tid = tid :=
    (tabled.tid_eq_iff placed (tabled.mem placed) found).mpr rfl
  have freed : FreedHeads middle table :=
    repaired.freed.congr untouched.hashTable untouched.nextElement
      fun other absent => by rw [untouched.elements, absent]
  rcases tabled.head_cases placed with ⟨rest, own⟩ | ⟨temp, nodes, own, away, later⟩
  · -- the head: nothing is taken out
    have head : (middle.withTable table).hashTable (bucketOf tid) = some pointer :=
      bucket.trans (tabled.hashTable_eq own)
    have reached : (middle.withTable table).element pointer = .ok element :=
      (State.element_eq_ok_iff _).mpr found
    have same : ¬element.tid ≠ element.tid := not_not.mpr rfl
    simp only [unlinkElement, head, reached, if_neg same, bind, Except.bind,
      Except.ok.injEq] at done
    subst done
    have beheaded := tabled.areaAt_behead placed element
    rw [areas] at beheaded
    exact ⟨middle.beheaded tid pointer element, table, _, _, rfl,
      sound.taken untouched backed (tabled.behead placed own found) beheaded,
      small_remove beheaded repaired.small, freed.behead tabled placed head element⟩
  · -- an element behind the head
    have membership : temp ∈ buckets (bucketOf tid) := by simp [own]
    rcases tabled.allocated membership with ⟨head, foundHead, -⟩
    have first := tabled.hashTable_eq own
    have chain := tabled.chain (bucketOf tid)
    rw [first, own] at chain
    have enough : nodes.length < middle.nextElement + 1 := by
      have bound := tabled.length_le (bucketOf tid)
      rw [own, List.length_cons] at bound
      omega
    rcases tabled.findPrevious_eq placed (fun node membership => by rwa [own]) chain later
      enough with ⟨front, previous, rest, run, split⟩
    have split' : buckets (bucketOf tid) = front ++ previous :: pointer :: rest := by
      rw [own, split]
    rcases tabled.allocated (show previous ∈ buckets (bucketOf tid) by simp [split']) with
      ⟨before, foundBefore, -⟩
    have headTable : (middle.withTable table).hashTable (bucketOf tid) = some temp :=
      bucket.trans first
    have reachedHead : (middle.withTable table).element temp = .ok head :=
      (State.element_eq_ok_iff _).mpr foundHead
    have reachedBefore : (middle.withTable table).element previous = .ok before :=
      (State.element_eq_ok_iff _).mpr foundBefore
    have next : (middle.withTable table).nextElement = middle.nextElement := rfl
    have other : head.tid ≠ element.tid := by
      rw [matching]
      exact fun same => away ((tabled.tid_eq_iff placed membership foundHead).mp same)
    rw [← matching] at run
    simp only [unlinkElement, headTable, reachedHead, if_pos other, next,
      findPrevious_withTable, run, reachedBefore, bind, Except.bind, Except.ok.injEq] at done
    subst done
    have removed := tabled.areaAt_remove placed foundBefore element
    rw [areas] at removed
    exact ⟨middle.removed previous before pointer element, table, _, _, rfl,
      sound.taken untouched backed (tabled.remove placed split' found foundBefore) removed,
      small_remove removed repaired.small, freed.remove foundBefore pointer element⟩

theorem destroy (repaired : Repaired machine state buckets place table)
    (done : tlsDestroy (state.withTable table) tid = .ok (code, after)) :
    Repairable machine after := by
  have sound := repaired.sound
  rcases bind_eq_ok_iff.mp done with ⟨found, searched, done⟩
  rcases repaired.freed.hashSearch_ok searched with ⟨bucket, searched'⟩
  rw [sound.table.hashSearch_eq, Except.ok.injEq] at searched'
  cases found with
  | none =>
      cases done
      exact ⟨state, table, buckets, place, rfl, repaired⟩
  | some pointer =>
      rcases sound.table.element_eq searched' with ⟨element, found, -, area⟩
      rcases bind_eq_ok_iff.mp done with ⟨element', reached, done⟩
      obtain rfl : element = element' := Except.ok.inj (found.symm.trans reached)
      rcases bind_eq_ok_iff.mp done with ⟨released, loop, done⟩
      rcases (aside_forSlots aside_releasePage _ _).ok loop with ⟨middle, loop', rfl⟩
      rcases sound.released area with ⟨middle', run, untouched, backed, -⟩
      obtain rfl : middle' = middle := Except.ok.inj (run.symm.trans loop')
      rcases bind_eq_ok_iff.mp done with ⟨unlinked, unlink, done⟩
      cases done
      exact repaired.unlink searched' ((state.element_eq_ok_iff).mp found) untouched backed
        bucket unlink

end Repaired

/-- The calls that make areas that an `int` can index. -/
def Call.Indexable : Call → Prop
  | .create size => size.toNat < 2 ^ 31
  | .write .. | .read .. | .destroy | .clone _ => True

theorem Repairable.exec {call : Call} {reply : Reply} (repairable : Repairable machine state)
    (indexable : call.Indexable)
    (done : exec machine kernel state tid call = .ok (reply, after)) :
    Repairable machine after := by
  rcases repairable with ⟨repaired, table, buckets, place, rfl, sound⟩
  cases call with
  | create size =>
      rcases bind_eq_ok_iff.mp done with ⟨⟨code, middle⟩, returned, done⟩
      cases done
      exact sound.create indexable returned
  | write offset length buffer =>
      rcases bind_eq_ok_iff.mp done with ⟨⟨code, middle⟩, returned, done⟩
      cases done
      exact sound.write returned
  | read offset length buffer =>
      rcases bind_eq_ok_iff.mp done with ⟨⟨code, filled, middle⟩, returned, done⟩
      cases done
      exact sound.read returned
  | destroy =>
      rcases bind_eq_ok_iff.mp done with ⟨⟨code, middle⟩, returned, done⟩
      cases done
      exact sound.destroy returned
  | clone source =>
      rcases bind_eq_ok_iff.mp done with ⟨⟨code, middle⟩, returned, done⟩
      cases done
      exact sound.clone returned

theorem Repairable.play {events : List Event} {replies : List Reply}
    (repairable : Repairable machine state) (indexable : ∀ event ∈ events, event.call.Indexable)
    (played : play machine state events = .ok (replies, after)) : Repairable machine after := by
  induction events generalizing state replies with
  | nil =>
      cases played
      exact repairable
  | cons event rest inductionHypothesis =>
      rcases bind_eq_ok_iff.mp played with ⟨⟨reply, middle⟩, done, played⟩
      rcases bind_eq_ok_iff.mp played with ⟨⟨replies', final⟩, later, played⟩
      cases played
      exact inductionHypothesis
        (repairable.exec (indexable event List.mem_cons_self) done)
        (fun other membership => indexable other (List.mem_cons_of_mem _ membership)) later

end EC440.LocalStorage
