import EC440.LocalStorage.Removal
import EC440.LocalStorage.Sharing

/-!
# Reference counts

Without `tls_destroy` the count of every page is the number of slots that
refer to it, so that the page loop of `tls_destroy` frees exactly the pages
that no other area uses.
-/

namespace EC440.LocalStorage

open References Outcome

variable {machine : Machine} {state middle : State} {buckets : Bucket → List ElementPtr}
  {place : Tid → Option ElementPtr} {tid : Tid} {tls : Tls} {p : PagePtr} {page : Page}
  {pages : List PagePtr}

/-- The counts of all pages are right, and all slots refer to pages. -/
structure Accurate (state : State) : Prop where
  positive : ∀ p page, state.pages p = some page → 1 ≤ page.refCount
  counts : ∀ p page, state.pages p = some page → page.refCount = count (references state.area) p
  allocated : ∀ ref p, references state.area ref = some p → ∃ page, state.pages p = some page

theorem Settled.accurate (settled : Settled machine state buckets place) : Accurate state := by
  have backed := settled.sound.backed
  have area := settled.sound.area_eq
  have counted : ∀ p page, state.pages p = some page →
      0 < page.refCount ∧ page.refCount = count (references state.area) p := by
    intro p page allocated
    obtain ⟨frame, mapped⟩ := backed.mapped p page allocated
    obtain ⟨ref, pointing⟩ := settled.covered p frame (by simp [State.frameOf, allocated, mapped])
    have counter : state.refCount p = some page.refCount := by simp [State.refCount, allocated]
    have exactly := backed.counted.counts ref p pointing
    rw [counter, Option.some.injEq] at exactly
    exact ⟨backed.counted.pos pointing counter, by rw [area, exactly]⟩
  refine ⟨fun p page allocated => (counted p page allocated).1,
    fun p page allocated => (counted p page allocated).2, fun ref p pointing => ?_⟩
  rw [area] at pointing
  obtain ⟨page, -, allocated, -⟩ := backed.page_of pointing
  exact ⟨page, allocated⟩

/-! ## The page loop of tls_destroy -/

def State.freedAddresses (state : State) (pages : List PagePtr) : List Address :=
  pages.filterMap fun p => (state.pages p).bind fun page =>
    if page.refCount = 1 then some page.address else none

def Page.dropped (page : Page) : Option Page :=
  if page.refCount = 1 then none else some { page with refCount := page.refCount - 1 }

def State.released (state : State) (pages : List PagePtr) : State :=
  { state with
    pages := fun p => if p ∈ pages then (state.pages p).bind Page.dropped else state.pages p
    memory := fun address =>
      if address ∈ state.freedAddresses pages then none else state.memory address }

theorem State.mem_freedAddresses {address : Address} :
    address ∈ state.freedAddresses pages ↔ ∃ p ∈ pages, ∃ page, state.pages p = some page ∧
      page.refCount = 1 ∧ page.address = address := by
  simp only [State.freedAddresses, List.mem_filterMap, Option.bind_eq_some_iff,
    Option.ite_none_right_eq_some, Option.some.injEq]

theorem State.released_cons (fresh : p ∉ pages) :
    (state.released [p]).released pages = state.released (p :: pages) := by
  have elsewhere : ∀ q ∈ pages, (state.released [p]).pages q = state.pages q := by
    intro q membership
    exact if_neg (by simpa using ne_of_mem_of_not_mem membership fresh)
  have addresses : (state.released [p]).freedAddresses pages = state.freedAddresses pages :=
    List.filterMap_congr fun q membership => by rw [elsewhere q membership]
  have first : state.freedAddresses (p :: pages) =
      state.freedAddresses [p] ++ state.freedAddresses pages := by
    rw [← List.singleton_append]
    exact List.filterMap_append
  unfold State.released at addresses ⊢
  rw [addresses, first]
  congr 1
  · funext q
    by_cases same : q = p
    · subst same
      simp [fresh]
    · simp [same]
  · funext address
    by_cases later : address ∈ state.freedAddresses pages
    · simp [later]
    · simp [later]

theorem releasePage_eq_released (allocated : state.pages p = some page)
    (positive : 0 < page.refCount) : releasePage state p = .ok (state.released [p]) := by
  rw [releasePage_eq allocated positive]
  congr 1
  have addresses : state.freedAddresses [p] =
      if page.refCount = 1 then [page.address] else [] := by
    by_cases single : page.refCount = 1
    · simp [State.freedAddresses, allocated, single]
    · simp [State.freedAddresses, allocated, single]
  unfold State.released
  rw [addresses]
  by_cases single : page.refCount = 1
  · simp only [if_pos single]
    unfold State.freed munmap
    congr 1
    · funext q
      by_cases same : q = p
      · subst same
        simp [allocated, Page.dropped, single]
      · simp [same]
    · funext address
      by_cases same : address = page.address
      · simp [same]
      · simp [same]
  · simp only [if_neg single]
    unfold State.recount
    congr 1
    · funext q
      by_cases same : q = p
      · subst same
        simp [allocated, Page.dropped, single]
      · simp [same]

theorem releasePage_loop (distinct : pages.Nodup)
    (usable : ∀ p ∈ pages, ∃ page, state.pages p = some page ∧ 0 < page.refCount) :
    pages.foldlM releasePage state = .ok (state.released pages) := by
  induction pages generalizing state with
  | nil =>
      have unchanged : state.released [] = state := by simp [State.released, State.freedAddresses]
      rw [unchanged]
      rfl
  | cons p rest inductionHypothesis =>
      obtain ⟨fresh, distinct'⟩ := List.nodup_cons.mp distinct
      obtain ⟨page, allocated, positive⟩ := usable p List.mem_cons_self
      rw [List.foldlM_cons, releasePage_eq_released allocated positive]
      simp only [bind, Except.bind]
      rw [inductionHypothesis distinct', State.released_cons fresh]
      intro q membership
      obtain ⟨page', allocated', positive'⟩ := usable q (List.mem_cons_of_mem _ membership)
      refine ⟨page', ?_, positive'⟩
      rw [← allocated']
      exact if_neg (by simpa using ne_of_mem_of_not_mem membership fresh)

/-! ## What tls_destroy frees -/

def OnlyOf (areas : Tid → Option Tls) (tid : Tid) (p : PagePtr) : Prop :=
  ∀ ref, references areas ref = some p → ref.1 = tid

/-- The page loop has unmapped and freed exactly the pages of the area that no other area refers
to, and taken one from the counts of its other pages; the areas of the other threads have their
pages, with the same contents and the right counts. -/
structure Releases (state : State) (tid : Tid) (tls : Tls) (middle : State) : Prop where
  freed : ∀ p ∈ tls.pages, OnlyOf state.area tid p → ∀ page, state.pages p = some page →
    middle.pages p = none ∧ middle.memory page.address = none
  shared : ∀ p ∈ tls.pages, ¬OnlyOf state.area tid p → ∀ page, state.pages p = some page →
    middle.pages p = some { page with refCount := page.refCount - 1 }
  kept : ∀ p, p ∉ tls.pages → middle.pages p = state.pages p
  mapped : ∀ address, (∀ p ∈ tls.pages, OnlyOf state.area tid p → ∀ page,
    state.pages p = some page → page.address ≠ address) →
    middle.memory address = state.memory address
  areas : middle.area = state.area
  others : ∀ ref p, ref.1 ≠ tid → references state.area ref = some p →
    ∃ page frame, middle.pages p = some page ∧ middle.memory page.address = some frame ∧
      state.frameOf p = some frame ∧
      page.refCount = count (references (Function.update state.area tid none)) p

theorem Separate.nodup {areas : Tid → Option Tls} (separate : Separate (references areas))
    (area : areas tid = some tls) : tls.pages.Nodup := by
  rw [List.nodup_iff_getElem?_ne_getElem?]
  intro i j before inside same
  have held := List.getElem?_eq_getElem inside
  rw [held] at same
  have first : references areas (tid, i) = some tls.pages[j] := by simp [references, area, same]
  have second : references areas (tid, j) = some tls.pages[j] := by simp [references, area, held]
  exact absurd (separate tid i j _ first second) before.ne

/-- A page of the area has a single reference exactly if no other area refers to it. -/
theorem Settled.single_iff (settled : Settled machine state buckets place)
    (area : state.area tid = some tls) (membership : p ∈ tls.pages)
    (allocated : state.pages p = some page) : page.refCount = 1 ↔ OnlyOf state.area tid p := by
  have backed := settled.sound.backed
  rw [← settled.sound.area_eq] at backed
  obtain ⟨slot, held⟩ := List.mem_iff_getElem?.mp membership
  have pointing : references state.area (tid, slot) = some p := by
    simp [references, area, held]
  have counter : state.refCount p = some page.refCount := by simp [State.refCount, allocated]
  constructor
  · intro single ref again
    rw [backed.counted.unique counter single.le again pointing]
  · intro only
    by_contra several
    have more : 1 < page.refCount := by
      have positive := backed.counted.pos pointing counter
      omega
    obtain ⟨⟨owner, other⟩, away, again⟩ :=
      backed.counted.exists_other pointing counter more
    obtain rfl : owner = tid := only _ again
    exact away (by rw [backed.separate owner other slot p again pointing])

theorem Settled.releases (settled : Settled machine state buckets place)
    (area : state.area tid = some tls) :
    forSlots tls.pages releasePage tls.pageNum.toNat state = .ok (state.released tls.pages) ∧
      Releases state tid tls (state.released tls.pages) := by
  have areaPlace : state.areaAt place tid = some tls := by rw [← settled.sound.area_eq, area]
  have accurate := settled.accurate
  have backed := settled.sound.backed
  obtain ⟨middle, loop, untouched, backedAfter, frames⟩ := settled.sound.released areaPlace
  have usable : ∀ p ∈ tls.pages, ∃ page, state.pages p = some page ∧ 0 < page.refCount := by
    intro p membership
    obtain ⟨slot, held⟩ := List.mem_iff_getElem?.mp membership
    obtain ⟨page, allocated⟩ :=
      accurate.allocated (tid, slot) p (by simp [references, area, held])
    exact ⟨page, allocated, accurate.positive p page allocated⟩
  have explicit : forSlots tls.pages releasePage tls.pageNum.toNat state =
      .ok (state.released tls.pages) := by
    rw [← (settled.sound.sized tid tls areaPlace).length, forSlots_eq,
      releasePage_loop (backed.separate.nodup areaPlace) usable]
  rw [explicit, Except.ok.injEq] at loop
  subst loop
  have pageAfter : ∀ p ∈ tls.pages, ∀ page, state.pages p = some page →
      (state.released tls.pages).pages p = page.dropped := by
    intro p membership page allocated
    simp [State.released, membership, allocated]
  refine ⟨explicit, ?_, ?_, ?_, ?_, ?_, ?_⟩
  · intro p membership only page allocated
    have single := (settled.single_iff area membership allocated).mpr only
    refine ⟨by rw [pageAfter p membership page allocated, Page.dropped, if_pos single], ?_⟩
    exact if_pos (State.mem_freedAddresses.mpr ⟨p, membership, page, allocated, single, rfl⟩)
  · intro p membership shared page allocated
    have several := mt (settled.single_iff area membership allocated).mp shared
    rw [pageAfter p membership page allocated, Page.dropped, if_neg several]
  · exact fun p outside => if_neg outside
  · intro address away
    refine if_neg fun freed => ?_
    obtain ⟨p, membership, page, allocated, single, same⟩ := State.mem_freedAddresses.mp freed
    exact away p membership ((settled.single_iff area membership allocated).mp single) page
      allocated same
  · have table := settled.sound.table.congr untouched.hashTable untouched.elements
      untouched.nextElement
    funext owner
    rw [State.area, State.area, table.hashSearch_eq, settled.sound.table.hashSearch_eq]
    rfl
  · intro ref p other pointing
    rw [settled.sound.area_eq] at pointing ⊢
    have still : references (Function.update (state.areaAt place) tid none) ref = some p := by
      rw [references_remove, withSlots_of_ne other, pointing]
    obtain ⟨page, frame, allocated, mapped, here⟩ := backedAfter.page_of still
    refine ⟨page, frame, allocated, mapped, ?_, ?_⟩
    · rw [← frames ref p other pointing, here]
    · have exactly := backedAfter.counted.counts ref p still
      simpa [State.refCount, allocated] using exactly

theorem unlinkElement_memory {element : HashElement} {after : State}
    (unlinked : unlinkElement state element tid = .ok after) :
    after.pages = state.pages ∧ after.memory = state.memory := by
  unfold unlinkElement at unlinked
  split at unlinked
  next => cases unlinked
  next temp _ =>
    obtain ⟨head, -, unlinked⟩ := bind_eq_ok_iff.mp unlinked
    split at unlinked
    next =>
      obtain ⟨previous, -, unlinked⟩ := bind_eq_ok_iff.mp unlinked
      obtain ⟨before, -, unlinked⟩ := bind_eq_ok_iff.mp unlinked
      cases unlinked
      exact ⟨rfl, rfl⟩
    next =>
      cases unlinked
      exact ⟨rfl, rfl⟩

/-- `tls_destroy` returns, whether or not its element is the head of a bucket, and changes no page
after its page loop. -/
theorem Settled.tlsDestroy (settled : Settled machine state buckets place)
    (area : state.area tid = some tls) :
    ∃ after, tlsDestroy state tid = .ok (0, after) ∧
      after.pages = (state.released tls.pages).pages ∧
      after.memory = (state.released tls.pages).memory := by
  have sound := settled.sound
  have areaPlace : state.areaAt place tid = some tls := by rw [← sound.area_eq, area]
  obtain ⟨pointer, element, placed, reached, rfl⟩ := sound.element_of_areaAt areaPlace
  obtain ⟨after, done⟩ : ∃ after, LocalStorage.tlsDestroy state tid = .ok (0, after) := by
    by_cases head : AtHead state tid
    · obtain ⟨after, done, -⟩ := tlsDestroy_head sound placed head
      exact ⟨after, done⟩
    · obtain ⟨after, -, done, -⟩ := tlsDestroy_done sound placed head
      exact ⟨after, done⟩
  refine ⟨after, done, ?_⟩
  unfold LocalStorage.tlsDestroy at done
  rw [sound.table.hashSearch_eq, placed] at done
  simp only [reached, (settled.releases area).1, bind, Except.bind] at done
  split at done
  next => cases done
  next middle unlinked =>
    cases done
    obtain ⟨samePages, sameMemory⟩ := unlinkElement_memory unlinked
    exact ⟨samePages, sameMemory⟩

/-! ## Runs -/

/-- After every sequence of calls the counts are right, and a `tls_destroy` of any area frees
exactly the pages that no other area refers to. -/
theorem pageCounts (machine : Machine) (memory : PageMemory) (events : List Event)
    (sharing : ∀ event ∈ events, event.call.Sharing)
    (served : AllServed machine (.initial memory) events) :
    ∃ replies final, play machine (.initial memory) events = .ok (replies, final) ∧
      Accurate final ∧
      ∀ tid tls, final.area tid = some tls → ∃ middle after,
        forSlots tls.pages releasePage tls.pageNum.toNat final = .ok middle ∧
        Releases final tid tls middle ∧ tlsDestroy final tid = .ok (0, after) ∧
        after.pages = middle.pages ∧ after.memory = middle.memory := by
  obtain ⟨replies, final, run, buckets, place, settled⟩ :=
    (Quiet.initial machine memory).play sharing served
  refine ⟨replies, final, run, settled.accurate, fun tid tls area => ?_⟩
  obtain ⟨loop, releases⟩ := settled.releases area
  obtain ⟨after, done, pages, mapped⟩ := settled.tlsDestroy area
  exact ⟨_, after, loop, releases, done, pages, mapped⟩

theorem pageCounts_cloneAndWrite :
    ∃ replies final, play page4096 (.initial fun _ => none) cloneAndWrite =
      .ok (replies, final) ∧ Accurate final := by
  obtain ⟨replies, final, run, accurate, -⟩ :=
    pageCounts page4096 _ cloneAndWrite cloneAndWrite_sharing cloneAndWrite_served
  exact ⟨replies, final, run, accurate⟩

end EC440.LocalStorage
