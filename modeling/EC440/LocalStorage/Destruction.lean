import EC440.LocalStorage.PageCounts
import EC440.LocalStorage.Repairs

/-!
# tls_destroy between calls

An element leaves its bucket, behind the head or at the head, and the areas of
the other threads stay settled: their pages remain covered and inaccessible.
-/

namespace EC440.LocalStorage

open Linked References Outcome

variable {machine : Machine} {state after middle : State} {buckets buckets' : Bucket → List ElementPtr}
  {place : Tid → Option ElementPtr} {tid : Tid} {tls : Tls} {p : PagePtr} {frame : Frame}
  {pointer : ElementPtr} {element : HashElement} {table : Bucket → Option ElementPtr}

/-! ## The buckets -/

theorem map_update_place {tids : List Tid} {pointers : List ElementPtr}
    (matching : tids.map place = pointers.map some) (fresh : place tid ∉ pointers.map some)
    (new : Option ElementPtr) :
    tids.map (Function.update place tid new) = pointers.map some := by
  rw [← matching]
  apply List.map_congr_left
  intro other membership
  apply Function.update_of_ne
  rintro rfl
  exact fresh (matching ▸ List.mem_map_of_mem membership)

theorem map_update_placed {tids : List Tid} {pointers : List ElementPtr}
    (matching : tids.map place = pointers.map some) (placed : place tid = some pointer)
    (fresh : pointer ∉ pointers) (new : Option ElementPtr) :
    tids.map (Function.update place tid new) = pointers.map some := by
  apply map_update_place matching
  rwa [placed, List.mem_map_of_injective (Option.some_injective _)]

theorem map_erase {tids : List Tid} {pointers : List ElementPtr}
    (matching : tids.map place = pointers.map some) (nodup : pointers.Nodup)
    (injective : ∀ first second node, place first = some node → place second = some node →
      first = second)
    (placed : place tid = some pointer) :
    (tids.erase tid).map (Function.update place tid none) = (pointers.erase pointer).map some := by
  induction tids generalizing pointers with
  | nil =>
      have empty : pointers = [] := by simpa using matching.symm
      simp [empty]
  | cons first rest inductionHypothesis =>
      cases pointers with
      | nil => simp at matching
      | cons node nodes =>
          simp only [List.map_cons, List.cons.injEq] at matching
          obtain ⟨here, later⟩ := matching
          obtain ⟨fresh, nodup'⟩ := List.nodup_cons.mp nodup
          by_cases own : first = tid
          · subst own
            obtain rfl : pointer = node := Option.some.inj (placed.symm.trans here)
            rw [List.erase_cons_head, List.erase_cons_head]
            exact map_update_placed later placed fresh none
          · have other : node ≠ pointer := by
              rintro rfl
              exact own (injective _ _ _ here placed)
            have head : ¬(first == tid) = true := by simpa using own
            have head' : ¬(node == pointer) = true := by simpa using other
            rw [List.erase_cons_tail head, List.erase_cons_tail head', List.map_cons, List.map_cons,
              Function.update_of_ne own, here, inductionHypothesis later nodup']

/-! ## The pages -/

theorem Settled.frame_released (settled : Settled machine state buckets place)
    (area : state.area tid = some tls)
    (here : (state.released tls.pages).frameOf p = some frame) :
    state.frameOf p = some frame ∧
      ∃ ref, ref.1 ≠ tid ∧ references (state.areaAt place) ref = some p := by
  have releases := (settled.releases area).2
  have shared : ∀ ref, ref.1 ≠ tid → references state.area ref = some p →
      state.frameOf p = some frame ∧
        ∃ ref, ref.1 ≠ tid ∧ references (state.areaAt place) ref = some p := by
    intro ref other pointing
    obtain ⟨page, frame', allocated, mapped, former, -⟩ := releases.others ref p other pointing
    have same : frame' = frame := by
      simpa [State.frameOf, allocated, mapped] using here
    rw [settled.sound.area_eq] at pointing
    exact ⟨same ▸ former, ref, other, pointing⟩
  by_cases own : p ∈ tls.pages
  · by_cases only : OnlyOf state.area tid p
    · obtain ⟨slot, held⟩ := List.mem_iff_getElem?.mp own
      obtain ⟨page, allocated⟩ :=
        settled.accurate.allocated (tid, slot) p (by simp [references, area, held])
      have gone := (releases.freed p own only page allocated).1
      simp [State.frameOf, gone] at here
    · unfold OnlyOf at only
      push Not at only
      obtain ⟨ref, pointing, other⟩ := only
      exact shared ref other pointing
  · have kept := releases.kept p own
    obtain ⟨page, allocated, -⟩ := Option.bind_eq_some_iff.mp here
    rw [kept] at allocated
    obtain ⟨former, mapped⟩ := settled.sound.backed.mapped p page allocated
    obtain ⟨ref, pointing⟩ := settled.covered p former (by simp [State.frameOf, allocated, mapped])
    rw [← settled.sound.area_eq] at pointing
    refine shared ref ?_ pointing
    intro same
    unfold references at pointing
    rw [same, area] at pointing
    exact own (List.mem_of_getElem? pointing)

theorem Settled.taken (settled : Settled machine state buckets place)
    (area : state.areaAt place tid = some tls)
    {elements : ElementPtr → Option HashElement} {hashTable : Bucket → Option ElementPtr}
    (tabled : Tabled { state.released tls.pages with elements, hashTable } buckets'
      (Function.update place tid none))
    (areas : State.areaAt { state.released tls.pages with elements, hashTable }
      (Function.update place tid none) = Function.update (state.areaAt place) tid none) :
    Settled machine { state.released tls.pages with elements, hashTable } buckets'
        (Function.update place tid none) ∧
      State.array { state.released tls.pages with elements, hashTable } machine =
        Function.update (state.array machine) tid none := by
  have sound := settled.sound
  have found : state.area tid = some tls := by rw [sound.area_eq, area]
  obtain ⟨middle, loop, untouched, backed, frames⟩ := sound.released area
  rw [(settled.releases found).1, Except.ok.injEq] at loop
  subst loop
  have sound' := sound.taken untouched backed tabled areas
  have sameFrames : State.frameOf { state.released tls.pages with elements, hashTable } =
      (state.released tls.pages).frameOf := rfl
  refine ⟨⟨sound', Repaired.small_remove areas settled.small, ?_, ?_⟩, ?_⟩
  · intro p frame here
    rw [sameFrames] at here
    obtain ⟨-, ref, other, pointing⟩ := settled.frame_released found here
    refine ⟨ref, ?_⟩
    rw [areas, references_remove, withSlots_of_ne other, pointing]
  · intro p frame here
    rw [sameFrames] at here
    exact settled.locked p frame (settled.frame_released found here).1
  · rw [sound'.array_eq, sound.array_eq, areas]
    funext other
    by_cases same : other = tid
    · subst same
      simp [arrayOf]
    · rw [Function.update_of_ne same]
      refine arrayOf_frame (Function.update_of_ne same _ _) fun slot p pointing => ?_
      rw [sameFrames, frames (other, slot) p same pointing]

/-! ## The call -/

/-- What a `tls_destroy` leaves: a settled state without the element of the thread, up to the head
of its bucket if the element was there. -/
structure Destroyed (machine : Machine) (state : State) (buckets : Bucket → List ElementPtr)
    (place : Tid → Option ElementPtr) (tid : Tid) (pointer : ElementPtr) (after : State) : Prop where
  settled : Settled machine after
    (Function.update buckets (bucketOf tid) ((buckets (bucketOf tid)).erase pointer))
    (Function.update place tid none)
  arrays : after.array machine = Function.update (state.array machine) tid none
  freed : after.elements pointer = none
  others : ∀ other element, after.elements other = some element →
    other ≠ pointer ∧ ∃ element', state.elements other = some element' ∧ element'.tid = element.tid
  former : ∀ other, state.elements other = none → after.elements other = none
  nextElement : after.nextElement = state.nextElement
  elsewhere : ∀ index, index ≠ bucketOf tid → after.hashTable index = state.hashTable index
  behind : (buckets (bucketOf tid)).head? ≠ some pointer → after.hashTable = state.hashTable

theorem Settled.destroy_head (settled : Settled machine state buckets place)
    (placed : place tid = some pointer) (found : state.elements pointer = some element)
    {rest : List ElementPtr} (bucket : buckets (bucketOf tid) = pointer :: rest) :
    Destroyed machine state buckets place tid pointer
      ((state.released element.tls.pages).beheaded tid pointer element) := by
  have tabled := settled.sound.table
  have area : state.areaAt place tid = some element.tls := by simp [State.areaAt, placed, found]
  have table' : Tabled (state.released element.tls.pages) buckets place := tabled.congr rfl rfl rfl
  have removed := table'.behead placed bucket found
  have areas := table'.areaAt_behead placed element
  obtain ⟨settled', arrays⟩ := settled.taken area removed areas
  have erased : (buckets (bucketOf tid)).erase pointer = rest := by
    rw [bucket, List.erase_cons_head]
  refine ⟨?_, arrays, Function.update_self .., ?_, ?_, rfl, ?_, ?_⟩
  · rw [erased]
    exact settled'
  · intro other element' here
    by_cases same : other = pointer
    · simp [State.beheaded, same] at here
    · refine ⟨same, element', ?_, rfl⟩
      simpa [State.beheaded, State.released, same] using here
  · intro other absent
    by_cases same : other = pointer
    · simp [State.beheaded, same]
    · simpa [State.beheaded, State.released, same] using absent
  · intro index other
    exact Function.update_of_ne other _ _
  · intro behind
    exact absurd (by rw [bucket, List.head?_cons]) behind

theorem Settled.destroy_behind (settled : Settled machine state buckets place)
    (placed : place tid = some pointer) (found : state.elements pointer = some element)
    {front rest : List ElementPtr} {previous : ElementPtr} {before : HashElement}
    (bucket : buckets (bucketOf tid) = front ++ previous :: pointer :: rest)
    (foundBefore : state.elements previous = some before) :
    Destroyed machine state buckets place tid pointer
      ((state.released element.tls.pages).removed previous before pointer element) := by
  have tabled := settled.sound.table
  have area : state.areaAt place tid = some element.tls := by simp [State.areaAt, placed, found]
  have table' : Tabled (state.released element.tls.pages) buckets place := tabled.congr rfl rfl rfl
  have removed := table'.remove placed bucket found foundBefore
  have areas := table'.areaAt_remove placed foundBefore element
  obtain ⟨settled', arrays⟩ := settled.taken area removed areas
  have nodup := (tabled.chain (bucketOf tid)).nodup
  have split : front ++ previous :: pointer :: rest = (front ++ [previous]) ++ pointer :: rest := by
    simp
  rw [bucket, split] at nodup
  have fresh : pointer ∉ front ++ [previous] := by
    intro membership
    exact (List.nodup_append.mp nodup).2.2 pointer membership pointer List.mem_cons_self rfl
  have erased : (buckets (bucketOf tid)).erase pointer = front ++ previous :: rest := by
    rw [bucket, split, List.erase_append_right _ fresh, List.erase_cons_head]
    simp
  refine ⟨?_, arrays, Function.update_self .., ?_, ?_, rfl, fun _ _ => rfl, fun _ => rfl⟩
  · rw [erased]
    exact settled'
  · intro other element' here
    by_cases same : other = pointer
    · simp [State.removed, same] at here
    · refine ⟨same, ?_⟩
      by_cases changed : other = previous
      · subst changed
        simp only [State.removed, Function.update_of_ne same, Function.update_self,
          Option.some.injEq] at here
        exact ⟨before, foundBefore, by rw [← here]⟩
      · refine ⟨element', ?_, rfl⟩
        simpa [State.removed, State.released, same, changed] using here
  · intro other absent
    have away : other ≠ previous := by
      rintro rfl
      rw [foundBefore] at absent
      cases absent
    by_cases same : other = pointer
    · simp [State.removed, same]
    · simpa [State.removed, State.released, same, away] using absent

theorem Settled.tlsDestroy_withTable (settled : Settled machine state buckets place)
    (placed : place tid = some pointer)
    (whole : table (bucketOf tid) = state.hashTable (bucketOf tid)) :
    ∃ after, LocalStorage.tlsDestroy (state.withTable table) tid = .ok (0, after.withTable table) ∧
      Destroyed machine state buckets place tid pointer after := by
  have sound := settled.sound
  obtain ⟨element, reached, matching, area⟩ := sound.table.element_eq placed
  have found := (state.element_eq_ok_iff).mp reached
  have reached' : (state.withTable table).element pointer = .ok element := reached
  have searched := hashSearch_live whole
  rw [sound.table.hashSearch_eq, placed] at searched
  have here : state.area tid = some element.tls := by rw [sound.area_eq, area]
  have loop := aside_forSlots aside_releasePage element.tls.pages element.tls.pageNum.toNat state
    table
  rw [(settled.releases here).1] at loop
  simp only [Functor.map, Except.map] at loop
  have tabled : Tabled (state.released element.tls.pages) buckets place :=
    sound.table.congr rfl rfl rfl
  rcases tabled.head_cases placed with ⟨rest, bucket⟩ | ⟨temp, nodes, bucket, away, later⟩
  · refine ⟨_, ?_, settled.destroy_head placed found bucket⟩
    have head : ((state.released element.tls.pages).withTable table).hashTable (bucketOf tid) =
        some pointer := whole.trans (tabled.hashTable_eq bucket)
    have foundHead : ((state.released element.tls.pages).withTable table).element pointer =
        .ok element := reached
    have own : ¬element.tid ≠ element.tid := not_not.mpr rfl
    simp only [LocalStorage.tlsDestroy, searched, reached', loop, unlinkElement, head, foundHead,
      if_neg own, bind, Except.bind]
    rfl
  · have membership : temp ∈ buckets (bucketOf tid) := by simp [bucket]
    obtain ⟨head, foundHead, -⟩ := tabled.allocated membership
    have first := tabled.hashTable_eq bucket
    have chain := tabled.chain (bucketOf tid)
    rw [first, bucket] at chain
    have enough : nodes.length < (state.released element.tls.pages).nextElement + 1 := by
      have bound := tabled.length_le (bucketOf tid)
      rw [bucket, List.length_cons] at bound
      omega
    obtain ⟨front, previous, rest, run, split⟩ := tabled.findPrevious_eq placed
      (fun node membership => by rwa [bucket]) chain later enough
    have bucket' : buckets (bucketOf tid) = front ++ previous :: pointer :: rest := by
      rw [bucket, split]
    obtain ⟨before, foundBefore, -⟩ := tabled.allocated
      (show previous ∈ buckets (bucketOf tid) by simp [bucket'])
    refine ⟨_, ?_, settled.destroy_behind placed found bucket' foundBefore⟩
    have headTable : ((state.released element.tls.pages).withTable table).hashTable (bucketOf tid) =
        some temp := whole.trans first
    have reachedHead : ((state.released element.tls.pages).withTable table).element temp =
        .ok head := (State.element_eq_ok_iff _).mpr foundHead
    have reachedBefore : ((state.released element.tls.pages).withTable table).element previous =
        .ok before := (State.element_eq_ok_iff _).mpr foundBefore
    have next : ((state.released element.tls.pages).withTable table).nextElement =
        (state.released element.tls.pages).nextElement := rfl
    have other : head.tid ≠ tid := fun same =>
      away ((tabled.tid_eq_iff placed membership foundHead).mp same)
    simp only [LocalStorage.tlsDestroy, searched, reached', loop, unlinkElement, headTable,
      reachedHead, matching, if_pos other, next, findPrevious_withTable, run, reachedBefore, bind,
      Except.bind]
    rfl

end EC440.LocalStorage
