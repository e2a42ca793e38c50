import EC440.LocalStorage.Operations

/-!
# The hash table

`place` says which element belongs to a thread.  In a well-formed table each
bucket is a chain of exactly the elements of the threads that hash to it, and
`hash_search` finds the element of every thread.
-/

namespace EC440.LocalStorage

open Linked Outcome

variable {state after : State} {buckets : Bucket → List ElementPtr}
  {place : Tid → Option ElementPtr} {tid : Tid} {pointer : ElementPtr} {element : HashElement}

def State.next (state : State) (pointer : ElementPtr) : Option ElementPtr :=
  (state.elements pointer).bind (·.next)

theorem State.next_eq (allocated : state.elements pointer = some element) :
    state.next pointer = element.next := by
  simp [State.next, allocated]

structure Tabled (state : State) (buckets : Bucket → List ElementPtr)
    (place : Tid → Option ElementPtr) : Prop where
  chain : ∀ index, Chain (Naming.pointer ElementPtr) state.next (state.hashTable index)
    (buckets index)
  mem_iff : ∀ index pointer, pointer ∈ buckets index ↔
    ∃ tid, bucketOf tid = index ∧ place tid = some pointer
  element : ∀ tid pointer, place tid = some pointer →
    ∃ element, state.elements pointer = some element ∧ element.tid = tid
  below : ∀ tid pointer, place tid = some pointer → pointer < state.nextElement

def State.areaAt (state : State) (place : Tid → Option ElementPtr) (tid : Tid) : Option Tls :=
  (place tid).bind fun pointer => (state.elements pointer).map (·.tls)

namespace Tabled

theorem mem (table : Tabled state buckets place) (placed : place tid = some pointer) :
    pointer ∈ buckets (bucketOf tid) :=
  (table.mem_iff _ _).mpr ⟨tid, rfl, placed⟩

theorem place_injective (table : Tabled state buckets place) {other : Tid}
    (placed : place tid = some pointer) (otherPlaced : place other = some pointer) :
    tid = other := by
  obtain ⟨element, allocated, rfl⟩ := table.element _ _ placed
  obtain ⟨element', allocated', rfl⟩ := table.element _ _ otherPlaced
  rw [allocated, Option.some.injEq] at allocated'
  rw [allocated']

theorem allocated (table : Tabled state buckets place) {index : Bucket}
    (membership : pointer ∈ buckets index) :
    ∃ element, state.elements pointer = some element ∧ place element.tid = some pointer := by
  obtain ⟨tid, -, placed⟩ := (table.mem_iff _ _).mp membership
  obtain ⟨element, allocated, rfl⟩ := table.element _ _ placed
  exact ⟨element, allocated, placed⟩

theorem length_le (table : Tabled state buckets place) (index : Bucket) :
    (buckets index).length ≤ state.nextElement := by
  have bounded : (buckets index).toFinset ⊆ Finset.range state.nextElement := by
    intro pointer membership
    obtain ⟨tid, -, placed⟩ := (table.mem_iff _ _).mp (List.mem_toFinset.mp membership)
    exact Finset.mem_range.mpr (table.below _ _ placed)
  have card := Finset.card_le_card bounded
  rwa [List.toFinset_card_of_nodup (table.chain index).nodup, Finset.card_range] at card

theorem congr (table : Tabled state buckets place)
    (hashTable : after.hashTable = state.hashTable) (elements : after.elements = state.elements)
    (nextElement : after.nextElement = state.nextElement) : Tabled after buckets place where
  chain index := by
    rw [hashTable]
    exact (table.chain index).congr fun pointer _ => by simp [State.next, elements]
  mem_iff := table.mem_iff
  element := by simpa only [elements] using table.element
  below := by simpa only [nextElement] using table.below

/-! ## Searching -/

theorem searchFrom_eq {link : Option ElementPtr} {nodes : List ElementPtr} {fuel : Nat}
    (chain : Chain (Naming.pointer ElementPtr) state.next link nodes)
    (allocated : ∀ pointer ∈ nodes, ∃ element, state.elements pointer = some element)
    (enough : nodes.length < fuel) :
    searchFrom state tid fuel link = .ok (nodes.find? fun pointer =>
      (state.elements pointer).map (·.tid) = some tid) := by
  induction chain generalizing fuel with
  | stop =>
      cases fuel with
      | zero => simp at enough
      | succ fuel => rfl
  | @cons pointer nodes rest inductionHypothesis =>
      cases fuel with
      | zero => simp at enough
      | succ fuel =>
          obtain ⟨element, here⟩ := allocated pointer List.mem_cons_self
          have reached : state.element pointer = .ok element := by
            simpa using here
          have later := @inductionHypothesis fuel
            (fun other membership => allocated other (List.mem_cons_of_mem _ membership))
            (by simpa using enough)
          rw [State.next_eq here] at later
          simp only [Naming.pointer, searchFrom, reached, bind, Except.bind]
          by_cases matching : element.tid = tid
          · simp [matching, here]
          · simp [matching, here, later]

/-- `hash_search` finds the element of every thread that has one. -/
theorem hashSearch_eq (table : Tabled state buckets place) (tid : Tid) :
    hashSearch state tid = .ok (place tid) := by
  rw [hashSearch, searchFrom_eq (table.chain (bucketOf tid))
    (fun pointer membership => (table.allocated membership).imp fun _ => And.left)
    (Nat.lt_succ_of_le (table.length_le _))]
  congr 1
  cases found : (buckets (bucketOf tid)).find? fun pointer =>
      (state.elements pointer).map (·.tid) = some tid with
  | none =>
      cases placed : place tid with
      | none => rfl
      | some pointer =>
          obtain ⟨element, allocated, rfl⟩ := table.element _ _ placed
          have missing := List.find?_eq_none.mp found pointer (table.mem placed)
          simp [allocated] at missing
  | some pointer =>
      obtain ⟨element, allocated, placed⟩ := table.allocated (List.mem_of_find?_eq_some found)
      have matching := List.find?_some found
      rw [allocated] at matching
      have same : element.tid = tid := by simpa using matching
      rw [← same, placed]

theorem element_eq (table : Tabled state buckets place) (placed : place tid = some pointer) :
    ∃ element, state.element pointer = .ok element ∧ element.tid = tid ∧
      state.areaAt place tid = some element.tls := by
  obtain ⟨element, allocated, matching⟩ := table.element _ _ placed
  refine ⟨element, (state.element_eq_ok_iff).mpr allocated, matching, ?_⟩
  simp [State.areaAt, placed, allocated]

theorem areaAt_eq_none_iff (table : Tabled state buckets place) :
    state.areaAt place tid = none ↔ place tid = none := by
  cases placed : place tid with
  | none => simp [State.areaAt, placed]
  | some pointer =>
      obtain ⟨element, -, -, area⟩ := table.element_eq placed
      simp [area]

/-! ## Changing an element -/

theorem update_element (table : Tabled state buckets place)
    (allocated : state.elements pointer = some element) {new : HashElement}
    (sameTid : new.tid = element.tid) (sameNext : new.next = element.next)
    (hashTable : after.hashTable = state.hashTable)
    (elements : after.elements = Function.update state.elements pointer (some new))
    (nextElement : after.nextElement = state.nextElement) : Tabled after buckets place where
  chain index := by
    rw [hashTable]
    refine (table.chain index).congr fun other _ => ?_
    by_cases same : other = pointer
    · subst same
      simp [State.next, elements, allocated, sameNext]
    · simp [State.next, elements, same]
  mem_iff := table.mem_iff
  element tid other placed := by
    by_cases same : other = pointer
    · subst same
      obtain ⟨element', allocated', matching⟩ := table.element _ _ placed
      rw [allocated, Option.some.injEq] at allocated'
      exact ⟨new, by simp [elements], by rw [sameTid, allocated', matching]⟩
    · obtain ⟨element', allocated', matching⟩ := table.element _ _ placed
      exact ⟨element', by simpa [elements, same] using allocated', matching⟩
  below := by simpa only [nextElement] using table.below

theorem areaAt_update (table : Tabled state buckets place) (placed : place tid = some pointer)
    {new : HashElement}
    (elements : after.elements = Function.update state.elements pointer (some new)) :
    after.areaAt place = Function.update (state.areaAt place) tid (some new.tls) := by
  funext other
  by_cases same : other = tid
  · subst same
    simp [State.areaAt, placed, elements]
  · rw [Function.update_of_ne same]
    unfold State.areaAt
    cases otherPlaced : place other with
    | none => rfl
    | some pointer' =>
        have distinct : pointer' ≠ pointer := by
          rintro rfl
          exact same (table.place_injective otherPlaced placed)
        simp [elements, distinct]

/-! ## Inserting an element -/

theorem insert (table : Tabled state buckets place) (absent : place tid = none) (tls : Tls) :
    Tabled (insertElement state tid tls)
      (Function.update buckets (bucketOf tid) (state.nextElement :: buckets (bucketOf tid)))
      (Function.update place tid (some state.nextElement)) := by
  have fresh : ∀ index, state.nextElement ∉ buckets index := by
    intro index membership
    obtain ⟨other, -, placed⟩ := (table.mem_iff _ _).mp membership
    exact Nat.lt_irrefl _ (table.below _ _ placed)
  have unchanged : ∀ index, ∀ pointer ∈ buckets index,
      (insertElement state tid tls).next pointer = state.next pointer := by
    intro index pointer membership
    have distinct : pointer ≠ state.nextElement := ne_of_mem_of_not_mem membership (fresh index)
    simp [State.next, insertElement, distinct]
  have old : ∀ index, Chain (Naming.pointer ElementPtr) (insertElement state tid tls).next
      (state.hashTable index) (buckets index) := fun index =>
    (table.chain index).congr (unchanged index)
  refine ⟨?_, ?_, ?_, ?_⟩
  · intro index
    by_cases same : index = bucketOf tid
    · subst same
      have linked : (insertElement state tid tls).next state.nextElement =
          state.hashTable (bucketOf tid) := by
        simp [State.next, insertElement]
      have head : (insertElement state tid tls).hashTable (bucketOf tid) =
          (Naming.pointer ElementPtr).ref state.nextElement := by
        simp [insertElement, Naming.pointer]
      rw [Function.update_self, head]
      apply Chain.cons
      rw [linked]
      exact old (bucketOf tid)
    · rw [Function.update_of_ne same]
      simpa [insertElement, same] using old index
  · intro index pointer
    have others : (∃ other, bucketOf other = index ∧
        Function.update place tid (some state.nextElement) other = some pointer) ↔
        (bucketOf tid = index ∧ state.nextElement = pointer) ∨
          ∃ other, bucketOf other = index ∧ place other = some pointer := by
      constructor
      · rintro ⟨other, inBucket, placed⟩
        by_cases same : other = tid
        · subst same
          rw [Function.update_self, Option.some.injEq] at placed
          exact .inl ⟨inBucket, placed⟩
        · rw [Function.update_of_ne same] at placed
          exact .inr ⟨other, inBucket, placed⟩
      · rintro (⟨inBucket, rfl⟩ | ⟨other, inBucket, placed⟩)
        · exact ⟨tid, inBucket, by simp⟩
        · refine ⟨other, inBucket, ?_⟩
          rw [Function.update_of_ne, placed]
          rintro rfl
          simp [absent] at placed
    rw [others, ← table.mem_iff]
    by_cases same : index = bucketOf tid
    · subst same
      simp [eq_comm]
    · simp [Function.update_of_ne same, Ne.symm same]
  · intro other pointer placed
    by_cases same : other = tid
    · subst same
      rw [Function.update_self, Option.some.injEq] at placed
      subst placed
      exact ⟨_, by simp [insertElement]; rfl, rfl⟩
    · rw [Function.update_of_ne same] at placed
      obtain ⟨element, allocated, matching⟩ := table.element _ _ placed
      have distinct : pointer ≠ state.nextElement := (table.below _ _ placed).ne
      exact ⟨element, by simpa [insertElement, distinct] using allocated, matching⟩
  · intro other pointer placed
    by_cases same : other = tid
    · subst same
      rw [Function.update_self, Option.some.injEq] at placed
      subst placed
      exact Nat.lt_succ_self _
    · rw [Function.update_of_ne same] at placed
      exact Nat.lt_succ_of_lt (table.below _ _ placed)

theorem areaAt_insert (table : Tabled state buckets place) (tid : Tid) (tls : Tls) :
    (insertElement state tid tls).areaAt (Function.update place tid (some state.nextElement)) =
      Function.update (state.areaAt place) tid (some tls) := by
  funext other
  by_cases same : other = tid
  · subst same
    simp [State.areaAt, insertElement]
  · rw [Function.update_of_ne same]
    unfold State.areaAt
    rw [Function.update_of_ne same]
    cases placed : place other with
    | none => rfl
    | some pointer =>
        have distinct : pointer ≠ state.nextElement := (table.below _ _ placed).ne
        simp [insertElement, distinct]

end Tabled

end EC440.LocalStorage
