import EC440.LocalStorage.Calls

/-!
# tls_destroy in sound states

`tls_destroy` gives up the references of the thread and takes its element out
of the bucket, unless the element is the head of the bucket: then the bucket
keeps pointing to the freed element.
-/

namespace EC440.LocalStorage

open Linked References Outcome

variable {machine : Machine} {state after : State} {buckets : Bucket → List ElementPtr}
  {place : Tid → Option ElementPtr} {tid : Tid} {pointer previous : ElementPtr}
  {element before : HashElement} {first rest : List ElementPtr}

def AtHead (state : State) (tid : Tid) : Prop :=
  ∃ pointer element, state.hashTable (bucketOf tid) = some pointer ∧
    state.elements pointer = some element ∧ element.tid = tid

/-- `element->next` past a removed element, which is then freed. -/
def State.removed (state : State) (previous : ElementPtr) (before : HashElement)
    (pointer : ElementPtr) (element : HashElement) : State :=
  { state with
    elements := Function.update (Function.update state.elements previous
      (some { before with next := element.next })) pointer none }

namespace Tabled

theorem tid_eq_iff (table : Tabled state buckets place) (placed : place tid = some pointer)
    {other : ElementPtr} {index : Bucket} (membership : other ∈ buckets index)
    (found : state.elements other = some element) : element.tid = tid ↔ other = pointer := by
  obtain ⟨element', found', placed'⟩ := table.allocated membership
  obtain rfl : element' = element := by
    rw [found', Option.some.injEq] at found
    exact found
  constructor
  · intro same
    rw [same, placed, Option.some.injEq] at placed'
    exact placed'.symm
  · rintro rfl
    exact table.place_injective placed' placed

theorem findPrevious_eq (table : Tabled state buckets place) (placed : place tid = some pointer)
    {index : Bucket} {temp : ElementPtr} {nodes : List ElementPtr} {fuel : Nat}
    (members : ∀ node ∈ temp :: nodes, node ∈ buckets index)
    (chain : Chain (Naming.pointer ElementPtr) state.next (some temp) (temp :: nodes))
    (later : pointer ∈ nodes) (enough : nodes.length < fuel) :
    ∃ first previous rest, findPrevious state tid fuel temp = .ok previous ∧
      temp :: nodes = first ++ previous :: pointer :: rest := by
  induction nodes generalizing temp fuel with
  | nil => cases later
  | cons node nodes inductionHypothesis =>
      obtain ⟨fuel, rfl⟩ := Nat.exists_eq_succ_of_ne_zero (Nat.ne_of_gt (Nat.zero_lt_of_lt enough))
      obtain ⟨element, found, -⟩ := table.allocated (members temp List.mem_cons_self)
      obtain ⟨element', found', -⟩ := table.allocated
        (members node (List.mem_cons_of_mem _ List.mem_cons_self))
      obtain ⟨-, tail⟩ := Chain.cons_iff.mp chain
      rw [State.next_eq found] at tail
      obtain ⟨link, -⟩ := Chain.cons_iff.mp tail
      have link' : element.next = some node := link
      have reached : state.element temp = .ok element := (state.element_eq_ok_iff).mpr found
      have reached' : state.element node = .ok element' := (state.element_eq_ok_iff).mpr found'
      have here := table.tid_eq_iff placed
        (members node (List.mem_cons_of_mem _ List.mem_cons_self)) found'
      simp only [findPrevious, reached, follow, link', reached', bind, Except.bind]
      by_cases matching : element'.tid = tid
      · obtain rfl := here.mp matching
        exact ⟨[], temp, nodes, by simp [matching], rfl⟩
      · have distinct : pointer ≠ node := fun same => matching (here.mpr same.symm)
        rw [link'] at tail
        obtain ⟨first, previous, rest, run, split⟩ := inductionHypothesis
          (fun other membership => members other (List.mem_cons_of_mem _ membership)) tail
          ((List.mem_cons.mp later).resolve_left distinct) (Nat.lt_of_succ_lt_succ enough)
        refine ⟨temp :: first, previous, rest, ?_, by rw [split]; rfl⟩
        rw [if_pos matching]
        exact run

theorem bucket_unique (table : Tabled state buckets place) {index other : Bucket}
    {node : ElementPtr} (membership : node ∈ buckets index) (otherMembership : node ∈ buckets other) :
    index = other := by
  obtain ⟨owner, bucket, owned⟩ := (table.mem_iff _ _).mp membership
  obtain ⟨owner', bucket', owned'⟩ := (table.mem_iff _ _).mp otherMembership
  obtain rfl := table.place_injective owned owned'
  exact bucket.symm.trans bucket'

theorem mem_erase_iff (table : Tabled state buckets place) (placed : place tid = some pointer)
    (index : Bucket) (node : ElementPtr) :
    (∃ other, bucketOf other = index ∧ Function.update place tid none other = some node) ↔
      node ∈ buckets index ∧ node ≠ pointer := by
  rw [table.mem_iff]
  constructor
  · rintro ⟨other, bucket, owned⟩
    by_cases same : other = tid
    · simp [same] at owned
    · rw [Function.update_of_ne same] at owned
      refine ⟨⟨other, bucket, owned⟩, ?_⟩
      rintro rfl
      exact same (table.place_injective owned placed)
  · rintro ⟨⟨other, bucket, owned⟩, away⟩
    refine ⟨other, bucket, ?_⟩
    rw [Function.update_of_ne, owned]
    rintro rfl
    rw [placed, Option.some.injEq] at owned
    exact away owned.symm

theorem next_removed {node : ElementPtr} (away : node ≠ pointer) :
    (state.removed previous before pointer element).next node =
      Function.update state.next previous element.next node := by
  by_cases same : node = previous
  · subst same
    simp [State.next, State.removed, away]
  · simp [State.next, State.removed, away, same]

theorem remove (table : Tabled state buckets place) (placed : place tid = some pointer)
    (split : buckets (bucketOf tid) = first ++ previous :: pointer :: rest)
    (found : state.elements pointer = some element)
    (foundBefore : state.elements previous = some before) :
    Tabled (state.removed previous before pointer element)
      (Function.update buckets (bucketOf tid) (first ++ previous :: rest))
      (Function.update place tid none) := by
  have nodup := (table.chain (bucketOf tid)).nodup
  rw [split] at nodup
  have absent : pointer ∉ first ++ previous :: rest := by
    simp only [List.nodup_append, List.nodup_cons, List.mem_cons, not_or] at nodup
    simp only [List.mem_append, List.mem_cons, not_or]
    exact ⟨fun inFirst => nodup.2.2 pointer inFirst pointer (.inr (.inl rfl)) rfl,
      fun same => nodup.2.1.1.1 same.symm, nodup.2.1.2.1⟩
  have elsewhere : ∀ index, index ≠ bucketOf tid → ∀ node ∈ buckets index,
      node ≠ pointer ∧ node ≠ previous := by
    intro index other node membership
    have one : ∀ node', node' ∈ buckets (bucketOf tid) → node ≠ node' := by
      rintro node' membership' rfl
      exact other (table.bucket_unique membership membership')
    exact ⟨one _ (by simp [split]), one _ (by simp [split])⟩
  refine ⟨?_, ?_, ?_, ?_⟩
  · intro index
    by_cases same : index = bucketOf tid
    · subst same
      have chain := table.chain (bucketOf tid)
      rw [split] at chain
      have tail := chain
      rw [show first ++ previous :: pointer :: rest = (first ++ [previous]) ++ pointer :: rest by simp]
        at tail
      have suffix := tail.suffix
      rw [State.next_eq found] at suffix
      have fresh : previous ∉ rest := by
        simp only [List.nodup_append, List.nodup_cons, List.mem_cons, not_or] at nodup
        exact nodup.2.1.1.2
      rw [Function.update_self]
      exact (chain.redirect suffix fresh).congr fun node membership =>
        next_removed (ne_of_mem_of_not_mem membership absent)
    · rw [Function.update_of_ne same]
      refine (table.chain index).congr fun node membership => ?_
      obtain ⟨away, away'⟩ := elsewhere index same node membership
      rw [next_removed away, Function.update_of_ne away']
  · intro index node
    rw [table.mem_erase_iff placed]
    by_cases same : index = bucketOf tid
    · subst same
      rw [Function.update_self, split]
      constructor
      · intro membership
        refine ⟨?_, ne_of_mem_of_not_mem membership absent⟩
        simp only [List.mem_append, List.mem_cons] at membership ⊢
        tauto
      · rintro ⟨membership, away⟩
        simp only [List.mem_append, List.mem_cons] at membership ⊢
        tauto
    · rw [Function.update_of_ne same]
      exact ⟨fun membership => ⟨membership, (elsewhere index same node membership).1⟩, And.left⟩
  · intro other node owned
    by_cases same : other = tid
    · simp [same] at owned
    · rw [Function.update_of_ne same] at owned
      obtain ⟨element', found', matching⟩ := table.element _ _ owned
      have away : node ≠ pointer := by
        rintro rfl
        exact same (table.place_injective owned placed)
      by_cases changed : node = previous
      · subst changed
        rw [foundBefore, Option.some.injEq] at found'
        subst found'
        exact ⟨{ before with next := element.next }, by simp [State.removed, away], matching⟩
      · exact ⟨element', by simpa [State.removed, away, changed] using found', matching⟩
  · intro other node owned
    by_cases same : other = tid
    · simp [same] at owned
    · rw [Function.update_of_ne same] at owned
      exact table.below _ _ owned

theorem areaAt_remove (table : Tabled state buckets place) (placed : place tid = some pointer)
    (foundBefore : state.elements previous = some before) (element : HashElement) :
    (state.removed previous before pointer element).areaAt (Function.update place tid none) =
      Function.update (state.areaAt place) tid none := by
  funext other
  by_cases same : other = tid
  · subst same
    simp [State.areaAt]
  · rw [Function.update_of_ne same]
    unfold State.areaAt
    rw [Function.update_of_ne same]
    cases owned : place other with
    | none => rfl
    | some node =>
        have away : node ≠ pointer := by
          rintro rfl
          exact same (table.place_injective owned placed)
        by_cases changed : node = previous
        · subst changed
          simp [State.removed, away, foundBefore]
        · simp [State.removed, away, changed]

theorem head_cases (table : Tabled state buckets place) (placed : place tid = some pointer) :
    (∃ rest, buckets (bucketOf tid) = pointer :: rest) ∨
      ∃ temp nodes, buckets (bucketOf tid) = temp :: nodes ∧ temp ≠ pointer ∧ pointer ∈ nodes := by
  have membership := table.mem placed
  cases bucket : buckets (bucketOf tid) with
  | nil => simp [bucket] at membership
  | cons temp nodes =>
      by_cases same : temp = pointer
      · exact .inl ⟨nodes, by rw [same]⟩
      · rw [bucket, List.mem_cons] at membership
        exact .inr ⟨temp, nodes, rfl, same, membership.resolve_left (Ne.symm same)⟩

theorem hashTable_eq (table : Tabled state buckets place) {index : Bucket} {temp : ElementPtr}
    {nodes : List ElementPtr} (bucket : buckets index = temp :: nodes) :
    state.hashTable index = some temp := by
  have chain := table.chain index
  rw [bucket] at chain
  exact (Chain.cons_iff.mp chain).1

theorem atHead_iff (table : Tabled state buckets place) (placed : place tid = some pointer) :
    AtHead state tid ↔ ∃ rest, buckets (bucketOf tid) = pointer :: rest := by
  constructor
  · rintro ⟨head, element, first, found, matching⟩
    cases bucket : buckets (bucketOf tid) with
    | nil =>
        have chain := table.chain (bucketOf tid)
        rw [bucket, first] at chain
        exact absurd (Chain.nil_iff.mp chain) (by simp [Naming.pointer])
    | cons temp nodes =>
        have same := table.hashTable_eq bucket
        rw [first, Option.some.injEq] at same
        subst same
        have membership : head ∈ buckets (bucketOf tid) := by simp [bucket]
        rw [(table.tid_eq_iff placed membership found).mp matching]
        exact ⟨nodes, rfl⟩
  · rintro ⟨rest, bucket⟩
    obtain ⟨element, found, matching⟩ := table.element _ _ placed
    exact ⟨pointer, element, table.hashTable_eq bucket, found, matching⟩

end Tabled

/-! ## The call -/

theorem tlsDestroy_absent (sound : Sound machine state buckets place) (absent : place tid = none) :
    tlsDestroy state tid = .ok (-1, state) := by
  simp only [tlsDestroy, sound.table.hashSearch_eq, absent, bind, Except.bind]

theorem Sound.released (sound : Sound machine state buckets place) {tls : Tls}
    (area : state.areaAt place tid = some tls) :
    ∃ middle, forSlots tls.pages releasePage tls.pageNum.toNat state = .ok middle ∧
      Untouched state middle ∧
      Backed middle (references (Function.update (state.areaAt place) tid none)) ∧
      ∀ ref q, ref.1 ≠ tid → references (state.areaAt place) ref = some q →
        middle.frameOf q = state.frameOf q := by
  have backed : Backed state (withSlots (references (state.areaAt place)) tid fun index =>
      if index < ([] : List PagePtr).length then none else ([] ++ tls.pages)[index]?) := by
    simpa using references_of_areas area ▸ sound.backed
  obtain ⟨middle, run, untouched, backedMiddle, frames⟩ := releasePages backed
  rw [← references_remove] at backedMiddle
  refine ⟨middle, ?_, untouched, backedMiddle, frames⟩
  rw [← (sound.sized tid tls area).length, forSlots_eq, run]

theorem Sound.taken (sound : Sound machine state buckets place) {middle : State}
    {buckets' : Bucket → List ElementPtr} {elements : ElementPtr → Option HashElement}
    {hashTable : Bucket → Option ElementPtr} (untouched : Untouched state middle)
    (backed : Backed middle (references (Function.update (state.areaAt place) tid none)))
    (table : Tabled { middle with elements, hashTable } buckets' (Function.update place tid none))
    (areas : State.areaAt { middle with elements, hashTable } (Function.update place tid none) =
      Function.update (state.areaAt place) tid none) :
    Sound machine { middle with elements, hashTable } buckets' (Function.update place tid none) := by
  refine ⟨table, ?_, ?_, ?_⟩
  · rw [areas]
    exact backed.of_mapped rfl rfl fun _ frame mapped => ⟨frame, mapped⟩
  · intro other tls here
    rw [areas] at here
    by_cases same : other = tid
    · simp [same] at here
    · rw [Function.update_of_ne same] at here
      obtain ⟨initialized, length, pageNum⟩ := sound.sized other tls here
      exact ⟨untouched.initialized.trans initialized, length, pageNum⟩
  · intro initialized
    have here : state.initialized = true := untouched.initialized.symm.trans initialized
    exact untouched.pageSize.trans (sound.pageSize here)

/-- An element behind the head of its bucket is removed. -/
theorem tlsDestroy_done (sound : Sound machine state buckets place)
    (placed : place tid = some pointer) (behind : ¬AtHead state tid) :
    ∃ after buckets', tlsDestroy state tid = .ok (0, after) ∧
      Sound machine after buckets' (Function.update place tid none) ∧
      after.array machine = Function.update (state.array machine) tid none := by
  rcases sound.table.head_cases placed with ⟨rest, bucket⟩ | ⟨temp, nodes, bucket, away, later⟩
  · exact absurd ((sound.table.atHead_iff placed).mpr ⟨rest, bucket⟩) behind
  obtain ⟨element, found, matching, area⟩ := sound.table.element_eq placed
  obtain ⟨middle, released, untouched, backed, frames⟩ := sound.released area
  have table := sound.table.congr untouched.hashTable untouched.elements untouched.nextElement
  have areas : middle.areaAt place = state.areaAt place := areaAt_congr untouched.elements
  have first := table.hashTable_eq bucket
  have membership : temp ∈ buckets (bucketOf tid) := by simp [bucket]
  obtain ⟨head, foundHead, -⟩ := table.allocated membership
  have chain := table.chain (bucketOf tid)
  rw [first, bucket] at chain
  have enough : nodes.length < middle.nextElement + 1 := by
    have bound := table.length_le (bucketOf tid)
    rw [bucket, List.length_cons] at bound
    omega
  obtain ⟨front, previous, rest, run, split⟩ := table.findPrevious_eq placed
    (fun node membership => by rwa [bucket]) chain later enough
  have split' : buckets (bucketOf tid) = front ++ previous :: pointer :: rest := by
    rw [bucket, split]
  obtain ⟨before, foundBefore, -⟩ := table.allocated
    (show previous ∈ buckets (bucketOf tid) by simp [split'])
  have foundMiddle : middle.elements pointer = some element := by
    rw [untouched.elements]
    exact (state.element_eq_ok_iff).mp found
  have areasAfter := table.areaAt_remove placed foundBefore element
  rw [areas] at areasAfter
  have sound' : Sound machine (middle.removed previous before pointer element)
      (Function.update buckets (bucketOf tid) (front ++ previous :: rest))
      (Function.update place tid none) :=
    sound.taken untouched backed (table.remove placed split' foundMiddle foundBefore) areasAfter
  refine ⟨_, _, ?_, sound', ?_⟩
  · have reachedHead : middle.element temp = .ok head := (middle.element_eq_ok_iff).mpr foundHead
    have reachedBefore : middle.element previous = .ok before :=
      (middle.element_eq_ok_iff).mpr foundBefore
    have other : head.tid ≠ tid := fun same =>
      away ((table.tid_eq_iff placed membership foundHead).mp same)
    simp only [tlsDestroy, sound.table.hashSearch_eq, placed, found, released, unlinkElement, first,
      reachedHead, matching, if_pos other, run, reachedBefore, bind, Except.bind]
    rfl
  · rw [sound'.array_eq, sound.array_eq, areasAfter]
    funext other
    by_cases same : other = tid
    · subst same
      simp [arrayOf]
    · rw [Function.update_of_ne same]
      refine arrayOf_frame (Function.update_of_ne same _ _) fun slot p pointing => ?_
      have frame := frames (other, slot) p same pointing
      exact congrArg _ frame

/-- An element at the head of its bucket is freed, and the bucket still points to it. -/
theorem tlsDestroy_head (sound : Sound machine state buckets place)
    (placed : place tid = some pointer) (head : AtHead state tid) :
    ∃ after, tlsDestroy state tid = .ok (0, after) ∧
      after.hashTable (bucketOf tid) = some pointer ∧ after.elements pointer = none := by
  obtain ⟨rest, bucket⟩ := (sound.table.atHead_iff placed).mp head
  obtain ⟨element, found, matching, area⟩ := sound.table.element_eq placed
  obtain ⟨middle, released, untouched, -⟩ := sound.released area
  have first : middle.hashTable (bucketOf tid) = some pointer := by
    rw [untouched.hashTable]
    exact sound.table.hashTable_eq bucket
  have reached : middle.element pointer = .ok element := by
    rw [State.element_eq_ok_iff, untouched.elements]
    exact (state.element_eq_ok_iff).mp found
  have own : ¬element.tid ≠ element.tid := not_not.mpr rfl
  refine ⟨{ middle with elements := Function.update middle.elements pointer none }, ?_, first,
    Function.update_self ..⟩
  simp only [tlsDestroy, sound.table.hashSearch_eq, placed, found, released, unlinkElement, first,
    reached, if_neg own, bind, Except.bind]

end EC440.LocalStorage
