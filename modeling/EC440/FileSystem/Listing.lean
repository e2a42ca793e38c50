import EC440.FileSystem.Names

/-!
# The list of the files

`fs_listfiles` counts the used entries, allocates an array with room for them
and copies their names.  It keeps the array in its own parameter, which it has
overwritten, so that its caller gets nothing.  `malloc` and `calloc` do not
fail here.
-/

namespace EC440.FileSystem

/-! ## Objects in memory -/

abbrev Address := Nat

/-- What a pointer points to. -/
inductive Object where
  /-- A variable `char **`, with the array that it points to. -/
  | pointer (array : Option Address)
  /-- An array of `char *`. -/
  | pointers (elements : List (Option Address))
  /-- An array of `char`. -/
  | chars (bytes : List UInt8)
  deriving DecidableEq

/-- The objects that exist, each at the address that is its index. -/
abbrev Heap := List Object

namespace Heap

/-- `malloc` and `calloc` -/
def allocate (heap : Heap) (object : Object) : Address × Heap :=
  (heap.length, heap ++ [object])

/-- `*files`, an array, with its address. -/
def array? (heap : Heap) (files : Address) : Option (Address × List (Option Address)) :=
  match heap[files]? with
  | some (.pointer (some array)) =>
      match heap[array]? with
      | some (.pointers elements) => some (array, elements)
      | _ => none
  | _ => none

/-- `(*files)[i] = pointer` -/
def setElement (heap : Heap) (files : Address) (i : Nat) (pointer : Option Address) :
    Option Heap := do
  let (array, elements) ← heap.array? files
  if i < elements.length then some (heap.set array (.pointers (elements.set i pointer))) else none

end Heap

/-- What `strncpy(_, name, MAX_F_NAME)` writes. -/
def NameField.copied (name : NameField) : List UInt8 :=
  (name.text ++ List.replicate maxFName 0).take maxFName

/-- `strncpy((*files)[i], name, MAX_F_NAME)` -/
def Heap.copyName (heap : Heap) (files : Address) (i : Nat) (name : NameField) : Option Heap := do
  let (_, elements) ← heap.array? files
  let target ← elements[i]?.join
  match heap[target]? with
  | some (.chars bytes) =>
      if maxFName ≤ bytes.length then
        some (heap.set target (.chars (name.copied ++ bytes.drop maxFName)))
      else none
  | _ => none

/-! ## fs_listfiles -/

/-- The loop that counts the used entries. -/
def countUsed (dir : Directory) : List Slot → Nat → Nat
  | [], counter => counter
  | i :: slots, counter => countUsed dir slots (if (dir i).used ≠ 0 then counter + 1 else counter)

/-- The loop that allocates the names, at its condition. -/
def allocateNames (garbage : Nat → Fin maxFName → UInt8) (files : Address) :
    Nat → Nat → Heap → Option Heap
  | 0, _, heap => some heap
  | remaining + 1, i, heap => do
      let (name, heap) := heap.allocate (.chars (List.ofFn (garbage i)))
      let heap ← heap.setElement files i (some name)
      allocateNames garbage files remaining (i + 1) heap

/-- The loop that copies the names. -/
def copyNames (dir : Directory) (files : Address) : List Slot → Nat → Heap → Option Heap
  | [], _, heap => some heap
  | i :: slots, counter, heap =>
      if (dir i).used ≠ 0 then do
        let heap ← heap.copyName files counter (dir i).name
        copyNames dir files slots (counter + 1) heap
      else copyNames dir files slots counter heap

/-- `fs_listfiles(files)`: the return value, and what becomes of the state and of the memory.  The
parameter gets another value before it is used, and `garbage` is what `malloc` finds. -/
def fsListfiles (garbage : Nat → Fin maxFName → UInt8) (state : State) (heap : Heap)
    (_files : Address) : Option (Int32 × State × Heap) := do
  let slots := List.finRange maxFNum
  let counter := countUsed state.dir slots 0
  let (files, heap) := heap.allocate (.pointer none)
  let (array, heap) := heap.allocate (.pointers (List.replicate (counter + 1) none))
  let heap := heap.set files (.pointer (some array))
  let heap ← allocateNames garbage files (counter + 1) 0 heap
  let heap ← heap.setElement files counter none
  let heap ← copyNames state.dir files slots 0 heap
  some (0, state, heap)

/-! ## What it is for -/

def usedSlots (dir : Directory) : List Slot :=
  (List.finRange maxFNum).filter fun slot => (dir slot).used ≠ 0

/-- The variable points to an array of the names of the used entries, each terminated, with a
`NULL` behind them. -/
def Listed (dir : Directory) (heap : Heap) (out : Address) : Prop :=
  ∃ array names, heap[out]? = some (.pointer (some array)) ∧
    heap[array]? = some (.pointers (names.map some ++ [none])) ∧
    List.Forall₂ (fun name slot => ∃ bytes, heap[name]? = some (.chars bytes) ∧
      (dir slot).name.text ++ [0] <+: bytes) names (usedSlots dir)

/-- `fs_listfiles(&out)` returns 0, the state is what it was, and the names are listed. -/
def ListsFiles (garbage : Nat → Fin maxFName → UInt8) (state : State) (heap : Heap)
    (out : Address) : Prop :=
  ∃ after, fsListfiles garbage state heap out = some (0, state, after) ∧
    Listed state.dir after out

/-- Whatever points somewhere points to an object that exists. -/
def Heap.Closed (heap : Heap) : Prop :=
  (∀ array, .pointer (some array) ∈ heap → array < heap.length) ∧
    ∀ elements, .pointers elements ∈ heap → ∀ element, some element ∈ elements →
      element < heap.length

/-! ## The array in the parameter -/

section Passes

variable {dir : Directory} {heap : Heap} {elements : List (Option Address)} {blocks : List Object}
  {garbage : Nat → Fin maxFName → UInt8}

/-- Behind what was there before: the parameter, the array and the names. -/
def listing (heap : Heap) (elements : List (Option Address)) (blocks : List Object) : Heap :=
  heap ++ .pointer (some (heap.length + 1)) :: .pointers elements :: blocks

@[simp] theorem array?_listing :
    (listing heap elements blocks).array? heap.length = some (heap.length + 1, elements) := by
  simp [Heap.array?, listing]

theorem set_listing (array : List (Option Address)) :
    (listing heap elements blocks).set (heap.length + 1) (.pointers array) =
      listing heap array blocks := by
  simp [listing]

theorem listing_block (i : Nat) :
    (listing heap elements blocks)[heap.length + 2 + i]? = blocks[i]? := by
  rw [listing, Nat.add_assoc, List.getElem?_append_right (Nat.le_add_right ..),
    Nat.add_sub_cancel_left, Nat.add_comm 2]
  rfl

theorem set_listing_block (i : Nat) (object : Object) :
    (listing heap elements blocks).set (heap.length + 2 + i) object =
      listing heap elements (blocks.set i object) := by
  rw [listing, Nat.add_assoc, List.set_append_right _ _ (Nat.le_add_right ..),
    Nat.add_sub_cancel_left, Nat.add_comm 2]
  rfl

theorem setElement_listing {i : Nat} {pointer : Option Address} (inside : i < elements.length) :
    (listing heap elements blocks).setElement heap.length i pointer =
      some (listing heap (elements.set i pointer) blocks) := by
  simp only [Heap.setElement, array?_listing, Option.bind_eq_bind, Option.bind_some, inside,
    if_true, set_listing]

theorem length_listing :
    (listing heap elements blocks).length = heap.length + 2 + blocks.length := by
  simp only [listing, List.length_append, List.length_cons]
  omega

theorem allocate_listing (object : Object) :
    (listing heap elements blocks).allocate object =
      (heap.length + 2 + blocks.length, listing heap elements (blocks ++ [object])) := by
  rw [Heap.allocate, length_listing]
  simp [listing]

theorem copyName_listing {i : Nat} {bytes : List UInt8} (name : NameField)
    (element : elements[i]? = some (some (heap.length + 2 + i)))
    (block : blocks[i]? = some (.chars bytes)) (size : bytes.length = maxFName) :
    (listing heap elements blocks).copyName heap.length i name =
      some (listing heap elements (blocks.set i (.chars name.copied))) := by
  have target := (@listing_block heap elements blocks i).trans block
  have whole : bytes.drop maxFName = [] := List.drop_eq_nil_of_le (Nat.le_of_eq size)
  simp only [Heap.copyName, array?_listing, Option.bind_eq_bind, Option.bind_some, element,
    Option.join_some, target, size, Nat.le_refl, if_true, whole, List.append_nil,
    set_listing_block]

/-! ## The loops -/

theorem allocateNames_listing {done : List (Option Address)} {i : Nat} (remaining : Nat)
    (isDone : done.length = i) (isAllocated : blocks.length = i) :
    allocateNames garbage heap.length remaining i
        (listing heap (done ++ List.replicate remaining none) blocks) =
      some (listing heap
        (done ++ (List.range' (heap.length + 2 + i) remaining).map some)
        (blocks ++ (List.range' i remaining).map fun i => .chars (List.ofFn (garbage i)))) := by
  induction remaining generalizing done blocks i with
  | zero => simp [allocateNames]
  | succ remaining inductionHypothesis =>
      have inside : i < (done ++ List.replicate (remaining + 1) none).length := by
        simp only [List.length_append, List.length_replicate]
        omega
      have stored : (done ++ List.replicate (remaining + 1) none).set i
          (some (heap.length + 2 + i)) =
            done ++ [some (heap.length + 2 + i)] ++ List.replicate remaining none := by
        rw [List.set_append_right _ _ (Nat.le_of_eq isDone), isDone, Nat.sub_self]
        simp [List.replicate_succ]
      have round := @inductionHypothesis
        (blocks ++ [.chars (List.ofFn (garbage i))]) (done ++ [some (heap.length + 2 + i)]) (i + 1)
        (by rw [List.length_append, isDone]; rfl) (by rw [List.length_append, isAllocated]; rfl)
      simp only [allocateNames, allocate_listing, isAllocated, setElement_listing inside,
        Option.bind_eq_bind, Option.bind_some, stored, round]
      simp [List.range'_succ, Nat.add_assoc]

theorem countUsed_eq (dir : Directory) (slots : List Slot) (counter : Nat) :
    countUsed dir slots counter =
      counter + (slots.filter fun slot => (dir slot).used ≠ 0).length := by
  induction slots generalizing counter with
  | nil => rfl
  | cons slot slots inductionHypothesis =>
      rw [countUsed, inductionHypothesis]
      by_cases used : (dir slot).used ≠ 0
      · rw [if_pos used, List.filter_cons_of_pos (by simpa using used), List.length_cons]
        omega
      · rw [if_neg used, List.filter_cons_of_neg (by simpa using used)]

theorem copyNames_listing {front fresh last : List Object} {counter : Nat} {slots : List Slot}
    (isFront : front.length = counter)
    (isFresh : fresh.length = (slots.filter fun slot => (dir slot).used ≠ 0).length)
    (areChars : ∀ object ∈ fresh, ∃ bytes, object = .chars bytes ∧ bytes.length = maxFName)
    (areElements : ∀ i < counter + fresh.length,
      elements[i]? = some (some (heap.length + 2 + i))) :
    copyNames dir heap.length slots counter (listing heap elements (front ++ fresh ++ last)) =
      some (listing heap elements
        (front ++ (slots.filter fun slot => (dir slot).used ≠ 0).map
          (fun slot => .chars (dir slot).name.copied) ++ last)) := by
  induction slots generalizing front fresh counter with
  | nil =>
      rw [List.eq_nil_of_length_eq_zero isFresh]
      simp [copyNames]
  | cons slot slots inductionHypothesis =>
      by_cases used : (dir slot).used ≠ 0
      · rw [List.filter_cons_of_pos (by simpa using used)] at isFresh ⊢
        obtain ⟨object, fresh, rfl⟩ := List.exists_cons_of_length_eq_add_one isFresh
        rcases areChars object List.mem_cons_self with ⟨bytes, rfl, size⟩
        have element := areElements counter (Nat.lt_add_of_pos_right (Nat.succ_pos _))
        have block : (front ++ .chars bytes :: fresh ++ last)[counter]? = some (.chars bytes) := by
          simp [← isFront]
        have filled : (front ++ .chars bytes :: fresh ++ last).set counter
            (.chars (dir slot).name.copied) =
              front ++ [.chars (dir slot).name.copied] ++ fresh ++ last := by
          simp [← isFront]
        have round := @inductionHypothesis (front ++ [.chars (dir slot).name.copied]) fresh
          (counter + 1) (by rw [List.length_append, isFront]; rfl) (Nat.succ.inj isFresh)
          (fun object isFresh => areChars object (List.mem_cons_of_mem _ isFresh))
          (fun i bound => areElements i (by rw [List.length_cons]; omega))
        rw [copyNames, if_pos used, copyName_listing _ element block size]
        simp only [Option.bind_eq_bind, Option.bind_some, filled, round]
        simp
      · rw [List.filter_cons_of_neg (by simpa using used)] at isFresh ⊢
        rw [copyNames, if_neg used]
        exact inductionHypothesis isFront isFresh areChars areElements

/-- The array that is built: a copy of each name, a `NULL`, and an array of characters that
nothing points to. -/
theorem fsListfiles_eq (garbage : Nat → Fin maxFName → UInt8) (state : State) (heap : Heap)
    (files : Address) :
    fsListfiles garbage state heap files =
      some (0, state, listing heap
        ((List.range' (heap.length + 2) (usedSlots state.dir).length).map some ++ [none])
        ((usedSlots state.dir).map (fun slot => .chars (state.dir slot).name.copied) ++
          [.chars (List.ofFn (garbage (usedSlots state.dir).length))])) := by
  have counter : countUsed state.dir (List.finRange maxFNum) 0 =
      (usedSlots state.dir).length := by
    rw [countUsed_eq, Nat.zero_add]
    rfl
  generalize isCounter : (usedSlots state.dir).length = n at counter ⊢
  have allocated (array : List (Option Address)) :
      (heap ++ [Object.pointer none] ++ [Object.pointers array]).set heap.length
        (.pointer (some (heap ++ [Object.pointer none]).length)) = listing heap array [] := by
    simp [listing]
  have names := @allocateNames_listing heap [] garbage [] 0 (n + 1) rfl rfl
  simp only [List.nil_append, Nat.add_zero] at names
  have terminated : ((List.range' (heap.length + 2) (n + 1)).map some).set n none =
      (List.range' (heap.length + 2) n).map some ++ [none] := by
    rw [List.range'_1_concat, List.map_append, List.set_append_right _ _ (by simp)]
    simp
  have inside : n < ((List.range' (heap.length + 2) (n + 1)).map (some : Address → _)).length := by
    simp
  have last : (List.range' 0 (n + 1)).map (fun i => Object.chars (List.ofFn (garbage i))) =
      [] ++ (List.range' 0 n).map (fun i => Object.chars (List.ofFn (garbage i))) ++
        [.chars (List.ofFn (garbage n))] := by
    rw [List.range'_1_concat, List.map_append]
    simp
  have copied := @copyNames_listing state.dir heap
    ((List.range' (heap.length + 2) n).map some ++ [none]) []
    ((List.range' 0 n).map fun i => .chars (List.ofFn (garbage i)))
    [.chars (List.ofFn (garbage n))] 0 (List.finRange maxFNum) rfl ?_ ?_ ?_
  · simp only [fsListfiles, counter, Heap.allocate, allocated, names, Option.bind_eq_bind,
      Option.bind_some, setElement_listing inside, terminated, last, copied]
    rfl
  · rw [List.length_map, List.length_range', ← isCounter]
    rfl
  · intro object isObject
    rcases List.mem_map.mp isObject with ⟨i, -, rfl⟩
    exact ⟨_, rfl, List.length_ofFn⟩
  · intro i bound
    rw [List.length_map, List.length_range', Nat.zero_add] at bound
    rw [List.getElem?_append_left (by simpa using bound)]
    simp [bound]

end Passes

/-! ## What the caller gets -/

section Caller

variable {dir : Directory} {state : State} {heap built : Heap} {out : Address}
  {content : Option Address}

theorem getElem?_extended {address : Address} {object : Object}
    (isThere : heap[address]? = some object) : (heap ++ built)[address]? = some object := by
  rw [List.getElem?_append_left (List.getElem?_eq_some_iff.mp isThere).1, isThere]

theorem Listed.extend (listed : Listed dir heap out) : Listed dir (heap ++ built) out := by
  rcases listed with ⟨array, names, isOut, isArray, copies⟩
  refine ⟨array, names, getElem?_extended isOut, getElem?_extended isArray, copies.imp ?_⟩
  rintro name slot ⟨bytes, isName, isText⟩
  exact ⟨bytes, getElem?_extended isName, isText⟩

theorem Listed.of_extended (closed : heap.Closed) (isOut : heap[out]? = some (.pointer content))
    (listed : Listed dir (heap ++ built) out) : Listed dir heap out := by
  rcases listed with ⟨array, names, isOut', isArray, copies⟩
  rw [getElem?_extended isOut, Option.some.injEq, Object.pointer.injEq] at isOut'
  subst isOut'
  have inside := closed.1 array (List.mem_of_getElem? isOut)
  rw [List.getElem?_append_left inside] at isArray
  refine ⟨array, names, isOut, isArray, ?_⟩
  have areInside : ∀ name ∈ names, name < heap.length := by
    intro name isName
    apply closed.2 _ (List.mem_of_getElem? isArray) name
    exact List.mem_append_left _ (List.mem_map_of_mem isName)
  clear isArray
  generalize usedSlots dir = slots at copies ⊢
  induction copies with
  | nil => exact .nil
  | cons copy _ inductionHypothesis =>
      rcases copy with ⟨bytes, isName, isText⟩
      rw [List.getElem?_append_left (areInside _ List.mem_cons_self)] at isName
      exact .cons ⟨bytes, isName, isText⟩ (inductionHypothesis fun name isName =>
        areInside name (List.mem_cons_of_mem _ isName))

/-- A copy is terminated if and only if there is room for the NUL behind the name. -/
theorem NameField.terminated_copied_iff (name : NameField) :
    name.text ++ [0] <+: name.copied ↔ name.text.length < maxFName := by
  constructor
  · intro isPrefix
    have size : name.copied.length ≤ maxFName := List.length_take_le ..
    have short := isPrefix.length_le
    rw [List.length_append, List.length_singleton] at short
    omega
  · intro short
    obtain ⟨n, room⟩ : ∃ n, min (maxFName - name.text.length) maxFName = n + 1 :=
      ⟨maxFName - name.text.length - 1, by omega⟩
    rw [copied, List.take_append, List.take_of_length_le short.le, List.take_replicate, room,
      List.replicate_succ]
    exact ⟨List.replicate n 0, by simp⟩

theorem copies_terminated_iff (elements : List (Option Address)) (front last : List Object)
    (slots : List Slot) :
    List.Forall₂ (fun name slot => ∃ bytes,
        (listing heap elements (front ++ slots.map (fun slot => .chars (dir slot).name.copied) ++
          last))[name]? = some (.chars bytes) ∧ (dir slot).name.text ++ [0] <+: bytes)
        (List.range' (heap.length + 2 + front.length) slots.length) slots ↔
      ∀ slot ∈ slots, (dir slot).name.text.length < maxFName := by
  induction slots generalizing front with
  | nil => simp
  | cons slot slots inductionHypothesis =>
      have blocks : front ++ (slot :: slots).map (fun slot => .chars (dir slot).name.copied) ++
          last = front ++ [.chars (dir slot).name.copied] ++
            slots.map (fun slot => .chars (dir slot).name.copied) ++ last := by
        simp
      have first : (front ++ [.chars (dir slot).name.copied] ++
          slots.map (fun slot => .chars (dir slot).name.copied) ++ last)[front.length]? =
            some (.chars (dir slot).name.copied) := by
        simp
      have others := inductionHypothesis (front ++ [.chars (dir slot).name.copied])
      rw [List.length_append, List.length_singleton, ← Nat.add_assoc] at others
      rw [blocks, List.length_cons, List.range'_succ, List.forall₂_cons, others,
        listing_block, first, List.forall_mem_cons, ← NameField.terminated_copied_iff]
      simp only [Option.some.injEq, Object.chars.injEq, exists_eq_left']

/-- The array that is built lists the files if and only if no name fills its copy. -/
theorem fsListfiles_builds_iff (garbage : Nat → Fin maxFName → UInt8) (state : State) (heap : Heap)
    (files : Address) :
    ∃ after, fsListfiles garbage state heap files = some (0, state, after) ∧
      (Listed state.dir after heap.length ↔
        ∀ slot, state.Used slot → (state.dir slot).name.text.length < maxFName) := by
  refine ⟨_, fsListfiles_eq garbage state heap files, ?_⟩
  have areUsed : (∀ slot, state.Used slot → (state.dir slot).name.text.length < maxFName) ↔
      ∀ slot ∈ usedSlots state.dir, (state.dir slot).name.text.length < maxFName := by
    simp [usedSlots, State.Used]
  have isVariable (elements : List (Option Address)) (blocks : List Object) :
      (listing heap elements blocks)[heap.length]? = some (.pointer (some (heap.length + 1))) := by
    simp [listing]
  have isArray (elements : List (Option Address)) (blocks : List Object) :
      (listing heap elements blocks)[heap.length + 1]? = some (.pointers elements) := by
    simp [listing]
  rw [areUsed, ← @copies_terminated_iff state.dir heap
    ((List.range' (heap.length + 2) (usedSlots state.dir).length).map some ++ [none]) []
    [.chars (List.ofFn (garbage (usedSlots state.dir).length))]]
  constructor
  · rintro ⟨array, names, isOut, isNames, copies⟩
    rw [isVariable, Option.some.injEq, Object.pointer.injEq, Option.some.injEq] at isOut
    subst isOut
    rw [isArray, Option.some.injEq, Object.pointers.injEq, List.append_left_inj] at isNames
    rwa [← List.map_injective_iff.mpr (Option.some_injective Address) isNames] at copies
  · intro copies
    exact ⟨_, _, isVariable _ _, isArray _ _, copies⟩

theorem Heap.Closed.listing {elements : List (Option Address)} {blocks : List Object}
    (closed : heap.Closed) (areChars : ∀ object ∈ blocks, ∃ bytes, object = .chars bytes)
    (areInside : ∀ element, some element ∈ elements → element < heap.length + 2 + blocks.length) :
    (listing heap elements blocks).Closed := by
  have isOld {object : Object} (isThere : object ∈ FileSystem.listing heap elements blocks)
      (notChars : ∀ bytes, object ≠ .chars bytes) :
      object ∈ heap ∨ object = .pointer (some (heap.length + 1)) ∨ object = .pointers elements := by
    rcases List.mem_append.mp isThere with inHeap | isNew
    · exact .inl inHeap
    · rcases List.mem_cons.mp isNew with isPointer | isNew
      · exact .inr (.inl isPointer)
      · rcases List.mem_cons.mp isNew with isArray | isBlock
        · exact .inr (.inr isArray)
        · rcases areChars object isBlock with ⟨bytes, isChars⟩
          exact absurd isChars (notChars bytes)
  constructor
  · intro array isThere
    rw [length_listing]
    rcases isOld isThere (fun bytes => Object.noConfusion) with inHeap | isPointer | isArray
    · have inside := closed.1 array inHeap
      omega
    · cases isPointer
      omega
    · cases isArray
  · intro array isThere element isElement
    rw [length_listing]
    rcases isOld isThere (fun bytes => Object.noConfusion) with inHeap | isPointer | isArray
    · have inside := closed.2 array inHeap element isElement
      omega
    · cases isPointer
    · cases isArray
      exact areInside element isElement

/-- Nothing points outside the memory afterwards, either. -/
theorem Heap.Closed.fsListfiles {garbage : Nat → Fin maxFName → UInt8} {code : Int32}
    {state' : State} {after : Heap} (closed : heap.Closed)
    (done : fsListfiles garbage state heap out = some (code, state', after)) : after.Closed := by
  rw [fsListfiles_eq] at done
  cases done
  apply closed.listing
  · intro object isBlock
    simp only [List.mem_append, List.mem_map, List.mem_singleton] at isBlock
    rcases isBlock with ⟨slot, -, rfl⟩ | rfl
    · exact ⟨_, rfl⟩
    · exact ⟨_, rfl⟩
  · intro element isElement
    simp only [List.mem_append, List.mem_map, List.mem_singleton, Option.some.injEq,
      exists_eq_right, reduceCtorEq, or_false, List.mem_range'_1] at isElement
    rw [List.length_append, List.length_map]
    exact Nat.lt_of_lt_of_le isElement.2 (Nat.add_le_add_left (Nat.le_add_right ..) _)

/-- The caller has a list of the files afterwards if and only if it had one before. -/
theorem fsListfiles_lists_iff (garbage : Nat → Fin maxFName → UInt8) (state : State) (heap : Heap)
    (out : Address) (closed : heap.Closed) (isOut : heap[out]? = some (.pointer content)) :
    ListsFiles garbage state heap out ↔ Listed state.dir heap out := by
  constructor
  · rintro ⟨after, done, listed⟩
    rw [fsListfiles_eq] at done
    cases done
    exact listed.of_extended closed isOut
  · intro listed
    exact ⟨_, fsListfiles_eq garbage state heap out, listed.extend⟩

/-- With one file: a variable that points to its name already is left so, one that holds `NULL`
gets nothing. -/
theorem fsListfiles_lists_iff_firstFile : ∃ start created, FreshMount mountOnly start ∧
    fsCreate start fileName = .ok (0, created) ∧ usedSlots created.dir = [63] ∧
    ListsFiles (fun _ _ => 0) created
      [.pointer (some 1), .pointers [some 2, none], .chars [102, 0]] 0 ∧
    ¬ListsFiles (fun _ _ => 0) created [.pointer none] 0 := by
  obtain ⟨start, fresh, dir, fat, fildes⟩ :=
    exists_freshMount (by decide : mountOnly .fildesReset = true)
  obtain ⟨creates, -⟩ := firstFile mountOnly fresh.start.superBlock dir fat fildes
  have used (slot : Slot) : ((start.created 63 10 fileName).dir slot).used ≠ 0 ↔ slot = 63 := by
    constructor
    · intro isUsed
      by_contra other
      apply fresh.unused slot
      simpa [State.Used, State.created, other] using isUsed
    · rintro rfl
      simp [State.created]
  have slots : usedSlots (start.created 63 10 fileName).dir = [63] := by
    have only : (List.finRange maxFNum).filter (fun slot => decide (slot = 63)) = [63] := by decide
    rw [← only, usedSlots]
    exact List.filter_congr fun slot _ => decide_eq_decide.mpr (used slot)
  have text : ((start.created 63 10 fileName).dir 63).name.text = [102] := by
    have copied := NameField.text_strcpy (start.dir 63).name fileName (by decide)
    simpa [State.created] using copied.trans (by rfl : fileName.bytes = [102])
  have closed : Heap.Closed [.pointer (some 1), .pointers [some 2, none], .chars [102, 0]] := by
    simp [Heap.Closed]
  have closed' : Heap.Closed [.pointer none] := by
    simp [Heap.Closed]
  refine ⟨start, _, fresh, creates, slots, ?_, fun lists => ?_⟩
  · refine (fsListfiles_lists_iff _ _ _ 0 closed rfl).mpr ⟨1, [2], rfl, rfl, ?_⟩
    rw [slots]
    refine .cons ⟨[102, 0], rfl, ?_⟩ .nil
    rw [text]
    exact List.prefix_refl _
  · rcases (fsListfiles_lists_iff _ _ _ 0 closed' rfl).mp lists with ⟨array, names, isOut, -⟩
    cases isOut

/-- A directory with one file is not listed. -/
theorem fsListfiles_lists_iff_broken : ¬∀ (tolerance : Tolerance) (start state : State)
    (garbage : Nat → Fin maxFName → UInt8) (heap : Heap) (out : Address) (content : Option Address),
    FreshMount tolerance start → Life tolerance start state → heap.Closed →
    heap[out]? = some (.pointer content) → ListsFiles garbage state heap out := by
  intro always
  obtain ⟨start, fresh, dir, fat, fildes⟩ :=
    exists_freshMount (by decide : mountOnly .fildesReset = true)
  obtain ⟨creates, -⟩ := firstFile mountOnly fresh.start.superBlock dir fat fildes
  have life : Life mountOnly start (start.created 63 10 fileName) :=
    Relation.ReflTransGen.single (.call (fun _ _ => 0) (.create fileName) 0 trivial creates)
  have closed : Heap.Closed [.pointer none] := by
    simp [Heap.Closed]
  rcases always mountOnly start _ (fun _ _ => 0) _ 0 none fresh life closed rfl with
    ⟨after, done, listed⟩
  rw [fsListfiles_eq] at done
  cases done
  rcases Listed.of_extended closed rfl listed with ⟨array, names, isOut, -⟩
  cases isOut

end Caller

end EC440.FileSystem
