import EC440.Library.Triples
import EC440.LocalStorage.Removal

/-!
# What calls do to the table

No call but `tls_destroy` takes an element out of the table or changes its
thread or its link.  The calls that create an area put one element at the head
of a bucket.
-/

namespace EC440.LocalStorage

open Linked Outcome

variable {machine : Machine} {kernel : Kernel} {state after middle : State} {tid : Tid}
  {p : PagePtr} {page : Page} {pointer : ElementPtr} {element : HashElement}
  {buckets : Bucket → List ElementPtr} {place : Tid → Option ElementPtr}

def State.links (state : State) (pointer : ElementPtr) : Option (Tid × Option ElementPtr) :=
  (state.elements pointer).map fun element => (element.tid, element.next)

/-- The same table, with whatever areas. -/
structure SameTable (state after : State) : Prop where
  hashTable : after.hashTable = state.hashTable
  links : after.links = state.links
  nextElement : after.nextElement = state.nextElement

namespace SameTable

theorem refl (state : State) : SameTable state state := ⟨rfl, rfl, rfl⟩

theorem trans (first : SameTable state middle) (second : SameTable middle after) :
    SameTable state after :=
  ⟨second.hashTable.trans first.hashTable, second.links.trans first.links,
    second.nextElement.trans first.nextElement⟩

theorem of_elements (hashTable : after.hashTable = state.hashTable)
    (elements : after.elements = state.elements)
    (nextElement : after.nextElement = state.nextElement) : SameTable state after := by
  refine ⟨hashTable, ?_, nextElement⟩
  unfold State.links
  rw [elements]

theorem of_update (found : state.elements pointer = some element) {new : HashElement}
    (sameTid : new.tid = element.tid) (sameNext : new.next = element.next)
    (hashTable : after.hashTable = state.hashTable)
    (elements : after.elements = Function.update state.elements pointer (some new))
    (nextElement : after.nextElement = state.nextElement) : SameTable state after := by
  refine ⟨hashTable, ?_, nextElement⟩
  funext other
  unfold State.links
  rw [elements]
  by_cases here : other = pointer
  · subst here
    simp [found, sameTid, sameNext]
  · simp [here]

theorem elements_eq_none_iff (same : SameTable state after) :
    after.elements pointer = none ↔ state.elements pointer = none := by
  have equal := congrFun same.links pointer
  unfold State.links at equal
  rw [← Option.map_eq_none_iff, equal, Option.map_eq_none_iff]

theorem element_of (same : SameTable state after) (found : state.elements pointer = some element) :
    ∃ element', after.elements pointer = some element' ∧ element'.tid = element.tid ∧
      element'.next = element.next := by
  have equal := congrFun same.links pointer
  simp only [State.links, found, Option.map_some, Option.map_eq_some_iff, Prod.mk.injEq] at equal
  exact equal

theorem symm (same : SameTable state after) : SameTable after state :=
  ⟨same.hashTable.symm, same.links.symm, same.nextElement.symm⟩

theorem next (same : SameTable state after) : after.next = state.next := by
  funext pointer
  have through : ∀ state : State, state.next pointer = (state.links pointer).bind (·.2) := by
    intro state
    unfold State.next State.links
    cases state.elements pointer <;> rfl
  rw [through, through, same.links]

theorem tabled (same : SameTable state after) (table : Tabled state buckets place) :
    Tabled after buckets place := by
  refine ⟨?_, table.mem_iff, ?_, ?_⟩
  · intro index
    rw [same.hashTable, same.next]
    exact table.chain index
  · intro other node placed
    obtain ⟨element, found, matching⟩ := table.element _ _ placed
    obtain ⟨element', found', equal, -⟩ := same.element_of found
    exact ⟨element', found', equal.trans matching⟩
  · intro other node placed
    rw [same.nextElement]
    exact table.below _ _ placed

end SameTable

theorem Tabled.unique {buckets' : Bucket → List ElementPtr} {place' : Tid → Option ElementPtr}
    (table : Tabled state buckets place) (other : Tabled state buckets' place') :
    buckets' = buckets ∧ place' = place := by
  constructor
  · funext index
    exact (other.chain index).unique (table.chain index)
  · funext tid
    exact Except.ok.inj ((other.hashSearch_eq tid).symm.trans (table.hashSearch_eq tid))

/-! ## Operations on pages -/

theorem changeProt_sameTable (prot : Prot) (state : State) (p : PagePtr) :
    Ensures (changeProt prot state p) (SameTable state) := by
  unfold changeProt
  refine .bind_of fun page _ => ?_
  split
  next => exact .error _
  next => exact .ok (.of_elements rfl rfl rfl)

theorem sharePage_sameTable (state : State) (p : PagePtr) :
    Ensures (sharePage state p) (SameTable state) := by
  unfold sharePage
  exact .bind_of fun page _ => .ok (.of_elements rfl rfl rfl)

theorem storeByte_sameTable (state : State) (p : PagePtr) (pageOffset : Nat) (byte : UInt8) :
    Ensures (storeByte state p pageOffset byte) (SameTable state) := by
  unfold storeByte
  refine .bind_of fun page _ => ?_
  refine .ite (fun _ => ?_) fun _ => .error _
  exact .bind_of fun memory _ => .ok (.of_elements rfl rfl rfl)

theorem forSlots_sameTable {body : State → PagePtr → Outcome State}
    (round : ∀ state p, Ensures (body state p) (SameTable state)) (pages : List PagePtr)
    (count : Nat) (state : State) : Ensures (forSlots pages body count state) (SameTable state) := by
  unfold forSlots
  refine .foldlM (fun middle i kept => ?_) _ (.refl state)
  refine .bind_of fun p _ => ?_
  exact (round middle p).mono fun after same => kept.trans same

theorem createPages_sameTable (kernel : Kernel) (count : Nat) (state : State) :
    SameTable state (createPages kernel count state).2 := by
  induction count generalizing state with
  | zero => exact .refl state
  | succ count inductionHypothesis =>
      unfold createPages
      split
      next => exact .refl state
      next address memory _ =>
        have added : SameTable state (addPage state address memory) := .of_elements rfl rfl rfl
        have later := added.trans (inductionHypothesis (addPage state address memory))
        split
        next after tail =>
          rw [tail] at later
          exact later
        next pages after tail =>
          rw [tail] at later
          exact later

theorem ensureInit_sameTable (machine : Machine) (state : State) :
    SameTable state (ensureInit machine state) := by
  unfold ensureInit
  split
  · exact .refl state
  · exact .of_elements rfl rfl rfl

/-! ## The loop of tls_write -/

theorem copyOnWrite_sameTable (found : state.elements pointer = some element) (workingPage : Nat)
    (mainPage : PagePtr) (main : Page) :
    Ensures (copyOnWrite kernel state pointer element workingPage mainPage main)
      fun result => SameTable state result.2 := by
  unfold copyOnWrite
  split
  next => exact .error _
  next address memory _ =>
    refine .bind_of fun source _ => ?_
    refine .bind_of fun stored _ => ?_
    refine .bind (changeProt_sameTable _ _ _) fun after same => .ok ?_
    have sameTid : (setSlot element workingPage state.nextPage).tid = element.tid := rfl
    have sameNext : (setSlot element workingPage state.nextPage).next = element.next := rfl
    have replaced : SameTable state (replaceSlot (addPage state address stored) pointer element
        workingPage mainPage main state.nextPage) :=
      .of_update found sameTid sameNext rfl rfl rfl
    exact replaced.trans same

theorem writeByte_sameTable (state : State) (pointer : ElementPtr) (indx : Int32) (byte : UInt8) :
    Ensures (writeByte kernel pointer state indx byte) (SameTable state) := by
  unfold writeByte
  refine .bind_of fun element reached => ?_
  refine .bind_of fun mainPage _ => ?_
  refine .bind_of fun main _ => ?_
  refine .ite (fun _ => ?_) fun _ => storeByte_sameTable _ _ _ _
  have found := (state.element_eq_ok_iff).mp reached
  refine .bind (copyOnWrite_sameTable found _ _ _) fun result copied => ?_
  exact (storeByte_sameTable _ _ _ _).mono fun after same => copied.trans same

theorem writeLoop_sameTable (pointer : ElementPtr) (limit : UInt32) (buffer : Buffer)
    (fuel : Nat) (state : State) (i : Nat) (indx : Int32) :
    Ensures (writeLoop kernel pointer limit buffer fuel state i indx) (SameTable state) := by
  induction fuel generalizing state i indx with
  | zero => exact .error _
  | succ fuel inductionHypothesis =>
      unfold writeLoop
      refine .ite (fun _ => ?_) fun _ => .ok (.refl state)
      refine .bind (writeByte_sameTable state pointer indx _) fun middle written => ?_
      refine .bind_of fun next _ => ?_
      exact (inductionHypothesis middle _ _).mono fun after same => written.trans same

/-! ## Calls -/

/-- `tls_create` and `tls_clone` -/
def Call.Creates : Call → Prop
  | .create _ | .clone _ => True
  | .write .. | .read .. | .destroy => False

/-- A call keeps the table or puts one element at the head of the bucket of its caller. -/
inductive Relinks (state : State) (tid : Tid) (call : Call) : Int32 → State → Prop
  | same {code : Int32} {after : State} (kept : SameTable state after)
      (failed : call.Creates → code = -1) : Relinks state tid call code after
  | inserted {middle : State} (tls : Tls) (creates : call.Creates)
      (kept : SameTable state middle) : Relinks state tid call 0 (insertElement middle tid tls)

theorem tlsCreate_relinks (machine : Machine) (kernel : Kernel) (state : State) (tid : Tid)
    (size : UInt32) :
    Ensures (tlsCreate machine kernel state tid size)
      fun result => Relinks state tid (.create size) result.1 result.2 := by
  have ready := ensureInit_sameTable machine state
  unfold tlsCreate
  refine .ite (fun _ => .ok (.same ready fun _ => rfl)) fun _ => ?_
  refine .bind_of fun found _ => ?_
  cases found with
  | some pointer => exact .ok (.same ready fun _ => rfl)
  | none =>
      have created := ready.trans (createPages_sameTable kernel
        (pagesFor (ensureInit machine state).pageSize size).toNat (ensureInit machine state))
      simp only
      split
      next after tail =>
        rw [tail] at created
        exact .ok (.same created fun _ => rfl)
      next pages after tail =>
        rw [tail] at created
        exact .ok (.inserted _ trivial created)

theorem tlsClone_relinks (state : State) (tid source : Tid) :
    Ensures (tlsClone state tid source)
      fun result => Relinks state tid (.clone source) result.1 result.2 := by
  unfold tlsClone
  refine .bind_of fun dstElement _ => ?_
  refine .bind_of fun srcElement _ => ?_
  split
  next pointer =>
    refine .bind_of fun element _ => ?_
    refine .bind (forSlots_sameTable sharePage_sameTable _ _ _) fun shared same => ?_
    exact .ok (.inserted _ trivial same)
  next => exact .ok (.same (.refl state) fun _ => rfl)

theorem tlsWrite_sameTable (kernel : Kernel) (state : State) (tid : Tid) (offset length : UInt32)
    (buffer : Buffer) :
    Ensures (tlsWrite kernel state tid offset length buffer)
      fun result => SameTable state result.2 := by
  unfold tlsWrite
  refine .bind_of fun found _ => ?_
  cases found with
  | none => exact .ok (.refl state)
  | some pointer =>
      refine .bind_of fun element _ => ?_
      refine .ite (fun _ => .ok (.refl state)) fun _ => ?_
      refine .bind (forSlots_sameTable (changeProt_sameTable _) _ _ _) fun opened first => ?_
      refine .bind (writeLoop_sameTable pointer _ buffer _ opened _ _) fun written second => ?_
      refine .bind_of fun element' _ => ?_
      refine .bind (forSlots_sameTable (changeProt_sameTable _) _ _ _) fun closed third => ?_
      exact .ok ((first.trans second).trans third)

theorem tlsRead_sameTable (state : State) (tid : Tid) (offset length : UInt32) (buffer : Buffer) :
    Ensures (tlsRead state tid offset length buffer)
      fun result => SameTable state result.2.2 := by
  unfold tlsRead
  refine .bind_of fun found _ => ?_
  cases found with
  | none => exact .ok (.refl state)
  | some pointer =>
      refine .bind_of fun element _ => ?_
      refine .ite (fun _ => .ok (.refl state)) fun _ => ?_
      refine .bind (forSlots_sameTable (changeProt_sameTable _) _ _ _) fun opened first => ?_
      refine .bind_of fun filled _ => ?_
      refine .bind (forSlots_sameTable (changeProt_sameTable _) _ _ _) fun closed second => ?_
      exact .ok (first.trans second)

theorem exec_relinks (machine : Machine) (kernel : Kernel) (state : State) (tid : Tid)
    {call : Call} (lasting : call ≠ .destroy) :
    Ensures (exec machine kernel state tid call)
      fun result => Relinks state tid call result.1.code result.2 := by
  cases call with
  | create size =>
      exact .bind (tlsCreate_relinks machine kernel state tid size) fun _ relinks => .ok relinks
  | write offset length buffer =>
      exact .bind (tlsWrite_sameTable kernel state tid offset length buffer)
        fun _ same => .ok (.same same False.elim)
  | read offset length buffer =>
      exact .bind (tlsRead_sameTable state tid offset length buffer)
        fun _ same => .ok (.same same False.elim)
  | destroy => exact absurd rfl lasting
  | clone source =>
      exact .bind (tlsClone_relinks state tid source) fun _ relinks => .ok relinks

end EC440.LocalStorage
