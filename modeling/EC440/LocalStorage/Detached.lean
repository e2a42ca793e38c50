import EC440.LocalStorage.Lives
import EC440.LocalStorage.Repairs
import EC440.LocalStorage.Sharing

/-!
# Calls that search whole buckets

A call searches the bucket of its caller, and `tls_clone` that of the other
thread too.  On a state with other heads in the remaining buckets it does the
same.
-/

namespace EC440.LocalStorage

open Outcome

variable {machine : Machine} {kernel : Kernel} {state after : State} {tid source : Tid}
  {table : Bucket → Option ElementPtr} {call : Call}

/-- The heads after a call of `tid` that returned `code`. -/
def relinked (table : Bucket → Option ElementPtr) (tid : Tid) (code : Int32) (after : State) :
    Bucket → Option ElementPtr :=
  if code = 0 then Function.update table (bucketOf tid) (after.hashTable (bucketOf tid)) else table

theorem relinked_failed {code : Int32} (failed : code ≠ 0) (after : State) :
    relinked table tid code after = table :=
  if_neg failed

theorem relinked_same (same : table (bucketOf tid) = after.hashTable (bucketOf tid))
    (code : Int32) : relinked table tid code after = table := by
  unfold relinked
  split
  · rw [← same, Function.update_eq_self]
  · rfl

theorem insertElement_withTable (state : State) (tls : Tls)
    (same : table (bucketOf tid) = state.hashTable (bucketOf tid)) :
    insertElement (state.withTable table) tid tls =
      (insertElement state tid tls).withTable (relinked table tid 0 (insertElement state tid tls)) := by
  have next : (state.withTable table).hashTable (bucketOf tid) = state.hashTable (bucketOf tid) :=
    same
  have head : (insertElement state tid tls).hashTable (bucketOf tid) = some state.nextElement :=
    Function.update_self _ _ _
  rw [relinked, if_pos rfl, head]
  unfold insertElement
  simp only [next]
  rfl

theorem ensureInit_withTable (machine : Machine) (state : State)
    (table : Bucket → Option ElementPtr) :
    ensureInit machine (state.withTable table) = (ensureInit machine state).withTable table := by
  unfold ensureInit
  cases initialized : state.initialized with
  | true => simp [State.withTable, initialized]
  | false => simp [State.withTable, initialized, tlsInit]

theorem tlsCreate_withTable (machine : Machine) (kernel : Kernel) {size : UInt32}
    (whole : size ≠ 0 → table (bucketOf tid) = state.hashTable (bucketOf tid)) :
    tlsCreate machine kernel (state.withTable table) tid size =
      (fun result => (result.1, result.2.withTable (relinked table tid result.1 result.2))) <$>
        tlsCreate machine kernel state tid size := by
  have failed : (-1 : Int32) ≠ 0 := by decide
  have ready := ensureInit_sameTable machine state
  have relink : ∀ middle : State, relinked table tid (-1) middle = table :=
    relinked_failed failed
  simp only [tlsCreate, ensureInit_withTable]
  by_cases empty : size ≤ 0
  · simp only [if_pos empty, Functor.map, Except.map, relink]
  · have positive : size ≠ 0 := by
      rintro rfl
      exact empty (UInt32.le_refl 0)
    have here := whole positive
    rw [← ready.hashTable] at here
    simp only [if_neg empty, hashSearch_live here]
    cases hashSearch (ensureInit machine state) tid with
    | error reason => rfl
    | ok found =>
        cases found with
        | some pointer => simp only [bind, Except.bind, Functor.map, Except.map, relink]
        | none =>
            have pageSize : ((ensureInit machine state).withTable table).pageSize =
                (ensureInit machine state).pageSize := rfl
            have created := createPages_sameTable kernel
              (pagesFor (ensureInit machine state).pageSize size).toNat (ensureInit machine state)
            simp only [bind, Except.bind, pageSize, createPages_withTable]
            rcases run : createPages kernel (pagesFor (ensureInit machine state).pageSize size).toNat
              (ensureInit machine state) with ⟨pages, middle⟩
            rw [run] at created
            rw [← created.hashTable] at here
            cases pages with
            | none => simp only [Functor.map, Except.map, relink]
            | some pages =>
                simp only [Functor.map, Except.map, insertElement_withTable middle _ here]

theorem tlsClone_withTable (dst : table (bucketOf tid) = state.hashTable (bucketOf tid))
    (src : table (bucketOf source) = state.hashTable (bucketOf source)) :
    tlsClone (state.withTable table) tid source =
      (fun result => (result.1, result.2.withTable (relinked table tid result.1 result.2))) <$>
        tlsClone state tid source := by
  have failed : (-1 : Int32) ≠ 0 := by decide
  have relink : relinked table tid (-1) state = table := relinked_failed failed state
  simp only [tlsClone, hashSearch_live dst, hashSearch_live src]
  cases hashSearch state tid with
  | error reason => rfl
  | ok dstElement =>
      simp only [bind, Except.bind]
      cases hashSearch state source with
      | error reason => rfl
      | ok srcElement =>
          cases dstElement with
          | some pointer => simp only [Functor.map, Except.map, relink]
          | none =>
              cases srcElement with
              | none => simp only [Functor.map, Except.map, relink]
              | some pointer =>
                  have found : (state.withTable table).element pointer = state.element pointer := rfl
                  simp only [found]
                  cases state.element pointer with
                  | error reason => rfl
                  | ok element =>
                      have shared := forSlots_sameTable sharePage_sameTable element.tls.pages
                        element.tls.pageNum.toNat state
                      simp only [aside_forSlots aside_sharePage element.tls.pages
                        element.tls.pageNum.toNat state table]
                      cases run : forSlots element.tls.pages sharePage element.tls.pageNum.toNat
                          state with
                      | error reason => rfl
                      | ok middle =>
                          rw [← (shared middle run).hashTable] at dst
                          simp only [Functor.map, Except.map, insertElement_withTable middle _ dst]

theorem tlsWrite_withTable (kernel : Kernel) (offset length : UInt32) (buffer : Buffer)
    (whole : table (bucketOf tid) = state.hashTable (bucketOf tid)) :
    tlsWrite kernel (state.withTable table) tid offset length buffer =
      (fun result => (result.1, result.2.withTable table)) <$>
        tlsWrite kernel state tid offset length buffer := by
  simp only [tlsWrite, hashSearch_live whole]
  cases hashSearch state tid with
  | error reason => rfl
  | ok found =>
      cases found with
      | none => rfl
      | some pointer =>
          have reached : ∀ state : State, (state.withTable table).element pointer =
              state.element pointer := fun _ => rfl
          simp only [bind, Except.bind, reached]
          cases state.element pointer with
          | error reason => rfl
          | ok element =>
              simp only
              split
              next => rfl
              next =>
                simp only [aside_forSlots aside_tlsUnprotect element.tls.pages
                  element.tls.pageNum.toNat state table]
                cases forSlots element.tls.pages tlsUnprotect element.tls.pageNum.toNat state with
                | error reason => rfl
                | ok opened =>
                    simp only [Functor.map, Except.map]
                    have loop := aside_writeLoop kernel pointer (offset + length) buffer
                      (length.toNat + 1) 0 offset.toInt32 opened table
                    simp only [loop]
                    cases writeLoop kernel pointer (offset + length) buffer (length.toNat + 1)
                        opened 0 offset.toInt32 with
                    | error reason => rfl
                    | ok written =>
                        simp only [Functor.map, Except.map, reached]
                        cases written.element pointer with
                        | error reason => rfl
                        | ok element' =>
                            simp only [aside_forSlots aside_tlsProtect element'.tls.pages
                              element'.tls.pageNum.toNat written table]
                            cases forSlots element'.tls.pages tlsProtect element'.tls.pageNum.toNat
                              written <;> rfl

theorem readLoop_withTable (pointer : ElementPtr) (limit : UInt32) (state : State)
    (table : Bucket → Option ElementPtr) (fuel : Nat) (buffer : Buffer) (i : Nat) (indx : Int32) :
    readLoop pointer limit (state.withTable table) fuel buffer i indx =
      readLoop pointer limit state fuel buffer i indx := by
  induction fuel generalizing buffer i indx with
  | zero => rfl
  | succ fuel inductionHypothesis =>
      have byte : readByte pointer (state.withTable table) indx = readByte pointer state indx := rfl
      simp only [readLoop, byte, inductionHypothesis]

theorem tlsRead_withTable (offset length : UInt32) (buffer : Buffer)
    (whole : table (bucketOf tid) = state.hashTable (bucketOf tid)) :
    tlsRead (state.withTable table) tid offset length buffer =
      (fun result => (result.1, result.2.1, result.2.2.withTable table)) <$>
        tlsRead state tid offset length buffer := by
  simp only [tlsRead, hashSearch_live whole]
  cases hashSearch state tid with
  | error reason => rfl
  | ok found =>
      cases found with
      | none => rfl
      | some pointer =>
          have reached : (state.withTable table).element pointer = state.element pointer := rfl
          simp only [bind, Except.bind, reached]
          cases state.element pointer with
          | error reason => rfl
          | ok element =>
              simp only
              split
              next => rfl
              next =>
                simp only [aside_forSlots aside_tlsUnprotect element.tls.pages
                  element.tls.pageNum.toNat state table]
                cases forSlots element.tls.pages tlsUnprotect element.tls.pageNum.toNat state with
                | error reason => rfl
                | ok opened =>
                    simp only [Functor.map, Except.map, readLoop_withTable]
                    cases readLoop pointer (offset + length) opened (length.toNat + 1) buffer 0
                        offset.toInt32 with
                    | error reason => rfl
                    | ok filled =>
                        simp only [aside_forSlots aside_tlsProtect element.tls.pages
                          element.tls.pageNum.toNat opened table]
                        cases forSlots element.tls.pages tlsProtect element.tls.pageNum.toNat
                          opened <;> rfl

theorem exec_withTable (machine : Machine) (kernel : Kernel) (lasting : call ≠ .destroy)
    (whole : ∀ index ∈ Life.searched tid call, table index = state.hashTable index) :
    exec machine kernel (state.withTable table) tid call =
      (fun result => (result.1, result.2.withTable (relinked table tid result.1.code result.2))) <$>
        exec machine kernel state tid call := by
  cases call with
  | create size =>
      have own : size ≠ 0 → table (bucketOf tid) = state.hashTable (bucketOf tid) := by
        intro positive
        exact whole _ (by simp [Life.searched, positive])
      simp only [exec, tlsCreate_withTable machine kernel own]
      cases tlsCreate machine kernel state tid size <;> rfl
  | clone source =>
      have dst := whole (bucketOf tid) (by simp [Life.searched])
      have src := whole (bucketOf source) (by simp [Life.searched])
      simp only [exec, tlsClone_withTable dst src]
      cases tlsClone state tid source <;> rfl
  | write offset length buffer =>
      have own := whole (bucketOf tid) (by simp [Life.searched])
      simp only [exec, tlsWrite_withTable kernel offset length buffer own]
      cases run : tlsWrite kernel state tid offset length buffer with
      | error reason => rfl
      | ok result =>
          have kept := (tlsWrite_sameTable kernel state tid offset length buffer result run).hashTable
          rw [← kept] at own
          simp only [bind, Except.bind, Functor.map, Except.map, relinked_same own]
  | read offset length buffer =>
      have own := whole (bucketOf tid) (by simp [Life.searched])
      simp only [exec, tlsRead_withTable offset length buffer own]
      cases run : tlsRead state tid offset length buffer with
      | error reason => rfl
      | ok result =>
          have kept := (tlsRead_sameTable state tid offset length buffer result run).hashTable
          rw [← kept] at own
          simp only [bind, Except.bind, Functor.map, Except.map, relinked_same own]
  | destroy => exact absurd rfl lasting

end EC440.LocalStorage
