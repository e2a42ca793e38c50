import EC440.LocalStorage.Refinement
import EC440.LocalStorage.Removal

/-!
# The life of storage areas

Threads create, clone and destroy areas in any order.  As long as nobody
destroys an area whose element is the head of its bucket, the hash table holds
exactly one element for each owner of an area.
-/

namespace EC440.LocalStorage

open Linked Outcome

variable {machine : Machine} {state after : State} {buckets : Bucket → List ElementPtr}
  {place : Tid → Option ElementPtr} {tid : Tid} {call : Call} {owners : Set Tid}
  {memory : PageMemory}

/-- `tls_create`, `tls_clone` and `tls_destroy` -/
def Call.Managing : Call → Prop
  | .create _ | .clone _ | .destroy => True
  | .write .. | .read .. => False

/-- The threads that own an area after a call of `tid` that returned `code`. -/
def ownersAfter (owners : Set Tid) (tid : Tid) (call : Call) (code : Int32) : Set Tid :=
  if code = 0 then
    match call with
    | .destroy => owners \ {tid}
    | .create _ | .clone _ => insert tid owners
    | .write .. | .read .. => owners
  else owners

/-- Sequences of calls, with the threads that own an area after them. -/
inductive LifecycleRun (machine : Machine) (allowed : State → Tid → Call → Prop)
    (memory : PageMemory) : State → Set Tid → Prop
  | start : LifecycleRun machine allowed memory (.initial memory) ∅
  | call {state after : State} {owners : Set Tid} {reply : Reply} (tid : Tid) (call : Call)
      (kernel : Kernel) (run : LifecycleRun machine allowed memory state owners)
      (managing : call.Managing) (permitted : allowed state tid call)
      (done : exec machine kernel state tid call = .ok (reply, after)) :
      LifecycleRun machine allowed memory after (ownersAfter owners tid call reply.code)

/-- No call is a `tls_destroy` of the head of a bucket. -/
def SparesHeads (state : State) (tid : Tid) (call : Call) : Prop :=
  call = .destroy → ¬AtHead state tid

/-- The buckets contain exactly one element for each owner, no other element, and no freed
one. -/
def HoldsExactly (state : State) (owners : Set Tid) : Prop :=
  ∃ buckets : Bucket → List ElementPtr,
    (∀ index, Chain (Naming.pointer ElementPtr) state.next (state.hashTable index)
      (buckets index)) ∧
    (∀ index, ∀ pointer ∈ buckets index, ∃ element, state.elements pointer = some element ∧
      bucketOf element.tid = index ∧ element.tid ∈ owners) ∧
    ∀ tid ∈ owners, ∃! pointer, pointer ∈ buckets (bucketOf tid) ∧
      ∃ element, state.elements pointer = some element ∧ element.tid = tid

/-- The table and what the calls make of it: the elements of the owners are found; the other
threads have none, so that they can create an area, and nothing else. -/
structure Exact (machine : Machine) (state : State) (owners : Set Tid) : Prop where
  holds : HoldsExactly state owners
  owner : ∀ tid ∈ owners, ∃ pointer element, hashSearch state tid = .ok (some pointer) ∧
    state.elements pointer = some element ∧ element.tid = tid
  other : ∀ tid, tid ∉ owners → hashSearch state tid = .ok none
  destroy : ∀ tid, tid ∉ owners → tlsDestroy state tid = .ok (-1, state)
  read : ∀ tid, tid ∉ owners → ∀ offset length buffer,
    tlsRead state tid offset length buffer = .ok (-1, buffer, state)
  clone : ∀ source, source ∉ owners → ∀ tid, tlsClone state tid source = .ok (-1, state)
  create : ∀ tid, tid ∉ owners → ∀ kernel size, size ≠ 0 →
    (createdPages machine kernel state size).1 ≠ none →
    ∃ after, tlsCreate machine kernel state tid size = .ok (0, after)

/-- The owners are the threads that have an element. -/
def Owned (place : Tid → Option ElementPtr) (owners : Set Tid) : Prop :=
  ∀ tid, place tid ≠ none ↔ tid ∈ owners

theorem Owned.insert (owned : Owned place owners) (state : State) (tid : Tid) :
    Owned (insertedPlace state place tid) (insert tid owners) := by
  intro other
  by_cases same : other = tid
  · subst same
    simp [insertedPlace]
  · rw [insertedPlace, Function.update_of_ne same, Set.mem_insert_iff, owned other]
    exact ⟨.inr, fun either => either.resolve_left same⟩

theorem Owned.remove (owned : Owned place owners) (tid : Tid) :
    Owned (Function.update place tid none) (owners \ {tid}) := by
  intro other
  by_cases same : other = tid
  · subst same
    simp
  · rw [Function.update_of_ne same, owned other]
    exact ⟨fun membership => ⟨membership, same⟩, And.left⟩

theorem HoldsExactly.of_tabled (table : Tabled state buckets place) (owned : Owned place owners) :
    HoldsExactly state owners := by
  refine ⟨buckets, table.chain, ?_, ?_⟩
  · intro index pointer membership
    obtain ⟨tid, bucket, placed⟩ := (table.mem_iff _ _).mp membership
    obtain ⟨element, found, rfl⟩ := table.element _ _ placed
    exact ⟨element, found, bucket, (owned _).mp (by simp [placed])⟩
  · intro tid membership
    obtain ⟨pointer, placed⟩ := Option.ne_none_iff_exists'.mp ((owned tid).mpr membership)
    refine ⟨pointer, ⟨table.mem placed, table.element _ _ placed⟩, ?_⟩
    rintro other ⟨inBucket, element, found, matching⟩
    exact (table.tid_eq_iff placed inBucket found).mp matching

theorem not_holdsExactly (index : Bucket) (pointer : ElementPtr)
    (head : state.hashTable index = some pointer) (freed : state.elements pointer = none) :
    ¬HoldsExactly state owners := by
  rintro ⟨buckets, chain, allocated, -⟩
  have first := chain index
  rw [head] at first
  cases bucket : buckets index with
  | nil =>
      rw [bucket] at first
      exact absurd (Chain.nil_iff.mp first) (by simp [Naming.pointer])
  | cons node nodes =>
      rw [bucket] at first
      obtain ⟨same, -⟩ := Chain.cons_iff.mp first
      have same' : pointer = node := Option.some.inj same
      obtain ⟨element, found, -⟩ := allocated index node (by simp [bucket])
      rw [← same', freed] at found
      cases found

theorem Sound.exact (sound : Sound machine state buckets place) (owned : Owned place owners) :
    Exact machine state owners := by
  have absent : ∀ tid, tid ∉ owners → place tid = none := fun tid outside =>
    not_not.mp (mt (owned tid).mp outside)
  refine ⟨.of_tabled sound.table owned, ?_, ?_, ?_, ?_, ?_, ?_⟩
  · intro tid membership
    obtain ⟨pointer, placed⟩ := Option.ne_none_iff_exists'.mp ((owned tid).mpr membership)
    obtain ⟨element, found, matching⟩ := sound.table.element _ _ placed
    exact ⟨pointer, element, by rw [sound.table.hashSearch_eq, placed], found, matching⟩
  · intro tid outside
    rw [sound.table.hashSearch_eq, absent tid outside]
  · intro tid outside
    exact tlsDestroy_absent sound (absent tid outside)
  · intro tid outside offset length buffer
    simp only [tlsRead, sound.table.hashSearch_eq, absent tid outside, bind, Except.bind]
  · intro source outside tid
    exact tlsClone_failed sound (.inr (absent source outside))
  · intro tid outside kernel size positive served
    rw [tlsCreate_eq sound, if_neg (by simp [positive, absent tid outside])]
    cases created : createdPages machine kernel state size with
    | mk pages after =>
        cases pages with
        | none => simp [created] at served
        | some pages => exact ⟨_, rfl⟩

def Kept (machine : Machine) (state : State) (owners : Set Tid) : Prop :=
  ∃ buckets place, Sound machine state buckets place ∧ Owned place owners

/-- The call returns, and the owners after it are those who have an element. -/
def Returns (machine : Machine) (kernel : Kernel) (state : State) (owners : Set Tid) (tid : Tid)
    (call : Call) : Prop :=
  ∃ reply after, exec machine kernel state tid call = .ok (reply, after) ∧
    Kept machine after (ownersAfter owners tid call reply.code)

theorem ownersAfter_failed (owners : Set Tid) (tid : Tid) (call : Call) :
    ownersAfter owners tid call (-1) = owners :=
  if_neg (by decide)

theorem Returns.failed {kernel : Kernel}
    (done : exec machine kernel state tid call = .ok ({ code := -1, buffer := none }, after))
    (kept : Kept machine after owners) : Returns machine kernel state owners tid call :=
  ⟨_, after, done, by rwa [ownersAfter_failed]⟩

theorem Returns.create (sound : Sound machine state buckets place) (owned : Owned place owners)
    (kernel : Kernel) (tid : Tid) (size : UInt32) :
    Returns machine kernel state owners tid (.create size) := by
  have returned := tlsCreate_eq sound kernel tid size
  by_cases failing : size = 0 ∨ place tid ≠ none
  · rw [if_pos failing] at returned
    refine Returns.failed ?_ ⟨_, _, sound.ready, owned⟩
    simp only [exec, returned, bind, Except.bind]
  rw [if_neg failing] at returned
  have absent : place tid = none := not_not.mp fun placed => failing (.inr placed)
  cases created : createdPages machine kernel state size with
  | mk pages after =>
      rw [created] at returned
      cases pages with
      | none =>
          refine Returns.failed ?_ ⟨_, _, (createdPages_failed sound kernel created).1, owned⟩
          simp only [exec, returned, bind, Except.bind]
      | some pages =>
          refine ⟨{ code := 0, buffer := none }, _, ?_, _, _,
            (createdPages_done sound kernel absent created).1, ?_⟩
          · simp only [exec, returned, bind, Except.bind]
          · rw [ownersAfter, if_pos rfl]
            exact owned.insert state tid

theorem Returns.clone (sound : Sound machine state buckets place) (owned : Owned place owners)
    (kernel : Kernel) (tid source : Tid) :
    Returns machine kernel state owners tid (.clone source) := by
  by_cases failing : place tid ≠ none ∨ place source = none
  · refine Returns.failed ?_ ⟨_, _, sound, owned⟩
    simp only [exec, tlsClone_failed sound failing, bind, Except.bind]
  · obtain ⟨absent, present⟩ := not_or.mp failing
    obtain ⟨after, returned, sound', -⟩ := tlsClone_done sound (not_not.mp absent) present
    refine ⟨{ code := 0, buffer := none }, after, ?_, _, _, sound', ?_⟩
    · simp only [exec, returned, bind, Except.bind]
    · rw [ownersAfter, if_pos rfl]
      exact owned.insert state tid

theorem Returns.destroy (sound : Sound machine state buckets place) (owned : Owned place owners)
    (kernel : Kernel) (tid : Tid) (behind : ¬AtHead state tid) :
    Returns machine kernel state owners tid .destroy := by
  cases placed : place tid with
  | none =>
      refine Returns.failed ?_ ⟨_, _, sound, owned⟩
      simp only [exec, tlsDestroy_absent sound placed, bind, Except.bind]
  | some pointer =>
      obtain ⟨after, buckets', returned, sound', -⟩ := tlsDestroy_done sound placed behind
      refine ⟨{ code := 0, buffer := none }, after, ?_, _, _, sound', ?_⟩
      · simp only [exec, returned, bind, Except.bind]
      · rw [ownersAfter, if_pos rfl]
        exact owned.remove tid

theorem Kept.step (kept : Kept machine state owners) (kernel : Kernel) (tid : Tid)
    (managing : call.Managing) (spares : SparesHeads state tid call) :
    Returns machine kernel state owners tid call := by
  obtain ⟨buckets, place, sound, owned⟩ := kept
  cases call with
  | create size => exact .create sound owned kernel tid size
  | clone source => exact .clone sound owned kernel tid source
  | destroy => exact .destroy sound owned kernel tid (spares rfl)
  | write => exact absurd managing id
  | read => exact absurd managing id

theorem LifecycleRun.kept (run : LifecycleRun machine SparesHeads memory state owners) :
    Kept machine state owners := by
  induction run with
  | start => exact ⟨_, _, .initial machine memory, by simp [Owned]⟩
  | call tid call kernel _ managing permitted done inductionHypothesis =>
      obtain ⟨reply, after, done', kept⟩ := inductionHypothesis.step kernel tid managing permitted
      rw [done, Except.ok.injEq, Prod.mk.injEq] at done'
      rwa [done'.1, done'.2]

/-- In every run that spares the heads of the buckets the table is exact and every further such
call returns; destroying a head breaks the table. -/
theorem lifecycle (run : LifecycleRun machine SparesHeads memory state owners) :
    Exact machine state owners ∧
      (∀ tid call, ∀ kernel, call.Managing → SparesHeads state tid call →
        ∃ reply after, exec machine kernel state tid call = .ok (reply, after)) ∧
      ∀ tid, ∀ kernel, AtHead state tid →
        ∃ after, exec machine kernel state tid .destroy = .ok ({ code := 0, buffer := none }, after) ∧
          ¬HoldsExactly after (owners \ {tid}) := by
  have kept := run.kept
  refine ⟨?_, ?_, ?_⟩
  · obtain ⟨buckets, place, sound, owned⟩ := kept
    exact sound.exact owned
  · intro tid call kernel managing spares
    obtain ⟨reply, after, done, -⟩ := kept.step kernel tid managing spares
    exact ⟨reply, after, done⟩
  · intro tid kernel head
    obtain ⟨buckets, place, sound, owned⟩ := kept
    obtain ⟨pointer, element, first, found, matching⟩ := head
    have membership : pointer ∈ buckets (bucketOf tid) := by
      cases bucket : buckets (bucketOf tid) with
      | nil =>
          have chain := sound.table.chain (bucketOf tid)
          rw [bucket, first] at chain
          exact absurd (Chain.nil_iff.mp chain) (by simp [Naming.pointer])
      | cons temp nodes =>
          have same := sound.table.hashTable_eq bucket
          rw [first, Option.some.injEq] at same
          simp [same]
    obtain ⟨element', found', placed⟩ := sound.table.allocated membership
    rw [found, Option.some.injEq] at found'
    rw [← found', matching] at placed
    obtain ⟨after, done, head', freed⟩ :=
      tlsDestroy_head sound placed ⟨pointer, element, first, found, matching⟩
    refine ⟨after, ?_, not_holdsExactly _ _ head' freed⟩
    simp only [exec, done, bind, Except.bind]

/-- Threads 1 and 32 share a bucket; thread 1, which came first, destroys its area. -/
theorem colliding_run :
    ∃ state owners, LifecycleRun page4096 SparesHeads (fun _ => none) state owners ∧
      owners = (insert 32 (insert 1 ∅) \ {1} : Set Tid) := by
  have empty : LifecycleRun page4096 SparesHeads (fun _ => none) _ _ := .start
  have first := empty.call 1 (.create 1) twoPages trivial (fun destroys => by cases destroys) rfl
  have second := first.call 32 (.create 1) twoPages trivial (fun destroys => by cases destroys) rfl
  have third := second.call 1 .destroy twoPages trivial ?_ rfl
  · exact ⟨_, _, third, rfl⟩
  · rintro - ⟨pointer, element, head, found, matching⟩
    cases head
    cases found
    exact absurd matching (by decide)

theorem lifecycle_colliding :
    ∃ state, Exact page4096 state (insert 32 (insert 1 ∅) \ {1}) := by
  obtain ⟨state, owners, run, rfl⟩ := colliding_run
  exact ⟨state, (lifecycle run).1⟩

/-- A thread creates an area and destroys it: its element is the head of the bucket. -/
theorem lifecycle_broken :
    ¬∀ (machine : Machine) (memory : PageMemory) (state : State) (owners : Set Tid),
      LifecycleRun machine (fun _ _ _ => True) memory state owners →
        Exact machine state owners := by
  intro always
  have empty : LifecycleRun page4096 (fun _ _ _ => True) (fun _ => none) _ _ := .start
  have first := empty.call 1 (.create 1) twoPages trivial trivial rfl
  have second := first.call 1 .destroy twoPages trivial trivial rfl
  exact not_holdsExactly 1 0 rfl rfl (always _ _ _ _ second).holds

end EC440.LocalStorage
