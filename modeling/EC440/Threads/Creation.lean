import EC440.Threads.Runs
import Mathlib.Data.Set.Card

/-!
# The limit of threads

The limit test of `pthread_create` counts the threads that have not exited,
and its search looks for an entry that was never used.  A creation does what it
has to just when the test passes and the search finds such an entry.
-/

namespace EC440.Threads

variable {User : Type} {client : Client User} {state after : State User}

/-! ## What a creation has to do -/

/-- An answer of `pthread_create`, by which threads are alive before and after the call.  It
succeeds with an entry that nobody used, or fails and changes nothing, and it does not fail
before all the entries are used by threads that are alive. -/
structure Answers (alive aliveAfter : Tid → Prop) (unchanged : Prop) (code : Int)
    (thread : Option Tid) : Prop where
  answer : (code = 0 ∧ ∃ tid, thread = some tid ∧ ¬alive tid ∧
      ∀ other, aliveAfter other ↔ other = tid ∨ alive other) ∨
    (code = -1 ∧ unchanged)
  succeeds : {tid | alive tid}.ncard < maxThreads → code = 0

namespace State

variable (client : Client User) (state : State User)

/-- The entry was never used since `init_system`. -/
def IsFresh (tid : Tid) : Prop :=
  (state.tcb tid).status = .fresh

instance : DecidablePred state.IsFresh :=
  fun tid => inferInstanceAs (Decidable ((state.tcb tid).status = .fresh))

/-- The thread was created, or is the main thread, and has not exited. -/
def Alive (tid : Tid) : Prop :=
  if state.firstCall then tid = 0 else ¬state.IsFresh tid ∧ (state.tcb tid).status ≠ .exited

/-- `pthread_create(_, _, routine, arg)` accesses no entry outside `TCB` and answers as it has to,
with `SIGALRM` unblocked. -/
def Creates (routine arg : Value) : Prop :=
  ∃ after code thread, state.pthreadCreate client routine arg .start = some after ∧
    after.cpu.call = some (.create routine arg (.finish code thread)) ∧ after.masked = false ∧
    Answers state.Alive after.Alive
      (after.tcb = state.tcb ∧ after.totalThreads = state.totalThreads) code thread

def freshCount : Nat :=
  (Finset.univ.filter state.IsFresh).card

variable {client state}

theorem freshThread_eq_none_iff : state.freshThread = none ↔ ∀ tid, ¬state.IsFresh tid := by
  simp [freshThread, IsFresh]

theorem freshCount_eq_zero_iff : state.freshCount = 0 ↔ ∀ tid, ¬state.IsFresh tid := by
  simp [freshCount, Finset.filter_eq_empty_iff]

theorem newThread_isFresh {tid other : Tid} {routine arg : Value} :
    (state.newThread client tid routine arg).IsFresh other ↔
      other ≠ tid ∧ state.IsFresh other := by
  by_cases same : other = tid <;> simp [IsFresh, same]

theorem createThread_of_fresh {routine arg : Value} (below : state.totalThreads ≤ maxThreads)
    {tid : Tid} (found : state.freshThread = some tid) :
    state.createThread client routine arg =
      some ((state.newThread client tid routine arg).unlock.inCall
        (.create routine arg (.finish 0 (some tid)))) := by
  rw [createThread, if_neg (not_lt.mpr below), found]
  rfl

theorem createThread_eq_none {routine arg : Value} (below : state.totalThreads ≤ maxThreads)
    (exhausted : ∀ tid, ¬state.IsFresh tid) : state.createThread client routine arg = none := by
  rw [createThread, if_neg (not_lt.mpr below), freshThread_eq_none_iff.mpr exhausted]
  rfl

theorem alive_newThread {tid other : Tid} {routine arg : Value} {frame : Frame}
    (started : state.firstCall = false) :
    ((state.newThread client tid routine arg).unlock.inCall frame).Alive other ↔
      other = tid ∨ state.Alive other := by
  have notFirst : ((state.newThread client tid routine arg).unlock.inCall frame).firstCall =
      false := started
  rw [Alive, notFirst, Alive, started]
  change (¬(state.newThread client tid routine arg).IsFresh other ∧
    ((state.newThread client tid routine arg).tcb other).status ≠ .exited) ↔ _
  rw [newThread_isFresh, newThread_status]
  by_cases same : other = tid <;> simp [same]

theorem exists_createThread (client : Client User) (routine arg : Value)
    (below : state.totalThreads ≤ maxThreads) {tid : Tid} (fresh : state.IsFresh tid) :
    ∃ found, state.IsFresh found ∧ state.createThread client routine arg =
      some ((state.newThread client found routine arg).unlock.inCall
        (.create routine arg (.finish 0 (some found)))) := by
  rcases exists_found : state.freshThread with _ | found
  · exact absurd fresh (freshThread_eq_none_iff.mp exists_found tid)
  · exact ⟨found, state.freshThread_status exists_found, createThread_of_fresh below exists_found⟩

theorem not_alive_of_fresh {tid : Tid} (started : state.firstCall = false)
    (fresh : state.IsFresh tid) : ¬state.Alive tid := by
  rw [Alive, started]
  exact fun alive => alive.1 fresh

/-- Without an entry that was never used a creation accesses `TCB[MAX_THREADS]`, and above the
limit it leaves `SIGALRM` blocked. -/
theorem creates_iff {routine arg : Value} (started : state.firstCall = false) :
    state.Creates client routine arg ↔
      state.totalThreads ≤ maxThreads ∧ ∃ tid, state.IsFresh tid := by
  constructor
  · rintro ⟨after, code, thread, created, -, unmasked, -⟩
    rw [pthreadCreate, started] at created
    change state.createThread client routine arg = some after at created
    by_cases below : state.totalThreads ≤ maxThreads
    · refine ⟨below, ?_⟩
      by_contra exhausted
      have stuck : state.createThread client routine arg = none :=
        createThread_eq_none below (not_exists.mp exhausted)
      cases stuck.symm.trans created
    · rw [createThread, if_pos (not_le.mp below)] at created
      cases created
      cases unmasked
  · rintro ⟨below, tid, fresh⟩
    rcases exists_createThread client routine arg below fresh with ⟨found, isFresh, created⟩
    have notAlive : ¬state.Alive found := not_alive_of_fresh started isFresh
    refine ⟨(state.newThread client found routine arg).unlock.inCall _, 0, some found, ?_, rfl,
      rfl, .inl ⟨rfl, found, rfl, notAlive, fun other => alive_newThread started⟩, fun _ => rfl⟩
    rw [pthreadCreate, started]
    exact created

theorem firstCreate_isFresh {routine arg : Value} {tid : Tid} :
    (state.firstCreate routine arg).IsFresh tid ↔ tid ≠ 0 := by
  rw [IsFresh, firstCreate, setReg_status, setStatus_status]
  by_cases isMain : tid = 0 <;> simp [isMain, initSystem]

theorem firstCreate_alive {routine arg : Value} {tid : Tid} :
    (state.firstCreate routine arg).Alive tid ↔ tid = 0 := by
  have notFirst : (state.firstCreate routine arg).firstCall = false := rfl
  rw [Alive, notFirst]
  change (¬(state.firstCreate routine arg).IsFresh tid ∧ _) ↔ _
  rw [firstCreate_isFresh, firstCreate, setReg_status, setStatus_status]
  by_cases isMain : tid = 0 <;> simp [isMain]

theorem creates_first {routine arg : Value} (first : state.firstCall = true)
    (below : state.totalThreads < maxThreads) : state.Creates client routine arg := by
  have entered : (state.firstCreate routine arg).totalThreads ≤ maxThreads := by
    change state.totalThreads + 1 ≤ maxThreads
    omega
  have other : (state.firstCreate routine arg).IsFresh 1 :=
    firstCreate_isFresh.mpr (by decide)
  rcases exists_createThread client routine arg entered other with
    ⟨found, isFresh, created⟩
  have notMain : found ≠ 0 := firstCreate_isFresh.mp isFresh
  refine ⟨((state.firstCreate routine arg).newThread client found routine arg).unlock.inCall _,
    0, some found, ?_, rfl, rfl, .inl ⟨rfl, found, rfl, ?_, fun other => ?_⟩, fun _ => rfl⟩
  · rw [pthreadCreate, first]
    exact created
  · rw [Alive, first]
    exact notMain
  · rw [alive_newThread rfl, firstCreate_alive, Alive, first]
    rfl

end State

end EC440.Threads
