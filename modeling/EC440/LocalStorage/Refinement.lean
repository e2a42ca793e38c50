import EC440.LocalStorage.Calls

/-!
# Copy-on-write refines private arrays

Shared pages and reference counts are invisible: calls return the codes and
the bytes that they would return if every thread had a byte array of its own.
The array of a thread is read off the pages of its area, so that a step lemma
for each call and an induction over the calls prove it.
-/

namespace EC440.LocalStorage

open Outcome

variable {machine : Machine} {state after : State} {buckets : Bucket → List ElementPtr}
  {place : Tid → Option ElementPtr} {tid : Tid} {call : Call}

/-- The calls without `tls_destroy`, with ranges that end below `INT_MAX`. -/
def Call.Regular : Call → Prop
  | .create _ => True
  | .write offset length _ => offset.toNat + length.toNat < 2 ^ 31
  | .read offset length _ => offset.toNat + length.toNat < 2 ^ 31
  | .destroy => False
  | .clone _ => True

/-- Every `mmap` that the call makes succeeds. -/
def Served (machine : Machine) (kernel : Kernel) (state : State) (tid : Tid) : Call → Prop
  | .create size =>
      size ≠ 0 → hashSearch state tid = .ok none →
        (createdPages machine kernel state size).1 ≠ none
  | .write offset length buffer => tlsWrite kernel state tid offset length buffer ≠ .error .mapFailed
  | _ => True

/-- The state after a call that returned. -/
def Valid (machine : Machine) (state : State) : Prop :=
  ∃ buckets place, Sound machine state buckets place

/-- The call answers as it would on private arrays, and leaves the same arrays. -/
def Answered (machine : Machine) (kernel : Kernel) (state : State) (tid : Tid) (call : Call) :
    Prop :=
  ∃ after, exec machine kernel state tid call =
      .ok ((Private.respond (state.array machine) tid call).1, after) ∧
    Valid machine after ∧ after.array machine = (Private.respond (state.array machine) tid call).2

/-- An `mmap` fails; if the call returns, no array has changed. -/
def Unserved (machine : Machine) (kernel : Kernel) (state : State) (tid : Tid) (call : Call) :
    Prop :=
  ¬Served machine kernel state tid call ∧
    ∀ reply after, exec machine kernel state tid call = .ok (reply, after) →
      Valid machine after ∧ after.array machine = state.array machine

theorem exec_create (sound : Sound machine state buckets place) (kernel : Kernel) (tid : Tid)
    (size : UInt32) :
    Unserved machine kernel state tid (.create size) ∨
      Answered machine kernel state tid (.create size) := by
  have present : state.array machine tid ≠ none ↔ place tid ≠ none :=
    not_congr sound.array_eq_none_iff
  by_cases failing : size = 0 ∨ place tid ≠ none
  · right
    have failing' : size = 0 ∨ state.array machine tid ≠ none := failing.imp_right present.mpr
    refine ⟨state.ready machine, ?_, ⟨_, _, sound.ready⟩, ?_⟩
    · simp only [exec, tlsCreate_eq sound, if_pos failing, Private.respond, if_pos failing',
        bind, Except.bind]
    · rw [Private.respond, if_pos failing', sound.array_untouched sound.ready rfl
        fun _ _ _ => rfl]
  have failing' : ¬(size = 0 ∨ state.array machine tid ≠ none) :=
    fun both => failing (both.imp_right present.mp)
  have absent : place tid = none := not_not.mp fun placed => failing (.inr placed)
  cases created : createdPages machine kernel state size with
  | mk pages after =>
      cases pages with
      | none =>
          left
          refine ⟨?_, ?_⟩
          · intro served
            refine served (fun zero => failing (.inl zero)) ?_ (by rw [created])
            rw [sound.table.hashSearch_eq, absent]
          · intro reply after' done
            simp only [exec, tlsCreate_eq sound, if_neg failing, created, bind, Except.bind,
              Except.ok.injEq, Prod.mk.injEq] at done
            obtain ⟨-, rfl⟩ := done
            obtain ⟨sound', arrays⟩ := createdPages_failed sound kernel created
            exact ⟨⟨_, _, sound'⟩, arrays⟩
      | some pages =>
          right
          obtain ⟨sound', arrays⟩ := createdPages_done sound kernel absent created
          refine ⟨_, ?_, ⟨_, _, sound'⟩, ?_⟩
          · simp only [exec, tlsCreate_eq sound, if_neg failing, created, Private.respond,
              if_neg failing', bind, Except.bind]
          · rw [arrays, Private.respond, if_neg failing']

theorem exec_clone (sound : Sound machine state buckets place) (kernel : Kernel)
    (tid source : Tid) : Answered machine kernel state tid (.clone source) := by
  by_cases failing : place tid ≠ none ∨ place source = none
  · have unanswered : Private.respond (state.array machine) tid (.clone source) =
        ({ code := -1, buffer := none }, state.array machine) := by
      rcases failing with present | missing
      · have here := mt sound.array_eq_none_iff.mp present
        obtain ⟨array, here⟩ := Option.ne_none_iff_exists'.mp here
        simp [Private.respond, here]
      · simp [Private.respond, sound.array_eq_none_iff.mpr missing]
    refine ⟨state, ?_, ⟨_, _, sound⟩, by rw [unanswered]⟩
    simp only [exec, tlsClone_failed sound failing, unanswered, bind, Except.bind]
  · obtain ⟨absent, present⟩ := not_or.mp failing
    have absent' : place tid = none := not_not.mp absent
    obtain ⟨after, done, sound', arrays⟩ := tlsClone_done sound absent' present
    obtain ⟨array, here⟩ := Option.ne_none_iff_exists'.mp
      (mt sound.array_eq_none_iff.mp present)
    refine ⟨after, ?_, ⟨_, _, sound'⟩, ?_⟩
    · simp only [exec, done, Private.respond, sound.array_eq_none_iff.mpr absent', here, bind,
        Except.bind]
    · rw [arrays, Private.respond, sound.array_eq_none_iff.mpr absent', here]

section Range

variable {offset length : UInt32}

theorem exec_write (sound : Sound machine state buckets place) (kernel : Kernel) (tid : Tid)
    (buffer : Buffer) (small : offset.toNat + length.toNat < 2 ^ 31) :
    Unserved machine kernel state tid (.write offset length buffer) ∨
      Answered machine kernel state tid (.write offset length buffer) := by
  cases here : state.array machine tid with
  | none =>
      right
      have failed := tlsWrite_failed sound kernel tid buffer small (by simp [here])
      refine ⟨state, ?_, ⟨_, _, sound⟩, by simp [Private.respond, here]⟩
      simp only [exec, failed, Private.respond, here, bind, Except.bind]
  | some array =>
      by_cases inside : offset.toNat + length.toNat ≤ array.length
      · rcases tlsWrite_done sound kernel buffer small here inside with failed |
          ⟨after, done, sound', arrays⟩
        · left
          refine ⟨fun served => served failed, ?_⟩
          intro reply after done
          simp only [exec, failed, bind, Except.bind, reduceCtorEq] at done
        · right
          refine ⟨after, ?_, ⟨_, _, sound'⟩, ?_⟩
          · simp only [exec, done, Private.respond, here, if_pos inside, bind, Except.bind]
          · simp only [arrays, Private.respond, here, if_pos inside]
      · right
        have failed := tlsWrite_failed sound kernel tid buffer small (by
          simpa [here] using inside)
        refine ⟨state, ?_, ⟨_, _, sound⟩, by simp [Private.respond, here, inside]⟩
        simp only [exec, failed, Private.respond, here, if_neg inside, bind, Except.bind]

theorem exec_read (sound : Sound machine state buckets place) (kernel : Kernel) (tid : Tid)
    (buffer : Buffer) (small : offset.toNat + length.toNat < 2 ^ 31) :
    Answered machine kernel state tid (.read offset length buffer) := by
  cases here : state.array machine tid with
  | none =>
      have failed := tlsRead_failed sound tid buffer small (by simp [here])
      refine ⟨state, ?_, ⟨_, _, sound⟩, by simp [Private.respond, here]⟩
      simp only [exec, failed, Private.respond, here, bind, Except.bind]
  | some array =>
      by_cases inside : offset.toNat + length.toNat ≤ array.length
      · obtain ⟨after, done, sound', arrays⟩ := tlsRead_done sound buffer small here inside
        refine ⟨after, ?_, ⟨_, _, sound'⟩, ?_⟩
        · simp only [exec, done, Private.respond, here, if_pos inside, bind, Except.bind]
        · simp only [arrays, Private.respond, here, if_pos inside]
      · have failed := tlsRead_failed sound tid buffer small (by simpa [here] using inside)
        refine ⟨state, ?_, ⟨_, _, sound⟩, by simp [Private.respond, here, inside]⟩
        simp only [exec, failed, Private.respond, here, if_neg inside, bind, Except.bind]

end Range

/-- One call: it answers as on private arrays, unless `mmap` fails. -/
theorem exec_cases (valid : Valid machine state) (kernel : Kernel) (tid : Tid)
    (regular : call.Regular) :
    Unserved machine kernel state tid call ∨ Answered machine kernel state tid call := by
  obtain ⟨buckets, place, sound⟩ := valid
  cases call with
  | create size => exact exec_create sound kernel tid size
  | clone source => exact .inr (exec_clone sound kernel tid source)
  | write offset length buffer => exact exec_write sound kernel tid buffer regular
  | read offset length buffer => exact .inr (exec_read sound kernel tid buffer regular)
  | destroy => exact absurd regular id

/-! ## Sequences of calls -/

/-- A call, the thread that makes it, and the kernel's answers during it. -/
structure Event where
  tid : Tid
  call : Call
  kernel : Kernel

/-- A sequence of calls, with what each of them returns. -/
def play (machine : Machine) : State → List Event → Outcome (List Reply × State)
  | state, [] => .ok ([], state)
  | state, event :: rest => do
      let (reply, after) ← exec machine event.kernel state event.tid event.call
      let (replies, final) ← play machine after rest
      .ok (reply :: replies, final)

/-- The same calls on private arrays. -/
def Private.play : Arrays → List Event → List Reply × Arrays
  | arrays, [] => ([], arrays)
  | arrays, event :: rest =>
      let (reply, after) := respond arrays event.tid event.call
      let (replies, final) := play after rest
      (reply :: replies, final)

/-- Every `mmap` of the sequence succeeds. -/
def AllServed (machine : Machine) : State → List Event → Prop
  | _, [] => True
  | state, event :: rest =>
      Served machine event.kernel state event.tid event.call ∧
        ∀ reply after, exec machine event.kernel state event.tid event.call = .ok (reply, after) →
          AllServed machine after rest

theorem Valid.initial (machine : Machine) (memory : PageMemory) :
    Valid machine (.initial memory) :=
  ⟨_, _, .initial machine memory⟩

theorem array_initial (machine : Machine) (memory : PageMemory) :
    (State.initial memory).array machine = fun _ => none := by
  funext tid
  exact (Sound.initial machine memory).array_eq_none_iff.mpr rfl

theorem play_eq (valid : Valid machine state) {events : List Event}
    (regular : ∀ event ∈ events, event.call.Regular) (served : AllServed machine state events) :
    ∃ final, play machine state events =
        .ok ((Private.play (state.array machine) events).1, final) ∧
      Valid machine final ∧
      final.array machine = (Private.play (state.array machine) events).2 := by
  induction events generalizing state with
  | nil => exact ⟨state, rfl, valid, rfl⟩
  | cons event rest inductionHypothesis =>
      have first := regular event List.mem_cons_self
      rcases exec_cases valid event.kernel event.tid first with ⟨unserved, -⟩ |
        ⟨after, done, valid', arrays⟩
      · exact absurd served.1 unserved
      · obtain ⟨final, run, valid'', arrays'⟩ := inductionHypothesis valid'
          (fun other membership => regular other (List.mem_cons_of_mem _ membership))
          (served.2 _ _ done)
        rw [arrays] at run arrays'
        refine ⟨final, ?_, valid'', arrays'⟩
        simp only [play, done, run, bind, Except.bind, Private.play]

/-- Any interleaving of calls returns the codes and bytes of the private arrays and ends with
the same arrays, and no further call changes the array of a thread other than its caller. -/
theorem copyOnWrite_refines (machine : Machine) (memory : PageMemory) (events : List Event)
    (regular : ∀ event ∈ events, event.call.Regular)
    (served : AllServed machine (.initial memory) events) :
    ∃ final, play machine (.initial memory) events =
        .ok ((Private.play (fun _ => none) events).1, final) ∧
      final.array machine = (Private.play (fun _ => none) events).2 ∧
      ∀ event : Event, event.call.Regular → ∀ reply after,
        exec machine event.kernel final event.tid event.call = .ok (reply, after) →
        ∀ other, other ≠ event.tid → after.array machine other = final.array machine other := by
  obtain ⟨final, run, valid, arrays⟩ := play_eq (.initial machine memory) regular served
  rw [array_initial] at run arrays
  refine ⟨final, run, arrays, ?_⟩
  intro event regularEvent reply after done other distinct
  rcases exec_cases valid event.kernel event.tid regularEvent with ⟨-, kept⟩ |
    ⟨after', done', -, arrays'⟩
  · rw [(kept reply after done).2]
  · rw [done', Except.ok.injEq, Prod.mk.injEq] at done
    rw [← done.2, arrays']
    exact Private.respond_other _ _ distinct

def page4096 : Machine where
  pageSize := 4096
  power := ⟨12, by decide, by decide, by decide⟩

def twoPages : Kernel where
  place memory :=
    if memory 4096 = none then some 4096
    else if memory 8192 = none then some 8192
    else none
  place_unmapped memory address placed := by
    by_cases first : memory 4096 = none
    · rw [if_pos first, Option.some.injEq] at placed
      rwa [← placed]
    · by_cases second : memory 8192 = none
      · rw [if_neg first, if_pos second, Option.some.injEq] at placed
        rwa [← placed]
      · simp [first, second] at placed

def cloneAndWrite : List Event :=
  [{ tid := 1, call := .create 1, kernel := twoPages },
    { tid := 2, call := .clone 1, kernel := twoPages },
    { tid := 2, call := .write 0 1 fun _ => 7, kernel := twoPages },
    { tid := 1, call := .read 0 1 fun _ => 9, kernel := twoPages }]

theorem cloneAndWrite_served :
    AllServed page4096 (.initial fun _ => none) cloneAndWrite := by
  refine ⟨fun _ _ => by decide, ?_⟩
  intro reply created done
  cases done
  refine ⟨trivial, ?_⟩
  intro reply cloned done
  cases done
  refine ⟨?_, fun _ _ _ => ⟨trivial, fun _ _ _ => trivial⟩⟩
  intro failed
  cases failed

theorem copyOnWrite_refines_cloneAndWrite :
    ∃ final, (play page4096 (.initial fun _ => none) cloneAndWrite =
        .ok ((Private.play (fun _ => none) cloneAndWrite).1, final)) ∧
      final.array page4096 1 = some [0] ∧ final.array page4096 2 = some [7] := by
  have regular : ∀ event ∈ cloneAndWrite, event.call.Regular := by
    simp [cloneAndWrite, Call.Regular]
  obtain ⟨final, run, arrays, -⟩ :=
    copyOnWrite_refines page4096 (fun _ => none) cloneAndWrite regular cloneAndWrite_served
  refine ⟨final, run, ?_, ?_⟩
  · rw [arrays]
    decide
  · rw [arrays]
    decide

end EC440.LocalStorage
