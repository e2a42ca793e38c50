import EC440.FileSystem.Invariant

/-!
# What one call can do

For every call a function names the state that a successful call leaves, a
`_cases` lemma says which outcomes the call has in a sound state, and a
preservation lemma says that the invariant still holds.
-/

namespace EC440.FileSystem

open Linked Outcome

variable {tolerance : Tolerance} {state : State} {chart : Slot → List BlockIndex}

theorem tolerate_bind {Value : Type} (access : Stray) (rest : Outcome Value) :
    (tolerate tolerance access >>= fun _ => rest) =
      if tolerance access then rest else .error (.stray access) := by
  unfold tolerate
  split <;> rfl

/-! ## Calls that keep the directory's names and heads -/

/-- As long as no entry is created or deleted, soundness is about chains and counts. -/
theorem Sound.keep (sound : Sound state chart) {after : State} {chart' : Slot → List BlockIndex}
    (active : after.device.active = true) (fs : after.fs = state.fs)
    (dir : ∀ slot, (after.dir slot).used = (state.dir slot).used ∧
      (after.dir slot).name = (state.dir slot).name ∧
      (after.dir slot).head = (state.dir slot).head)
    (charted : Charted after.fat after.dir chart')
    (unusedCount : ∀ slot, ¬state.Used slot → (after.dir slot).refCnt = 0)
    (counted : ∀ slot, state.Used slot →
      (after.dir slot).refCnt = Int32.ofNat (after.openCount (state.dir slot).head))
    (owned : ∀ descriptor, after.Open descriptor →
      ∃ slot, state.Used slot ∧ (state.dir slot).head = (after.fildes descriptor).file) :
    Sound after chart' := by
  have used : ∀ slot, after.Used slot ↔ state.Used slot := fun slot => by
    rw [State.Used, State.Used, (dir slot).1]
  have names : Distinguished after.dir :=
    sound.distinguished.congr fun slot => ⟨(dir slot).1, (dir slot).2.1⟩
  refine ⟨active, fs.trans sound.superBlock, charted,
    fun slot unused => names.unused slot (not_not.mp unused), ?_, ?_, names.nonempty,
    names.distinct, ?_, ?_⟩
  · intro slot unused
    rw [(dir slot).2.2]
    exact sound.unusedHead slot (mt (used slot).mpr unused)
  · intro slot unused
    exact unusedCount slot (mt (used slot).mpr unused)
  · intro slot isUsed
    rw [(dir slot).2.2]
    exact counted slot ((used slot).mp isUsed)
  · intro descriptor isOpen
    obtain ⟨slot, isUsed, head⟩ := owned descriptor isOpen
    exact ⟨slot, (used slot).mpr isUsed, by rw [(dir slot).2.2, head]⟩

/-- A call that also keeps the reference counts and the files of the descriptors is sound as
soon as the chains are. -/
theorem Sound.rechart (sound : Sound state chart) {after : State} {chart' : Slot → List BlockIndex}
    (active : after.device.active = true) (fs : after.fs = state.fs)
    (dir : ∀ slot, (after.dir slot).used = (state.dir slot).used ∧
      (after.dir slot).name = (state.dir slot).name ∧
      (after.dir slot).head = (state.dir slot).head ∧
      (after.dir slot).refCnt = (state.dir slot).refCnt)
    (fildes : ∀ descriptor, (after.fildes descriptor).used = (state.fildes descriptor).used ∧
      (after.fildes descriptor).file = (state.fildes descriptor).file)
    (charted : Charted after.fat after.dir chart') : Sound after chart' := by
  refine sound.keep active fs (fun slot => ⟨(dir slot).1, (dir slot).2.1, (dir slot).2.2.1⟩)
    charted ?_ ?_ ?_
  · intro slot unused
    rw [(dir slot).2.2.2]
    exact sound.unusedCount slot unused
  · intro slot used
    rw [(dir slot).2.2.2, openCount_congr fildes]
    exact sound.counted slot used
  · intro descriptor isOpen
    rw [(fildes descriptor).2]
    exact sound.owned descriptor (by rwa [State.Open, ← (fildes descriptor).1])

def State.relink (state : State) (slot : Slot) (refCnt : Int32) (descriptor : Descriptor)
    (fd : FileDescriptor) : State :=
  { state with
    fildes := Function.update state.fildes descriptor fd
    dir := Function.update state.dir slot { state.dir slot with refCnt } }

theorem relink_entry (state : State) (slot : Slot) (refCnt : Int32) (descriptor : Descriptor)
    (fd : FileDescriptor) (other : Slot) :
    ((state.relink slot refCnt descriptor fd).dir other).used = (state.dir other).used ∧
      ((state.relink slot refCnt descriptor fd).dir other).name = (state.dir other).name ∧
      ((state.relink slot refCnt descriptor fd).dir other).head = (state.dir other).head := by
  by_cases same : other = slot
  · subst same
    simp [State.relink]
  · simp [State.relink, same]

theorem relink_used {slot other : Slot} {refCnt : Int32} {descriptor : Descriptor}
    {fd : FileDescriptor} :
    (state.relink slot refCnt descriptor fd).Used other ↔ state.Used other := by
  rw [State.Used, State.Used, (relink_entry state slot refCnt descriptor fd other).1]

theorem Sound.relink (sound : Sound state chart) {slot : Slot} {refCnt : Int32}
    {descriptor : Descriptor} {fd : FileDescriptor} (used : state.Used slot)
    (counted : refCnt = Int32.ofNat
      ((state.relink slot refCnt descriptor fd).openCount (state.dir slot).head))
    (others : ∀ head, head ≠ (state.dir slot).head →
      (state.relink slot refCnt descriptor fd).openCount head = state.openCount head)
    (owned : fd.used ≠ 0 → fd.file = (state.dir slot).head) :
    Sound (state.relink slot refCnt descriptor fd) chart := by
  have entry := relink_entry state slot refCnt descriptor fd
  have unchanged : ∀ other, other ≠ slot →
      ((state.relink slot refCnt descriptor fd).dir other).refCnt = (state.dir other).refCnt :=
    fun other distinct => by simp [State.relink, distinct]
  refine sound.keep sound.active rfl entry ?_ ?_ ?_ ?_
  · refine ⟨fun other isUsed => ?_, fun other isUsed => ?_, fun other unused => ?_,
      sound.charted.exclusive, sound.charted.data, sound.charted.reserved⟩
    · rw [(entry other).2.2]
      exact sound.charted.chain other ((entry other).1 ▸ isUsed)
    · exact sound.charted.nonempty other ((entry other).1 ▸ isUsed)
    · exact sound.charted.unused other ((entry other).1 ▸ unused)
  · intro other unused
    rw [unchanged other fun same => unused (same ▸ used)]
    exact sound.unusedCount other unused
  · intro other isUsed
    by_cases same : other = slot
    · subst same
      rw [← counted]
      simp [State.relink]
    · have otherHead : (state.dir other).head ≠ (state.dir slot).head := fun equality =>
        same (sound.charted.head_injective isUsed used equality)
      rw [unchanged other same, others _ otherHead]
      exact sound.counted other isUsed
  · intro other isOpen
    by_cases same : other = descriptor
    · subst same
      have value : (state.relink slot refCnt other fd).fildes other = fd := by simp [State.relink]
      rw [State.Open, value] at isOpen
      exact ⟨slot, used, by rw [value, owned isOpen]⟩
    · have value : (state.relink slot refCnt descriptor fd).fildes other = state.fildes other := by
        simp [State.relink, same]
      rw [State.Open, value] at isOpen
      rw [value]
      exact sound.owned other isOpen

/-! ## fs_open -/

def State.opened (state : State) (slot : Slot) (descriptor : Descriptor) : State :=
  state.relink slot ((state.dir slot).refCnt + 1) descriptor
    { used := 1, file := (state.dir slot).head, offset := 0 }

theorem fsOpen_cases (tolerance : Tolerance) (state : State) (name : CString) :
    fsOpen tolerance state name = .ok (-1, state) ∨
    fsOpen tolerance state name = .error (.stray .fildesPeek) ∨
    ∃ slot descriptor, state.Used slot ∧ (state.dir slot).name.Matches name ∧
      ¬state.Open descriptor ∧
      fsOpen tolerance state name =
        .ok (Int32.ofNat descriptor.val, state.opened slot descriptor) := by
  unfold fsOpen
  cases byName : search fun file => decide ((state.dir file).name.Matches name) with
  | none => exact .inl rfl
  | some slot =>
      by_cases unused : (state.dir slot).used = 0
      · exact .inl (if_pos unused)
      · simp only [if_neg unused]
        cases byUse : search fun descriptor => decide ((state.fildes descriptor).used = 0) with
        | none =>
            simp only [tolerate_bind]
            cases tolerance .fildesPeek <;> simp
        | some descriptor =>
            refine .inr (.inr ⟨slot, descriptor, unused, ?_, ?_, rfl⟩)
            · exact of_decide_eq_true (search_eq_some byName).1
            · simpa [State.Open] using (search_eq_some byUse).1

theorem Sound.opened (sound : Sound state chart) {slot : Slot} {descriptor : Descriptor}
    (used : state.Used slot) (closed : ¬state.Open descriptor) :
    Sound (state.opened slot descriptor) chart := by
  have count : ∀ head, (state.opened slot descriptor).openCount head =
      state.openCount head + if (state.dir slot).head = head then 1 else 0 :=
    openCount_open descriptor { used := 1, file := (state.dir slot).head, offset := 0 } closed
      (by decide : (1 : Int32) ≠ 0) rfl
  refine sound.relink used ?_ ?_ fun _ => rfl
  · have counted := count (state.dir slot).head
    rw [if_pos rfl] at counted
    calc (state.dir slot).refCnt + 1
        = Int32.ofNat (state.openCount (state.dir slot).head) + 1 := by rw [sound.counted slot used]
      _ = Int32.ofNat (state.openCount (state.dir slot).head + 1) := (Int32.ofNat_add _ _).symm
      _ = _ := congrArg Int32.ofNat counted.symm
  · intro head distinct
    have counted := count head
    rwa [if_neg distinct.symm] at counted

/-! ## fs_close -/

def State.closed (state : State) (slot : Slot) (descriptor : Descriptor) : State :=
  state.relink slot ((state.dir slot).refCnt - 1) descriptor { used := 0, file := 0, offset := -1 }

theorem fsClose_open (sound : Sound state chart) {descriptor : Descriptor} {slot : Slot}
    (denotes : Denotes state descriptor slot) :
    fsClose tolerance state descriptor.val = .ok (0, state.closed slot descriptor) := by
  have valid := denotes.valid
  unfold fsClose
  simp only [fildesAt_val, bind, Except.bind, if_neg valid, denotes.searchHead_eq sound]
  exact if_neg denotes.used

theorem fsClose_closed {descriptor : Descriptor} (closed : ¬state.Open descriptor) :
    fsClose tolerance state descriptor.val = .ok (-1, state) := by
  unfold fsClose
  simp only [fildesAt_val, bind, Except.bind]
  exact if_pos (invalidFildes_iff.mpr closed)

theorem Sound.closed (sound : Sound state chart) {slot : Slot} {descriptor : Descriptor}
    (used : state.Used slot) (isOpen : state.Open descriptor)
    (head : (state.dir slot).head = (state.fildes descriptor).file) :
    Sound (state.closed slot descriptor) chart := by
  have count : ∀ other, state.openCount other = (state.closed slot descriptor).openCount other +
      if (state.fildes descriptor).file = other then 1 else 0 :=
    openCount_close descriptor { used := 0, file := 0, offset := -1 } isOpen rfl rfl
  refine sound.relink used ?_ ?_ fun used => absurd rfl used
  · have counted := count (state.dir slot).head
    rw [if_pos head.symm] at counted
    calc (state.dir slot).refCnt - 1
        = Int32.ofNat (state.openCount (state.dir slot).head) - 1 := by rw [sound.counted slot used]
      _ = Int32.ofNat ((state.closed slot descriptor).openCount (state.dir slot).head) + 1 - 1 := by
          rw [counted, Int32.ofNat_add]
          rfl
      _ = _ := Int32.add_sub_cancel _ _
  · intro other distinct
    have counted := count other
    rw [← head, if_neg distinct.symm] at counted
    exact counted.symm

end EC440.FileSystem
