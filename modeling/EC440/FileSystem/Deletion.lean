import EC440.FileSystem.FullDisk

/-!
# Deleting a file

In every well-formed state the deletion of a file frees exactly its chain, and
what it gives up is there for the next `fs_create`.
-/

namespace EC440.FileSystem

open Linked Outcome

variable {tolerance : Tolerance} {state after : State} {name : CString} {slot : Slot}

theorem WellFormed.chain_cons (wellFormed : WellFormed state) (used : state.Used slot) :
    ∃ first rest, state.chain slot = first :: rest ∧
      (state.dir slot).head = fatNaming.ref first ∧
      FatChain state.fat (fatNaming.ref first) (first :: rest) ∧
      (first :: rest).Nodup ∧ ∀ block ∈ first :: rest, dataStart ≤ block.val := by
  obtain ⟨blocks, found, nonempty, nodup, data⟩ := wellFormed.chains slot used
  have chain := chain?_eq_some_iff.mp found
  cases blocks with
  | nil => exact absurd rfl nonempty
  | cons first rest =>
      have head := (Chain.cons_iff.mp chain).1
      refine ⟨first, rest, FileSystem.chain_eq chain, head, ?_, nodup, data⟩
      rwa [← head]

theorem fsDelete_wellFormed (tolerance : Tolerance) (wellFormed : WellFormed state)
    (distinguished : Distinguished state.dir) (used : state.Used slot)
    (unreferenced : (state.dir slot).refCnt = 0) (named : (state.dir slot).name.Matches name) :
    fsDelete tolerance state name = .ok (0, state.deleted slot (state.chain slot)) := by
  obtain ⟨first, rest, listed, head, chain, -, data⟩ := wellFormed.chain_cons used
  have found := distinguished.search_used used named
  have notReferenced : ¬(state.dir slot).refCnt > 0 := by
    rw [unreferenced]
    decide
  rw [listed]
  exact fsDelete_chain tolerance found notReferenced head chain
    (zero_notMem fun block inRest => data block (List.mem_cons_of_mem first inRest))

/-- The blocks of the chain were in use, so that the number of free blocks grows by its length. -/
theorem deleted_freeCount (wellFormed : WellFormed state) (used : state.Used slot) :
    (state.deleted slot (state.chain slot)).freeCount =
      state.freeCount + (state.chain slot).length := by
  obtain ⟨first, rest, listed, -, -, nodup, data⟩ := wellFormed.chain_cons used
  rw [← listed] at nodup data
  have occupied : ∀ block ∈ state.chain slot, state.fat block ≠ 0 := fun block membership =>
    (wellFormed.accounted block (data block membership)).mpr ⟨slot, used, membership⟩
  have apart : Disjoint (freeBlocks state.fat) (state.chain slot).toFinset := by
    rw [Finset.disjoint_left]
    intro block isFree inChain
    exact occupied block (List.mem_toFinset.mp inChain) (mem_freeBlocks.mp isFree).2
  have union : freeBlocks (state.deleted slot (state.chain slot)).fat =
      freeBlocks state.fat ∪ (state.chain slot).toFinset := by
    ext block
    rw [Finset.mem_union, mem_freeBlocks, mem_freeBlocks, List.mem_toFinset]
    by_cases inChain : block ∈ state.chain slot
    · have zero : (state.deleted slot (state.chain slot)).fat block = 0 := release_of_mem inChain
      simp [zero, inChain, data block inChain]
    · have same : (state.deleted slot (state.chain slot)).fat block = state.fat block :=
        release_of_notMem inChain
      simp [same, inChain]
  change (freeBlocks _).card = (freeBlocks _).card + _
  rw [union, Finset.card_union_of_disjoint apart, List.toFinset_card_of_nodup nodup]

/-- Exactly one used entry has become unused and nameless, exactly the table entries of its chain
have become 0, and nothing else has changed. -/
structure RemovesFile (before after : State) (slot : Slot) : Prop where
  chain : ∀ block ∈ before.chain slot, before.fat block ≠ 0 ∧ after.fat block = 0
  frame : ∀ block, block ∉ before.chain slot → after.fat block = before.fat block
  unused : ¬after.Used slot
  nameless : (after.dir slot).name.text = []
  others : ∀ other, other ≠ slot → after.dir other = before.dir other
  rest : after.device = before.device ∧ after.mount = before.mount ∧ after.fs = before.fs ∧
    after.fildes = before.fildes

theorem deleted_removesFile (wellFormed : WellFormed state) (used : state.Used slot) :
    RemovesFile state (state.deleted slot (state.chain slot)) slot := by
  obtain ⟨first, rest, listed, -, -, -, data⟩ := wellFormed.chain_cons used
  rw [← listed] at data
  constructor
  case chain =>
    intro block membership
    have accounted := (wellFormed.accounted block (data block membership)).mpr
    exact ⟨accounted ⟨slot, used, membership⟩, release_of_mem membership⟩
  case frame => exact fun block absent => release_of_notMem absent
  case unused => simp [State.Used, State.deleted]
  case nameless => simpa [State.deleted] using NameField.text_clear (state.dir slot).name
  case others => exact fun other distinct => Function.update_of_ne distinct _ _
  case rest => exact ⟨rfl, rfl, rfl, rfl⟩

/-- A file without references is deleted, and the next file takes an unused entry and a free
block: those of the deleted one, when there are no others. -/
theorem deletion (tolerance : Tolerance) (wellFormed : WellFormed state)
    (distinguished : Distinguished state.dir) (fs : state.fs = some layout)
    (used : state.Used slot) (unreferenced : (state.dir slot).refCnt = 0)
    (named : (state.dir slot).name.Matches name) :
    ∃ after, fsDelete tolerance state name = .ok (0, after) ∧ RemovesFile state after slot ∧
      after.freeCount = state.freeCount + (state.chain slot).length ∧
      ∀ newName : CString, newName.bytes ≠ [] → newName.bytes.length ≤ maxFName →
        (∀ other, after.Used other → ¬(after.dir other).name.Matches newName) →
        ∃ created newSlot fresh, fsCreate after newName = .ok (0, created) ∧
          AddsFile after created newName newSlot fresh ∧
          ((∀ other, other ≠ slot → state.Used other) → newSlot = slot) ∧
          (state.freeCount = 0 → fresh ∈ state.chain slot) := by
  have removes := deleted_removesFile wellFormed used
  have count := deleted_freeCount wellFormed used
  refine ⟨_, fsDelete_wellFormed tolerance wellFormed distinguished used unreferenced named,
    removes, count, fun newName nonempty short new => ?_⟩
  have names : Distinguished (state.deleted slot (state.chain slot)).dir :=
    distinguished.wipe rfl (NameField.text_clear _)
  have free : 0 < (state.deleted slot (state.chain slot)).freeCount := by
    obtain ⟨first, rest, listed, -⟩ := wellFormed.chain_cons used
    rw [count, listed, List.length_cons]
    omega
  have superBlock : (state.deleted slot (state.chain slot)).fs = some layout := fs
  have admits : (state.deleted slot (state.chain slot)).Admits newName :=
    ⟨nonempty, short, new, slot, removes.unused⟩
  obtain ⟨newSlot, fresh, unused, isFree, -, done⟩ := fsCreate_ok superBlock names admits free
  refine ⟨_, newSlot, fresh, done, created_addsFile unused isFree short, fun others => ?_,
    fun none => ?_⟩
  · by_contra distinct
    apply unused
    rw [State.Used, removes.others newSlot distinct]
    exact others newSlot distinct
  · by_contra outside
    have wasFree : fresh ∈ freeBlocks state.fat := by
      rw [mem_freeBlocks, ← removes.frame fresh outside]
      exact mem_freeBlocks.mp isFree
    exact absurd none (freeCount_pos_iff.mpr ⟨fresh, wasFree⟩).ne'

/-- A file of three blocks, which has been written and closed. -/
theorem deletion_threeBlocks : ∃ start state after slot, FreshMount mountOnly start ∧
    Session mountOnly (fun _ _ => True) start state ∧ state.Used slot ∧
    (state.chain slot).length = 3 ∧ fsDelete mountOnly state fileName = .ok (0, after) ∧
    RemovesFile state after slot ∧ after.freeCount = state.freeCount + 3 := by
  obtain ⟨start, fresh, -⟩ := exists_freshMount (by decide : mountOnly .fildesReset = true)
  obtain ⟨chart, sound, fitting⟩ := fresh.grown
  have free := fresh.freeCount
  obtain ⟨opened, chart1, descriptor, slot, session1, newFile, stocked1, free1⟩ :=
    exists_newFile mountOnly fileName sound fitting fresh.stocked (by decide)
      (by omega) (by decide) (by decide) (by simp)
  obtain ⟨written, chart2, session2, sound2, -, denotes, stocked2, -, length⟩ :=
    newFile.written mountOnly stocked1 (by decide : (8192 : UInt64).toNat ≤ maxFSize)
  have closes : fsClose mountOnly written descriptor.val =
      .ok (0, written.closed slot descriptor) := fsClose_open sound2 denotes
  obtain ⟨stocked3, closed⟩ : Stocked (written.closed slot descriptor) [fileName] ∧
      ∀ other, ¬(written.closed slot descriptor).Open other := stocked2.closed denotes.isOpen
  have sound3 := sound2.closed denotes.used denotes.isOpen denotes.head
  have grown : Session mountOnly (fun _ call => call.Grows) start written :=
    session1.trans session2
  have session : Session mountOnly (fun _ _ => True) start (written.closed slot descriptor) :=
    (grown.weaken fun _ _ _ => trivial).tail
      ⟨fun _ _ => 0, .close descriptor.val, 0, trivial, closes⟩
  have used : (written.closed slot descriptor).Used slot := relink_used.mpr denotes.used
  have unreferenced : ((written.closed slot descriptor).dir slot).refCnt = 0 := by
    rw [sound3.counted slot used, openCount_closed closed]
    rfl
  obtain ⟨name, isName, named⟩ := stocked3.listed slot used
  obtain rfl := List.mem_singleton.mp isName
  have three : ((written.closed slot descriptor).chain slot).length = 3 := by
    have blocks : (8192 : UInt64).toNat / blockSize = 2 := rfl
    rw [sound3.charted.chain_eq used, length, blocks]
    omega
  obtain ⟨after, deletes, removes, count, -⟩ := deletion mountOnly
    (session_wellFormed fresh session).1 sound3.distinguished sound3.superBlock used unreferenced
    named
  exact ⟨start, _, after, slot, fresh, session, used, three, deletes, removes, three ▸ count⟩

end EC440.FileSystem
