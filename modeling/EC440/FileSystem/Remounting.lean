import EC440.FileSystem.Persistence
import Mathlib.Data.List.TakeWhile

/-!
# Descriptors and mounts

The reference counts are stored with the directory.  The descriptors that they
count are not, and `mount_fs` takes the counts as they are.
-/

namespace EC440.FileSystem

open Linked Outcome

variable {tolerance : Tolerance} {state start : State} {slot : Slot} {name : CString}

def Unreferenced (state : State) : Prop := ∀ slot, state.Used slot → (state.dir slot).refCnt = 0

/-- The entries of `FAT` lead from the head of a file to an end, and not to block 0. -/
def Releasable (fat : Fat) (head : Int32) : Prop :=
  ∃ first rest, head = fatNaming.ref first ∧ FatChain fat (fatNaming.ref first) (first :: rest) ∧
    0 ∉ rest

def Separate (fat : Fat) (dir : Directory) : Prop :=
  ∀ first second, (dir first).used ≠ 0 → (dir second).used ≠ 0 → first ≠ second →
    ∀ blocks others, FatChain fat (dir first).head blocks → FatChain fat (dir second).head others →
      List.Disjoint blocks others

/-- No descriptor is open, and in all that follows the reference counts agree with the descriptors
that are open and every file without one can be deleted. -/
structure CleanStart (tolerance : Tolerance) (state : State) : Prop where
  closed : ∀ descriptor, ¬state.Open descriptor
  unreferenced : Unreferenced state
  counted : ∀ later, Session tolerance (fun _ _ => True) state later → ∀ slot, later.Used slot →
    (later.dir slot).refCnt.toInt = later.openCount (later.dir slot).head
  deletable : ∀ later, Session tolerance (fun _ _ => True) state later →
    ∀ slot name, later.Used slot → (later.dir slot).name.Matches name →
      later.openCount (later.dir slot).head = 0 →
      ∃ after, fsDelete tolerance later name = .ok (0, after) ∧ ¬after.Used slot

/-- Unmounting and mounting again leaves nothing of the descriptors. -/
def RemountsClean (tolerance : Tolerance) (state : State) : Prop :=
  ∀ garbage garbage', ∃ unmounted remounted,
    umountFs tolerance garbage state = .ok (0, unmounted) ∧
    mountFs tolerance garbage' unmounted = .ok (0, remounted) ∧ CleanStart tolerance remounted

/-! ## Deleting in any mounted state -/

def NameField.string (name : NameField) : CString where
  bytes := name.text
  noNul membership := by
    have nonzero := List.mem_takeWhile_imp membership
    simp at nonzero

theorem NameField.matches_string (name : NameField) : name.Matches name.string := rfl

theorem fsDelete_iff (tolerance : Tolerance) (state : State)
    (distinguished : Distinguished state.dir) (used : state.Used slot)
    (named : (state.dir slot).name.Matches name) :
    (∃ after, fsDelete tolerance state name = .ok (0, after) ∧ ¬after.Used slot) ↔
      ¬(state.dir slot).refCnt > 0 ∧ Releasable state.fat (state.dir slot).head := by
  have found := distinguished.search_used used named
  constructor
  · rintro ⟨after, done, -⟩
    unfold fsDelete at done
    simp only [found] at done
    split at done
    next => cases done
    next unreferenced =>
      obtain ⟨⟨complete, fat⟩, freed, done⟩ := bind_eq_ok_iff.mp done
      cases complete with
      | false => cases done
      | true =>
          obtain ⟨first, rest, number, chain, nonzero⟩ := chain_of_freeChain freed
          refine ⟨unreferenced, first, rest, ?_, chain, nonzero⟩
          rw [← Int32.toInt_inj, toInt_ref]
          exact number
  · rintro ⟨unreferenced, first, rest, head, chain, nonzero⟩
    refine ⟨_, fsDelete_chain tolerance found unreferenced head chain nonzero, ?_⟩
    simp [State.Used, State.deleted]

/-! ## Walks that come to an end -/

/-- A chain does not come to a block whose entry is clear, as long as that of block 0 is: it would
go round in block 0. -/
theorem FatChain.ne_zero_of_clear {fat : Fat} {link : Int32} {blocks : List BlockIndex}
    (chain : FatChain fat link blocks) (clear : fat 0 = 0) {block : BlockIndex}
    (membership : block ∈ blocks) : fat block ≠ 0 := by
  intro zero
  obtain ⟨before, behind, rfl⟩ := List.append_of_mem membership
  have suffix : FatChain fat (fat block) behind := Chain.suffix chain
  rw [zero] at suffix
  change FatChain fat (fatNaming.ref 0) behind at suffix
  obtain ⟨rest, rfl, again⟩ := Chain.ref_iff.mp suffix
  rw [clear] at again
  have lengths := congrArg List.length (Chain.unique again suffix)
  simp at lengths

theorem releasable_of_chain {fat : Fat} {first : BlockIndex} {blocks : List BlockIndex}
    (clear : fat 0 = 0) (chain : FatChain fat (fatNaming.ref first) blocks) :
    Releasable fat (fatNaming.ref first) := by
  obtain ⟨rest, rfl, -⟩ := Chain.ref_iff.mp chain
  refine ⟨first, rest, rfl, chain, fun membership => ?_⟩
  exact chain.ne_zero_of_clear clear (List.mem_cons_of_mem first membership) clear

/-- When one of two files whose walks meet has been deleted, the other cannot be. -/
theorem release_not_releasable {fat : Fat} {head : Int32} {blocks others : List BlockIndex}
    (chain : FatChain fat head others) {block : BlockIndex} (shared : block ∈ blocks)
    (membership : block ∈ others) : ¬Releasable (release fat blocks) head := by
  rintro ⟨first, rest, rfl, chain', nonzero⟩
  obtain ⟨common, released, -, inBoth⟩ :=
    chain.meets chain' (fun _ => release_of_notMem) membership shared
  obtain ⟨before, behind, split⟩ := List.append_of_mem inBoth
  rw [split] at chain'
  have suffix : FatChain (release fat blocks) (release fat blocks common) behind :=
    Chain.suffix chain'
  rw [release_of_mem released] at suffix
  change FatChain (release fat blocks) (fatNaming.ref 0) behind at suffix
  obtain ⟨tail, rfl, -⟩ := Chain.ref_iff.mp suffix
  -- the walk over the other file now goes on to block 0
  cases before with
  | nil =>
      obtain ⟨rfl, rfl⟩ := List.cons_eq_cons.mp split
      exact nonzero List.mem_cons_self
  | cons head before =>
      obtain ⟨rfl, rfl⟩ := List.cons_eq_cons.mp split
      exact nonzero (by simp)

/-! ## The state after mounting again -/

/-- The entries in front of the data area and those of unused files are clear, and names tell
files apart. -/
structure Tidy (state : State) : Prop where
  distinguished : Distinguished state.dir
  unusedHead : ∀ slot, ¬state.Used slot → (state.dir slot).head = 0 ∨ (state.dir slot).head = -1
  unusedCount : ∀ slot, ¬state.Used slot → (state.dir slot).refCnt = 0
  reserved : ∀ block : BlockIndex, block.val < dataStart → state.fat block = 0

theorem Sound.tidy {chart : Slot → List BlockIndex} (sound : Sound state chart) : Tidy state :=
  ⟨sound.distinguished, sound.unusedHead, sound.unusedCount, sound.charted.reserved⟩

/-- What the files have to be like so that the next mount leaves nothing of the descriptors: no
references, and walks over the FAT entries that come back which end and do not meet. -/
structure Separable (state : State) : Prop where
  unreferenced : Unreferenced state
  releasable : ∀ slot, state.Used slot →
    Releasable (fun block => state.fat (firstPage block)) (state.dir slot).head
  separate : Separate (fun block => state.fat (firstPage block)) state.dir

theorem remounted_closed (garbage : Nat → Buffer) (state : State) (descriptor : Descriptor) :
    ¬(state.remounted garbage).Open descriptor :=
  not_not.mpr rfl

theorem remounted_reserved (tidy : Tidy state) (garbage : Nat → Buffer) (block : BlockIndex)
    (low : block.val < dataStart) : (state.remounted garbage).fat block = 0 := by
  have page : block.val < entriesPerPage := lt_trans low (by decide)
  change state.fat (firstPage block) = 0
  rw [firstPage_of_lt page]
  exact tidy.reserved block low

theorem Separable.chainedStart (separable : Separable state) (tidy : Tidy state)
    (garbage : Nat → Buffer) : ChainedStart (state.remounted garbage) := by
  have reserved := remounted_reserved tidy garbage
  constructor
  case active => rfl
  case superBlock => rfl
  case chained =>
    constructor
    case chains =>
      intro slot used
      obtain ⟨first, rest, head, chain, -⟩ := separable.releasable slot used
      refine ⟨first :: rest, chain?_eq_some_iff.mpr ?_, List.cons_ne_nil _ _, ?_⟩
      · exact head ▸ chain
      · intro block membership
        by_contra low
        exact chain.ne_zero_of_clear (reserved 0 (by decide)) membership
          (reserved block (not_le.mp low))
    case disjoint =>
      intro first second usedFirst usedSecond distinct
      obtain ⟨_, _, headFirst, chainFirst, -⟩ := separable.releasable first usedFirst
      obtain ⟨_, _, headSecond, chainSecond, -⟩ := separable.releasable second usedSecond
      rw [← headFirst] at chainFirst
      rw [← headSecond] at chainSecond
      have listedFirst : (state.remounted garbage).chain first = _ := chain_eq chainFirst
      have listedSecond : (state.remounted garbage).chain second = _ := chain_eq chainSecond
      rw [listedFirst, listedSecond]
      exact separable.separate first second usedFirst usedSecond distinct _ _ chainFirst chainSecond
  case reserved => exact reserved
  case unusedName => exact fun slot unused => tidy.distinguished.unused slot (not_not.mp unused)
  case unusedHead => exact tidy.unusedHead
  case usedName => exact tidy.distinguished.nonempty
  case distinctNames => exact tidy.distinguished.distinct
  case unreferenced =>
    intro slot
    by_cases used : state.Used slot
    · exact separable.unreferenced slot used
    · exact tidy.unusedCount slot used
  case closed => exact remounted_closed garbage state

theorem Sound.deletable {chart : Slot → List BlockIndex} (sound : Sound state chart)
    (tolerance : Tolerance) (used : state.Used slot) (named : (state.dir slot).name.Matches name)
    (closed : state.openCount (state.dir slot).head = 0) :
    ∃ after, fsDelete tolerance state name = .ok (0, after) ∧ ¬after.Used slot := by
  obtain ⟨first, rest, listed, head⟩ := sound.charted.head_eq used
  have chain := sound.charted.chain slot used
  rw [head] at chain
  refine (fsDelete_iff tolerance state sound.distinguished used named).mpr ⟨?_, ?_⟩
  · rw [sound.counted slot used, closed]
    decide
  · rw [head]
    exact releasable_of_chain (sound.charted.reserved 0 (by decide)) chain

theorem Sound.counted_toInt {chart : Slot → List BlockIndex} (sound : Sound state chart)
    (used : state.Used slot) :
    (state.dir slot).refCnt.toInt = state.openCount (state.dir slot).head := by
  have bound := openCount_le state (state.dir slot).head
  simp only [maxFildes] at bound
  rw [sound.counted slot used, Int32.toInt_ofNat_of_lt (by omega)]

theorem CleanStart.separate (clean : CleanStart tolerance state)
    (distinguished : Distinguished state.dir) : Separate state.fat state.dir := by
  intro first second usedFirst usedSecond distinct blocks others chainFirst chainSecond block
    inFirst inSecond
  have named := (state.dir first).name.matches_string
  have closed := openCount_closed clean.closed (state.dir first).head
  obtain ⟨-, firstBlock, rest, head, chain, nonzero⟩ :=
    (fsDelete_iff tolerance state distinguished usedFirst named).mp
      (clean.deletable state .refl first _ usedFirst named closed)
  have unreferenced : ¬(state.dir first).refCnt > 0 := by
    rw [clean.unreferenced first usedFirst]
    decide
  have same : blocks = firstBlock :: rest := Chain.unique chainFirst (head ▸ chain)
  have deleted := fsDelete_chain tolerance (distinguished.search_used usedFirst named)
    unreferenced head chain nonzero
  rw [← same] at deleted
  -- what is left of the second file after the deletion of the first
  have entry : (state.deleted first blocks).dir second = state.dir second :=
    Function.update_of_ne distinct.symm ..
  have still : (state.deleted first blocks).Used second := by
    rw [State.Used, entry]
    exact usedSecond
  have distinguished' : Distinguished (state.deleted first blocks).dir :=
    distinguished.wipe rfl (NameField.text_clear _)
  have named' := ((state.deleted first blocks).dir second).name.matches_string
  have closed' : (state.deleted first blocks).openCount
      ((state.deleted first blocks).dir second).head = 0 :=
    openCount_closed clean.closed _
  have run : Session tolerance (fun _ _ => True) state (state.deleted first blocks) :=
    .single ⟨fun _ _ => 0, .delete (state.dir first).name.string, 0, trivial, deleted⟩
  have releasable := ((fsDelete_iff tolerance _ distinguished' still named').mp
    (clean.deletable _ run second _ still named' closed')).2
  rw [entry] at releasable
  exact release_not_releasable chainSecond inFirst inSecond releasable

/-- The start is clean exactly if the counts on the disk are 0 and the walks over all files, along
the FAT entries that come back, come to an end and do not meet. -/
theorem remounted_cleanStart (tidy : Tidy state) (garbage : Nat → Buffer) :
    CleanStart tolerance (state.remounted garbage) ↔ Separable state := by
  constructor
  · intro clean
    have distinguished : Distinguished (state.remounted garbage).dir := tidy.distinguished
    refine ⟨clean.unreferenced, fun slot used => ?_, clean.separate distinguished⟩
    have named := (state.dir slot).name.matches_string
    have deleted := clean.deletable _ .refl slot _ used named (openCount_closed clean.closed _)
    exact ((fsDelete_iff tolerance (state.remounted garbage) distinguished used named).mp deleted).2
  · intro separable
    have sound := (separable.chainedStart tidy garbage).sound
    constructor
    case closed => exact remounted_closed garbage state
    case unreferenced => exact separable.unreferenced
    case counted =>
      intro later session slot used
      obtain ⟨chart, sound⟩ := session.sound ⟨_, sound⟩
      exact sound.counted_toInt used
    case deletable =>
      intro later session slot name used named closed
      obtain ⟨chart, sound⟩ := session.sound ⟨_, sound⟩
      exact sound.deletable tolerance used named closed

theorem remountsClean_iff (mounted : Mounted state) (tidy : Tidy state)
    (tolerates : tolerance .fildesReset = true) :
    RemountsClean tolerance state ↔ Separable state := by
  have both := umount_mount mounted tolerates
  constructor
  · intro remounts
    obtain ⟨unmounted, remounted, unmounts, mounts, clean⟩ :=
      remounts (fun _ _ => 0) fun _ _ => 0
    obtain ⟨unmounts', mounts'⟩ := both (fun _ _ => 0) fun _ _ => 0
    rw [unmounts'] at unmounts
    cases unmounts
    rw [mounts'] at mounts
    cases mounts
    exact (remounted_cleanStart tidy _).mp clean
  · intro separable garbage garbage'
    obtain ⟨unmounts, mounts⟩ := both garbage garbage'
    exact ⟨_, _, unmounts, mounts, (remounted_cleanStart tidy garbage).mpr separable⟩

/-! ## Sessions -/

/-- The counts are 0 exactly if the session has closed all its descriptors. -/
theorem Sound.unreferenced_iff {chart : Slot → List BlockIndex} (sound : Sound state chart) :
    Unreferenced state ↔ ∀ descriptor, ¬state.Open descriptor := by
  constructor
  · intro unreferenced descriptor isOpen
    obtain ⟨slot, used, head⟩ := sound.owned descriptor isOpen
    have positive := sound.refCnt_pos used isOpen head.symm
    rw [unreferenced slot used] at positive
    exact absurd positive (by decide)
  · intro closed slot used
    rw [sound.counted slot used, openCount_closed closed]
    rfl

theorem Sound.releasable_iff {chart : Slot → List BlockIndex} (sound : Sound state chart)
    (used : state.Used slot) :
    Releasable (fun block => state.fat (firstPage block)) (state.dir slot).head ↔
      ∃ blocks, FatChain (fun block => state.fat (firstPage block)) (state.dir slot).head blocks := by
  obtain ⟨first, -, -, head⟩ := sound.charted.head_eq used
  rw [head]
  constructor
  · rintro ⟨other, rest, same, chain, -⟩
    exact ⟨_, same ▸ chain⟩
  · rintro ⟨blocks, chain⟩
    exact releasable_of_chain (sound.charted.reserved 0 (by decide)) chain

/-- Unmounting and mounting a mounted file system leaves nothing of its descriptors exactly if
no file has a reference and all files can be walked over, apart from each other, along the FAT
entries that come back.  In a session the first means that all descriptors are closed. -/
theorem remounting (tolerates : tolerance .fildesReset = true) :
    (∀ state, Mounted state → Tidy state → (RemountsClean tolerance state ↔ Separable state)) ∧
    ∀ start state (allowed : State → Call → Prop), Mounted start → ChainedStart start →
      Session tolerance allowed start state →
      (RemountsClean tolerance state ↔
        (∀ descriptor, ¬state.Open descriptor) ∧
        (∀ slot, state.Used slot →
          ∃ blocks, FatChain (fun block => state.fat (firstPage block))
            (state.dir slot).head blocks) ∧
        Separate (fun block => state.fat (firstPage block)) state.dir) := by
  constructor
  · exact fun state mounted tidy => remountsClean_iff mounted tidy tolerates
  · intro start state allowed mountedStart begin_ session
    obtain ⟨chart, sound⟩ := session.sound ⟨_, begin_.sound⟩
    have mounted := session.mounted ⟨_, begin_.sound⟩ mountedStart
    rw [remountsClean_iff mounted sound.tidy tolerates]
    constructor
    · rintro ⟨unreferenced, releasable, separate⟩
      exact ⟨sound.unreferenced_iff.mp unreferenced,
        fun slot used => (sound.releasable_iff used).mp (releasable slot used), separate⟩
    · rintro ⟨closed, chained, separate⟩
      exact ⟨sound.unreferenced_iff.mpr closed,
        fun slot used => (sound.releasable_iff used).mpr (chained slot used), separate⟩

/-- After a first file has been created, without opening it. -/
theorem remounting_created : ∃ start created, FreshMount mountOnly start ∧
    fsCreate start fileName = .ok (0, created) ∧ created.Used 63 ∧
    RemountsClean mountOnly created := by
  obtain ⟨start, fresh, dir, fat, fildes⟩ :=
    exists_freshMount (by decide : mountOnly .fildesReset = true)
  have creates := (firstFile mountOnly fresh.start.superBlock dir fat fildes).1
  have session : Session mountOnly (fun _ _ => True) start (start.created 63 10 fileName) :=
    .single ⟨fun _ _ => 0, .create fileName, 0, trivial, creates⟩
  have only (slot : Slot) (used : (start.created 63 10 fileName).Used slot) : slot = 63 := by
    by_contra other
    apply fresh.unused slot
    simpa [State.Used, State.created, other] using used
  refine ⟨start, _, fresh, creates, by simp [State.Used, State.created],
    ((remounting (by decide : mountOnly .fildesReset = true)).2 start _ _ fresh.mounted.1
      fresh.start.chainedStart session).mpr ⟨?_, ?_, ?_⟩⟩
  · intro descriptor
    simp [State.Open, State.created, fildes, State.initial]
  · intro slot used
    obtain rfl := only slot used
    have head : ((start.created 63 10 fileName).dir 63).head = fatNaming.ref 10 := by
      simp [State.created]
    have ended : (start.created 63 10 fileName).fat (firstPage 10) = -1 := by
      simp [State.created, firstPage_of_lt (by decide : (10 : BlockIndex).val < entriesPerPage)]
    rw [head]
    refine ⟨[10], .cons ?_⟩
    rw [ended]
    exact .stop
  · intro first second usedFirst usedSecond distinct
    exact absurd ((only first usedFirst).trans (only second usedSecond).symm) distinct

/-- The descriptor of the first file is left open.  After mounting again the file has a reference
that no descriptor accounts for, and it cannot be deleted. -/
theorem remounting_broken : ∃ start opened unmounted remounted, FreshMount mountOnly start ∧
    Session mountOnly (fun _ _ => True) start opened ∧
    umountFs mountOnly (fun _ _ => 0) opened = .ok (0, unmounted) ∧
    mountFs mountOnly (fun _ _ => 0) unmounted = .ok (0, remounted) ∧
    (∀ descriptor, ¬remounted.Open descriptor) ∧ remounted.Used 63 ∧
    (remounted.dir 63).refCnt > 0 ∧ fsDelete mountOnly remounted fileName = .ok (-1, remounted) ∧
    ¬RemountsClean mountOnly opened := by
  obtain ⟨start, fresh, dir, fat, fildes⟩ :=
    exists_freshMount (by decide : mountOnly .fildesReset = true)
  obtain ⟨creates, opens⟩ := firstFile mountOnly fresh.start.superBlock dir fat fildes
  have session : Session mountOnly (fun _ _ => True) start
      ((start.created 63 10 fileName).opened 63 0) :=
    (Relation.ReflTransGen.single ⟨fun _ _ => 0, .create fileName, 0, trivial, creates⟩).tail
      ⟨fun _ _ => 0, .opens fileName, 0, trivial, opens⟩
  obtain ⟨chart, sound⟩ := session.sound fresh.start.sound
  have mounted := session.mounted fresh.start.sound fresh.mounted.1
  have used : ((start.created 63 10 fileName).opened 63 0).Used 63 := by
    simp [State.Used, State.opened, State.relink, State.created]
  have referenced : (((start.created 63 10 fileName).opened 63 0).dir 63).refCnt > 0 := by
    simp [State.opened, State.relink, State.created]
  have named : (((start.created 63 10 fileName).opened 63 0).dir 63).name.Matches fileName := by
    have text := NameField.text_strcpy (start.dir 63).name fileName (by decide)
    simpa [NameField.Matches, State.opened, State.relink, State.created] using text
  obtain ⟨unmounts, mounts⟩ := umount_mount mounted fresh.mounted.2 (fun _ _ => 0) fun _ _ => 0
  refine ⟨start, _, _, _, fresh, session, unmounts, mounts, remounted_closed _ _, used, referenced,
    ?_, fun remounts => ?_⟩
  · have found : (search fun slot => ((((start.created 63 10 fileName).opened 63 0).remounted
        fun _ _ => 0).dir slot).name.Matches fileName) = some 63 :=
      sound.distinguished.search_used used named
    unfold fsDelete
    simp only [found]
    exact if_pos referenced
  · have unreferenced := ((remountsClean_iff mounted sound.tidy fresh.mounted.2).mp
      remounts).unreferenced
    rw [unreferenced 63 used] at referenced
    exact absurd referenced (by decide)

end EC440.FileSystem
