import EC440.FileSystem.ReadYourWrites

/-!
# Creating and opening by name

The two searches of `fs_create` have four outcomes, and a file that is in the
directory can be opened as long as a descriptor is left.  With these a session
is built that leaves only part of the disk free, and one that leaves nothing.
-/

namespace EC440.FileSystem

open Linked Outcome

variable {tolerance : Tolerance} {state : State} {chart : Slot → List BlockIndex}
  {name : CString} {slot : Slot}

/-! ## The directory scan of fs_create -/

/-- The scan stops at an entry of the name, or ends with an unused entry if it met one. -/
theorem createScan_cases (dir : Directory) (name : CString) (slots : List Slot)
    (unused : Option Slot) :
    createScan dir name slots unused = none ∧ (∃ slot ∈ slots, (dir slot).name.Matches name) ∨
    ∃ result, createScan dir name slots unused = some result ∧
      (∀ slot ∈ slots, ¬(dir slot).name.Matches name) ∧
      (result = none → unused = none ∧ ∀ slot ∈ slots, (dir slot).used ≠ 0) := by
  induction slots generalizing unused with
  | nil => exact .inr ⟨unused, rfl, by simp, fun none => ⟨none, by simp⟩⟩
  | cons head rest inductionHypothesis =>
      by_cases hit : (dir head).name.Matches name
      · exact .inl ⟨if_pos hit, head, by simp, hit⟩
      · simp only [createScan, if_neg hit]
        rcases inductionHypothesis (if (dir head).used = 0 then some head else unused) with
          ⟨stopped, slot, later, named⟩ | ⟨result, ended, others, allUsed⟩
        · exact .inl ⟨stopped, slot, List.mem_cons_of_mem _ later, named⟩
        · refine .inr ⟨result, ended, by simpa [hit] using others, fun none => ?_⟩
          obtain ⟨noneBefore, restUsed⟩ := allUsed none
          rcases ite_eq_iff.mp noneBefore with ⟨_, impossible⟩ | ⟨used, noneYet⟩
          · cases impossible
          · exact ⟨noneYet, by simpa [used] using restUsed⟩

/-- `fs_create` gets past its checks: the name is neither empty nor too long nor taken, and an
entry is unused. -/
structure State.Admits (state : State) (name : CString) : Prop where
  nonempty : name.bytes ≠ []
  short : name.bytes.length ≤ maxFName
  new : ∀ slot, state.Used slot → ¬(state.dir slot).name.Matches name
  room : ∃ slot, ¬state.Used slot

theorem State.Admits.unmatched (admits : state.Admits name)
    (distinguished : Distinguished state.dir) (slot : Slot) :
    ¬(state.dir slot).name.Matches name :=
  fun named => admits.new slot (distinguished.used admits.nonempty named) named

theorem fsCreate_refused (distinguished : Distinguished state.dir)
    (refused : ¬state.Admits name) : fsCreate state name = .ok (-1, state) := by
  unfold fsCreate
  by_cases long : name.bytes.length > 15
  · exact if_pos long
  · rw [if_neg long]
    rcases createScan_cases state.dir name (List.finRange maxFNum) none with
      ⟨stopped, -⟩ | ⟨result, ended, others, allUsed⟩
    · rw [stopped]
    · cases result with
      | none => rw [ended]
      | some slot =>
          exfalso
          apply refused
          have unused : (state.dir slot).used = 0 := by
            simpa using (createScan_eq_some ended).2
          have new : ∀ other, ¬(state.dir other).name.Matches name :=
            fun other => others other (List.mem_finRange other)
          refine ⟨fun empty => new slot ?_, not_lt.mp long, fun other _ => new other, slot,
            not_not.mpr unused⟩
          exact (distinguished.unused slot unused).trans empty.symm

/-- Past the checks everything depends on the search for a free block. -/
theorem fsCreate_admitted (fs : state.fs = some layout) (distinguished : Distinguished state.dir)
    (admits : state.Admits name) :
    (∃ slot fresh, ¬state.Used slot ∧ fresh ∈ freeBlocks state.fat ∧ FirstFit state.fat [fresh] ∧
      fsCreate state name = .ok (0, state.created slot fresh name)) ∨
    freeBlocks state.fat = ∅ ∧ fsCreate state name = .error (.outOfRange .fat diskBlocks) := by
  have short : ¬name.bytes.length > 15 := not_lt.mpr admits.short
  unfold fsCreate
  rw [if_neg short]
  rcases createScan_cases state.dir name (List.finRange maxFNum) none with
    ⟨-, slot, -, named⟩ | ⟨result, ended, others, allUsed⟩
  · exact absurd named (admits.unmatched distinguished slot)
  · cases result with
    | none =>
        obtain ⟨slot, unused⟩ := admits.room
        exact absurd ((allUsed rfl).2 slot (List.mem_finRange slot)) unused
    | some slot =>
        have unused : ¬state.Used slot := by
          simpa [State.Used] using (createScan_eq_some ended).2
        have superBlock : state.superBlock = .ok layout := by rw [State.superBlock, fs]
        rw [ended]
        rcases firstFree_spec state.fat with ⟨fresh, found, data, zero, earlier⟩ | ⟨found, full⟩
        · refine .inl ⟨slot, fresh, unused, mem_freeBlocks.mpr ⟨data, zero⟩,
            firstFit_singleton earlier, ?_⟩
          simp only [superBlock, bind, Except.bind, found, writeFat_val]
          rfl
        · right
          constructor
          · ext block
            simpa using full block
          · simp only [superBlock, bind, Except.bind, found]
            rfl

theorem freeCount_pos_iff : 0 < state.freeCount ↔ ∃ block, block ∈ freeBlocks state.fat :=
  Finset.card_pos

theorem fsCreate_ok (fs : state.fs = some layout) (distinguished : Distinguished state.dir)
    (admits : state.Admits name) (free : 0 < state.freeCount) :
    ∃ slot fresh, ¬state.Used slot ∧ fresh ∈ freeBlocks state.fat ∧ FirstFit state.fat [fresh] ∧
      fsCreate state name = .ok (0, state.created slot fresh name) := by
  rcases fsCreate_admitted fs distinguished admits with created | ⟨none, -⟩
  · exact created
  · obtain ⟨block, isFree⟩ := freeCount_pos_iff.mp free
    rw [none] at isFree
    cases isFree

/-! ## fs_open -/

theorem fsOpen_ok (tolerance : Tolerance) (distinguished : Distinguished state.dir)
    (used : state.Used slot) (named : (state.dir slot).name.Matches name)
    (left : ∃ descriptor, ¬state.Open descriptor) :
    ∃ descriptor, ¬state.Open descriptor ∧ fsOpen tolerance state name =
      .ok (Int32.ofNat descriptor.val, state.opened slot descriptor) := by
  have found := distinguished.search_used used named
  have isUsed : ¬(state.dir slot).used = 0 := used
  unfold fsOpen
  simp only [found, if_neg isUsed]
  cases byUse : search fun descriptor => decide ((state.fildes descriptor).used = 0) with
  | none =>
      obtain ⟨descriptor, closed⟩ := left
      exact absurd (not_not.mp closed) (of_decide_eq_false (search_eq_none byUse descriptor))
  | some descriptor =>
      refine ⟨descriptor, ?_, rfl⟩
      simpa [State.Open] using (search_eq_some byUse).1

/-! ## Filling the disk -/

/-- The files of the directory have some of the given names, and no more descriptors are open
than there are names. -/
structure Stocked (state : State) (names : List CString) : Prop where
  listed : ∀ slot, state.Used slot → ∃ name ∈ names, (state.dir slot).name.Matches name
  opened : (Finset.univ.filter state.Open).card ≤ names.length

namespace Stocked

variable {names : List CString} {after : State}

theorem admits (stocked : Stocked state names) (distinguished : Distinguished state.dir)
    (few : names.length < maxFNum) (nonempty : name.bytes ≠ [])
    (short : name.bytes.length ≤ maxFName) (new : ∀ other ∈ names, other.bytes ≠ name.bytes) :
    state.Admits name := by
  refine ⟨nonempty, short, fun slot used named => ?_, ?_⟩
  · obtain ⟨other, membership, matched⟩ := stocked.listed slot used
    exact new other membership (matched.symm.trans named)
  · by_contra full
    simp only [not_exists, not_not] at full
    choose file membership matched using fun slot => stocked.listed slot (full slot)
    have injective :
        Function.Injective fun slot => (⟨file slot, membership slot⟩ : {n // n ∈ names}) := by
      intro first second same
      have sameFile : file first = file second := congrArg Subtype.val same
      refine distinguished.distinct first second (full first) (full second) ?_
      rw [matched first, matched second, sameFile]
    have bound := Fintype.card_le_of_injective _ injective
    have listLength : Fintype.card {n // n ∈ names} ≤ names.length := by
      rw [Fintype.card_of_subtype names.toFinset (by simp)]
      exact List.toFinset_card_le names
    rw [Fintype.card_fin] at bound
    omega

theorem left (stocked : Stocked state names) (few : names.length < maxFildes) :
    ∃ descriptor, ¬state.Open descriptor := by
  by_contra full
  simp only [not_exists, not_not] at full
  have all : Finset.univ.filter state.Open = Finset.univ := by
    ext descriptor
    simp [full descriptor]
  have opened := stocked.opened
  rw [all, Finset.card_univ, Fintype.card_fin] at opened
  omega

theorem of_eq (stocked : Stocked state names)
    (entry : ∀ slot, (after.dir slot).used = (state.dir slot).used ∧
      (after.dir slot).name = (state.dir slot).name)
    (fildes : ∀ descriptor, (after.fildes descriptor).used = (state.fildes descriptor).used) :
    Stocked after names := by
  constructor
  · intro slot used
    rw [(entry slot).2]
    exact stocked.listed slot (by rwa [State.Used, ← (entry slot).1])
  · have same : Finset.univ.filter after.Open = Finset.univ.filter state.Open := by
      ext descriptor
      simp [State.Open, fildes descriptor]
    rw [same]
    exact stocked.opened

theorem created (stocked : Stocked state names) {slot : Slot} {fresh : BlockIndex}
    (named : ((state.created slot fresh name).dir slot).name.Matches name) :
    Stocked (state.created slot fresh name) (name :: names) := by
  constructor
  · intro other isUsed
    by_cases same : other = slot
    · exact ⟨name, by simp, same ▸ named⟩
    · have wasUsed : state.Used other := by
        rwa [State.Used, ← created_entry_of_ne same]
      obtain ⟨file, membership, matched⟩ := stocked.listed other wasUsed
      rw [created_entry_of_ne same]
      exact ⟨file, List.mem_cons_of_mem _ membership, matched⟩
  · exact stocked.opened.trans (Nat.le_succ _)

theorem newFile (stocked : Stocked state names) {slot : Slot} {fresh : BlockIndex}
    {descriptor : Descriptor}
    (named : ((state.created slot fresh name).dir slot).name.Matches name) :
    Stocked ((state.created slot fresh name).opened slot descriptor) (name :: names) := by
  have entry := relink_entry (state.created slot fresh name) slot
    (((state.created slot fresh name).dir slot).refCnt + 1) descriptor
    { used := 1, file := ((state.created slot fresh name).dir slot).head, offset := 0 }
  constructor
  · intro other isUsed
    rw [State.opened, (entry other).2.1]
    exact (stocked.created named).listed other (relink_used.mp isUsed)
  · have grown : Finset.univ.filter ((state.created slot fresh name).opened slot descriptor).Open ⊆
        insert descriptor (Finset.univ.filter state.Open) := by
      intro other isOpen
      by_cases same : other = descriptor
      · simp [same]
      · rw [Finset.mem_filter, State.Open, State.opened, relink_fildes_of_ne same] at isOpen
        exact Finset.mem_insert_of_mem (Finset.mem_filter.mpr ⟨Finset.mem_univ other, isOpen.2⟩)
    calc (Finset.univ.filter _).card ≤ _ := Finset.card_le_card grown
      _ ≤ _ := Finset.card_insert_le _ _
      _ ≤ _ := Nat.succ_le_succ stocked.opened

theorem closed {slot : Slot} {descriptor : Descriptor} (stocked : Stocked state [name])
    (isOpen : state.Open descriptor) :
    Stocked (state.closed slot descriptor) [name] ∧
      ∀ other, ¬(state.closed slot descriptor).Open other := by
  have closed (other : Descriptor) : ¬(state.closed slot descriptor).Open other := by
    intro stillOpen
    by_cases same : other = descriptor
    · rw [same, State.Open, State.closed, relink_fildes] at stillOpen
      exact stillOpen rfl
    · rw [State.Open, State.closed, relink_fildes_of_ne same] at stillOpen
      refine same (Finset.card_le_one.mp stocked.opened other ?_ descriptor ?_)
      · exact Finset.mem_filter.mpr ⟨Finset.mem_univ other, stillOpen⟩
      · exact Finset.mem_filter.mpr ⟨Finset.mem_univ descriptor, isOpen⟩
  refine ⟨⟨fun other isUsed => ?_, ?_⟩, closed⟩
  · rw [State.closed, (relink_entry ..).2.1]
    exact stocked.listed other (relink_used.mp isUsed)
  · rw [Finset.filter_false_of_mem fun other _ => closed other, Finset.card_empty]
    exact Nat.zero_le _

end Stocked

/-- A state in which a newly created file has just been opened. -/
structure NewFile (state : State) (chart : Slot → List BlockIndex) (descriptor : Descriptor)
    (slot : Slot) : Prop where
  sound : Sound state chart
  fitting : Fitting state chart
  denotes : Denotes state descriptor slot
  single : (chart slot).length = 1
  empty : (state.dir slot).size = 0
  rewound : (state.fildes descriptor).offset = 0

/-- A new file can be created and opened while a block, an entry and a descriptor are left. -/
theorem exists_newFile {names : List CString} (tolerance : Tolerance) (name : CString)
    (sound : Sound state chart) (fitting : Fitting state chart) (stocked : Stocked state names)
    (few : names.length < maxFildes) (free : 0 < state.freeCount) (nonempty : name.bytes ≠ [])
    (short : name.bytes.length ≤ maxFName) (new : ∀ other ∈ names, other.bytes ≠ name.bytes) :
    ∃ after chart' descriptor slot,
      Session tolerance (fun _ call => call.Grows) state after ∧
      NewFile after chart' descriptor slot ∧ Stocked after (name :: names) ∧
      after.freeCount + 1 = state.freeCount := by
  have admits := stocked.admits sound.distinguished (few.trans (by decide)) nonempty short new
  obtain ⟨slot, fresh, unused, isFree, firstFit, creates⟩ :=
    fsCreate_ok sound.superBlock sound.distinguished admits free
  have soundCreated := sound.created unused short (admits.unmatched sound.distinguished) isFree
  have used : (state.created slot fresh name).Used slot := by
    simp [State.Used, State.created]
  have named : ((state.created slot fresh name).dir slot).name.Matches name := by
    have text := NameField.text_strcpy (state.dir slot).name name short
    simpa [State.created, NameField.Matches] using text
  obtain ⟨descriptor, closed, opens⟩ :=
    fsOpen_ok tolerance soundCreated.distinguished used named (stocked.left few)
  have soundOpened := soundCreated.opened used closed
  have creation : Effect state chart (.create name) 0 (state.created slot fresh name)
      (Function.update chart slot [fresh]) :=
    .created unused short (admits.unmatched sound.distinguished) isFree firstFit
  have tight := creation.tight sound fitting.tight
  refine ⟨(state.created slot fresh name).opened slot descriptor, _, descriptor, slot, ?_,
    ⟨soundOpened, (fitting.created sound isFree tight).relink fun _ => rfl, opened_denotes _ used,
      ?_, ?_, ?_⟩, stocked.newFile named, ?_⟩
  · exact (Relation.ReflTransGen.single
      ⟨fun _ _ => 0, .create name, 0, trivial, creates⟩).tail
        ⟨fun _ _ => 0, .opens name, _, trivial, opens⟩
  · rw [Function.update_self, List.length_singleton]
  · rw [State.opened, relink_size, created_size]
  · rw [State.opened, relink_fildes]
  · have nothing := sound.charted.unused slot (not_not.mp unused)
    have appended : Function.update chart slot [fresh] =
        Function.update chart slot (chart slot ++ [fresh]) := by rw [nothing, List.nil_append]
    have grown := soundOpened.charted
    rw [appended] at grown tight
    have count := sound.charted.freeCount_append fitting.tight grown tight
    rwa [List.length_singleton] at count

theorem Stocked.write {names : List CString} {descriptor : Int} {buf : Nat → UInt8}
    {nbyte : UInt64} {code : Int32} {after : State} {chart' : Slot → List BlockIndex}
    (stocked : Stocked state names)
    (effect : Effect state chart (.write descriptor buf nbyte) code after chart') :
    Stocked after names := by
  cases effect with
  | idle => exact stocked
  | @written slot descriptor =>
      refine stocked.of_eq (fun other => ⟨(written_entry other).1, ?_⟩) fun reader => ?_
      · by_cases same : other = slot
        · rw [same]
          simp [State.written, State.stored]
        · rw [written_entry_of_ne same]
      · by_cases same : reader = descriptor
        · rw [same]
          simp [State.written, State.stored]
        · rw [written_fildes_of_ne same]

/-- A write to a new file takes a block for every full block that is written. -/
theorem NewFile.written {names : List CString} {descriptor : Descriptor} (tolerance : Tolerance)
    (newFile : NewFile state chart descriptor slot) (stocked : Stocked state names)
    {nbyte : UInt64} (within : nbyte.toNat ≤ maxFSize) :
    ∃ after chart', Session tolerance (fun _ call => call.Grows) state after ∧
      Sound after chart' ∧ Fitting after chart' ∧ Denotes after descriptor slot ∧
      Stocked after names ∧ after.freeCount = state.freeCount - nbyte.toNat / blockSize ∧
      (chart' slot).length = 1 + min (nbyte.toNat / blockSize) state.freeCount := by
  have fits : (state.fildes descriptor).offset.toInt + nbyte.toNat ≤ maxFSize := by
    rw [newFile.rewound, Int32.toInt_zero, zero_add]
    exact_mod_cast within
  obtain ⟨after, chart', writes, sound, fitting, denotes, length, taken, -, -⟩ :=
    fsWrite_grown tolerance newFile.sound newFile.fitting newFile.denotes (fun _ _ => 0)
      (fun _ => 1) fits
  have position : state.position descriptor = 0 := by
    rw [State.position, newFile.rewound]
    rfl
  rw [position, zero_add, newFile.single, appended, if_pos rfl] at taken length
  have done : exec tolerance (fun _ _ => 0) state
      (.write descriptor.val (fun _ => 1) nbyte) = .ok (_, after) := writes
  obtain ⟨chart'', effect⟩ := exec_effect newFile.sound done
  have step : Step tolerance (fun _ call => call.Grows) state after :=
    ⟨fun _ _ => 0, .write descriptor.val (fun _ => 1) nbyte, _, trivial, done⟩
  exact ⟨after, chart', .single step, sound, fitting, denotes, stocked.write effect, by omega,
    length⟩

/-- A write of the maximum file size to a new file takes up to 4096 blocks. -/
theorem NewFile.filled {names : List CString} {descriptor : Descriptor} (tolerance : Tolerance)
    (newFile : NewFile state chart descriptor slot) (stocked : Stocked state names) :
    ∃ after chart', Session tolerance (fun _ call => call.Grows) state after ∧
      Sound after chart' ∧ Fitting after chart' ∧ Stocked after names ∧
      after.freeCount = state.freeCount - 4096 := by
  obtain ⟨after, chart', session, sound, fitting, -, stocked', taken, -⟩ :=
    newFile.written tolerance stocked (le_refl (16777216 : UInt64).toNat)
  exact ⟨after, chart', session, sound, fitting, stocked', taken⟩

end EC440.FileSystem
