import EC440.FileSystem.Creation

/-!
# The full disk

What `fs_create` and `fs_write` do when the data blocks run out.
-/

namespace EC440.FileSystem

open Linked Outcome

variable {tolerance : Tolerance} {state : State} {chart : Slot → List BlockIndex}
  {name : CString} {slot : Slot}

/-! ## Sessions that fill the disk -/

def secondName : CString := ⟨[103], by decide⟩

def thirdName : CString := ⟨[104], by decide⟩

theorem FreshMount.stocked {start : State} (fresh : FreshMount tolerance start) :
    Stocked start [] := by
  constructor
  · exact fun slot used => absurd used (fresh.unused slot)
  · have none : Finset.univ.filter start.Open = ∅ := by
      ext descriptor
      simpa using fresh.start.closed descriptor
    rw [none, Finset.card_empty]
    exact Nat.zero_le _

theorem FreshMount.freeCount {start : State} (fresh : FreshMount tolerance start) :
    start.freeCount = 8182 := by
  obtain ⟨chart, sound, fitting⟩ := fresh.grown
  have total := sound.charted.freeCount_add fitting.tight
  rw [Finset.sum_eq_zero fun slot _ => by rw [fresh.chart_eq sound slot]; rfl] at total
  simpa only [diskBlocks, dataStart, Nat.add_zero] using total

/-- A second file has been created and opened on a disk that is about half full. -/
theorem exists_crowdedDisk : ∃ start state chart descriptor slot, FreshMount mountOnly start ∧
    Session mountOnly (fun _ call => call.Grows) start state ∧
    NewFile state chart descriptor slot ∧ Stocked state [secondName, fileName] ∧
    state.freeCount = 4084 := by
  obtain ⟨start, fresh, -⟩ := exists_freshMount (by decide : mountOnly .fildesReset = true)
  obtain ⟨chart, sound, fitting⟩ := fresh.grown
  have free := fresh.freeCount
  obtain ⟨first, chart1, descriptor1, slot1, session1, newFile1, stocked1, free1⟩ :=
    exists_newFile mountOnly fileName sound fitting fresh.stocked (by decide)
      (by omega) (by decide) (by decide) (by simp)
  obtain ⟨filled, chart2, session2, sound2, fitting2, stocked2, free2⟩ :=
    newFile1.filled mountOnly stocked1
  obtain ⟨second, chart3, descriptor3, slot3, session3, newFile3, stocked3, free3⟩ :=
    exists_newFile mountOnly secondName sound2 fitting2 stocked2 (by decide) (by omega)
      (by decide) (by decide) (by decide)
  exact ⟨start, second, chart3, descriptor3, slot3, fresh, (session1.trans session2).trans session3,
    newFile3, stocked3, by omega⟩

theorem exists_fullDisk : ∃ start state chart, FreshMount mountOnly start ∧
    Session mountOnly (fun _ call => call.Grows) start state ∧ Sound state chart ∧
    Stocked state [secondName, fileName] ∧ state.freeCount = 0 := by
  obtain ⟨start, crowded, chart, descriptor, slot, fresh, session, newFile, stocked, free⟩ :=
    exists_crowdedDisk
  obtain ⟨filled, chart', session', sound, -, stocked', free'⟩ := newFile.filled mountOnly stocked
  exact ⟨start, filled, chart', fresh, session.trans session', sound, stocked', by omega⟩

/-! ## fs_create -/

/-- An unused entry has become the empty file `name`, with a block that was free as its chain,
and nothing else has changed. -/
structure AddsFile (before after : State) (name : CString) (slot : Slot) (fresh : BlockIndex) :
    Prop where
  unused : ¬before.Used slot
  free : dataStart ≤ fresh.val ∧ before.fat fresh = 0
  fat : after.fat = Function.update before.fat fresh (-1)
  used : after.Used slot
  name : (after.dir slot).name.text = name.bytes
  size : (after.dir slot).size = 0
  head : (after.dir slot).head.toInt = fresh.val
  refCnt : (after.dir slot).refCnt = 0
  others : ∀ other, other ≠ slot → after.dir other = before.dir other
  rest : after.device = before.device ∧ after.mount = before.mount ∧ after.fs = before.fs ∧
    after.fildes = before.fildes

theorem created_addsFile {fresh : BlockIndex} (unused : ¬state.Used slot)
    (free : fresh ∈ freeBlocks state.fat) (short : name.bytes.length ≤ maxFName) :
    AddsFile state (state.created slot fresh name) name slot fresh := by
  have entry : ((state.created slot fresh name).dir slot) =
      { used := 1, name := (state.dir slot).name.strcpy name, size := 0,
        head := fatNaming.ref fresh, refCnt := 0 } := by simp [State.created]
  constructor
  case unused => exact unused
  case free => exact mem_freeBlocks.mp free
  case fat => rfl
  case used =>
    rw [State.Used, entry]
    exact (by decide : (1 : Int32) ≠ 0)
  case name =>
    rw [entry]
    exact NameField.text_strcpy _ name short
  case size => rw [entry]
  case head =>
    rw [entry]
    exact toInt_ref fresh
  case refCnt => rw [entry]
  case others => exact fun other distinct => created_entry_of_ne distinct
  case rest => exact ⟨rfl, rfl, rfl, rfl⟩

/-- `fs_create` succeeds exactly if the name is admitted and a data block is free, and it leaves
the state alone otherwise. -/
def CreatesIfPossible (state : State) (name : CString) : Prop :=
  (state.Admits name ∧ 0 < state.freeCount → ∃ after slot fresh,
    fsCreate state name = .ok (0, after) ∧ AddsFile state after name slot fresh) ∧
  (¬(state.Admits name ∧ 0 < state.freeCount) → fsCreate state name = .ok (-1, state))

/-- The missing test is the one for a free block. -/
theorem createsIfPossible_iff {start : State} {allowed : State → Call → Prop}
    (begin_ : SessionStart start) (session : Session tolerance allowed start state)
    (name : CString) :
    CreatesIfPossible state name ↔ (state.Admits name → 0 < state.freeCount) := by
  obtain ⟨chart, sound⟩ := session.sound begin_.sound
  have names := sound.distinguished
  constructor
  · intro creates admits
    by_contra none
    have refused := creates.2 fun both => none both.2
    rcases fsCreate_admitted sound.superBlock names admits with
      ⟨slot, fresh, -, free, -⟩ | ⟨-, stopped⟩
    · exact none (freeCount_pos_iff.mpr ⟨fresh, free⟩)
    · rw [stopped] at refused
      cases refused
  · intro free
    constructor
    · rintro ⟨admits, positive⟩
      obtain ⟨slot, fresh, unused, isFree, -, done⟩ :=
        fsCreate_ok sound.superBlock names admits positive
      exact ⟨_, slot, fresh, done, created_addsFile unused isFree admits.short⟩
    · intro impossible
      apply fsCreate_refused names
      exact fun admits => impossible ⟨admits, free admits⟩

theorem createsIfPossible_firstFile : ∃ start, FreshMount mountOnly start ∧
    CreatesIfPossible start fileName := by
  obtain ⟨start, fresh, -, fat, -⟩ := exists_freshMount (by decide : mountOnly .fildesReset = true)
  have session : Session mountOnly (fun _ _ => True) start start := .refl
  refine ⟨start, fresh, (createsIfPossible_iff fresh.start session fileName).mpr fun _ => ?_⟩
  apply freeCount_pos_iff.mpr
  refine ⟨10, mem_freeBlocks.mpr ⟨by decide, ?_⟩⟩
  rw [fat]

/-- On a full disk the search for a free block ends behind `FAT`, and `fs_create` stores there. -/
theorem createsIfPossible_broken : ∃ start state, FreshMount mountOnly start ∧
    Session mountOnly (fun _ call => call.Grows) start state ∧ state.Admits thirdName ∧
    fsCreate state thirdName = .error (.outOfRange .fat 8192) ∧
    ¬CreatesIfPossible state thirdName := by
  obtain ⟨start, state, chart, fresh, session, sound, stocked, full⟩ := exists_fullDisk
  have admits : state.Admits thirdName :=
    stocked.admits sound.distinguished (by decide) (by decide) (by decide) (by decide)
  have stopped : fsCreate state thirdName = .error (.outOfRange .fat diskBlocks) := by
    rcases fsCreate_admitted sound.superBlock sound.distinguished admits with
      ⟨slot, fresh, -, free, -⟩ | ⟨-, stopped⟩
    · have positive := freeCount_pos_iff.mpr ⟨fresh, free⟩
      omega
    · exact stopped
  refine ⟨start, state, fresh, session, admits, stopped, fun creates => ?_⟩
  have refused := creates.2 fun both => by omega
  rw [stopped] at refused
  cases refused

/-! ## fs_write -/

def State.capacity (state : State) (slot : Slot) : Nat :=
  blockSize * (state.chain slot).length

/-- Where a write of `nbyte` bytes should end, with the limit for the size of a file. -/
def State.wantedStop (state : State) (descriptor : Descriptor) (nbyte : UInt64) : Nat :=
  min (state.position descriptor + nbyte.toNat) maxFSize

/-- The write has taken every free block and has written the `count` bytes that fit into the
chain it has now; the size says so, and they are read back. -/
structure WritesWhatFits (tolerance : Tolerance) (garbage : Nat → Buffer) (state : State)
    (slot : Slot) (descriptor : Descriptor) (buf : Nat → UInt8) (nbyte : UInt64) (count : Nat)
    (after : State) : Prop where
  done : fsWrite tolerance garbage state descriptor.val buf nbyte =
    .ok (Int32.ofNat count, after)
  linked : (after.chain slot).length = (state.chain slot).length + state.freeCount
  fits : count = min nbyte.toNat (after.capacity slot - state.position descriptor)
  position : after.position descriptor = state.position descriptor + count
  size : (after.dir slot).size.toInt =
    max (state.dir slot).size.toInt (state.position descriptor + count : Nat)
  covered : (after.dir slot).size.toInt ≤ after.capacity slot
  readsBack : ∀ later, Session tolerance (fun state call => ¬ActsOn state call slot) after later →
    ∀ (reader : Descriptor) (nbyte : UInt64), Denotes later reader slot → 0 < nbyte.toNat →
      state.position descriptor ≤ later.position reader →
      later.position reader + nbyte.toNat ≤ state.position descriptor + count →
      ∀ garbage', ∃ data final,
        fsRead tolerance garbage' later reader.val nbyte =
          .ok (Int32.ofNat nbyte.toNat, data, final) ∧
        ∀ index < nbyte.toNat,
          data index = buf (later.position reader + index - state.position descriptor)

/-- The count that is written ends where it should, unless the sum of offset and count leaves
the range of a `size_t`. -/
theorem clampCount_cases {offset : Int32} (nonneg : 0 ≤ offset.toInt)
    (within : offset.toInt ≤ maxFSize) (nbyte : UInt64) :
    offset.toInt + clampCount offset nbyte = min (offset.toInt + nbyte.toNat) maxFSize ∨
      clampCount offset nbyte = nbyte.toNat ∧ 2 ^ 64 ≤ offset.toInt + nbyte.toNat := by
  have small := nbyte.toNat_lt
  have sum : toSize (offset.toInt + nbyte.toNat) =
      (offset.toInt + nbyte.toNat).toNat % 2 ^ 64 := by
    rw [toSize]
    omega
  by_cases large : toSize (offset.toInt + nbyte.toNat) > maxFSize
  · left
    have rest : (Int32.ofInt (maxFSize - offset.toInt)).toInt = maxFSize - offset.toInt :=
      toInt_ofInt_of_within (by omega) (by omega)
    rw [clampCount, if_pos large, rest, toSize_of_nonneg (by omega) (by
      simp only [maxFSize] at within ⊢
      omega)]
    omega
  · rw [clampCount, if_neg large]
    rw [sum] at large
    by_cases wraps : 2 ^ 64 ≤ offset.toInt + nbyte.toNat
    · exact .inr ⟨rfl, wraps⟩
    · left
      rw [Nat.mod_eq_of_lt (by omega)] at large
      omega

/-- `fs_write` never takes notice that the disk is full: it reports and records the whole count. -/
theorem crowdedWrite {descriptor : Descriptor} (sound : Sound state chart)
    (denotes : Denotes state descriptor slot)
    (inside : 0 ≤ (state.fildes descriptor).offset.toInt ∧
      (state.fildes descriptor).offset.toInt ≤ maxFSize) {nbyte : UInt64}
    (crowded : ¬state.Room slot (state.wantedStop descriptor nbyte))
    (garbage : Nat → Buffer) (buf : Nat → UInt8) :
    ¬∃ count after, WritesWhatFits tolerance garbage state slot descriptor buf nbyte count after := by
  rintro ⟨count, after, writes⟩
  have position : (state.position descriptor : Int) = (state.fildes descriptor).offset.toInt := by
    rw [State.position]
    omega
  -- the size that was recorded puts the end of the write inside the chain
  have ended : state.position descriptor + count ≤ after.capacity slot := by
    have covered := writes.covered
    rw [writes.size] at covered
    omega
  have capacity : after.capacity slot ≤
      blockSize * ((state.chain slot).length + state.freeCount) := by
    rw [State.capacity, writes.linked]
  have blocks : (state.chain slot).length + state.freeCount ≤ diskBlocks := by
    rw [sound.charted.chain_eq denotes.used]
    exact sound.charted.length_add_freeCount slot
  -- the code that was returned is the clamped count
  obtain ⟨added, fat, -, -, done⟩ :=
    fsWrite_open tolerance sound denotes garbage buf nbyte rfl rfl rfl
  have code : Int32.ofNat count = Int32.ofNat (clampCount (state.fildes descriptor).offset nbyte) := by
    have both := done.symm.trans writes.done
    rcases bind_eq_ok_iff.mp both with ⟨_, -, returned⟩
    exact (congrArg Prod.fst (Except.ok.inj returned)).symm
  have residue : count % 2 ^ 32 = clampCount (state.fildes descriptor).offset nbyte % 2 ^ 32 := by
    have values := congrArg (fun value : Int32 => value.toUInt32.toNat) code
    simpa using values
  rw [State.Room, blocksFor, State.wantedStop] at crowded
  have small := nbyte.toNat_lt
  rcases clampCount_cases inside.1 inside.2 nbyte with exact_ | ⟨whole, wraps⟩
  · simp only [blockSize, diskBlocks, maxFSize] at *
    omega
  · rw [whole] at residue
    simp only [blockSize, diskBlocks, maxFSize] at *
    omega

theorem NewFile.crowded {descriptor : Descriptor} (newFile : NewFile state chart descriptor slot)
    (free : state.freeCount = 4084) :
    ¬state.Room slot (state.wantedStop descriptor 16777216) := by
  have position : state.position descriptor = 0 := by
    rw [State.position, newFile.rewound]
    rfl
  have length : (state.chain slot).length = 1 := by
    rw [newFile.sound.charted.chain_eq newFile.denotes.used, newFile.single]
  have needed : blocksFor (min (0 + (16777216 : UInt64).toNat) maxFSize) = 4096 := by decide
  rw [State.Room, State.wantedStop, position, length, free, needed]
  omega

theorem crowdedWrite_secondFile : ∃ start state descriptor slot, FreshMount mountOnly start ∧
    Session mountOnly (fun _ call => call.Grows) start state ∧ Denotes state descriptor slot ∧
    ¬state.Room slot (state.wantedStop descriptor 16777216) ∧
    ¬∃ count after, WritesWhatFits mountOnly (fun _ _ => 0) state slot descriptor (fun _ => 1)
      16777216 count after := by
  obtain ⟨start, state, chart, descriptor, slot, fresh, session, newFile, -, free⟩ :=
    exists_crowdedDisk
  have crowded := newFile.crowded free
  have inside : 0 ≤ (state.fildes descriptor).offset.toInt ∧
      (state.fildes descriptor).offset.toInt ≤ maxFSize := by
    rw [newFile.rewound]
    decide
  exact ⟨start, state, descriptor, slot, fresh, session, newFile.denotes, crowded,
    crowdedWrite newFile.sound newFile.denotes inside crowded _ _⟩

/-- That write reports 16777216 bytes and records this size, but the chain it leaves has 4085
blocks and holds 16732160 bytes. -/
theorem crowdedWrite_broken : ∃ start state descriptor slot after, FreshMount mountOnly start ∧
    Session mountOnly (fun _ call => call.Grows) start state ∧ Denotes state descriptor slot ∧
    ¬state.Room slot (state.wantedStop descriptor 16777216) ∧
    fsWrite mountOnly (fun _ _ => 0) state descriptor.val (fun _ => 1) 16777216 =
      .ok (16777216, after) ∧
    (after.dir slot).size.toInt = 16777216 ∧ after.capacity slot = 16732160 ∧
    ¬∃ count after, WritesWhatFits mountOnly (fun _ _ => 0) state slot descriptor (fun _ => 1)
      16777216 count after := by
  obtain ⟨start, state, chart, descriptor, slot, fresh, session, newFile, -, free⟩ :=
    exists_crowdedDisk
  have within : (state.fildes descriptor).offset.toInt + (16777216 : UInt64).toNat ≤ maxFSize := by
    rw [newFile.rewound]
    decide
  have position : state.position descriptor = 0 := by
    rw [State.position, newFile.rewound]
    rfl
  have count : (16777216 : UInt64).toNat = 16777216 := rfl
  have code : Int32.ofNat (16777216 : UInt64).toNat = 16777216 := rfl
  obtain ⟨after, chart', writes, sound, -, denotes, length, -, size, -⟩ :=
    fsWrite_grown mountOnly newFile.sound newFile.fitting newFile.denotes (fun _ _ => 0)
      (fun _ => 1) within
  have appends : appended state 1 ((0 + 16777216) / blockSize) = 4084 := by
    rw [appended, if_pos rfl, free]
    rfl
  rw [position, count, newFile.single, appends] at length
  rw [position, count, newFile.empty] at size
  rw [code] at writes
  replace size : (after.dir slot).size.toInt = 16777216 := size
  have capacity : after.capacity slot = 16732160 := by
    rw [State.capacity, sound.charted.chain_eq denotes.used, length]
    rfl
  refine ⟨start, state, descriptor, slot, after, fresh, session, newFile.denotes,
    newFile.crowded free, writes, size, capacity, ?_⟩
  rintro ⟨count, final, fits⟩
  have same := fits.done
  rw [writes] at same
  obtain rfl : after = final := congrArg Prod.snd (Except.ok.inj same)
  have covered := fits.covered
  rw [size, capacity] at covered
  omega

end EC440.FileSystem
