import EC440.FileSystem.ReadYourWrites

/-!
# Reading up to the end of a file

`fs_read` copies as many bytes as it is asked for and looks at the size of the
file only afterwards.
-/

namespace EC440.FileSystem

open Linked Outcome

variable {state : State} {chart : Slot → List BlockIndex} {slot : Slot} {descriptor : Descriptor}
  {nbyte : UInt64}

/-- No access outside an array is survived. -/
def noStray : Tolerance := fun _ => false

/-- The caller's array after `memcpy(buf, data, count)`. -/
def delivered (data buf : Nat → UInt8) (count : Nat) : Nat → UInt8 := fun index =>
  if index < count then data index else buf index

/-- The number of bytes that a read at the offset of `descriptor` may return. -/
def State.readable (state : State) (slot : Slot) (descriptor : Descriptor) (nbyte : UInt64) : Nat :=
  min nbyte.toNat ((state.dir slot).size.toInt.toNat - state.position descriptor)

/-- The call returns how many bytes there are, delivers exactly these, and moves on by as many.
All bytes that are copied come from the blocks of the file. -/
structure ReadsExactly (garbage : Nat → Buffer) (state : State) (slot : Slot)
    (descriptor : Descriptor) (nbyte : UInt64) (buf data : Nat → UInt8) (after : State) : Prop where
  done : fsRead noStray garbage state descriptor.val nbyte =
    .ok (Int32.ofNat (state.readable slot descriptor nbyte), data, after)
  bytes : ∀ index < state.readable slot descriptor nbyte,
    some (delivered data buf nbyte.toNat index) =
      state.byte? slot (state.position descriptor + index)
  untouched : ∀ index, state.readable slot descriptor nbyte ≤ index →
    delivered data buf nbyte.toNat index = buf index
  moved : after = state.moved descriptor
    (Int32.ofNat (state.position descriptor + state.readable slot descriptor nbyte))
  loaded : state.position descriptor + nbyte.toNat ≤ blockSize * (state.chain slot).length

/-- Whatever the heap and the array of the caller hold. -/
def ReadsToTheEnd (state : State) (slot : Slot) (descriptor : Descriptor) (nbyte : UInt64) : Prop :=
  ∀ garbage buf, ∃ data after, ReadsExactly garbage state slot descriptor nbyte buf data after

/-- With no access outside an array, a chain that is read fits into its buffer. -/
theorem checkTransfer_noStray {blocks offset : Int} {length count : Nat} (positive : 0 < length)
    (passed : checkTransfer noStray blocks length offset count = .ok ()) :
    (length : Int) ≤ blocks := by
  unfold checkTransfer at passed
  split at passed
  next fits =>
    rcases fits with none | inside | survived
    · omega
    · omega
    · cases survived
  next => cases passed

/-- What `fs_read` leaves of the file is a copy of the heap buffer, of the whole count. -/
theorem ReadsExactly.data_eq (sound : Sound state chart) (denotes : Denotes state descriptor slot)
    (positive : 0 < nbyte.toNat) {garbage : Nat → Buffer} {buf data : Nat → UInt8} {after : State}
    (reads : ReadsExactly garbage state slot descriptor nbyte buf data after) :
    checkTransfer noStray (numBlocks (state.dir slot).size) (chart slot).length
        (state.fildes descriptor).offset.toInt nbyte.toNat = .ok () ∧
      data = fun position : Nat => loadBlocks state.device.image (chart slot) 0 (garbage 0)
        ((state.fildes descriptor).offset.toInt + position) := by
  have done := reads.done
  rw [fsRead_open noStray sound denotes garbage positive] at done
  rcases bind_eq_ok_iff.mp done with ⟨_, passed, returned⟩
  exact ⟨passed, (congrArg (fun result => result.2.1) (Except.ok.inj returned)).symm⟩

section Transfer

variable (sound : Sound state chart) (denotes : Denotes state descriptor slot)
  (positive : 0 < nbyte.toNat)

include sound denotes positive

/-- A read past the end would write into the array behind the bytes that it reports. -/
theorem ReadsToTheEnd.within (start : 0 ≤ (state.fildes descriptor).offset.toInt)
    (reads : ReadsToTheEnd state slot descriptor nbyte) :
    (state.fildes descriptor).offset.toInt + nbyte.toNat ≤ (state.dir slot).size.toInt := by
  by_contra past
  -- an array that differs from the heap buffer in the first byte behind the end
  obtain ⟨data, after, readsExactly⟩ := reads (fun _ _ => 0) fun index =>
    loadBlocks state.device.image (chart slot) 0 (fun _ => 0)
      ((state.fildes descriptor).offset.toInt + index) + 1
  obtain ⟨-, copied⟩ := readsExactly.data_eq sound denotes positive
  have end_ : state.readable slot descriptor nbyte < nbyte.toNat := by
    rw [State.readable, State.position]
    omega
  have changed := readsExactly.untouched _ le_rfl
  rw [delivered, if_pos end_, copied] at changed
  simp at changed

theorem ReadsToTheEnd.chain_length_le (size : 0 ≤ (state.dir slot).size.toInt)
    (reads : ReadsToTheEnd state slot descriptor nbyte) :
    ((state.chain slot).length : Int) ≤ (state.dir slot).size.toInt / blockSize + 1 := by
  obtain ⟨data, after, readsExactly⟩ := reads (fun _ _ => 0) fun _ => 0
  obtain ⟨passed, -⟩ := readsExactly.data_eq sound denotes positive
  have nonempty := List.length_pos_iff.mpr (sound.charted.nonempty slot denotes.used)
  have fits := checkTransfer_noStray nonempty passed
  rwa [numBlocks_eq size, ← sound.charted.chain_eq denotes.used] at fits

theorem readsToTheEnd_of_within (covered : state.Covered slot)
    (start : 0 ≤ (state.fildes descriptor).offset.toInt) (small : nbyte.toNat < 2 ^ 31)
    (within :
      (state.fildes descriptor).offset.toInt + nbyte.toNat ≤ (state.dir slot).size.toInt)
    (short : ((state.chain slot).length : Int) ≤ (state.dir slot).size.toInt / blockSize + 1) :
    ReadsToTheEnd state slot descriptor nbyte := by
  intro garbage buf
  have chain := sound.charted.chain_eq denotes.used
  have nonneg : 0 ≤ (state.dir slot).size.toInt := by omega
  have sizeBound := (state.dir slot).size.toInt_lt
  have position : (state.position descriptor : Int) = (state.fildes descriptor).offset.toInt := by
    rw [State.position]
    omega
  have count : state.readable slot descriptor nbyte = nbyte.toNat := by
    rw [State.readable]
    omega
  have notPast : ¬toSize ((state.fildes descriptor).offset.toInt + nbyte.toNat) >
      toSize (state.dir slot).size.toInt := by
    rw [toSize_of_nonneg nonneg (by omega), toSize_of_nonneg (by omega) (by omega)]
    omega
  have offset : Int32.ofInt ((state.fildes descriptor).offset.toInt + nbyte.toNat) =
      Int32.ofNat (state.position descriptor + nbyte.toNat) := by
    rw [← position]
    rfl
  have done := fsRead_open noStray sound denotes garbage positive
  rw [checkTransfer_ok nonneg (chain ▸ short) start within, readOutcome, if_neg notPast,
    offset] at done
  rw [State.Covered, chain] at covered
  refine ⟨_, _, by rw [count]; exact done, ?_, ?_, ?_, ?_⟩
  · intro index before
    rw [count] at before
    have stored : state.position descriptor + index < blockSize * (chart slot).length := by omega
    obtain ⟨byte, found⟩ := fileByte_eq_some state.device.image stored
    have loaded := loadBlocks_eq 0 (garbage 0) found
    rw [State.byte?, chain, found, delivered, if_pos before, ← loaded]
    congr 2
    push_cast
    omega
  · intro index behind
    rw [count] at behind
    exact if_neg (not_lt.mpr behind)
  · rw [count]
  · rw [chain]
    omega

end Transfer

/-- Exactly the reads that end within the file deliver what they should, as long as the chain fits
into the buffer that is allocated for the size. -/
theorem readsToTheEnd_iff (sound : Sound state chart) (denotes : Denotes state descriptor slot)
    (covered : state.Covered slot)
    (inside : 0 ≤ (state.fildes descriptor).offset.toInt ∧
      (state.fildes descriptor).offset.toInt ≤ (state.dir slot).size.toInt)
    (positive : 0 < nbyte.toNat) (small : nbyte.toNat < 2 ^ 31) :
    ReadsToTheEnd state slot descriptor nbyte ↔
      (state.fildes descriptor).offset.toInt + nbyte.toNat ≤ (state.dir slot).size.toInt ∧
      ((state.chain slot).length : Int) ≤ (state.dir slot).size.toInt / blockSize + 1 := by
  constructor
  · intro reads
    constructor
    · exact reads.within sound denotes positive inside.1
    · exact reads.chain_length_le sound denotes positive (inside.1.trans inside.2)
  · rintro ⟨within, short⟩
    exact readsToTheEnd_of_within sound denotes positive covered inside.1 small within short

/-- Reading a byte that has been written. -/
theorem readsToTheEnd_written : ∃ start opened written sought, FreshMount mountOnly start ∧
    Session mountOnly (fun _ call => call.Grows) start opened ∧
    fsWrite mountOnly (fun _ _ => 0) opened 0 (fun _ => 1) 1 = .ok (1, written) ∧
    fsLseek written 0 0 = .ok (0, sought) ∧ ReadsToTheEnd sought 63 0 1 := by
  obtain ⟨start, opened, chart, fresh, session, sound, fitting, denotes, single, size, offset,
    free⟩ := exists_oneBlock
  have within : (opened.fildes 0).offset.toInt + (1 : UInt64).toNat ≤ maxFSize := by
    rw [offset]
    decide
  have position : opened.position 0 = 0 := by
    rw [State.position, offset]
    rfl
  have count : (1 : UInt64).toNat = 1 := rfl
  obtain ⟨written, chart1, writes, sound1, fitting1, denotes1, length1, -, size1, -⟩ :=
    fsWrite_grown mountOnly sound fitting denotes (fun _ _ => 0) (fun _ => 1) within
  rw [position, count, size] at size1
  rw [position, single, count] at length1
  replace size1 : (written.dir 63).size.toInt = 1 := size1
  replace length1 : (chart1 63).length = 1 := length1
  have seek := fsLseek_open sound1 denotes1 0
  rw [if_pos ⟨by decide, by rw [size1]; decide⟩] at seek
  have soundSought := sound1.moved 0 (Int32.ofInt (0 : Int64).toInt)
  have denotesSought := denotes1.moved 0 (Int32.ofInt (0 : Int64).toInt)
  have atStart : ((written.moved 0 (Int32.ofInt (0 : Int64).toInt)).fildes 0).offset.toInt = 0 := by
    rw [moved_fildes_self]
    rfl
  have length : ((written.moved 0 (Int32.ofInt (0 : Int64).toInt)).chain 63).length = 1 := by
    rw [soundSought.charted.chain_eq denotesSought.used, length1]
  have sizeSought : ((written.moved 0 (Int32.ofInt (0 : Int64).toInt)).dir 63).size.toInt = 1 := size1
  refine ⟨start, opened, written, _, fresh, session, writes, seek, ?_⟩
  apply (readsToTheEnd_iff soundSought denotesSought ?_ ?_ (by decide) (by decide)).mpr
  · rw [atStart, sizeSought, length]
    decide
  · rw [State.Covered, sizeSought, length]
    decide
  · rw [atStart, sizeSought]
    decide

/-- At the end of an empty file `fs_read` returns 0, as it should, but stores to the array of the
caller a byte of the block that the file owns. -/
theorem readsToTheEnd_broken : ∃ start opened data after, FreshMount mountOnly start ∧
    Session mountOnly (fun _ call => call.Grows) start opened ∧ Denotes opened 0 63 ∧
    (opened.dir 63).size = 0 ∧ (opened.fildes 0).offset = 0 ∧ opened.Covered 63 ∧
    fsRead noStray (fun _ _ => 0) opened 0 1 = .ok (0, data, after) ∧
    delivered data (fun _ => data 0 + 1) 1 0 ≠ data 0 + 1 ∧ ¬ReadsToTheEnd opened 63 0 1 := by
  obtain ⟨start, opened, chart, fresh, session, sound, fitting, denotes, single, size, offset,
    free⟩ := exists_oneBlock
  have length : (opened.chain 63).length = 1 := by rw [sound.charted.chain_eq denotes.used, single]
  have positive : 0 < (1 : UInt64).toNat := by decide
  have reads := fsRead_open noStray sound denotes (fun _ _ => 0) positive
  have passed : checkTransfer noStray (numBlocks 0) 1 (0 : Int32).toInt (1 : UInt64).toNat =
      .ok () := by decide
  have outcome : readOutcome 0 0 1 = (0, 0) := by decide
  rw [single, size, offset, passed, outcome] at reads
  have changed : ∀ byte : UInt8, byte ≠ byte + 1 := by
    intro byte same
    simp at same
  refine ⟨start, opened, _, _, fresh, session, denotes, size, offset, ?_, reads, ?_, ?_⟩
  · rw [State.Covered, size, length]
    decide
  · rw [delivered, if_pos (by decide)]
    exact changed _
  · intro readsToTheEnd
    have none : opened.readable 63 0 1 = 0 := by
      rw [State.readable, size, Int32.toInt_zero, Int.toNat_zero, Nat.zero_sub, Nat.min_zero]
    obtain ⟨data, after, readsExactly⟩ := readsToTheEnd (fun _ _ => 0) fun index =>
      loadBlocks opened.device.image (chart 63) 0 (fun _ => 0)
        ((opened.fildes 0).offset.toInt + index) + 1
    obtain ⟨-, copied⟩ := readsExactly.data_eq sound denotes positive
    have untouched := readsExactly.untouched 0 (by rw [none])
    rw [delivered, if_pos (by decide), copied] at untouched
    exact changed _ untouched

end EC440.FileSystem
