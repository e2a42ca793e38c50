import EC440.FileSystem.Reading

/-!
# Truncating a file

`fs_truncate` follows one link more than there are blocks in front of the new
last one, and leaves the size in the directory as it is.
-/

namespace EC440.FileSystem

open Linked Outcome

variable {tolerance : Tolerance} {state : State} {chart : Slot → List BlockIndex} {slot : Slot}
  {descriptor : Descriptor} {length : Int64}

/-- The file has been cut to `length` bytes and to as many blocks as these need, its other blocks
are free, and no block of another file has been written. -/
structure TruncatesExactly (garbage : Nat → Buffer) (state : State) (slot : Slot)
    (descriptor : Descriptor) (length : Int64) (after : State) : Prop where
  done : fsTruncate noStray garbage state descriptor.val length = .ok (0, after)
  filesize : fsGetFilesize after descriptor.val = .ok (Int32.ofInt length.toInt)
  bytes : ∀ position : Nat, position < length.toInt →
    after.byte? slot position = state.byte? slot position
  /-- A file keeps its first block, and one that ends with a block may keep another one. -/
  blocks : ∃ count, max 1 (blocksFor length.toInt.toNat) ≤ count ∧
    (count : Int) ≤ length.toInt / blockSize + 1 ∧
    after.chain slot = (state.chain slot).take count ∧
    ∀ block ∈ (state.chain slot).drop count, after.fat block = 0
  offset : (after.fildes descriptor).offset.toInt =
    min (state.fildes descriptor).offset.toInt length.toInt
  frame : ∀ block, block ∉ state.chain slot → after.device.image block = state.device.image block

/-- The loop follows one link for each whole block of the new length, and one more. -/
theorem truncateSteps_eq (nonneg : 0 ≤ length.toInt) (small : length.toInt < 2 ^ 31) :
    (truncateSteps length : Int) = length.toInt / blockSize + 1 := by
  have quotient : length.toInt.tdiv blockSize = length.toInt / blockSize :=
    Int.tdiv_eq_ediv_of_nonneg nonneg
  have lower : 0 ≤ length.toInt / blockSize := Int.ediv_nonneg nonneg (by decide)
  have upper : length.toInt / blockSize ≤ length.toInt :=
    Int.ediv_le_self _ nonneg
  have exact_ : (Int32.ofInt (length.toInt / blockSize)).toInt = length.toInt / blockSize := by
    rw [Int32.toInt_ofInt_of_le (by omega) (by omega)]
  rw [truncateSteps, quotient, exact_]
  omega

/-- No file is truncated as it should: the chain is left with a block too many, or left behind. -/
theorem truncation (sound : Sound state chart) (denotes : Denotes state descriptor slot)
    (nonneg : 0 ≤ length.toInt) (within : length.toInt ≤ (state.dir slot).size.toInt)
    (garbage : Nat → Buffer) :
    ¬∃ after, TruncatesExactly garbage state slot descriptor length after := by
  rintro ⟨after, exactly⟩
  have done := exactly.done
  have sizeBound := (state.dir slot).size.toInt_lt
  have steps := truncateSteps_eq nonneg (by omega)
  rcases fsTruncate_open sound denotes garbage within with
    ⟨-, stopped⟩ | ⟨kept, last, tail, split, kepts, returns⟩
  · rw [stopped] at done
    cases done
  · rw [returns] at done
    rcases bind_eq_ok_iff.mp done with ⟨_, -, returned⟩
    cases returned
    obtain ⟨count, -, upper, chain, -⟩ := exactly.blocks
    have cut : Sound (state.truncated descriptor last tail ((garbage 0).blockAt 0)
        (lastContent garbage (state.device.image last) length)
        (offsetAfter (state.fildes descriptor).offset length))
        (Function.update chart slot (kept ++ [last])) := sound.truncated denotes.used split _ _ _
    have left := cut.charted.chain_eq denotes.used
    rw [left, Function.update_self] at chain
    have lengths := congrArg List.length chain
    rw [List.length_append, List.length_singleton, List.length_take, kepts] at lengths
    omega

theorem truncation_firstFile : ∃ start opened, FreshMount mountOnly start ∧
    Session mountOnly (fun _ call => call.Grows) start opened ∧ Denotes opened 0 63 ∧
    opened.Covered 63 ∧
    ¬∃ after, TruncatesExactly (fun _ _ => 0) opened 63 0 0 after := by
  obtain ⟨start, opened, chart, fresh, session, sound, fitting, denotes, single, size, offset,
    free⟩ := exists_oneBlock
  have within : (0 : Int64).toInt ≤ (opened.dir 63).size.toInt := by
    rw [size]
    decide
  refine ⟨start, opened, fresh, session, denotes, ?_,
    truncation sound denotes (by decide) within fun _ _ => 0⟩
  rw [State.Covered, size, sound.charted.chain_eq denotes.used, single]
  decide

/-- Cutting an empty file of one block to its size reads `FAT[-1]`. -/
theorem truncation_broken : ∃ start opened, FreshMount mountOnly start ∧
    Session mountOnly (fun _ call => call.Grows) start opened ∧ Denotes opened 0 63 ∧
    (opened.dir 63).size = 0 ∧ opened.Covered 63 ∧
    fsTruncate noStray (fun _ _ => 0) opened 0 0 = .error (.outOfRange .fat (-1)) ∧
    ¬∃ after, TruncatesExactly (fun _ _ => 0) opened 63 0 0 after := by
  obtain ⟨start, opened, chart, fresh, session, sound, fitting, denotes, single, size, offset,
    free⟩ := exists_oneBlock
  have within : (0 : Int64).toInt ≤ (opened.dir 63).size.toInt := by
    rw [size]
    decide
  have steps : truncateSteps 0 = 1 := by decide
  have stopped : fsTruncate noStray (fun _ _ => 0) opened (0 : Descriptor).val 0 =
      .error (.outOfRange .fat (-1)) := by
    rcases fsTruncate_open sound denotes (fun _ _ => 0) within with
      ⟨-, stopped⟩ | ⟨kept, last, tail, split, kepts, -⟩
    · exact stopped
    · have lengths := congrArg List.length split
      rw [single, List.length_append, List.length_cons, kepts, steps] at lengths
      omega
  refine ⟨start, opened, fresh, session, denotes, size, ?_, stopped, ?_⟩
  · rw [State.Covered, size, sound.charted.chain_eq denotes.used, single]
    decide
  · rintro ⟨after, exactly⟩
    have done := exactly.done
    rw [stopped] at done
    cases done

end EC440.FileSystem
