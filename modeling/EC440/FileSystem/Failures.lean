import EC440.FileSystem.Offsets

/-!
# Failing calls

A call that returns -1 leaves the file system as it was.  The exception is a
call that succeeds and whose result is -1 as a number: a read one byte behind
the end of the file, or a write one byte behind the size limit.  Offsets get
there only through `fs_truncate`.
-/

namespace EC440.FileSystem

open Linked Outcome

variable {tolerance : Tolerance} {state after : State} {chart chart' : Slot → List BlockIndex}
  {call : Call} {code : Int32}

/-! ## Results -/

/-- The byte counts that an `int` can return. -/
def Call.Counted : Call → Prop
  | .read _ nbyte => nbyte.toNat < 2 ^ 31
  | .write _ _ nbyte => nbyte.toNat < 2 ^ 31
  | _ => True

theorem readOutcome_eq_neg_one {size offset : Int32} {nbyte : UInt64} (nonneg : 0 ≤ size.toInt)
    (within : size.toInt ≤ maxFSize) (positive : 0 < nbyte.toNat) (small : nbyte.toNat < 2 ^ 31) :
    (readOutcome size offset nbyte).1 = -1 ↔ offset.toInt = size.toInt + 1 := by
  have upper := offset.toInt_lt
  have lower := offset.le_toInt
  have negative : (-1 : Int32).toInt = -1 := rfl
  have exact_ : toSize size.toInt = size.toInt.toNat :=
    toSize_of_nonneg nonneg (by simp only [maxFSize] at within; omega)
  simp only [maxFSize] at within
  unfold readOutcome
  by_cases past : toSize (offset.toInt + nbyte.toNat) > toSize size.toInt
  · rw [if_pos past, ← Int32.toInt_inj, Int32.toInt_sub, negative, Int.bmod_def]
    split <;> omega
  · rw [if_neg past, ← Int32.toInt_inj, Int32.toInt_ofNat_of_lt small, negative]
    rw [exact_, toSize] at past
    omega

/-- A write of a count that fits into an `int` returns -1 only from behind the size limit. -/
theorem ofNat_clampCount {offset : Int32} {nbyte : UInt64} (small : nbyte.toNat < 2 ^ 31) :
    Int32.ofNat (clampCount offset nbyte) = -1 ↔ offset.toInt = maxFSize + 1 := by
  have upper := offset.toInt_lt
  have lower := offset.le_toInt
  have negative : (-1 : Int32).toInt = -1 := rfl
  have same := toInt_ofInt_emod (clampCount offset nbyte)
  have upper' := (Int32.ofInt (clampCount offset nbyte)).toInt_lt
  have lower' := (Int32.ofInt (clampCount offset nbyte)).le_toInt
  rw [← Int32.toInt_inj, ← Int32.ofInt_eq_ofNat, negative]
  by_cases large : toSize (offset.toInt + nbyte.toNat) > maxFSize
  · have count := clampCount_emod large
    simp only [maxFSize] at count large ⊢
    omega
  · have inside : clampCount offset nbyte = nbyte.toNat := if_neg large
    rw [toSize] at large
    simp only [maxFSize] at large ⊢
    omega

/-! ## Reads and writes -/

theorem fsRead_cases {garbage : Nat → Buffer} {fildesI : Int} {nbyte : UInt64}
    (sound : Sound state chart)
    (done : exec tolerance garbage state (.read fildesI nbyte) = .ok (code, after)) :
    (∀ (descriptor : Descriptor) (slot : Slot), fildesI = descriptor.val →
        Denotes state descriptor slot → nbyte.toNat ≤ 0) ∧ code = -1 ∧ after = state ∨
    ∃ (descriptor : Descriptor) (slot : Slot), fildesI = descriptor.val ∧
      Denotes state descriptor slot ∧ 0 < nbyte.toNat ∧
      code = (readOutcome (state.dir slot).size (state.fildes descriptor).offset nbyte).1 ∧
      after = state.moved descriptor
        (readOutcome (state.dir slot).size (state.fildes descriptor).offset nbyte).2 := by
  rcases sound.fildes_cases fildesI with ⟨descriptor, slot, rfl, denotes⟩ |
    ⟨descriptor, rfl, closed⟩ | stopped
  · by_cases positive : 0 < nbyte.toNat
    · have returns := fsRead_open tolerance sound denotes garbage positive
      rcases checkTransfer_cases tolerance (numBlocks (state.dir slot).size) (chart slot).length
        (state.fildes descriptor).offset.toInt nbyte.toNat with passed | stopped
      · simp only [exec, returns, passed, bind, Except.bind] at done
        cases done
        exact .inr ⟨descriptor, slot, rfl, denotes, positive, rfl, rfl⟩
      · simp only [exec, returns, stopped, bind, Except.bind] at done
        cases done
    · simp only [exec, fsRead_zero denotes garbage (not_lt.mp positive), bind, Except.bind] at done
      cases done
      exact .inl ⟨fun _ _ _ _ => not_lt.mp positive, rfl, rfl⟩
  · simp only [exec, fsRead_closed closed, bind, Except.bind] at done
    cases done
    refine .inl ⟨fun other slot same denotes => ?_, rfl, rfl⟩
    obtain rfl : descriptor = other := Fin.ext (by exact_mod_cast same)
    exact absurd denotes.isOpen closed
  · simp only [exec, fsRead, stopped, bind, Except.bind] at done
    cases done

theorem fsWrite_cases {garbage : Nat → Buffer} {fildesI : Int} {buf : Nat → UInt8}
    {nbyte : UInt64} (sound : Sound state chart)
    (done : exec tolerance garbage state (.write fildesI buf nbyte) = .ok (code, after)) :
    (∀ (descriptor : Descriptor) (slot : Slot), fildesI = descriptor.val →
        ¬Denotes state descriptor slot) ∧ code = -1 ∧ after = state ∨
    ∃ (descriptor : Descriptor) (slot : Slot), fildesI = descriptor.val ∧
      Denotes state descriptor slot ∧
      code = Int32.ofNat (clampCount (state.fildes descriptor).offset nbyte) ∧
      (after.fildes descriptor).offset = Int32.ofInt ((state.fildes descriptor).offset.toInt +
        clampCount (state.fildes descriptor).offset nbyte) := by
  rcases sound.fildes_cases fildesI with ⟨descriptor, slot, rfl, denotes⟩ |
    ⟨descriptor, rfl, closed⟩ | stopped
  · obtain ⟨added, fat, -, -, returns⟩ :=
      fsWrite_open tolerance sound denotes garbage buf nbyte rfl rfl rfl
    rcases checkTransfer_cases tolerance (numBlocks (sizeAfter (state.dir slot).size
        (writeStop (state.fildes descriptor).offset nbyte))) (chart slot ++ added).length
      (state.fildes descriptor).offset.toInt (clampCount (state.fildes descriptor).offset nbyte)
      with passed | stopped
    · rw [exec, returns, passed] at done
      cases done
      exact .inr ⟨descriptor, slot, rfl, denotes, rfl, written_offset⟩
    · rw [exec, returns, stopped] at done
      cases done
  · rw [exec, fsWrite_closed closed] at done
    cases done
    refine .inl ⟨fun other slot same denotes => ?_, rfl, rfl⟩
    obtain rfl : descriptor = other := Fin.ext (by exact_mod_cast same)
    exact absurd denotes.isOpen closed
  · simp only [exec, fsWrite, stopped, bind, Except.bind] at done
    cases done

/-! ## Failures -/

/-- A read or write that is carried out and returns -1 as its byte count. -/
def Misreported (state : State) : Call → Prop
  | .read fildesI nbyte =>
      ∃ (descriptor : Descriptor) (slot : Slot), fildesI = descriptor.val ∧
        Denotes state descriptor slot ∧ 0 < nbyte.toNat ∧
        (state.fildes descriptor).offset.toInt = (state.dir slot).size.toInt + 1
  | .write fildesI _ _ =>
      ∃ (descriptor : Descriptor) (slot : Slot), fildesI = descriptor.val ∧
        Denotes state descriptor slot ∧ (state.fildes descriptor).offset.toInt = maxFSize + 1
  | _ => False

theorem failed_read {garbage : Nat → Buffer} {fildesI : Int} {nbyte : UInt64}
    (sound : Sound state chart) (sized : Sized state) (small : nbyte.toNat < 2 ^ 31)
    (failed : exec tolerance garbage state (.read fildesI nbyte) = .ok (-1, after)) :
    after = state ↔ ¬Misreported state (.read fildesI nbyte) := by
  rcases fsRead_cases sound failed with ⟨nothing, -, same⟩ |
    ⟨descriptor, slot, rfl, denotes, positive, result, moved⟩
  · refine iff_of_true same ?_
    rintro ⟨descriptor, slot, at_, denotes, positive, -⟩
    exact absurd (nothing descriptor slot at_ denotes) (not_le.mpr positive)
  · obtain ⟨nonneg, within⟩ := sized slot denotes.used
    have behind := (readOutcome_eq_neg_one nonneg within positive small).mp result.symm
    refine iff_of_false ?_ (not_not.mpr ⟨descriptor, slot, rfl, denotes, positive, behind⟩)
    intro same
    have back : (readOutcome (state.dir slot).size (state.fildes descriptor).offset
        nbyte).2.toInt ≤ _ := (readOutcome_offset nonneg within nbyte).2
    have offset : (after.fildes descriptor).offset = (readOutcome (state.dir slot).size
        (state.fildes descriptor).offset nbyte).2 := by
      rw [moved, moved_fildes_self]
    rw [← offset, same, behind] at back
    omega

theorem failed_write {garbage : Nat → Buffer} {fildesI : Int} {buf : Nat → UInt8}
    {nbyte : UInt64} (sound : Sound state chart) (sized : Sized state)
    (small : nbyte.toNat < 2 ^ 31)
    (failed : exec tolerance garbage state (.write fildesI buf nbyte) = .ok (-1, after)) :
    after = state ↔ ¬Misreported state (.write fildesI buf nbyte) := by
  rcases fsWrite_cases sound failed with ⟨nothing, -, same⟩ |
    ⟨descriptor, slot, rfl, denotes, result, offset⟩
  · refine iff_of_true same ?_
    rintro ⟨descriptor, slot, at_, denotes, -⟩
    exact nothing descriptor slot at_ denotes
  · have behind := (ofNat_clampCount small).mp result.symm
    refine iff_of_false ?_ (not_not.mpr ⟨descriptor, slot, rfl, denotes, behind⟩)
    intro same
    obtain ⟨nonneg, within⟩ := sized slot denotes.used
    have bounds := written_bounds nonneg within (state.fildes descriptor).offset nbyte
    rw [← offset, same, behind] at bounds
    omega

/-- A call that returns -1 has done nothing, unless -1 is its byte count. -/
theorem failed_unchanged {garbage : Nat → Buffer} (sound : Sound state chart) (sized : Sized state)
    (counted : call.Counted) (failed : exec tolerance garbage state call = .ok (-1, after)) :
    after = state ↔ ¬Misreported state call := by
  obtain ⟨chart', effect⟩ := exec_effect sound failed
  generalize result : (-1 : Int32) = code at effect
  cases call with
  | read fildesI nbyte => exact failed_read sound sized counted failed
  | write fildesI buf nbyte => exact failed_write sound sized counted failed
  | opens name =>
      refine iff_of_true ?_ id
      cases effect with
      | idle => rfl
      | opened =>
          have value := congrArg Int32.toInt result
          rw [toInt_ofNat_descriptor] at value
          exact absurd value (by simp)
  | _ =>
      refine iff_of_true ?_ id
      cases effect with
      | idle => rfl
      | _ => exact absurd result (by decide)

/-- While the disk is open, a write through an open descriptor is carried out. -/
theorem failed_write_open {garbage : Nat → Buffer} {descriptor : Descriptor} {buf : Nat → UInt8}
    {nbyte : UInt64} (sound : Sound state chart) (isOpen : state.Open descriptor)
    (small : nbyte.toNat < 2 ^ 31)
    (failed : fsWrite tolerance garbage state descriptor.val buf nbyte = .ok (-1, after)) :
    Misreported state (.write descriptor.val buf nbyte) := by
  obtain ⟨slot, denotes⟩ := sound.denoted isOpen
  rcases fsWrite_cases sound failed with ⟨nothing, -⟩ | ⟨other, slot, same, denotes, result, -⟩
  · exact absurd denotes (nothing descriptor slot rfl)
  · exact ⟨other, slot, same, denotes, (ofNat_clampCount small).mp result.symm⟩

theorem failed_truncate_open {garbage : Nat → Buffer} {descriptor : Descriptor} {slot : Slot}
    {length : Int64} (sound : Sound state chart) (denotes : Denotes state descriptor slot)
    (failed : fsTruncate tolerance garbage state descriptor.val length = .ok (-1, after)) :
    (state.dir slot).size.toInt < length.toInt := by
  by_contra short
  rcases fsTruncate_open sound denotes garbage (not_lt.mp short) with ⟨-, stopped⟩ |
    ⟨kept, last, tail, -, -, returns⟩
  · rw [stopped] at failed
    cases failed
  · rcases checkCopy_cases tolerance 1 length.toInt (leftover length) with passed | stopped
    · rw [returns, passed] at failed
      cases failed
    · rw [returns, stopped] at failed
      cases failed

/-- The deletion of a file fails only because of its open descriptors. -/
theorem failed_delete_used {slot : Slot} {name : CString} (sound : Sound state chart)
    (used : state.Used slot) (named : (state.dir slot).name.Matches name)
    (failed : fsDelete tolerance state name = .ok (-1, after)) :
    (state.dir slot).refCnt > 0 := by
  by_contra unreferenced
  have found := sound.distinguished.search_used used named
  rw [fsDelete_used tolerance sound found used unreferenced] at failed
  cases failed

/-! ## Failing calls of a session -/

theorem Within.reported {lower : Int} (within : Within lower state) (call : Call) :
    ¬Misreported state call := by
  intro misreported
  cases call with
  | read fildesI nbyte =>
      obtain ⟨descriptor, slot, -, denotes, -, behind⟩ := misreported
      have inside := (within.offset descriptor slot denotes).2
      omega
  | write fildesI buf nbyte =>
      obtain ⟨descriptor, slot, -, denotes, behind⟩ := misreported
      have inside := (within.offset descriptor slot denotes).2
      have limit := (within.size slot denotes.used).2
      omega
  | _ => exact misreported

theorem Session.sized {allowed : State → Call → Prop} {start : State}
    (fresh : FreshMount tolerance start) (session : Session tolerance allowed start state) :
    ∃ chart, Sound state chart ∧ Sized state := by
  obtain ⟨chart, sound⟩ := fresh.start.sound
  refine invariant_of_reachable (fun state => ∃ chart, Sound state chart ∧ Sized state) ?_
    ⟨chart, sound, (fresh.within 0).size⟩ session
  rintro before after ⟨chart, sound, sized⟩ ⟨garbage, call, code, -, done⟩
  obtain ⟨chart', effect⟩ := exec_effect sound done
  exact ⟨chart', effect.sound sound, effect.sized sized⟩

/-- In every session, a call that returns -1 leaves the file system as it was exactly if it is
not a read or write that returns -1 as its byte count; there is none as long as every truncation
stores an offset that is not behind the end of its file.  The exits behind a failed access to
the disk and behind a freed link are not taken: with an open descriptor, `fs_write` does not
fail otherwise, `fs_truncate` fails for a length above the size only, and `fs_delete` fails for
a file only if it is referenced. -/
theorem failingCalls {start : State} (fresh : FreshMount tolerance start)
    (session : Session tolerance (fun _ call => call.Counted) start state) :
    (∀ garbage call after, call.Counted →
      exec tolerance garbage state call = .ok (-1, after) →
      (after = state ↔ ¬Misreported state call)) ∧
    (Session tolerance (CutsWithin (-2 ^ 31)) start state → ∀ call, ¬Misreported state call) ∧
    (∀ garbage descriptor buf nbyte after, state.Open descriptor → nbyte.toNat < 2 ^ 31 →
      fsWrite tolerance garbage state descriptor.val buf nbyte = .ok (-1, after) →
      Misreported state (.write descriptor.val buf nbyte)) ∧
    (∀ garbage descriptor slot length after, Denotes state descriptor slot →
      fsTruncate tolerance garbage state descriptor.val length = .ok (-1, after) →
      (state.dir slot).size.toInt < length.toInt) ∧
    ∀ slot name after, state.Used slot → (state.dir slot).name.Matches name →
      fsDelete tolerance state name = .ok (-1, after) → (state.dir slot).refCnt > 0 := by
  obtain ⟨chart, sound, sized⟩ := Session.sized fresh session
  refine ⟨?_, ?_, ?_, ?_, ?_⟩
  · exact fun garbage call after counted failed => failed_unchanged sound sized counted failed
  · intro narrow call
    obtain ⟨_, -, within⟩ := Session.within fresh (by decide) narrow
    exact within.reported call
  · exact fun garbage descriptor buf nbyte after => failed_write_open sound
  · exact fun garbage descriptor slot length after => failed_truncate_open sound
  · exact fun slot name after => failed_delete_used sound

/-- Reading nothing fails. -/
theorem failingCalls_firstFile : ∃ start opened, FreshMount mountOnly start ∧
    Session mountOnly (fun _ call => call.Counted) start opened ∧ opened.Open 0 ∧
    exec mountOnly (fun _ _ => 0) opened (.read 0 0) = .ok (-1, opened) ∧
    ¬Misreported opened (.read 0 0) := by
  obtain ⟨start, opened, _, fresh, session, -, -, denotes, -⟩ :=
    exists_firstFile (by decide : mountOnly .fildesReset = true)
  have counted : Session mountOnly (fun _ call => call.Counted) start opened := by
    refine session.weaken fun _ call first => ?_
    rcases first with rfl | rfl <;> trivial
  have returns : fsRead mountOnly (fun _ _ => 0) opened 0 0 = .ok (-1, fun _ => 0, opened) :=
    fsRead_zero denotes (fun _ _ => 0) (le_refl (0 : UInt64).toNat)
  have failed : exec mountOnly (fun _ _ => 0) opened (.read 0 0) = .ok (-1, opened) := by
    simp only [exec, returns, bind, Except.bind]
  have small : (0 : UInt64).toNat < 2 ^ 31 := by decide
  have unchanged := (failingCalls fresh counted).1 _ (.read 0 0) _ small failed
  exact ⟨start, opened, fresh, counted, denotes.isOpen, failed, unchanged.mp rfl⟩

theorem checkTransfer_of_heap (tolerates : tolerance .heap = true) (blocks : Int) (length : Nat)
    (offset : Int) (count : Nat) :
    checkTransfer tolerance blocks length offset count = .ok () := by
  have fits : Fits tolerance blocks 0 length := .inr (.inr tolerates)
  rw [checkTransfer, if_pos fits, checkCopy, tolerate, if_pos tolerates, ite_self]

/-- Cutting the new empty file to the length 1 - 2^32 puts its descriptor behind its end.  A
read of one byte then returns -1 and moves the descriptor back. -/
theorem failingCalls_broken : ∃ start opened cut after, FreshMount heapToo start ∧
    Session heapToo (fun _ call => call.Counted) start cut ∧
    exec heapToo (fun _ _ => 0) opened (.truncate 0 (-4294967295)) = .ok (0, cut) ∧
    exec heapToo (fun _ _ => 0) cut (.read 0 1) = .ok (-1, after) ∧
    (cut.fildes 0).offset = 1 ∧ (after.fildes 0).offset = 0 ∧ after ≠ cut := by
  obtain ⟨start, opened, chart, fresh, session, sound, rfl, denotes, size, offset⟩ :=
    exists_firstFile (by decide : heapToo .fildesReset = true)
  obtain ⟨cut, done, dir, fildes⟩ := truncate_firstFile sound (Function.update_self _ _ _) denotes
    size offset (by decide : (-4294967295 : Int64).toInt < 0) (by decide)
  have counted : Session heapToo (fun _ call => call.Counted) start opened := by
    refine session.weaken fun _ call first => ?_
    rcases first with rfl | rfl <;> trivial
  obtain ⟨chart', effect⟩ := exec_effect sound done
  have behind : (cut.fildes 0).offset = 1 := by
    rw [fildes, moved_fildes_self]
    decide
  have empty : (cut.dir 63).size = 0 := by rw [dir, size]
  have denotes' : Denotes cut 0 63 :=
    (denotes.moved 0 (Int32.ofInt (-4294967295 : Int64).toInt)).congr dir fildes
  have reads := fsRead_open heapToo (effect.sound sound) denotes' (fun _ _ => 0)
    (by decide : 0 < (1 : UInt64).toNat)
  rw [checkTransfer_of_heap (by decide : heapToo .heap = true), behind, empty] at reads
  have after : exec heapToo (fun _ _ => 0) cut (.read 0 1) = .ok (-1, cut.moved 0 0) := by
    have at_ : ((0 : Descriptor).val : Int) = 0 := rfl
    rw [at_] at reads
    simp only [exec, reads, bind, Except.bind]
    rfl
  have offset' : ((cut.moved 0 0).fildes 0).offset = 0 := moved_fildes_self
  refine ⟨start, opened, cut, cut.moved 0 0, fresh,
    counted.tail ⟨fun _ _ => 0, .truncate 0 (-4294967295), 0, trivial, done⟩, done, after, behind,
    offset', ?_⟩
  intro same
  rw [same, behind] at offset'
  exact absurd offset' (by decide)

end EC440.FileSystem
