import EC440.FileSystem.Contents

/-!
# Reading what was written

`fs_write` extends a chain only when it consists of a single block, because
the loop that appends blocks does not move on to the next block of a longer
chain.  What was written is read back exactly if the chain had one block, or
was long enough already.
-/

namespace EC440.FileSystem

open Linked Outcome

variable {tolerance : Tolerance} {state after start : State}
  {chart chart' : Slot → List BlockIndex} {slot : Slot} {descriptor : Descriptor}

/-! ## Transfers within a file -/

theorem numBlocks_eq {size : Int32} (nonneg : 0 ≤ size.toInt) :
    numBlocks size = size.toInt / blockSize + 1 := by
  rw [numBlocks, Int.tdiv_eq_ediv_of_nonneg nonneg]

theorem checkTransfer_ok {size : Int32} {length count : Nat} {offset : Int}
    (nonneg : 0 ≤ size.toInt) (short : (length : Int) ≤ size.toInt / blockSize + 1)
    (lower : 0 ≤ offset) (upper : offset + count ≤ size.toInt) :
    checkTransfer tolerance (numBlocks size) length offset count = .ok () := by
  have fits : Fits tolerance (numBlocks size) 0 length := by
    refine .inr (.inl ?_)
    rw [numBlocks_eq nonneg]
    simpa using short
  have room : offset + count ≤ blockSize * (size.toInt / blockSize + 1) := by
    simp only [blockSize]
    omega
  rw [checkTransfer, if_pos fits, checkCopy, numBlocks_eq nonneg, if_pos ⟨lower, room⟩]

theorem fsRead_inside (tolerance : Tolerance) (sound : Sound state chart)
    (denotes : Denotes state descriptor slot)
    (size : 0 ≤ (state.dir slot).size.toInt ∧ (state.dir slot).size.toInt ≤ maxFSize)
    (short : ((chart slot).length : Int) ≤ (state.dir slot).size.toInt / blockSize + 1)
    {nbyte : UInt64} (positive : 0 < nbyte.toNat)
    (lower : 0 ≤ (state.fildes descriptor).offset.toInt)
    (upper : (state.fildes descriptor).offset.toInt + nbyte.toNat ≤ (state.dir slot).size.toInt)
    (garbage : Nat → Buffer) :
    ∃ after, fsRead tolerance garbage state descriptor.val nbyte =
      .ok (Int32.ofNat nbyte.toNat, fun position : Nat =>
        loadBlocks state.device.image (chart slot) 0 (garbage 0)
          ((state.fildes descriptor).offset.toInt + position), after) := by
  have bound := size.2
  simp only [maxFSize] at bound
  have within : ¬toSize ((state.fildes descriptor).offset.toInt + nbyte.toNat) >
      toSize (state.dir slot).size.toInt := by
    rw [toSize_of_nonneg size.1 (by omega), toSize_of_nonneg (by omega) (by omega)]
    omega
  have outcome : (readOutcome (state.dir slot).size (state.fildes descriptor).offset nbyte).1 =
      Int32.ofNat nbyte.toNat := by rw [readOutcome, if_neg within]
  rw [fsRead_open tolerance sound denotes garbage positive,
    checkTransfer_ok size.1 short lower upper, outcome]
  exact ⟨_, rfl⟩

/-! ## The property and the condition -/

def blocksFor (size : Nat) : Nat := (size + (blockSize - 1)) / blockSize

def State.newSize (state : State) (slot : Slot) (stop : Nat) : Nat :=
  max (state.dir slot).size.toInt.toNat stop

def State.Room (state : State) (slot : Slot) (size : Nat) : Prop :=
  blocksFor size ≤ (state.chain slot).length + state.freeCount

def State.Covered (state : State) (slot : Slot) : Prop :=
  (state.dir slot).size.toInt ≤ blockSize * (state.chain slot).length

def State.position (state : State) (descriptor : Descriptor) : Nat :=
  (state.fildes descriptor).offset.toInt.toNat

def writtenByte (state : State) (slot : Slot) (offset : Nat) (buf : Nat → UInt8) (nbyte : Nat)
    (position : Nat) : Option UInt8 :=
  if offset ≤ position ∧ position < offset + nbyte then some (buf (position - offset))
  else state.byte? slot position

/-- Writing succeeds, sets the size, leaves a chain long enough, and until the file is written
again every read within its size returns the new bytes where they were written and the old
bytes elsewhere. -/
def ReadsBack (tolerance : Tolerance) (state : State) (slot : Slot) (descriptor : Descriptor)
    (buf : Nat → UInt8) (nbyte : UInt64) : Prop :=
  ∀ garbage, ∃ after,
    fsWrite tolerance garbage state descriptor.val buf nbyte =
      .ok (Int32.ofNat nbyte.toNat, after) ∧
    (after.dir slot).size.toInt =
      state.newSize slot (state.position descriptor + nbyte.toNat) ∧
    after.Covered slot ∧
    ∀ later, Session tolerance (fun state call => ¬ActsOn state call slot) after later →
      ∀ (reader : Descriptor) (count : UInt64), Denotes later reader slot → 0 < count.toNat →
        0 ≤ (later.fildes reader).offset.toInt →
        (later.fildes reader).offset.toInt + count.toNat ≤ (after.dir slot).size.toInt →
        ∀ garbage', ∃ data final,
          fsRead tolerance garbage' later reader.val count =
            .ok (Int32.ofNat count.toNat, data, final) ∧
          ∀ index < count.toNat, some (data index) =
            writtenByte state slot (state.position descriptor) buf nbyte.toNat
              (later.position reader + index)

/-- The chain has one block, so that the loop of `fs_write` starts at its end, or it reaches
the end of the write already. -/
def State.Extensible (state : State) (slot : Slot) (stop : Nat) : Prop :=
  (state.chain slot).length = 1 ∨ state.newSize slot stop ≤ blockSize * (state.chain slot).length

theorem covered_before (sound : Sound state chart) (fitting : Fitting state chart)
    (used : state.Used slot) {stop : Nat} (extensible : state.Extensible slot stop)
    (room : state.Room slot (state.newSize slot stop)) : state.Covered slot := by
  have full := fitting.full slot used
  rw [State.Extensible, sound.charted.chain_eq used] at extensible
  rw [State.Room, sound.charted.chain_eq used] at room
  rw [State.Covered, sound.charted.chain_eq used]
  simp only [blocksFor, State.newSize, blockSize] at *
  omega

/-- The chain after the write reaches as far as the new size. -/
theorem covered_after {stop added : Nat} {newSize : Int} {length : Nat}
    (extensible : length = 1 ∨ max newSize.toNat stop ≤ blockSize * length)
    (room : blocksFor (max newSize.toNat stop) ≤ length + state.freeCount)
    (covered : newSize ≤ blockSize * length)
    (grown : added = appended state length (stop / blockSize)) :
    max newSize stop ≤ blockSize * (length + added : Nat) := by
  have cases_ := appended_cases state length stop
  simp only [blocksFor, blockSize] at *
  push_cast
  omega

theorem fileByte_stored {image : BlockIndex → Block} {old added : List BlockIndex}
    {garbage : Buffer} {buf : Nat → UInt8} {offset nbyte position : Nat}
    (nodup : (old ++ added).Nodup) (inside : position < blockSize * (old ++ added).length)
    (reached : ¬(offset ≤ position ∧ position < offset + nbyte) →
      position < blockSize * old.length) :
    fileByte (storeBlocks (writeBuffer image (old ++ added) garbage
        (fun index => buf index.toNat) offset nbyte) (old ++ added) 0 image) (old ++ added)
        position =
      if offset ≤ position ∧ position < offset + nbyte then some (buf (position - offset))
      else fileByte image old position := by
  have start : ((0 : Nat) : Int) * blockSize + position = position := by
    rw [Nat.cast_zero, zero_mul, zero_add]
  rw [storeBlocks_eq nodup inside, writeBuffer, start]
  by_cases new : offset ≤ position ∧ position < offset + nbyte
  · rw [if_pos new, Memory.memcpy_of_mem (by omega) (by omega)]
    congr 2
    omega
  · obtain ⟨byte, found⟩ := fileByte_eq_some image (reached new)
    have loaded := loadBlocks_eq 0 garbage ((fileByte_append added (reached new)).trans found)
    rw [start] at loaded
    rw [if_neg new, Memory.memcpy_of_notMem (by omega), loaded, found]

/-- Where a write within the limit starts and ends, and the size it leaves. -/
structure WriteEnds (state : State) (slot : Slot) (descriptor : Descriptor) (nbyte : UInt64) :
    Prop where
  start : (state.fildes descriptor).offset.toInt = state.position descriptor
  inside : (state.position descriptor : Int) ≤ (state.dir slot).size.toInt
  count : clampCount (state.fildes descriptor).offset nbyte = nbyte.toNat
  stop : writeStop (state.fildes descriptor).offset nbyte = state.position descriptor + nbyte.toNat
  size : (sizeAfter (state.dir slot).size
    (writeStop (state.fildes descriptor).offset nbyte)).toInt =
      max (state.dir slot).size.toInt (state.position descriptor + nbyte.toNat : Nat)

theorem writeEnds (fitting : Fitting state chart) (denotes : Denotes state descriptor slot)
    {nbyte : UInt64}
    (within : (state.fildes descriptor).offset.toInt + nbyte.toNat ≤ maxFSize) :
    WriteEnds state slot descriptor nbyte := by
  obtain ⟨sizeNonneg, -⟩ := fitting.size slot denotes.used
  obtain ⟨offsetNonneg, offsetWithin⟩ := fitting.offset descriptor slot denotes
  obtain ⟨counted, stopped⟩ := clampCount_eq offsetNonneg within
  have start : (state.fildes descriptor).offset.toInt = state.position descriptor :=
    (Int.toNat_of_nonneg offsetNonneg).symm
  have stop : ((state.fildes descriptor).offset.toInt + nbyte.toNat).toNat =
      state.position descriptor + nbyte.toNat := by omega
  rw [stop] at stopped
  refine ⟨start, start ▸ offsetWithin, counted, stopped, ?_⟩
  rw [stopped, sizeAfter_toInt sizeNonneg (by omega)]

theorem written_position (fitting : Fitting state chart) (denotes : Denotes state descriptor slot)
    (garbage : Nat → Buffer) (buf : Nat → UInt8) {nbyte : UInt64} (fat : Fat)
    (blocks : List BlockIndex)
    (within : (state.fildes descriptor).offset.toInt + nbyte.toNat ≤ maxFSize) :
    (state.written garbage slot descriptor buf nbyte fat blocks).position descriptor =
      state.position descriptor + nbyte.toNat := by
  have ends := writeEnds fitting denotes within
  obtain ⟨nonneg, -⟩ := fitting.offset descriptor slot denotes
  have offset := writtenOffset_toInt nonneg (by omega) nbyte
  have value : (state.written garbage slot descriptor buf nbyte fat blocks).position descriptor =
      (Int32.ofInt ((state.fildes descriptor).offset.toInt +
        clampCount (state.fildes descriptor).offset nbyte)).toInt.toNat := by
    simp [State.position, State.written, State.stored]
  rw [value, offset, ends.stop, Int.toNat_natCast]

theorem fsWrite_within (tolerance : Tolerance) (sound : Sound state chart)
    (fitting : Fitting state chart) (denotes : Denotes state descriptor slot)
    (garbage : Nat → Buffer) (buf : Nat → UInt8) {nbyte : UInt64}
    (within : (state.fildes descriptor).offset.toInt + nbyte.toNat ≤ maxFSize) :
    ∃ added fat, Extended state chart slot added fat ∧
      added.length = appended state (chart slot).length
        (writeStop (state.fildes descriptor).offset nbyte / blockSize) ∧
      fsWrite tolerance garbage state descriptor.val buf nbyte = .ok (Int32.ofNat nbyte.toNat,
        state.written garbage slot descriptor buf nbyte fat (chart slot ++ added)) := by
  have ends := writeEnds fitting denotes within
  have sizeNonneg := (fitting.size slot denotes.used).1
  obtain ⟨added, fat, extended, length, done⟩ :=
    fsWrite_open tolerance sound denotes garbage buf nbyte rfl ends.count rfl
  refine ⟨added, fat, extended, length, ?_⟩
  have short := (fitting.written sound garbage buf denotes extended length).length slot
    (written_used.mpr denotes.used)
  have size := ends.size
  have start := ends.start
  rw [written_size, Function.update_self] at short
  rw [done, checkTransfer_ok (by omega) short (by omega) (by omega)]
  rfl

theorem fsWrite_grown (tolerance : Tolerance) (sound : Sound state chart)
    (fitting : Fitting state chart) (denotes : Denotes state descriptor slot)
    (garbage : Nat → Buffer) (buf : Nat → UInt8) {nbyte : UInt64}
    (within : (state.fildes descriptor).offset.toInt + nbyte.toNat ≤ maxFSize) :
    ∃ after chart',
      fsWrite tolerance garbage state descriptor.val buf nbyte =
        .ok (Int32.ofNat nbyte.toNat, after) ∧
      Sound after chart' ∧ Fitting after chart' ∧ Denotes after descriptor slot ∧
      (chart' slot).length = (chart slot).length + appended state (chart slot).length
        ((state.position descriptor + nbyte.toNat) / blockSize) ∧
      after.freeCount + appended state (chart slot).length
        ((state.position descriptor + nbyte.toNat) / blockSize) = state.freeCount ∧
      (after.dir slot).size.toInt =
        max (state.dir slot).size.toInt (state.position descriptor + nbyte.toNat : Nat) ∧
      after.position descriptor = state.position descriptor + nbyte.toNat := by
  have ends := writeEnds fitting denotes within
  obtain ⟨added, fat, extended, length, done⟩ :=
    fsWrite_within tolerance sound fitting denotes garbage buf within
  have sound' := sound.written garbage buf nbyte denotes extended
  have fitting' := fitting.written sound garbage buf denotes extended length
  refine ⟨_, _, done, sound', fitting', ?_, ?_, ?_, ?_,
    written_position fitting denotes garbage buf fat _ within⟩
  · exact ((Effect.written garbage denotes extended length : Effect state chart _ _ _ _).attached
      denotes (by simp)).denotes
  · rw [Function.update_self, List.length_append, length, ends.stop]
  · rw [← ends.stop, ← length]
    exact sound.charted.freeCount_append fitting.tight sound'.charted fitting'.tight
  · rw [written_size, ends.size]

theorem readsBack_of_extensible (sound : Sound state chart) (fitting : Fitting state chart)
    (denotes : Denotes state descriptor slot) (buf : Nat → UInt8) {nbyte : UInt64}
    (within : (state.fildes descriptor).offset.toInt + nbyte.toNat ≤ maxFSize)
    (room : state.Room slot (state.newSize slot (state.position descriptor + nbyte.toNat)))
    (extensible : state.Extensible slot (state.position descriptor + nbyte.toNat)) :
    ReadsBack tolerance state slot descriptor buf nbyte := by
  intro garbage
  have ends := writeEnds fitting denotes within
  have start := ends.start
  have inside := ends.inside
  have size := ends.size
  have sizeNonneg := (fitting.size slot denotes.used).1
  have covered := covered_before sound fitting denotes.used extensible room
  rw [State.Covered, sound.charted.chain_eq denotes.used] at covered
  rw [State.Extensible, sound.charted.chain_eq denotes.used] at extensible
  rw [State.Room, sound.charted.chain_eq denotes.used] at room
  obtain ⟨added, fat, extended, length, done⟩ :=
    fsWrite_within tolerance sound fitting denotes garbage buf within
  have reach := covered_after extensible room covered (ends.stop ▸ length)
  have sound' := sound.written garbage buf nbyte denotes extended
  have fitting' := fitting.written sound garbage buf denotes extended length
  have used' : (state.written garbage slot descriptor buf nbyte fat (chart slot ++ added)).Used
      slot := written_used.mpr denotes.used
  have nodup := sound'.charted.nodup slot
  have chain := sound'.charted.chain_eq used'
  have short := fitting'.length slot used'
  rw [Function.update_self] at nodup chain short
  refine ⟨_, done, ?_, ?_, ?_⟩
  · rw [written_size, size, State.newSize]
    omega
  · rw [State.Covered, chain, written_size, size, List.length_append]
    exact reach
  · intro later session reader count denotes' positive lower upper garbage'
    have kept := session.kept ⟨_, sound'⟩ used'
    obtain ⟨chart', soundLater⟩ := session.sound ⟨_, sound'⟩
    have blocks : chart' slot = chart slot ++ added := by
      rw [← soundLater.charted.chain_eq denotes'.used, kept.chain_eq, chain]
    rw [← kept.size] at short upper
    have sizeLater := fitting'.size slot used'
    rw [← kept.size] at sizeLater
    obtain ⟨final, read⟩ := fsRead_inside tolerance soundLater denotes' sizeLater
      (blocks ▸ short) positive lower upper garbage'
    refine ⟨_, final, read, fun index less => ?_⟩
    have readerAt : (later.fildes reader).offset.toInt = later.position reader :=
      (Int.toNat_of_nonneg lower).symm
    rw [kept.size, written_size] at upper
    have reached : later.position reader + index < blockSize * (chart slot ++ added).length := by
      rw [List.length_append]
      omega
    have image : (state.written garbage slot descriptor buf nbyte fat
        (chart slot ++ added)).device.image =
          storeBlocks (writeBuffer state.device.image (chart slot ++ added) (garbage 0)
            (fun index => buf index.toNat) (state.position descriptor) nbyte.toNat)
            (chart slot ++ added) 0 state.device.image := by
      rw [← start, ← ends.count]
      rfl
    have content : fileByte later.device.image (chart slot ++ added)
        (later.position reader + index) =
          writtenByte state slot (state.position descriptor) buf nbyte.toNat
            (later.position reader + index) := by
      rw [fileByte_congr (chain ▸ kept.content), image, writtenByte, State.byte?,
        sound.charted.chain_eq denotes.used]
      exact fileByte_stored nodup reached fun outside => by omega
    obtain ⟨byte, found⟩ := fileByte_eq_some later.device.image reached
    have loaded := loadBlocks_eq 0 (garbage' 0) found
    rw [Nat.cast_zero, zero_mul, zero_add, Nat.cast_add, ← readerAt, ← blocks] at loaded
    rw [← content, found, loaded]

/-- A longer chain is not extended, so that its blocks have to be enough already. -/
theorem extensible_of_readsBack (sound : Sound state chart) (denotes : Denotes state descriptor slot)
    {buf : Nat → UInt8} {nbyte : UInt64}
    (readsBack : ReadsBack tolerance state slot descriptor buf nbyte) :
    state.Extensible slot (state.position descriptor + nbyte.toNat) := by
  obtain ⟨after, done, size, covered, -⟩ := readsBack fun _ _ => 0
  rw [State.Extensible, sound.charted.chain_eq denotes.used]
  by_cases single : (chart slot).length = 1
  · exact .inl single
  right
  obtain ⟨added, fat, extended, length, written⟩ :=
    fsWrite_open tolerance sound denotes (fun _ _ => 0) buf nbyte rfl rfl rfl
  rw [appended, if_neg single] at length
  obtain rfl := List.eq_nil_of_length_eq_zero length
  have sound' := sound.written (fun _ _ => 0) buf nbyte denotes extended
  rw [written] at done
  obtain ⟨_, -, done⟩ := bind_eq_ok_iff.mp done
  rw [Except.ok.injEq, Prod.mk.injEq] at done
  obtain ⟨-, rfl⟩ := done
  have used' : (state.written (fun _ _ => 0) slot descriptor buf nbyte fat
      (chart slot ++ [])).Used slot := written_used.mpr denotes.used
  rw [State.Covered, size, sound'.charted.chain_eq used', Function.update_self,
    List.append_nil] at covered
  exact_mod_cast covered

/-! ## Sessions -/

/-- The calls that do not shorten or remove files, and of the writes those to files that can be
extended and for which there is room. -/
def Extending (state : State) (call : Call) : Prop :=
  call.Grows ∧ ∀ (descriptor : Descriptor) (slot : Slot) (buf : Nat → UInt8) (nbyte : UInt64),
    call = .write descriptor.val buf nbyte → Denotes state descriptor slot →
      state.Extensible slot (writeStop (state.fildes descriptor).offset nbyte) ∧
      state.Room slot (state.newSize slot (writeStop (state.fildes descriptor).offset nbyte))

def Grown (state : State) : Prop := ∃ chart, Sound state chart ∧ Fitting state chart

theorem FreshMount.grown (fresh : FreshMount tolerance state) : Grown state := by
  obtain ⟨chart, sound⟩ := fresh.start.sound
  refine ⟨chart, sound, ?_, ?_, ?_, ?_, fresh.start.tight sound⟩
  · exact fun slot used => absurd used (fresh.unused slot)
  · exact fun _ slot denotes => absurd denotes.used (fresh.unused slot)
  · exact fun slot used => absurd used (fresh.unused slot)
  · exact fun slot used => absurd used (fresh.unused slot)

theorem Session.grown (session : Session tolerance (fun _ call => call.Grows) start state)
    (initial : Grown start) : Grown state := by
  refine invariant_of_reachable Grown ?_ initial session
  rintro before after ⟨chart, sound, fitting⟩ ⟨garbage, call, code, grows, done⟩
  obtain ⟨chart', effect⟩ := exec_effect sound done
  exact ⟨chart', effect.sound sound, effect.fitting sound fitting grows⟩

def AllCovered (state : State) (chart : Slot → List BlockIndex) : Prop :=
  ∀ slot, state.Used slot → (state.dir slot).size.toInt ≤ blockSize * (chart slot).length

/-- A step that extends only extensible files keeps every file covered. -/
theorem Effect.covered {call : Call} {code : Int32} (sound : Sound state chart)
    (fitting : Fitting state chart) (covered : AllCovered state chart)
    (effect : Effect state chart call code after chart') (extending : Extending state call) :
    AllCovered after chart' := by
  intro slot used
  by_cases before : state.Used slot
  · by_cases acts : ActsOn state call slot
    · cases effect with
      | idle => exact covered slot before
      | created | opened | closed | sought | read => exact acts.elim
      | deleted | truncated => exact extending.1.elim
      | @written target descriptor buf nbyte added fat garbage denotes extended length =>
          obtain ⟨other, same, denotes'⟩ := acts
          obtain rfl : descriptor = other := Fin.ext (by exact_mod_cast same)
          obtain rfl := denotes'.unique sound denotes
          obtain ⟨extensible, room⟩ := extending.2 descriptor slot buf nbyte rfl denotes
          rw [State.Extensible, sound.charted.chain_eq before] at extensible
          rw [State.Room, sound.charted.chain_eq before] at room
          obtain ⟨sizeNonneg, sizeWithin⟩ := fitting.size slot before
          obtain ⟨offsetNonneg, offsetWithin⟩ := fitting.offset descriptor slot denotes
          have stop := writeStop_le offsetNonneg (offsetWithin.trans sizeWithin) nbyte
          rw [written_size, sizeAfter_toInt sizeNonneg stop, Function.update_self,
            List.length_append]
          exact covered_after extensible room (covered slot before) length
    · obtain ⟨⟨-, -, size, -⟩, chain⟩ := effect.entry_eq before acts
      rw [size, chain]
      exact covered slot before
  · -- only `fs_create` makes an entry used
    cases effect with
    | idle => exact absurd used before
    | @created target _ _ _ _ _ _ =>
        by_cases same : slot = target
        · subst same
          simp [State.created]
        · simp only [State.Used, State.created, Function.update_of_ne same] at used
          exact absurd used before
    | opened | closed => exact absurd (relink_used.mp used) before
    | deleted | truncated => exact extending.1.elim
    | sought | read => exact absurd used before
    | written => exact absurd (written_used.mp used) before

theorem Session.covered (session : Session tolerance Extending start state)
    (initial : Grown start) (covered : ∀ chart, AllCovered start chart) :
    ∃ chart, Sound state chart ∧ Fitting state chart ∧ AllCovered state chart := by
  obtain ⟨chart, sound, fitting⟩ := initial
  refine invariant_of_reachable
    (fun state => ∃ chart, Sound state chart ∧ Fitting state chart ∧ AllCovered state chart) ?_
    ⟨chart, sound, fitting, covered chart⟩ session
  rintro before after ⟨chart, sound, fitting, covered⟩ ⟨garbage, call, code, extending, done⟩
  obtain ⟨chart', effect⟩ := exec_effect sound done
  exact ⟨chart', effect.sound sound, effect.fitting sound fitting extending.1,
    effect.covered sound fitting covered extending⟩

/-- On a file system on which files have only grown, a write within the size limit for which
there is room is read back exactly if the chain of the file has one block or is long enough; if
all writes of a session are such, the chains always hold enough blocks. -/
theorem fsWrite_readsBack_iff (fresh : FreshMount tolerance start) :
    (∀ state, Session tolerance (fun _ call => call.Grows) start state →
      ∀ (descriptor : Descriptor) (slot : Slot) (buf : Nat → UInt8) (nbyte : UInt64),
        Denotes state descriptor slot →
        (state.fildes descriptor).offset.toInt + nbyte.toNat ≤ maxFSize →
        state.Room slot (state.newSize slot (state.position descriptor + nbyte.toNat)) →
        (ReadsBack tolerance state slot descriptor buf nbyte ↔
          state.Extensible slot (state.position descriptor + nbyte.toNat))) ∧
    ∀ state, Session tolerance Extending start state →
      ∀ slot, state.Used slot → state.Covered slot := by
  constructor
  · intro state session descriptor slot buf nbyte denotes within room
    obtain ⟨chart, sound, fitting⟩ := session.grown fresh.grown
    exact ⟨extensible_of_readsBack sound denotes,
      readsBack_of_extensible sound fitting denotes buf within room⟩
  · intro state session slot used
    obtain ⟨chart, sound, -, covered⟩ := session.covered fresh.grown fun chart slot used =>
      absurd used (fresh.unused slot)
    rw [State.Covered, sound.charted.chain_eq used]
    exact covered slot used

/-! ## A write that is lost -/

/-- After a first file has been created and opened, it has one block, and others are free. -/
theorem exists_oneBlock : ∃ start state chart,
    FreshMount mountOnly start ∧ Session mountOnly (fun _ call => call.Grows) start state ∧
    Sound state chart ∧ Fitting state chart ∧ Denotes state 0 63 ∧ (chart 63).length = 1 ∧
    (state.dir 63).size = 0 ∧ (state.fildes 0).offset = 0 ∧ state.freeCount = 8181 := by
  obtain ⟨start, state, chart, fresh, session, sound, listed, denotes, size, offset⟩ :=
    exists_firstFile (by decide : mountOnly .fildesReset = true)
  have grows : Session mountOnly (fun _ call => call.Grows) start state := by
    refine session.weaken fun _ call first => ?_
    rcases first with rfl | rfl <;> trivial
  obtain ⟨chart', sound', fitting⟩ := grows.grown fresh.grown
  obtain rfl : chart' = chart := sound.charted.unique sound'.charted
  have total := sound.charted.freeCount_add fitting.tight
  have lengths : ∑ slot, (chart' slot).length = 1 := by
    rw [listed, Finset.sum_eq_single 63]
    · rw [Function.update_self, List.length_singleton]
    · intro slot _ distinct
      rw [Function.update_of_ne distinct, List.length_nil]
    · exact fun absent => absurd (Finset.mem_univ _) absent
  rw [lengths] at total
  refine ⟨start, state, chart', fresh, grows, sound, fitting, denotes, ?_, size, offset, ?_⟩
  · rw [listed, Function.update_self, List.length_singleton]
  · simp only [diskBlocks, dataStart] at total
    omega

/-- The first write of 4097 bytes to that file appends a block and is read back. -/
theorem firstWrite_readsBack : ∃ start opened, FreshMount mountOnly start ∧
    Session mountOnly (fun _ call => call.Grows) start opened ∧ Denotes opened 0 63 ∧
    ReadsBack mountOnly opened 63 0 (fun _ => 1) 4097 := by
  obtain ⟨start, opened, chart, fresh, session, sound, fitting, denotes, single, size, offset,
    free⟩ := exists_oneBlock
  have position : opened.position 0 = 0 := by rw [State.position, offset]; rfl
  have length : (opened.chain 63).length = 1 := by rw [sound.charted.chain_eq denotes.used, single]
  have within : (opened.fildes 0).offset.toInt + (4097 : UInt64).toNat ≤ maxFSize := by
    rw [offset]
    decide
  have room : opened.Room 63 (opened.newSize 63 (opened.position 0 + (4097 : UInt64).toNat)) := by
    rw [State.Room, State.newSize, length, size, position, free]
    decide
  exact ⟨start, opened, fresh, session, denotes,
    ((fsWrite_readsBack_iff fresh).1 opened session 0 63 _ 4097 denotes within room).mpr
      (.inl length)⟩

/-- After a first write of 4097 bytes to that file, it has two blocks, and others are free. -/
theorem exists_twoBlocks : ∃ start opened first chart,
    FreshMount mountOnly start ∧
    Session mountOnly (fun _ call => call.Grows) start opened ∧
    fsWrite mountOnly (fun _ _ => 0) opened 0 (fun _ => 1) 4097 = .ok (4097, first) ∧
    Session mountOnly (fun _ call => call.Grows) start first ∧
    Sound first chart ∧ Fitting first chart ∧ Denotes first 0 63 ∧ (chart 63).length = 2 ∧
    (first.dir 63).size.toInt = 4097 ∧ first.position 0 = 4097 ∧ first.freeCount = 8180 := by
  obtain ⟨start, opened, chart, fresh, session, sound, fitting, denotes, single, size, offset,
    free⟩ := exists_oneBlock
  have within : (opened.fildes 0).offset.toInt + (4097 : UInt64).toNat ≤ maxFSize := by
    rw [offset]
    decide
  have position : opened.position 0 = 0 := by
    rw [State.position, offset]
    rfl
  have count : (4097 : UInt64).toNat = 4097 := rfl
  obtain ⟨first, chart', writes, sound', fitting', denotes', length', free', size', position'⟩ :=
    fsWrite_grown mountOnly sound fitting denotes (fun _ _ => 0) (fun _ => 1) within
  have one : appended opened 1 ((0 + 4097) / blockSize) = 1 := by
    rw [appended, if_pos rfl, free]
    rfl
  rw [position, single, count, one] at length'
  rw [position, single, count, one, free] at free'
  rw [position, count, size] at size'
  rw [position, count] at position'
  have codes : Int32.ofNat (4097 : UInt64).toNat = 4097 ∧
      (((0 : Descriptor).val : Nat) : Int) = 0 := by decide
  rw [codes.1, codes.2] at writes
  exact ⟨start, opened, first, chart', fresh, session, writes,
    session.tail ⟨fun _ _ => 0, .write 0 (fun _ => 1) 4097, 4097, trivial, writes⟩,
    sound', fitting', denotes', length', size', position', by omega⟩

/-- Two writes of 4097 and 4096 bytes at the start of a file: the second one needs a third block
that it does not append.  Both report success, and the last byte is lost: what is read in its
place is what `malloc` found in memory. -/
theorem secondWrite_lost : ∃ start opened first second sought final data,
    FreshMount mountOnly start ∧
    Session mountOnly (fun _ call => call.Grows) start opened ∧
    fsWrite mountOnly (fun _ _ => 0) opened 0 (fun _ => 1) 4097 = .ok (4097, first) ∧
    Session mountOnly (fun _ call => call.Grows) start first ∧ Denotes first 0 63 ∧
    (first.fildes 0).offset.toInt + 4096 ≤ maxFSize ∧
    first.Room 63 (first.newSize 63 (first.position 0 + 4096)) ∧
    ¬ReadsBack mountOnly first 63 0 (fun _ => 1) 4096 ∧
    fsWrite mountOnly (fun _ _ => 0) first 0 (fun _ => 1) 4096 = .ok (4096, second) ∧
    fsLseek second 0 8192 = .ok (0, sought) ∧
    fsRead mountOnly (fun _ _ => 7) sought 0 1 = .ok (1, data, final) ∧ data 0 = 7 := by
  obtain ⟨start, opened, first, chart1, fresh, session, writes, session1, sound1, fitting1, denotes1,
    length1, size1, position1, free1⟩ := exists_twoBlocks
  have count' : (4096 : UInt64).toNat = 4096 := rfl
  have start1 : (first.fildes 0).offset.toInt = 4097 := by
    have nonneg := (fitting1.offset 0 63 denotes1).1
    rw [State.position] at position1
    omega
  have within1 : (first.fildes 0).offset.toInt + (4096 : UInt64).toNat ≤ maxFSize := by
    rw [start1]
    decide
  obtain ⟨second, chart2, writes', sound2, fitting2, denotes2, length2, -, size2, -⟩ :=
    fsWrite_grown mountOnly sound1 fitting1 denotes1 (fun _ _ => 0) (fun _ => 1) within1
  have none : appended first 2 ((4097 + 4096) / blockSize) = 0 := rfl
  rw [position1, length1, count', none] at length2
  rw [position1, count', size1] at size2
  replace size2 : (second.dir 63).size.toInt = 8193 := size2
  have seek := fsLseek_open sound2 denotes2 8192
  rw [if_pos ⟨by decide, by rw [size2]; decide⟩] at seek
  have at8192 : ((second.moved 0 8192).fildes 0).offset.toInt = 8192 := by
    simp only [State.moved, Function.update_self]
    rfl
  obtain ⟨final, reads⟩ := fsRead_inside mountOnly (sound2.moved 0 8192) (denotes2.moved 0 8192)
    (fitting2.size 63 denotes2.used) (fitting2.length 63 denotes2.used)
    (by decide : 0 < (1 : UInt64).toNat) (by rw [at8192]; decide)
    (by
      change _ ≤ (second.dir 63).size.toInt
      rw [at8192, size2]
      decide) fun _ _ => 7
  have codes : Int32.ofNat (4096 : UInt64).toNat = 4096 ∧ Int32.ofNat (1 : UInt64).toNat = 1 ∧
      Int32.ofInt (8192 : Int64).toInt = 8192 := by
    decide
  have zero : (((0 : Descriptor).val : Nat) : Int) = 0 := rfl
  rw [codes.1, zero] at writes'
  rw [codes.2.1, zero] at reads
  rw [codes.2.2, zero] at seek
  refine ⟨start, opened, first, second, second.moved 0 8192, final, _, fresh, session, writes,
    session1, denotes1, ?_, ?_, ?_, writes', seek, reads, ?_⟩
  · rw [start1]
    decide
  · rw [State.Room, State.newSize, sound1.charted.chain_eq denotes1.used, length1, size1, position1]
    have blocks : blocksFor (max (4097 : Int).toNat (4097 + 4096)) = 3 := by decide
    rw [blocks]
    omega
  · intro readsBack
    have extensible := extensible_of_readsBack sound1 denotes1 readsBack
    rw [State.Extensible, sound1.charted.chain_eq denotes1.used, length1, State.newSize, size1,
      position1] at extensible
    exact absurd extensible (by decide)
  · rw [loadBlocks_after]
    rw [at8192, length2]
    decide

end EC440.FileSystem
