import EC440.FileSystem.Failures
import EC440.FileSystem.FullDisk
import EC440.FileSystem.Reading

/-!
# Staging buffers

`fs_read` and `fs_write` load the whole chain of a file into a buffer that is
allocated for the size in the directory.  The chain never outgrows the size, as
long as `fs_write` is not called with an offset that lies behind the maximum
file size, or so far in front of the file that their difference is not an `int`.
-/

namespace EC440.FileSystem

open Linked Outcome

variable {tolerance : Tolerance} {state after start : State} {chart chart' : Slot → List BlockIndex}
  {call : Call} {code : Int32} {slot : Slot} {descriptor : Descriptor}

/-- `MAX_F_SIZE - offset` is an `int` that is not negative. -/
def Measurable (offset : Int32) : Prop :=
  maxFSize - (2 ^ 31 - 1) ≤ offset.toInt ∧ offset.toInt ≤ maxFSize

instance (offset : Int32) : Decidable (Measurable offset) :=
  inferInstanceAs (Decidable (_ ∧ _))

/-- Byte counts are below 2^31, and an open descriptor that is written through has an offset with
which `fs_write` can compute. -/
def MeasuredWrites (state : State) (call : Call) : Prop :=
  call.Counted ∧ ∀ (descriptor : Descriptor) (slot : Slot) (buf : Nat → UInt8) (nbyte : UInt64),
    call = .write descriptor.val buf nbyte → Denotes state descriptor slot →
      Measurable (state.fildes descriptor).offset

/-- A write from such an offset ends within the limit. -/
theorem writeStop_measurable {offset : Int32} (measurable : Measurable offset) (nbyte : UInt64) :
    writeStop offset nbyte ≤ maxFSize := by
  obtain ⟨lower, upper⟩ := measurable
  simp only [maxFSize] at lower upper
  by_cases large : toSize (offset.toInt + nbyte.toNat) > maxFSize
  · have rest : (Int32.ofInt (maxFSize - offset.toInt)).toInt = maxFSize - offset.toInt := by
      simp only [maxFSize]
      exact Int32.toInt_ofInt_of_le (by omega) (by omega)
    have count : clampCount offset nbyte = (maxFSize - offset.toInt).toNat := by
      rw [clampCount, if_pos large, rest]
      simp only [maxFSize]
      exact toSize_of_nonneg (by omega) (by omega)
    have stop : offset.toInt + clampCount offset nbyte = maxFSize := by
      rw [count]
      simp only [maxFSize]
      omega
    rw [writeStop, stop]
    decide
  · rw [writeStop, clampCount, if_neg large]
    exact not_lt.mp large

/-! ## The invariant -/

/-- No chain is longer than the buffer that is allocated for the size of its file. -/
structure Staged (state : State) (chart : Slot → List BlockIndex) : Prop where
  sized : Sized state
  short : ∀ slot, state.Used slot →
    ((chart slot).length : Int) ≤ (state.dir slot).size.toInt / blockSize + 1

namespace Staged

theorem shrink (staged : Staged state chart) (sized : Sized after)
    (entry : ∀ other, after.Used other → state.Used other ∧
      (after.dir other).size = (state.dir other).size)
    (shorter : ∀ other, after.Used other → (chart' other).length ≤ (chart other).length) :
    Staged after chart' := by
  refine ⟨sized, fun other used => ?_⟩
  have before := staged.short other (entry other used).1
  have less := shorter other used
  rw [(entry other used).2]
  omega

theorem created (staged : Staged state chart) {fresh : BlockIndex} {name : CString} :
    Staged (state.created slot fresh name) (Function.update chart slot [fresh]) := by
  refine ⟨staged.sized.created, fun other used => ?_⟩
  by_cases same : other = slot
  · subst same
    rw [created_size, Function.update_self]
    exact (by decide : (1 : Int) ≤ (0 : Int32).toInt / blockSize + 1)
  · rw [State.Used, created_entry_of_ne same] at used
    rw [created_entry_of_ne same, Function.update_of_ne same]
    exact staged.short other used

theorem grown (staged : Staged state chart) (used : state.Used slot) {stop added : Nat}
    (within : stop ≤ maxFSize)
    (length : added = appended state (chart slot).length (stop / blockSize)) :
    ((chart slot).length + added : Int) ≤
      (sizeAfter (state.dir slot).size stop).toInt / blockSize + 1 := by
  have own := staged.short slot used
  have grown := appended_cases state (chart slot).length stop
  rw [sizeAfter_toInt (staged.sized slot used).1 within]
  simp only [blockSize] at own grown length ⊢
  omega

theorem written (staged : Staged state chart) {garbage : Nat → Buffer} {buf : Nat → UInt8}
    {nbyte : UInt64} {fat : Fat} {added : List BlockIndex} (denotes : Denotes state descriptor slot)
    (measurable : Measurable (state.fildes descriptor).offset)
    (length : added.length = appended state (chart slot).length
      (writeStop (state.fildes descriptor).offset nbyte / blockSize)) :
    Staged (state.written garbage slot descriptor buf nbyte fat (chart slot ++ added))
      (Function.update chart slot (chart slot ++ added)) := by
  refine ⟨staged.sized.written denotes, fun other used => ?_⟩
  have wasUsed := written_used.mp used
  by_cases same : other = slot
  · subst same
    rw [written_size, Function.update_self, List.length_append]
    push_cast
    exact staged.grown wasUsed (writeStop_measurable measurable nbyte) length
  · rw [written_entry_of_ne same, Function.update_of_ne same]
    exact staged.short other wasUsed

end Staged

theorem Effect.staged (staged : Staged state chart) (measured : MeasuredWrites state call)
    (effect : Effect state chart call code after chart') : Staged after chart' := by
  have sized := effect.sized staged.sized
  cases effect with
  | idle => exact staged
  | created => exact staged.created
  | opened =>
      refine staged.shrink sized (fun other used => ⟨relink_used.mp used, relink_size⟩) ?_
      exact fun _ _ => le_rfl
  | closed =>
      refine staged.shrink sized (fun other used => ⟨relink_used.mp used, relink_size⟩) ?_
      exact fun _ _ => le_rfl
  | @deleted slot =>
      have kept : ∀ other, other ≠ slot →
          (state.deleted slot (chart slot)).dir other = state.dir other :=
        fun other distinct => Function.update_of_ne distinct _ _
      refine staged.shrink sized (fun other used => ?_) fun other used => ?_
      · obtain ⟨distinct, wasUsed⟩ := deleted_used used
        exact ⟨wasUsed, by rw [kept other distinct]⟩
      · rw [Function.update_of_ne (deleted_used used).1]
  | sought => exact staged.shrink sized (fun _ used => ⟨used, rfl⟩) fun _ _ => le_rfl
  | read => exact staged.shrink sized (fun _ used => ⟨used, rfl⟩) fun _ _ => le_rfl
  | written garbage denotes _ length =>
      exact staged.written denotes (measured.2 _ _ _ _ rfl denotes) length
  | @truncated slot _ _ kept tail last _ _ _ _ split =>
      refine staged.shrink sized (fun _ used => ⟨used, rfl⟩) fun other _ => ?_
      by_cases same : other = slot
      · subst same
        rw [Function.update_self, split]
        simp
      · rw [Function.update_of_ne same]

theorem Session.staged (fresh : FreshMount tolerance start)
    (session : Session tolerance MeasuredWrites start state) :
    ∃ chart, Sound state chart ∧ Staged state chart := by
  obtain ⟨chart, sound⟩ := fresh.start.sound
  have initial : Staged start chart :=
    ⟨(fresh.within 0).size, fun slot used => absurd used (fresh.unused slot)⟩
  refine invariant_of_reachable (fun state => ∃ chart, Sound state chart ∧ Staged state chart) ?_
    ⟨chart, sound, initial⟩ session
  rintro before after ⟨chart, sound, staged⟩ ⟨garbage, call, code, measured, done⟩
  obtain ⟨chart', effect⟩ := exec_effect sound done
  exact ⟨chart', effect.sound sound, effect.staged staged measured⟩

/-! ## The loops -/

/-- The loops that load the chain of `slot` into a buffer for `size`, and write such a buffer
back, stay inside it. -/
structure Fitted (state : State) (slot : Slot) (fat : Fat) (size : Int32) : Prop where
  load : ∀ buffer, ∃ loaded, loadChain noStray state.device fat (numBlocks size) chainFuel
    (state.dir slot).head 0 buffer = .ok (some loaded)
  store : ∀ buffer, ∃ device, storeChain noStray fat (numBlocks size) buffer chainFuel
    state.device (state.dir slot).head 0 = .ok (true, device)

theorem fitted_of_short {fat : Fat} {size : Int32} {blocks : List BlockIndex}
    (active : state.device.active = true)
    (chain : FatChain fat (state.dir slot).head blocks)
    (short : (blocks.length : Int) ≤ numBlocks size) : Fitted state slot fat size := by
  have enough : blocks.length < chainFuel := by
    have bound := chain.length_le_card
    rw [Fintype.card_fin] at bound
    exact Nat.lt_succ_of_le bound
  have fits : Fits noStray (numBlocks size) 0 blocks.length := .inr (.inl (by simpa using short))
  constructor
  · intro buffer
    rw [loadChain_eq noStray _ active chain chainFuel 0 buffer enough, if_pos fits]
    exact ⟨_, rfl⟩
  · intro buffer
    rw [storeChain_eq noStray _ buffer chain chainFuel 0 state.device active enough, if_pos fits]
    exact ⟨_, rfl⟩

/-- What `fs_write` copies from an offset inside the limit ends within the size it leaves. -/
theorem checkCopy_write {size offset : Int32} {nbyte : UInt64} (sizeNonneg : 0 ≤ size.toInt)
    (nonneg : 0 ≤ offset.toInt) (within : offset.toInt ≤ maxFSize) (small : nbyte.toNat < 2 ^ 31) :
    checkCopy noStray (numBlocks (sizeAfter size (writeStop offset nbyte))) offset.toInt
      (clampCount offset nbyte) = .ok () := by
  have limit := writeStop_le nonneg within nbyte
  have size := sizeAfter_toInt sizeNonneg limit
  have offsetBound := offset.toInt_lt
  have stop : offset.toInt + clampCount offset nbyte = writeStop offset nbyte := by
    rcases clampCount_cases nonneg within nbyte with exact_ | ⟨-, wraps⟩
    · simp only [maxFSize] at exact_ within
      rw [writeStop, toSize_of_nonneg (by omega) (by omega)]
      omega
    · omega
  rw [checkCopy, if_pos]
  rw [numBlocks_eq (by omega), stop, size]
  simp only [blockSize]
  omega

/-- What `fs_write` does before it copies, from a measurable offset. -/
theorem write_fitted (sound : Sound state chart) (staged : Staged state chart)
    (denotes : Denotes state descriptor slot)
    (measurable : Measurable (state.fildes descriptor).offset) (nbyte : UInt64) :
    ∃ fat, extendChain layout (writeStop (state.fildes descriptor).offset nbyte / blockSize)
        state.fat (state.fildes descriptor).file.toInt = .ok fat ∧
      Fitted state slot fat (sizeAfter (state.dir slot).size
        (writeStop (state.fildes descriptor).offset nbyte)) := by
  have stop := writeStop_measurable measurable nbyte
  obtain ⟨added, fat, grows, extended, length⟩ := extendChain_spec sound denotes.used
    (writeStop (state.fildes descriptor).offset nbyte / blockSize)
  rw [denotes.head] at grows
  refine ⟨fat, grows, fitted_of_short sound.active extended.chain ?_⟩
  have sizeNonneg := (staged.sized slot denotes.used).1
  have size := sizeAfter_toInt sizeNonneg stop
  rw [numBlocks_eq (by omega), List.length_append]
  push_cast
  exact staged.grown denotes.used stop length

/-- While no access outside a heap buffer is survived, a truncation that returns 0 has a length
that is not negative. -/
theorem cutsWithin_of_inside {garbage : Nat → Buffer} (sound : Sound state chart)
    (inside : tolerance .heap = false)
    (done : exec tolerance garbage state call = .ok (code, after)) : CutsWithin 0 state call := by
  cases call with
  | truncate fildesI length =>
      rintro descriptor slot rfl denotes within
      have sizeBound := (state.dir slot).size.toInt_lt
      have nonneg : 0 ≤ length.toInt := by
        change fsTruncate tolerance garbage state descriptor.val length = .ok (code, after) at done
        rcases fsTruncate_open sound denotes garbage within with
          ⟨-, stopped⟩ | ⟨kept, last, tail, -, -, returns⟩
        · rw [stopped] at done
          cases done
        · rw [returns] at done
          rcases bind_eq_ok_iff.mp done with ⟨_, passed, -⟩
          by_contra negative
          rw [checkCopy, if_neg (by omega), tolerate, inside] at passed
          cases passed
      rw [Int32.toInt_ofInt_of_le (by omega) (by omega)]
      exact ⟨nonneg, within⟩
  | _ => trivial

theorem Session.inside {allowed : State → Call → Prop} (fresh : FreshMount tolerance start)
    (inside : tolerance .heap = false) (session : Session tolerance allowed start state) :
    Within 0 state := by
  obtain ⟨chart, sound⟩ := fresh.start.sound
  suffices ∃ chart, Sound state chart ∧ Within 0 state by
    obtain ⟨_, _, within⟩ := this
    exact within
  refine invariant_of_reachable (fun state => ∃ chart, Sound state chart ∧ Within 0 state) ?_
    ⟨chart, sound, fresh.within 0⟩ session
  rintro before after ⟨chart, sound, within⟩ ⟨garbage, call, code, -, done⟩
  obtain ⟨chart', effect⟩ := exec_effect sound done
  exact ⟨chart', effect.sound sound,
    exec_within sound le_rfl within (cutsWithin_of_inside sound inside done) done⟩

/-- In every session whose writes are measured, every chain fits into the buffer for its size, the
loops of the next write fit too, and so does what it copies to an offset that is not negative.
All writes are measured, as long as the heap buffers are not left. -/
theorem stagingBuffers (fresh : FreshMount tolerance start)
    (session : Session tolerance MeasuredWrites start state) :
    (∀ slot, state.Used slot →
      ((state.chain slot).length : Int) ≤ (state.dir slot).size.toInt / blockSize + 1 ∧
      Fitted state slot state.fat (state.dir slot).size) ∧
    (∀ (descriptor : Descriptor) slot buf (nbyte : UInt64), Denotes state descriptor slot →
      MeasuredWrites state (.write descriptor.val buf nbyte) →
      (∃ fat, extendChain layout (writeStop (state.fildes descriptor).offset nbyte / blockSize)
          state.fat (state.fildes descriptor).file.toInt = .ok fat ∧
        Fitted state slot fat (sizeAfter (state.dir slot).size
          (writeStop (state.fildes descriptor).offset nbyte))) ∧
      (0 ≤ (state.fildes descriptor).offset.toInt →
        checkCopy noStray (numBlocks (sizeAfter (state.dir slot).size
            (writeStop (state.fildes descriptor).offset nbyte)))
          (state.fildes descriptor).offset.toInt
          (clampCount (state.fildes descriptor).offset nbyte) = .ok ())) ∧
    (tolerance .heap = false → ∀ call : Call, call.Counted → MeasuredWrites state call) := by
  obtain ⟨chart, sound, staged⟩ := session.staged fresh
  refine ⟨fun slot used => ?_, fun descriptor slot buf nbyte denotes measured => ?_, ?_⟩
  · have short := staged.short slot used
    constructor
    · rwa [sound.charted.chain_eq used]
    · apply fitted_of_short sound.active (sound.charted.chain slot used)
      rwa [numBlocks_eq (staged.sized slot used).1]
  · have measurable := measured.2 descriptor slot buf nbyte rfl denotes
    constructor
    · exact write_fitted sound staged denotes measurable nbyte
    · intro nonneg
      exact checkCopy_write (staged.sized slot denotes.used).1 nonneg measurable.2 measured.1
  · intro inside call counted
    refine ⟨counted, fun descriptor slot buf nbyte _ denotes => ?_⟩
    have within := session.inside fresh inside
    have offset := within.offset descriptor slot denotes
    have size := within.size slot denotes.used
    simp only [Measurable, maxFSize] at size ⊢
    omega

theorem stagingBuffers_firstFile : ∃ start opened, FreshMount mountOnly start ∧
    Session mountOnly MeasuredWrites start opened ∧ opened.Used 63 ∧
    Fitted opened 63 opened.fat (opened.dir 63).size := by
  obtain ⟨start, opened, _, fresh, session, -, -, denotes, -⟩ :=
    exists_firstFile (by decide : mountOnly .fildesReset = true)
  have measured : Session mountOnly MeasuredWrites start opened := by
    refine session.weaken fun _ call first => ?_
    rcases first with rfl | rfl
    · exact ⟨trivial, fun _ _ _ _ impossible => by cases impossible⟩
    · exact ⟨trivial, fun _ _ _ _ impossible => by cases impossible⟩
  exact ⟨start, opened, fresh, measured, denotes.used,
    ((stagingBuffers fresh measured).1 63 denotes.used).2⟩

/-- Cutting the new empty file to the length -4278190079 puts its descriptor at 16777217, one
behind the limit.  A write of one byte then copies 2^64 - 1 bytes. -/
theorem stagingBuffers_broken : ∃ start opened cut, FreshMount heapToo start ∧
    Session heapToo (fun _ call => call.Counted) start cut ∧
    exec heapToo (fun _ _ => 0) opened (.truncate 0 (-4278190079)) = .ok (0, cut) ∧
    Denotes cut 0 63 ∧ (cut.fildes 0).offset.toInt = 16777217 ∧
    clampCount (cut.fildes 0).offset 1 = 2 ^ 64 - 1 ∧
    checkCopy noStray
      (numBlocks (sizeAfter (cut.dir 63).size (writeStop (cut.fildes 0).offset 1)))
      (cut.fildes 0).offset.toInt (clampCount (cut.fildes 0).offset 1) =
        .error (.stray .heap) := by
  obtain ⟨start, opened, chart, fresh, session, sound, rfl, denotes, size, offset⟩ :=
    exists_firstFile (by decide : heapToo .fildesReset = true)
  obtain ⟨cut, done, dir, fildes⟩ := truncate_firstFile sound (Function.update_self _ _ _) denotes
    size offset (by decide : (-4278190079 : Int64).toInt < 0) (by decide)
  have counted : Session heapToo (fun _ call => call.Counted) start opened := by
    refine session.weaken fun _ call first => ?_
    rcases first with rfl | rfl <;> trivial
  have behind : (cut.fildes 0).offset = 16777217 := by
    rw [fildes, moved_fildes_self]
    decide
  have empty : (cut.dir 63).size = 0 := by rw [dir, size]
  have denotes' : Denotes cut 0 63 :=
    (denotes.moved 0 (Int32.ofInt (-4278190079 : Int64).toInt)).congr dir fildes
  refine ⟨start, opened, cut, fresh,
    counted.tail ⟨fun _ _ => 0, .truncate 0 (-4278190079), 0, trivial, done⟩, done, denotes', ?_⟩
  rw [behind, empty]
  decide

end EC440.FileSystem
