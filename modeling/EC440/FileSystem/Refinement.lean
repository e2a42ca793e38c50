import EC440.FileSystem.Requests

/-!
# The file system refines a store

As long as every call stays within what the code provides for, the calls reply
as those of a store of byte sequences, and the state keeps standing for that
store: reading and writing, and an induction over the calls.
-/

namespace EC440.FileSystem

open Linked Outcome Ranges

variable {tolerance : Tolerance} {garbage : Nat → Buffer} {state after start : State}
  {chart chart' : Slot → List BlockIndex} {store : Store} {slot : Slot} {descriptor : Descriptor}
  {name : CString}

/-! ## fs_read -/

theorem readOutcome_eq {size offset : Int32} {nbyte : UInt64} (lower : 0 ≤ offset.toInt)
    (upper : offset.toInt ≤ size.toInt) (limit : size.toInt ≤ maxFSize)
    (small : offset.toInt + nbyte.toNat < 2 ^ 64) :
    (readOutcome size offset nbyte).1.toInt =
        min nbyte.toNat (size.toInt.toNat - offset.toInt.toNat) ∧
      (readOutcome size offset nbyte).2.toInt =
        offset.toInt + min nbyte.toNat (size.toInt.toNat - offset.toInt.toNat) := by
  simp only [maxFSize] at limit
  have stop : toSize (offset.toInt + nbyte.toNat) = (offset.toInt + nbyte.toNat).toNat :=
    toSize_of_nonneg (by omega) small
  have length : toSize size.toInt = size.toInt.toNat := toSize_of_nonneg (by omega) (by omega)
  unfold readOutcome
  by_cases past : toSize (offset.toInt + nbyte.toNat) > toSize size.toInt
  · rw [if_pos past]
    rw [stop, length] at past
    constructor
    · change (size - offset).toInt = _
      rw [Int32.toInt_sub, Int.bmod_eq_of_le (by omega) (by omega)]
      omega
    · change size.toInt = _
      omega
  · rw [if_neg past]
    rw [stop, length] at past
    constructor
    · change (Int32.ofNat nbyte.toNat).toInt = _
      rw [Int32.toInt_ofNat_of_lt (by omega)]
      omega
    · change (Int32.ofInt (offset.toInt + nbyte.toNat)).toInt = _
      rw [toInt_ofInt_of_within (by omega) (by simp only [maxFSize]; omega)]
      omega

theorem Intact.map_loadBlocks (intact : Intact state chart) (used : state.Used slot) (buffer : Buffer)
    {offset : Int} {position : Nat} (count : Nat) (at_ : offset = position) :
    (List.range (min count ((state.content slot).length - position))).map
        (fun index : Nat => loadBlocks state.device.image (chart slot) 0 buffer (offset + index)) =
      slice (state.content slot) position count := by
  apply List.ext_getElem?
  intro index
  have covered := intact.covered slot used
  have size := FileSystem.length_content state slot
  rw [getElem?_slice, List.getElem?_map]
  by_cases inside : index < min count ((state.content slot).length - position)
  · have reached : position + index < blockSize * (chart slot).length := by omega
    obtain ⟨byte, found⟩ := fileByte_eq_some state.device.image reached
    have loaded := loadBlocks_eq 0 buffer found
    have start : offset + (index : Int) = ((0 : Nat) : Int) * blockSize + (position + index : Nat) := by
      rw [at_]
      push_cast
      ring
    rw [List.getElem?_range inside, if_pos (by omega), intact.getElem?_content used,
      if_pos (by omega), found, Option.map_some, start, loaded]
  · have beyond : (List.range (min count ((state.content slot).length - position)))[index]? = none :=
      List.getElem?_eq_none (by rw [List.length_range]; omega)
    rw [beyond, Option.map_none]
    by_cases early : index < count
    · rw [if_pos early, List.getElem?_eq_none (by omega)]
    · rw [if_neg early]

/-- A read within the staging buffer delivers the bytes up to the end of the file. -/
theorem Intact.fsRead_eq (intact : Intact state chart) (denotes : Denotes state descriptor slot)
    {nbyte : UInt64} (positive : 0 < nbyte.toNat)
    (staging : (state.position descriptor + nbyte.toNat : Int) ≤
      blockSize * numBlocks (state.dir slot).size) :
    ∃ code offset,
      state.answer tolerance garbage (.read descriptor.val nbyte) =
        .ok (⟨(slice (state.content slot) (state.position descriptor) nbyte.toNat).length,
          slice (state.content slot) (state.position descriptor) nbyte.toNat⟩,
          state.moved descriptor offset) ∧
      Effect state chart (.read descriptor.val nbyte) code (state.moved descriptor offset) chart ∧
      offset.toInt = state.position descriptor +
        (slice (state.content slot) (state.position descriptor) nbyte.toNat).length := by
  obtain ⟨sizeNonneg, sizeWithin⟩ := intact.within.size slot denotes.used
  obtain ⟨lower, upper⟩ := intact.within.offset descriptor slot denotes
  have position := intact.position_eq denotes
  have blocks := numBlocks_eq sizeNonneg
  have passed : checkTransfer tolerance (numBlocks (state.dir slot).size) (chart slot).length
      (state.fildes descriptor).offset.toInt nbyte.toNat = .ok () := by
    have fits : Fits tolerance (numBlocks (state.dir slot).size) 0 (chart slot).length := by
      refine .inr (.inl ?_)
      rw [blocks]
      simpa using intact.short slot denotes.used
    rw [checkTransfer, if_pos fits, checkCopy, if_pos ⟨lower, by rw [← position]; exact staging⟩]
  have small : (state.fildes descriptor).offset.toInt + nbyte.toNat < 2 ^ 64 := by
    rw [← position]
    rw [blocks] at staging
    simp only [maxFSize] at sizeWithin
    simp only [blockSize] at staging
    omega
  obtain ⟨code, offset⟩ := readOutcome_eq lower upper sizeWithin small
  have count : min nbyte.toNat ((state.dir slot).size.toInt.toNat -
      (state.fildes descriptor).offset.toInt.toNat) =
        (slice (state.content slot) (state.position descriptor) nbyte.toNat).length := by
    rw [length_slice, FileSystem.length_content, State.position]
  rw [count] at code offset
  have data := intact.map_loadBlocks denotes.used (garbage 0) nbyte.toNat position.symm
  rw [← length_slice] at data
  have done := fsRead_open tolerance intact.sound denotes garbage positive
  rw [passed] at done
  refine ⟨_, _, ?_, .read denotes, ?_⟩
  · simp only [State.answer, done, bind, Except.bind, code, Int.toNat_natCast, data]
  · rw [offset, position]

theorem read_agrees (intact : Intact state chart) (stands : StandsFor state store)
    (descriptor : Descriptor) (nbyte : UInt64)
    (provided : ∀ slot, Denotes state descriptor slot →
      (state.position descriptor + nbyte.toNat : Int) ≤ blockSize * numBlocks (state.dir slot).size) :
    Agrees tolerance garbage state store (.read descriptor.val nbyte) := by
  by_cases isOpen : state.Open descriptor
  · obtain ⟨slot, denotes⟩ := intact.sound.denoted isOpen
    by_cases zero : nbyte = 0
    · have responds : store.respond (.read descriptor.val nbyte) = (.only (-1), store) := by
        simp only [Store.respond, stands.held?_eq denotes, if_pos zero]
      have none : nbyte.toNat ≤ 0 := by
        rw [zero]
        rfl
      refine .of_eq responds ?_ intact stands
      simp only [State.answer, fsRead_zero denotes garbage none, bind, Except.bind]
      rfl
    · have positive : 0 < nbyte.toNat := by
        apply Nat.pos_of_ne_zero
        intro none
        exact zero (UInt64.toNat_inj.mp none)
      obtain ⟨code, offset, done, effect, moved⟩ :=
        intact.fsRead_eq denotes positive (provided slot denotes)
      have inside : state.position descriptor + (slice (stands.held denotes).content
          (state.position descriptor) nbyte.toNat).length ≤ (stands.held denotes).content.length := by
        have position := (stands.held denotes).position_le
        rw [length_slice]
        change state.position descriptor ≤ _ at position
        omega
      have responds : store.respond (.read descriptor.val nbyte) =
          (⟨(slice (state.content slot) (state.position descriptor) nbyte.toNat).length,
            slice (state.content slot) (state.position descriptor) nbyte.toNat⟩,
            (stands.held denotes).move _ inside) := by
        simp only [Store.respond, stands.held?_eq denotes, if_neg zero, stands.content_eq denotes]
        rfl
      refine .of_eq responds done
        (intact.grow effect ⟨trivial, fun _ _ _ _ same => by cases same⟩) ?_
      apply stands.moved intact.sound denotes effect (fun _ => id) (fun _ => by simp)
      rw [moved, stands.content_eq denotes]
      omega
  · have responds : store.respond (.read descriptor.val nbyte) = (.only (-1), store) := by
      simp only [Store.respond, stands.held?_eq_none isOpen]
    refine .of_eq responds ?_ intact stands
    simp only [State.answer, fsRead_closed isOpen, bind, Except.bind]
    rfl

/-! ## fs_write -/

def State.accepted (state : State) (descriptor : Descriptor) (nbyte : UInt64) : Nat :=
  min nbyte.toNat (maxFSize - state.position descriptor)

theorem Intact.clampCount_eq (intact : Intact state chart) (denotes : Denotes state descriptor slot)
    {nbyte : UInt64} (small : state.position descriptor + nbyte.toNat < 2 ^ 64) :
    clampCount (state.fildes descriptor).offset nbyte = state.accepted descriptor nbyte := by
  obtain ⟨lower, upper⟩ := intact.within.offset descriptor slot denotes
  have limit := (intact.within.size slot denotes.used).2
  have position := intact.position_eq denotes
  have stop : toSize ((state.fildes descriptor).offset.toInt + nbyte.toNat) =
      ((state.fildes descriptor).offset.toInt + nbyte.toNat).toNat :=
    toSize_of_nonneg (by omega) (by omega)
  unfold clampCount State.accepted
  by_cases large : toSize ((state.fildes descriptor).offset.toInt + nbyte.toNat) > maxFSize
  · have rest : (Int32.ofInt ((maxFSize : Int) - (state.fildes descriptor).offset.toInt)).toInt =
        maxFSize - (state.fildes descriptor).offset.toInt :=
      toInt_ofInt_of_within (by omega) (by omega)
    rw [if_pos large, rest, toSize_of_nonneg (by omega) (by simp only [maxFSize]; omega)]
    omega
  · rw [if_neg large]
    omega

/-- `fs_write` looks at the number of bytes only through the test against the size limit. -/
theorem fsWrite_congr {nbyte nbyte' : UInt64} (garbage : Nat → Buffer) (buf : Nat → UInt8)
    (same : clampCount (state.fildes descriptor).offset nbyte =
      clampCount (state.fildes descriptor).offset nbyte') :
    fsWrite tolerance garbage state descriptor.val buf nbyte =
      fsWrite tolerance garbage state descriptor.val buf nbyte' := by
  unfold fsWrite
  simp only [fildesAt_val, bind, Except.bind, same]

theorem Intact.written_content (intact : Intact state chart) (denotes : Denotes state descriptor slot)
    {buf : Nat → UInt8} {nbyte : UInt64} {fat : Fat} {added : List BlockIndex}
    (intact' : Intact (state.written garbage slot descriptor buf nbyte fat (chart slot ++ added))
      (Function.update chart slot (chart slot ++ added)))
    (within : (state.fildes descriptor).offset.toInt + nbyte.toNat ≤ maxFSize) :
    (state.written garbage slot descriptor buf nbyte fat (chart slot ++ added)).content slot =
      overwrite (state.content slot) (state.position descriptor)
        ((List.range nbyte.toNat).map buf) := by
  have ends := writeEnds intact.fitting denotes within
  have position := intact.position_eq denotes
  have length := FileSystem.length_content state slot
  have inside : state.position descriptor ≤ (state.content slot).length := by
    have upper := ends.inside
    omega
  have used : (state.written garbage slot descriptor buf nbyte fat (chart slot ++ added)).Used slot :=
    written_used.mpr denotes.used
  have size := ends.size
  have covered := intact'.covered slot used
  have nodup := intact'.sound.charted.nodup slot
  rw [Function.update_self] at covered nodup
  rw [written_size, size] at covered
  apply List.ext_getElem?
  intro index
  rw [intact'.getElem?_content used, getElem?_overwrite inside, written_size, size,
    Function.update_self, List.length_map, List.length_range]
  have image : (state.written garbage slot descriptor buf nbyte fat
      (chart slot ++ added)).device.image =
        storeBlocks (writeBuffer state.device.image (chart slot ++ added) (garbage 0)
          (fun index => buf index.toNat) (state.position descriptor) nbyte.toNat)
          (chart slot ++ added) 0 state.device.image := by
    simp only [State.written, State.stored, ends.start, ends.count]
  by_cases beyond : index < (max (state.dir slot).size.toInt
      (state.position descriptor + nbyte.toNat : Nat)).toNat
  · have old := intact.covered slot denotes.used
    rw [if_pos beyond, image, fileByte_stored nodup (by omega) (fun _ => by omega)]
    by_cases new : state.position descriptor ≤ index ∧
        index < state.position descriptor + nbyte.toNat
    · rw [if_pos new, if_pos new, List.getElem?_map, List.getElem?_range (by omega),
        Option.map_some]
    · rw [if_neg new, if_neg new, intact.getElem?_content denotes.used, if_pos (by omega)]
  · rw [if_neg beyond, if_neg (by omega), List.getElem?_eq_none (by omega)]

/-- A write is one of the bytes that the size limit leaves of it, and succeeds. -/
theorem Intact.fsWrite_eq (intact : Intact state chart) (denotes : Denotes state descriptor slot)
    (buf : Nat → UInt8) {nbyte : UInt64} (small : state.position descriptor + nbyte.toNat < 2 ^ 64)
    (extensible : state.Extensible slot (state.stop descriptor nbyte))
    (room : state.Room slot (state.newSize slot (state.stop descriptor nbyte))) :
    ∃ (count : UInt64) (fat : Fat) (added : List BlockIndex),
      count.toNat = state.accepted descriptor nbyte ∧
      (state.fildes descriptor).offset.toInt + count.toNat ≤ maxFSize ∧
      fsWrite tolerance garbage state descriptor.val buf nbyte = .ok (Int32.ofNat count.toNat,
        state.written garbage slot descriptor buf count fat (chart slot ++ added)) ∧
      Effect state chart (.write descriptor.val buf count)
        (Int32.ofNat (clampCount (state.fildes descriptor).offset count))
        (state.written garbage slot descriptor buf count fat (chart slot ++ added))
        (Function.update chart slot (chart slot ++ added)) ∧
      Intact (state.written garbage slot descriptor buf count fat (chart slot ++ added))
        (Function.update chart slot (chart slot ++ added)) := by
  have upper := (intact.within.offset descriptor slot denotes).2
  have limit := (intact.within.size slot denotes.used).2
  have position := intact.position_eq denotes
  have clamped := intact.clampCount_eq denotes small
  obtain ⟨count, counted⟩ : ∃ count : UInt64, count.toNat = state.accepted descriptor nbyte := by
    refine ⟨UInt64.ofNat (state.accepted descriptor nbyte), UInt64.toNat_ofNat_of_lt' ?_⟩
    exact lt_of_le_of_lt (min_le_left _ _) nbyte.toNat_lt
  have within : (state.fildes descriptor).offset.toInt + count.toNat ≤ maxFSize := by
    rw [counted, State.accepted]
    omega
  have ends := writeEnds intact.fitting denotes within
  have stop : writeStop (state.fildes descriptor).offset count = state.stop descriptor nbyte := by
    rw [ends.stop, counted, State.accepted, State.stop]
    omega
  obtain ⟨added, fat, extended, length, done⟩ :=
    fsWrite_within tolerance intact.sound intact.fitting denotes garbage buf within
  rw [← fsWrite_congr garbage buf (clamped.trans (counted.symm.trans ends.count.symm))] at done
  have effect : Effect state chart (.write descriptor.val buf count) _
      (state.written garbage slot descriptor buf count fat (chart slot ++ added)) _ :=
    .written garbage denotes extended length
  have extending : Extending state (.write descriptor.val buf count) := by
    refine ⟨trivial, ?_⟩
    rintro other target buf' nbyte' same denotes'
    injection same with sameFildes _ sameCount
    obtain rfl : descriptor = other := Fin.ext (by exact_mod_cast sameFildes)
    obtain rfl := denotes'.unique intact.sound denotes
    rw [← sameCount, stop]
    exact ⟨extensible, room⟩
  exact ⟨count, fat, added, counted, within, done, effect, intact.grow effect extending⟩

theorem StandsFor.written (stands : StandsFor state store) (intact : Intact state chart)
    (denotes : Denotes state descriptor slot) {buf : Nat → UInt8} {count : UInt64} {fat : Fat}
    {code : Int32} {added : List BlockIndex} {data : List UInt8}
    (intact' : Intact (state.written garbage slot descriptor buf count fat (chart slot ++ added))
      (Function.update chart slot (chart slot ++ added)))
    (effect : Effect state chart (.write descriptor.val buf count) code
      (state.written garbage slot descriptor buf count fat (chart slot ++ added))
      (Function.update chart slot (chart slot ++ added)))
    (within : (state.fildes descriptor).offset.toInt + count.toNat ≤ maxFSize)
    (accepted : (stands.held denotes).accepted data = (List.range count.toNat).map buf) :
    StandsFor (state.written garbage slot descriptor buf count fat (chart slot ++ added))
      ((stands.held denotes).write data) := by
  have sound := intact.sound
  have denotes' := (effect.attached denotes (by simp)).denotes
  have named : ((state.written garbage slot descriptor buf count fat
      (chart slot ++ added)).dir slot).name.text = (state.dir slot).name.text := by
    rw [(effect.attached denotes (by simp)).name]
  constructor
  · have holds := stands.files.set (fun other distinct => ?_) denotes'.used (fun _ => named.symm)
      fun other distinct used same =>
        distinct (sound.distinctNames other slot used denotes.used (same.trans named))
    · rw [named, intact.written_content denotes intact' within, ← accepted,
        ← stands.content_eq denotes] at holds
      exact holds
    · refine .of_effect sound effect ?_ written_used.mp
      rintro ⟨reader, same, reads⟩
      obtain rfl : descriptor = reader := Fin.ext (by exact_mod_cast same)
      exact distinct (reads.unique sound denotes)
  · have holds := stands.handles.place intact'.sound
      (fun other distinct => .of_effect sound effect (by simp) (written_fildes_of_ne distinct))
      denotes'
    have length : ((stands.held denotes).accepted data).length = count.toNat := by
      rw [accepted, List.length_map, List.length_range]
    rw [State.handle, named, written_position intact.fitting denotes garbage buf fat _ within,
      ← length] at holds
    exact holds

theorem write_agrees (intact : Intact state chart) (stands : StandsFor state store)
    (descriptor : Descriptor) (buf : Nat → UInt8) (nbyte : UInt64)
    (provided : ∀ slot, Denotes state descriptor slot →
      state.position descriptor + nbyte.toNat < 2 ^ 64 ∧
      state.Extensible slot (state.stop descriptor nbyte) ∧
      state.Room slot (state.newSize slot (state.stop descriptor nbyte))) :
    Agrees tolerance garbage state store (.write descriptor.val buf nbyte) := by
  by_cases isOpen : state.Open descriptor
  · obtain ⟨slot, denotes⟩ := intact.sound.denoted isOpen
    obtain ⟨small, extensible, room⟩ := provided slot denotes
    obtain ⟨count, fat, added, counted, within, done, effect, intact'⟩ :=
      intact.fsWrite_eq denotes buf small extensible room
    have accepted : (stands.held denotes).accepted ((List.range nbyte.toNat).map buf) =
        (List.range count.toNat).map buf := by
      change ((List.range nbyte.toNat).map buf).take (maxFSize - state.position descriptor) = _
      rw [← List.map_take, List.take_range, counted, State.accepted, min_comm]
    have length : ((stands.held denotes).accepted ((List.range nbyte.toNat).map buf)).length =
        count.toNat := by
      rw [accepted, List.length_map, List.length_range]
    have code : (Int32.ofNat count.toNat).toInt = count.toNat := by
      have lower := (intact.within.offset descriptor slot denotes).1
      apply Int32.toInt_ofNat_of_lt
      simp only [maxFSize] at within
      omega
    have responds : store.respond (.write descriptor.val buf nbyte) =
        (.only (Int32.ofNat count.toNat).toInt,
          (stands.held denotes).write ((List.range nbyte.toNat).map buf)) := by
      simp only [Store.respond, stands.held?_eq denotes, length, code]
    exact .of_eq responds (coded_ok done) intact'
      (stands.written intact denotes intact' effect within accepted)
  · refine .of_eq ?_ (coded_refused (fsWrite_closed isOpen garbage buf nbyte)) intact stands
    simp only [Store.respond, stands.held?_eq_none isOpen]

/-! ## Runs -/

/-- A request, and what the calls to `malloc` find in memory while it is answered. -/
structure Turn where
  request : Store.Request
  garbage : Nat → Buffer

def State.play (tolerance : Tolerance) : State → List Turn → Outcome (List Store.Reply × State)
  | state, [] => .ok ([], state)
  | state, turn :: rest => do
      let (reply, after) ← state.answer tolerance turn.garbage turn.request
      let (replies, final) ← after.play tolerance rest
      .ok (reply :: replies, final)

def State.ProvidesAll (tolerance : Tolerance) : State → List Turn → Prop
  | _, [] => True
  | state, turn :: rest =>
      state.Provides turn.request ∧
        ∀ reply after, state.answer tolerance turn.garbage turn.request = .ok (reply, after) →
          after.ProvidesAll tolerance rest

theorem answer_agrees (garbage : Nat → Buffer) (peeks : Peeks tolerance)
    (intact : Intact state chart) (stands : StandsFor state store) {request : Store.Request}
    (provided : state.Provides request) :
    Agrees tolerance garbage state store request := by
  cases request with
  | create name => exact create_agrees intact stands provided
  | opens name => exact opens_agrees peeks intact stands
  | close fildesI =>
      obtain ⟨descriptor, rfl⟩ := provided
      exact close_agrees intact stands descriptor
  | delete name => exact delete_agrees peeks intact stands provided
  | read fildesI nbyte =>
      obtain ⟨descriptor, rfl, staging⟩ := provided
      exact read_agrees intact stands descriptor nbyte staging
  | write fildesI buf nbyte =>
      obtain ⟨descriptor, rfl, extensible⟩ := provided
      exact write_agrees intact stands descriptor buf nbyte extensible
  | lseek fildesI offset =>
      obtain ⟨descriptor, rfl⟩ := provided
      exact lseek_agrees intact stands descriptor offset
  | getFilesize fildesI =>
      obtain ⟨descriptor, rfl⟩ := provided
      exact getFilesize_agrees intact stands descriptor

/-- Any requests from a state that stands for a store. -/
theorem StandsFor.play (peeks : Peeks tolerance) (intact : Intact state chart)
    (stands : StandsFor state store) {turns : List Turn}
    (provided : state.ProvidesAll tolerance turns) :
    ∃ final chart', state.play tolerance turns =
        .ok ((store.play (turns.map Turn.request)).1, final) ∧
      Intact final chart' ∧ StandsFor final (store.play (turns.map Turn.request)).2 := by
  induction turns generalizing state chart store with
  | nil => exact ⟨state, chart, rfl, intact, stands⟩
  | cons turn rest inductionHypothesis =>
      obtain ⟨after, chart', done, intact', stands'⟩ :=
        answer_agrees turn.garbage peeks intact stands provided.1
      obtain ⟨final, chart'', run, intact'', stands''⟩ :=
        inductionHypothesis intact' stands' (provided.2 _ _ done)
      refine ⟨final, chart'', ?_, intact'', stands''⟩
      simp only [State.play, done, run, bind, Except.bind, List.map_cons, Store.play]

theorem FreshMount.intact (fresh : FreshMount tolerance start) : ∃ chart, Intact start chart := by
  obtain ⟨chart, sound, fitting⟩ := fresh.grown
  exact ⟨chart, .of_fitting sound fitting fun slot used => absurd used (fresh.unused slot)⟩

theorem FreshMount.standsFor (fresh : FreshMount tolerance start) : StandsFor start .empty where
  files name content := by
    constructor
    · intro found
      cases found
    · rintro ⟨slot, used, -⟩
      exact absurd used (fresh.unused slot)
  handles descriptor handle := by
    constructor
    · intro found
      cases found
    · rintro ⟨slot, denotes, -⟩
      exact absurd denotes.used (fresh.unused slot)

/-- From a fresh file system on, any requests that the code provides for are answered as by a
store that was empty, and at the end the files and the descriptors are those of the store. -/
theorem fileSystem_refines (peeks : Peeks tolerance) (fresh : FreshMount tolerance start)
    (turns : List Turn) (provided : start.ProvidesAll tolerance turns) :
    ∃ final, start.play tolerance turns =
        .ok ((Store.empty.play (turns.map Turn.request)).1, final) ∧
      StandsFor final (Store.empty.play (turns.map Turn.request)).2 := by
  obtain ⟨chart, intact⟩ := fresh.intact
  obtain ⟨final, -, run, -, stands⟩ := fresh.standsFor.play peeks intact provided
  exact ⟨final, run, stands⟩

end EC440.FileSystem
