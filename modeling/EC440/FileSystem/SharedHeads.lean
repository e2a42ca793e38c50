import EC440.FileSystem.FullDisk
import EC440.FileSystem.Remounting

/-!
# Files with one head

An open descriptor finds its file by the number of the head block.  As long as the chains of all
files end and do not meet, this number stands for one file.  `umount_fs` can store a disk that
comes back with a block marked free although a file begins with it.
-/

namespace EC440.FileSystem

open Linked Outcome

variable {tolerance : Tolerance} {state after start : State} {chart chart' : Slot → List BlockIndex}
  {call : Call} {code : Int32} {fat : Fat}

/-! ## The order of blocks -/

/-- All data blocks behind a free one are free. -/
def Compact (fat : Fat) : Prop :=
  ∀ free ∈ freeBlocks fat, ∀ block : BlockIndex, free < block → fat block = 0

/-- The number of free blocks says which ones they are. -/
theorem Compact.zero_iff (compact : Compact fat) {block : BlockIndex}
    (data : dataStart ≤ block.val) :
    fat block = 0 ↔ diskBlocks ≤ block.val + (freeBlocks fat).card := by
  have inside := block.isLt
  constructor
  · intro zero
    have behind : Finset.Ici block ⊆ freeBlocks fat := by
      intro other above
      rcases (Finset.mem_Ici.mp above).eq_or_lt with rfl | less
      · exact mem_freeBlocks.mpr ⟨data, zero⟩
      · refine mem_freeBlocks.mpr ⟨data.trans (le_of_lt less), ?_⟩
        exact compact block (mem_freeBlocks.mpr ⟨data, zero⟩) other less
    have count := Finset.card_le_card behind
    rw [Fin.card_Ici] at count
    omega
  · intro enough
    by_contra nonzero
    have behind : freeBlocks fat ⊆ Finset.Ioi block := by
      intro other isFree
      rw [Finset.mem_Ioi]
      rcases lt_trichotomy other block with before | rfl | less
      · exact absurd (compact other isFree block before) nonzero
      · exact absurd (mem_freeBlocks.mp isFree).2 nonzero
      · exact less
    have count := Finset.card_le_card behind
    rw [Fin.card_Ioi] at count
    omega

theorem Compact.take {fat' : Fat} {own taken : List BlockIndex} (compact : Compact fat)
    (firstFit : FirstFit fat taken) (occupied : ∀ block ∈ own, fat block ≠ 0)
    (used : ∀ block, block ∈ own ∨ block ∈ taken → fat' block ≠ 0)
    (frame : ∀ block, block ∉ own → block ∉ taken → fat' block = fat block) : Compact fat' := by
  intro free isFree block behind
  obtain ⟨data, zero⟩ := mem_freeBlocks.mp isFree
  have notOwn : free ∉ own := fun membership => used free (.inl membership) zero
  have notTaken : free ∉ taken := fun membership => used free (.inr membership) zero
  rw [frame free notOwn notTaken] at zero
  have wasFree : free ∈ freeBlocks fat := mem_freeBlocks.mpr ⟨data, zero⟩
  have zeroBlock := compact free wasFree block behind
  rw [frame block, zeroBlock]
  · exact fun membership => occupied block membership zeroBlock
  · exact fun membership => lt_asymm behind (firstFit free wasFree notTaken block membership)

theorem Effect.compact (effect : Effect state chart call code after chart')
    (sound : Sound state chart) (compact : Compact state.fat) (grows : call.Grows) :
    Compact after.fat := by
  have charted := (effect.sound sound).charted
  cases effect with
  | idle | opened | closed | sought | read => exact compact
  | deleted | truncated => exact grows.elim
  | @created slot fresh _ _ _ _ _ firstFit =>
      have nothing : ∀ block ∈ ([] : List BlockIndex), state.fat block ≠ 0 := by simp
      refine compact.take firstFit nothing ?_ fun block _ absent => ?_
      · rintro block (membership | membership)
        · cases membership
        · have inChart : block ∈ Function.update chart slot [fresh] slot := by
            rwa [Function.update_self]
          exact charted.ne_zero inChart
      · exact Function.update_of_ne (by simpa using absent) ..
  | @written slot _ _ _ added _ _ _ extended =>
      refine compact.take extended.firstFit (fun _ => sound.charted.ne_zero) ?_ extended.frame
      intro block membership
      have inChart : block ∈ Function.update chart slot (chart slot ++ added) slot := by
        rw [Function.update_self]
        exact List.mem_append.mpr membership
      exact charted.ne_zero inChart

theorem Session.compact (session : Session tolerance (fun _ call => call.Grows) start state)
    (sound : ∃ chart, Sound start chart) (compact : Compact start.fat) : Compact state.fat := by
  refine (invariant_of_reachable
    (fun state => (∃ chart, Sound state chart) ∧ Compact state.fat) ?_ ⟨sound, compact⟩ session).2
  rintro before after ⟨⟨chart, sound⟩, compact⟩ ⟨garbage, call, code, grows, done⟩
  obtain ⟨chart', effect⟩ := exec_effect sound done
  exact ⟨⟨chart', effect.sound sound⟩, effect.compact sound compact grows⟩

theorem FirstFit.eq_first {fresh first : BlockIndex} (firstFit : FirstFit fat [fresh])
    (free : first ∈ freeBlocks fat) (least : first ≤ fresh) : fresh = first := by
  by_contra other
  have less := firstFit first free (by simpa using Ne.symm other) fresh List.mem_cons_self
  exact absurd less (not_lt.mpr least)

/-! ## Descriptors of a session -/

/-- In every state of a session that starts without open descriptors and with chains that end and
do not meet, an open descriptor belongs to exactly one entry, and the reference counts are the
numbers of open descriptors.  A file with an open descriptor is not deleted; until it is closed, a
descriptor stays with the entry, the name and the head that `fs_open` gave it, and `fs_close` takes
back the reference that `fs_open` added. -/
theorem descriptors_accounted {start : State} {allowed : State → Call → Prop}
    (begin_ : ChainedStart start) (session : Session tolerance allowed start state) :
    (∀ descriptor, state.Open descriptor → ∃! slot,
      (state.dir slot).head = (state.fildes descriptor).file ∧ state.Used slot) ∧
    (∀ slot, state.Used slot →
      (state.dir slot).refCnt.toInt = state.openCount (state.dir slot).head) ∧
    (∀ garbage name code after, exec tolerance garbage state (.delete name) = .ok (code, after) →
      ∀ slot, state.Used slot → ¬after.Used slot →
        ∀ descriptor, state.Open descriptor →
          (state.fildes descriptor).file ≠ (state.dir slot).head) ∧
    ∀ name (descriptor : Descriptor) opened,
      fsOpen tolerance state name = .ok (Int32.ofNat descriptor.val, opened) →
      ∃ slot, state.Used slot ∧ (state.dir slot).name.Matches name ∧
        opened.dir = Function.update state.dir slot
          { state.dir slot with refCnt := (state.dir slot).refCnt + 1 } ∧
        ∀ later,
          Session tolerance (fun _ call => call ≠ .close descriptor.val) opened later →
          Attached opened later descriptor slot ∧
          fsClose tolerance later descriptor.val =
            .ok (0, later.closed slot descriptor) ∧
          (later.closed slot descriptor).dir = Function.update later.dir slot
            { later.dir slot with refCnt := (later.dir slot).refCnt - 1 } := by
  obtain ⟨chart, sound⟩ := session.sound ⟨_, begin_.sound⟩
  refine ⟨?_, ?_, ?_, ?_⟩
  · intro descriptor isOpen
    obtain ⟨slot, denotes⟩ := sound.denoted isOpen
    refine ⟨slot, ⟨denotes.head, denotes.used⟩, ?_⟩
    rintro other ⟨head, used⟩
    exact Denotes.unique sound ⟨isOpen, used, head⟩ denotes
  · exact fun slot used => sound.counted_toInt used
  · intro garbage name code after done slot used gone descriptor isOpen file
    obtain ⟨chart', effect⟩ := exec_effect sound done
    exact gone (effect.attached ⟨isOpen, used, file.symm⟩ (by simp)).denotes.used
  · intro name descriptor opened done
    obtain ⟨slot, used, named, closed, rfl⟩ := fsOpen_descriptor done
    refine ⟨slot, used, named, rfl, fun later run => ?_⟩
    have soundOpened : Sound (state.opened slot descriptor) chart := sound.opened used closed
    have attached := Session.attached run ⟨chart, soundOpened⟩ (opened_denotes state used)
    obtain ⟨chart', soundLater⟩ := Session.sound run ⟨chart, soundOpened⟩
    exact ⟨attached, fsClose_open soundLater attached.denotes, rfl⟩

theorem descriptors_accounted_firstFile : ∃ start opened, FreshMount mountOnly start ∧
    Session mountOnly (fun _ _ => True) start opened ∧ opened.Used 63 ∧
    (opened.dir 63).refCnt.toInt = opened.openCount (opened.dir 63).head := by
  obtain ⟨start, opened, _, fresh, session, -, -, denotes, -⟩ :=
    exists_firstFile (by decide : mountOnly .fildesReset = true)
  exact ⟨start, opened, fresh, session.weaken fun _ _ _ => trivial, denotes.used,
    (descriptors_accounted fresh.start.chainedStart session).2.1 63 denotes.used⟩

/-! ## Two files with one head -/

/-- The second file of a session begins with the first block of the second FAT page, behind a
first file that takes all blocks in front of it.  All descriptors are closed. -/
theorem exists_secondPage : ∃ start state slot, FreshMount mountOnly start ∧
    Session mountOnly (fun _ _ => True) start state ∧ Stocked state [secondName, fileName] ∧
    (∀ descriptor, ¬state.Open descriptor) ∧ state.Used slot ∧
    (state.dir slot).head = fatNaming.ref 1024 ∧
    ∀ block : BlockIndex, dataStart ≤ block.val → block.val < 1024 → state.fat block ≠ 0 := by
  obtain ⟨start, fresh, -, zero, -⟩ := exists_freshMount (by decide : mountOnly .fildesReset = true)
  obtain ⟨chart, sound, fitting⟩ := fresh.grown
  have free := fresh.freeCount
  obtain ⟨opened, chart1, descriptor, slot1, session1, newFile, stocked1, free1⟩ :=
    exists_newFile mountOnly fileName sound fitting fresh.stocked (by decide)
      (by omega) (by decide) (by decide) (by simp)
  obtain ⟨written, chart2, session2, sound2, -, denotes, stocked2, free2, -⟩ :=
    newFile.written mountOnly stocked1 (by decide : (4149248 : UInt64).toNat ≤ maxFSize)
  have grown : Session mountOnly (fun _ call => call.Grows) start written :=
    session1.trans session2
  have compact : Compact written.fat := by
    refine grown.compact ⟨chart, sound⟩ fun _ _ block _ => ?_
    rw [zero]
  have free_iff {block : BlockIndex} (data : dataStart ≤ block.val) :
      written.fat block = 0 ↔ 1024 ≤ block.val := by
    have count : (freeBlocks written.fat).card = 7168 := by
      change written.freeCount = 7168
      have blocks : (4149248 : UInt64).toNat / blockSize = 1013 := rfl
      omega
    rw [compact.zero_iff data, count]
    simp only [diskBlocks]
    omega
  -- the first file is closed, and the second one created
  have closes : fsClose mountOnly written descriptor.val =
      .ok (0, written.closed slot1 descriptor) := fsClose_open sound2 denotes
  obtain ⟨stocked3, closed⟩ : Stocked (written.closed slot1 descriptor) [fileName] ∧
      ∀ other, ¬(written.closed slot1 descriptor).Open other := stocked2.closed denotes.isOpen
  have sound3 := sound2.closed denotes.used denotes.isOpen denotes.head
  have admits : (written.closed slot1 descriptor).Admits secondName :=
    stocked3.admits sound3.distinguished (by decide) (by decide) (by decide) (by decide)
  rcases fsCreate_admitted sound3.superBlock sound3.distinguished admits with
    ⟨slot, block, unused, isFree, firstFit, creates⟩ | ⟨none, -⟩
  · have first : (1024 : BlockIndex) ∈ freeBlocks (written.closed slot1 descriptor).fat :=
      mem_freeBlocks.mpr ⟨by decide, (free_iff (by decide)).mpr (by decide)⟩
    obtain rfl : block = 1024 := by
      refine firstFit.eq_first first ?_
      obtain ⟨data, isZero⟩ := mem_freeBlocks.mp isFree
      exact (free_iff data).mp isZero
    have named : (((written.closed slot1 descriptor).created slot 1024 secondName).dir
        slot).name.Matches secondName := by
      have text := NameField.text_strcpy ((written.closed slot1 descriptor).dir slot).name
        secondName (by decide)
      simpa [State.created, NameField.Matches] using text
    have steps : Session mountOnly (fun _ _ => True) written
        ((written.closed slot1 descriptor).created slot 1024 secondName) :=
      (Relation.ReflTransGen.single
        ⟨fun _ _ => 0, .close descriptor.val, 0, trivial, closes⟩).tail
          ⟨fun _ _ => 0, .create secondName, 0, trivial, creates⟩
    refine ⟨start, _, slot, fresh,
      (grown.weaken fun _ _ _ => trivial).trans steps,
      stocked3.created named, closed, ?_, ?_, fun block data small => ?_⟩
    · simp [State.Used, State.created]
    · simp [State.created]
    · have other : block ≠ 1024 := by
        rintro rfl
        exact absurd small (by decide)
      change Function.update written.fat 1024 (-1) block ≠ 0
      rw [Function.update_of_ne other, ne_eq, free_iff data]
      omega
  · have first : (1024 : BlockIndex) ∈ freeBlocks (written.closed slot1 descriptor).fat :=
      mem_freeBlocks.mpr ⟨by decide, (free_iff (by decide)).mpr (by decide)⟩
    rw [none] at first
    cases first

/-- The disk of `exists_secondPage` is unmounted and mounted again.  Block 1024 is marked free now,
and a third file is created with it.  The descriptor that opens this file belongs to two. -/
theorem descriptors_shared : ∃ start state unmounted remounted later descriptor,
    FreshMount mountOnly start ∧ Session mountOnly (fun _ _ => True) start state ∧
    umountFs mountOnly (fun _ _ => 0) state = .ok (0, unmounted) ∧
    mountFs mountOnly (fun _ _ => 0) unmounted = .ok (0, remounted) ∧
    (∀ slot, (remounted.dir slot).refCnt = 0) ∧ (∀ descriptor, ¬remounted.Open descriptor) ∧
    Session mountOnly (fun _ _ => True) remounted later ∧ later.Open descriptor ∧
    ¬∃! slot, (later.dir slot).head = (later.fildes descriptor).file ∧ later.Used slot := by
  obtain ⟨start, state, slot, fresh, session, stocked, closed, used, head, occupied⟩ :=
    exists_secondPage
  obtain ⟨chart, sound⟩ := session.sound fresh.start.sound
  have mounted := session.mounted fresh.start.sound fresh.mounted.1
  obtain ⟨unmounts, mounts⟩ := umount_mount mounted fresh.mounted.2 (fun _ _ => 0) fun _ _ => 0
  have unreferenced : ∀ slot, (state.dir slot).refCnt = 0 := by
    intro other
    by_cases isUsed : state.Used other
    · exact sound.unreferenced_iff.mpr closed other isUsed
    · exact sound.unusedCount other isUsed
  have admits : state.Admits thirdName :=
    stocked.admits sound.distinguished (by decide) (by decide) (by decide) (by decide)
  have admits' : (state.remounted fun _ _ => 0).Admits thirdName :=
    ⟨admits.nonempty, admits.short, admits.new, admits.room⟩
  have distinguished : Distinguished (state.remounted fun _ _ => 0).dir := sound.distinguished
  have first : (1024 : BlockIndex) ∈ freeBlocks (state.remounted fun _ _ => 0).fat := by
    refine mem_freeBlocks.mpr ⟨by decide, ?_⟩
    have page : firstPage 1024 = 0 := by decide
    change state.fat (firstPage 1024) = 0
    rw [page]
    exact sound.charted.reserved 0 (by decide)
  rcases fsCreate_admitted rfl distinguished admits' with
    ⟨third, block, unused, isFree, firstFit, creates⟩ | ⟨none, -⟩
  · obtain rfl : block = 1024 := by
      refine firstFit.eq_first first ?_
      by_contra before
      obtain ⟨data, zero⟩ := mem_freeBlocks.mp isFree
      have small : block.val < 1024 := not_le.mp before
      change state.fat (firstPage block) = 0 at zero
      rw [firstPage_of_lt small] at zero
      exact occupied block data small zero
    have distinct : slot ≠ third := fun same => unused (same ▸ used)
    have text := NameField.text_strcpy ((state.remounted fun _ _ => 0).dir third).name thirdName
      (by decide)
    have named : (((state.remounted fun _ _ => 0).created third 1024 thirdName).dir
        third).name.Matches thirdName := by
      simpa [State.created, NameField.Matches] using text
    have usedThird : ((state.remounted fun _ _ => 0).created third 1024 thirdName).Used third := by
      simp [State.Used, State.created]
    obtain ⟨descriptor, -, opens⟩ := fsOpen_ok mountOnly
      (distinguished.create (not_not.mp unused) (by decide : (1 : Int32) ≠ 0) text
        (admits.unmatched sound.distinguished)) usedThird named ⟨0, remounted_closed _ state 0⟩
    have denotes : Denotes (((state.remounted fun _ _ => 0).created third 1024 thirdName).opened
        third descriptor) descriptor third := opened_denotes _ usedThird
    refine ⟨start, state, _, _, _, descriptor, fresh, session, unmounts, mounts, unreferenced,
      remounted_closed _ state, ?_, denotes.isOpen, ?_⟩
    · exact (Relation.ReflTransGen.single
        ⟨fun _ _ => 0, .create thirdName, 0, trivial, creates⟩).tail
          ⟨fun _ _ => 0, .opens thirdName, _, trivial, opens⟩
    · intro unique
      refine distinct (unique.unique ⟨?_, ?_⟩ ⟨denotes.head, denotes.used⟩)
      · rw [← denotes.head, State.opened, (relink_entry ..).2.2, (relink_entry ..).2.2,
          created_entry_of_ne distinct]
        have same : (((state.remounted fun _ _ => 0).created third 1024 thirdName).dir third).head =
            fatNaming.ref 1024 := by simp [State.created]
        exact Eq.trans head same.symm
      · rw [State.opened, relink_used, State.Used, created_entry_of_ne distinct]
        exact used
  · rw [none] at first
    cases first

end EC440.FileSystem
