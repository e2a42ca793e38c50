import EC440.FileSystem.Accounting

/-!
# Unmounting and mounting again

`umount_fs` stores the directory and, on each of the eight FAT pages, the
first 1024 entries of `FAT`.  The file system is restored exactly if the FAT
repeats its first page and no file has data where the tables are stored.
-/

namespace EC440.FileSystem

open Linked Outcome

variable {tolerance : Tolerance} {state after start : State}
  {chart chart' : Slot → List BlockIndex}

def entriesPerPage : Nat := 1024

/-- The entry of the first page that `umount_fs` stores in place of another entry. -/
def firstPage (block : BlockIndex) : BlockIndex := Fin.ofNat _ (block.val % entriesPerPage)

theorem firstPage_of_lt {block : BlockIndex} (small : block.val < entriesPerPage) :
    firstPage block = block := by
  rw [firstPage, Nat.mod_eq_of_lt small, Fin.ofNat_val_eq_self]

/-- The entries of the FAT that differ from those of its first page are lost. -/
def Repeating (fat : Fat) : Prop := ∀ block, fat block = fat (firstPage block)

/-! ## Mounted states -/

/-- A mounted file system on a disk that has a super block. -/
structure Mounted (state : State) : Prop where
  mount : state.mount = true
  active : state.device.active = true
  fs : state.fs = some layout
  superBlock : ∃ source : Buffer, state.device.image 0 = source.blockAt 0 ∧
    Holds source 0 (superBlockBytes layout) sizeofSuperBlock

theorem FreshMount.mounted (fresh : FreshMount tolerance state) :
    Mounted state ∧ tolerance .fildesReset = true := by
  obtain ⟨made, stack, rfl, formatted, tolerates⟩ := fresh.eq
  exact ⟨⟨rfl, rfl, rfl, formatted.superBlock⟩, tolerates⟩

theorem Effect.mounted {call : Call} {code : Int32} (sound : Sound state chart)
    (effect : Effect state chart call code after chart') (mounted : Mounted state) :
    Mounted after := by
  have same : after.mount = state.mount ∧ after.fs = state.fs := by
    cases effect <;> exact ⟨rfl, rfl⟩
  refine ⟨same.1.trans mounted.mount, (effect.sound sound).active, same.2.trans mounted.fs, ?_⟩
  rw [effect.metadata sound (by decide : (0 : BlockIndex).val < dataStart)]
  exact mounted.superBlock

theorem Session.mounted {allowed : State → Call → Prop}
    (session : Session tolerance allowed start state) (sound : ∃ chart, Sound start chart)
    (mounted : Mounted start) : Mounted state := by
  refine (invariant_of_reachable (fun state => (∃ chart, Sound state chart) ∧ Mounted state) ?_
    ⟨sound, mounted⟩ session).2
  rintro before after ⟨⟨chart, sound⟩, mounted⟩ ⟨garbage, call, code, -, done⟩
  obtain ⟨chart', effect⟩ := exec_effect sound done
  exact ⟨⟨chart', effect.sound sound⟩, effect.mounted sound mounted⟩

/-! ## The round trip -/

/-- The state after unmounting and mounting again: the FAT repeats its first page. -/
def State.remounted (garbage : Nat → Buffer) (state : State) : State :=
  (state.unmounted garbage).mounted state.dir fun index =>
    state.fat (Fin.ofNat _ (index % entriesPerPage))

theorem umount_mount (mounted : Mounted state) (tolerates : tolerance .fildesReset = true)
    (garbage garbage' : Nat → Buffer) :
    umountFs tolerance garbage state = .ok (0, state.unmounted garbage) ∧
      mountFs tolerance garbage' (state.unmounted garbage) =
        .ok (0, state.remounted garbage) := by
  refine ⟨umountFs_eq tolerance garbage mounted.mount mounted.active mounted.fs, ?_⟩
  have formatted := formatted_unmounted garbage state mounted.superBlock
  rw [mountFs_eq tolerance garbage' rfl formatted, tolerate_bind, if_pos tolerates]
  rfl

theorem remounted_fat (garbage : Nat → Buffer) (state : State) :
    (state.remounted garbage).fat = fun block => state.fat (firstPage block) := rfl

/-- The block with the given part of a file. -/
def State.nthBlock (state : State) (slot : Slot) : Nat → Option BlockIndex
  | 0 => blockIndex? (state.dir slot).head.toInt
  | index + 1 => (state.nthBlock slot index).bind fun block => blockIndex? (state.fat block).toInt

/-- The byte at an offset of a file, if the file has one there. -/
def State.dataByte (state : State) (slot : Slot) (offset : Nat) : Option UInt8 :=
  if offset < (state.dir slot).size.toInt then
    (state.nthBlock slot (offset / blockSize)).map fun block =>
      state.device.image block (Fin.ofNat _ (offset % blockSize))
  else none

/-- What the round trip is for: the FAT and all files are the same. -/
structure Restored (before after : State) : Prop where
  fat : after.fat = before.fat
  entry : ∀ slot, before.Used slot → after.dir slot = before.dir slot
  chain : ∀ slot, before.Used slot → after.chain? slot = before.chain? slot
  content : ∀ slot, before.Used slot → after.dataByte slot = before.dataByte slot

/-- Unmounting and mounting again succeeds and restores the file system. -/
def RoundTrip (tolerance : Tolerance) (state : State) : Prop :=
  ∀ garbage garbage', ∃ unmounted remounted,
    umountFs tolerance garbage state = .ok (0, unmounted) ∧
    mountFs tolerance garbage' unmounted = .ok (0, remounted) ∧ Restored state remounted

/-- The disk already holds the byte that the tables in memory have at this place, if it is a
place for the directory (block 1) or for the first page of the FAT (blocks 2 to 9). -/
def State.Stored (state : State) (block : BlockIndex) (byte : Fin blockSize) : Prop :=
  if block = 1 then
    byte.val < sizeofDirEntry * maxFNum ∧
      state.device.image block byte = dirBytes state.dir byte.val
  else if 2 ≤ block.val ∧ block.val < dataStart then
    state.device.image block byte =
      intBytes (state.fat (Fin.ofNat _ (byte.val / sizeofInt))) (byte.val % sizeofInt : Nat)
  else True

/-- The FAT repeats its first page, and no file has data at a place of the tables that would
change. -/
structure Restorable (state : State) : Prop where
  repeating : Repeating state.fat
  apart : ∀ slot, state.Used slot → ∀ offset : Nat, offset < (state.dir slot).size.toInt →
    ∀ block, state.nthBlock slot (offset / blockSize) = some block →
      state.Stored block (Fin.ofNat _ (offset % blockSize))

theorem unmountedImage_dir (garbage : Nat → Buffer) (state : State) (byte : Fin blockSize) :
    state.unmountedImage garbage 1 byte =
      if byte.val < sizeofDirEntry * maxFNum then dirBytes state.dir byte.val
      else garbage 0 byte.val := by
  have notPage : ¬(2 + 0 ≤ (1 : BlockIndex).val ∧ (1 : BlockIndex).val < 2 + 0 + 8) := by decide
  rw [State.unmountedImage, storePages, if_neg notPage, Function.update_self, Buffer.blockAt]
  simp only [Memory.memcpy, zero_add, sub_zero]
  refine if_congr ?_ rfl rfl
  omega

theorem unmountedImage_fat (garbage : Nat → Buffer) (state : State) {block : BlockIndex}
    (isPage : 2 ≤ block.val ∧ block.val < dataStart) (byte : Fin blockSize) :
    state.unmountedImage garbage block byte =
      intBytes (state.fat (Fin.ofNat _ (byte.val / sizeofInt))) (byte.val % sizeofInt : Nat) := by
  have small := byte.isLt
  simp only [dataStart] at isPage
  have lower : (0 : Int) ≤ ((block.val - 2 : Nat) * blockSize : Nat) + byte.val :=
    Int.natCast_nonneg _
  have upper : (((block.val - 2 : Nat) * blockSize : Nat) + byte.val : Int) <
      0 + (8 * blockSize : Nat) := by
    simp only [blockSize] at small ⊢
    omega
  rw [State.unmountedImage, storePages, if_pos (by omega), Buffer.blockAt, fatImage,
    ← Nat.cast_mul, Memory.memcpy_of_mem lower upper]
  simp only [Memory.tiled, sub_zero]
  have inPage : (((block.val - 2 : Nat) * blockSize : Nat) + (byte.val : Int)) % (blockSize : Int) =
      byte.val := by
    simp only [blockSize] at small ⊢
    omega
  rw [inPage, ← Int.natCast_ediv, ← Int.natCast_emod, Int.toNat_natCast]

theorem State.stored_iff (state : State) (block : BlockIndex) (byte : Fin blockSize) :
    state.Stored block byte ↔
      ∀ garbage, state.unmountedImage garbage block byte = state.device.image block byte := by
  rw [State.Stored]
  split
  next isDir =>
      subst isDir
      simp only [unmountedImage_dir]
      constructor
      · rintro ⟨inDir, same⟩ garbage
        rw [if_pos inDir, same]
      · intro same
        by_cases inDir : byte.val < sizeofDirEntry * maxFNum
        · have stored := same fun _ _ => 0
          rw [if_pos inDir] at stored
          exact ⟨inDir, stored.symm⟩
        · -- behind the directory the buffer keeps what it held before
          have stored := same fun _ _ => state.device.image 1 byte + 1
          rw [if_neg inDir] at stored
          exact absurd stored (by simp)
  next notDir =>
      split
      next isPage =>
          simp only [unmountedImage_fat _ state isPage]
          exact ⟨fun same _ => same.symm, fun same => (same fun _ _ => 0).symm⟩
      next notPage =>
          refine ⟨fun _ garbage => ?_, fun _ => trivial⟩
          rw [State.unmountedImage, storePages, if_neg, Function.update_of_ne notDir]
          simp only [dataStart] at notPage
          omega

theorem remounted_nthBlock {garbage : Nat → Buffer} {slot : Slot}
    (same : (state.remounted garbage).fat = state.fat) (index : Nat) :
    (state.remounted garbage).nthBlock slot index = state.nthBlock slot index := by
  induction index with
  | zero => rfl
  | succ index inductionHypothesis =>
      rw [State.nthBlock, State.nthBlock, inductionHypothesis, same]

theorem content_iff {slot : Slot}
    (same : ∀ garbage, (state.remounted garbage).fat = state.fat) :
    (∀ garbage, (state.remounted garbage).dataByte slot = state.dataByte slot) ↔
      ∀ offset : Nat, offset < (state.dir slot).size.toInt →
        ∀ block, state.nthBlock slot (offset / blockSize) = some block →
          state.Stored block (Fin.ofNat _ (offset % blockSize)) := by
  have byteOf (garbage : Nat → Buffer) (offset : Nat) :
      (state.remounted garbage).dataByte slot offset =
        if offset < (state.dir slot).size.toInt then
          (state.nthBlock slot (offset / blockSize)).map fun block =>
            state.unmountedImage garbage block (Fin.ofNat _ (offset % blockSize))
        else none := by
    rw [State.dataByte, remounted_nthBlock (same garbage)]
    rfl
  constructor
  · intro kept offset inside block found
    rw [State.stored_iff]
    intro garbage
    have equal := congrFun (kept garbage) offset
    rw [byteOf, State.dataByte, if_pos inside, if_pos inside, found] at equal
    exact Option.some.inj equal
  · intro stored garbage
    funext offset
    rw [byteOf, State.dataByte]
    split
    next inside =>
        cases found : state.nthBlock slot (offset / blockSize) with
        | none => rfl
        | some block =>
            have equal := (state.stored_iff ..).mp (stored offset inside block found) garbage
            exact congrArg some equal
    next => rfl

theorem remounted_fat_eq_iff (garbage : Nat → Buffer) (state : State) :
    (state.remounted garbage).fat = state.fat ↔ Repeating state.fat := by
  rw [remounted_fat, funext_iff]
  exact forall_congr' fun block => eq_comm

theorem roundTrip_iff (mounted : Mounted state) (tolerates : tolerance .fildesReset = true) :
    RoundTrip tolerance state ↔ Restorable state := by
  have both := umount_mount mounted tolerates
  constructor
  · intro roundTrip
    have restored (garbage : Nat → Buffer) : Restored state (state.remounted garbage) := by
      obtain ⟨unmounted, remounted, unmounts, mounts, restored⟩ := roundTrip garbage garbage
      obtain ⟨unmounts', mounts'⟩ := both garbage garbage
      rw [unmounts'] at unmounts
      cases unmounts
      rw [mounts'] at mounts
      cases mounts
      exact restored
    constructor
    case repeating =>
        exact (remounted_fat_eq_iff (fun _ _ => 0) state).mp (restored fun _ _ => 0).fat
    case apart =>
        intro slot used
        exact (content_iff fun garbage => (restored garbage).fat).mp fun garbage =>
          (restored garbage).content slot used
  · intro restorable garbage garbage'
    obtain ⟨unmounts, mounts⟩ := both garbage garbage'
    have same (garbage : Nat → Buffer) : (state.remounted garbage).fat = state.fat :=
      (remounted_fat_eq_iff garbage state).mpr restorable.repeating
    refine ⟨_, _, unmounts, mounts, same garbage, fun _ _ => rfl, ?_, ?_⟩
    · intro slot _
      rw [State.chain?, State.chain?, same]
      rfl
    · exact fun slot used => (content_iff same).mpr (restorable.apart slot used) garbage

/-! ## Images of different tables -/

theorem Formatted.unique {image : BlockIndex → Block} {dir dir' : Directory}
    {fat fat' : Nat → Int32} (formatted : Formatted image dir fat)
    (formatted' : Formatted image dir' fat') (block : BlockIndex) :
    fat block.val = fat' block.val := by
  have mounts := mountFs_eq (fun _ => true) (fun _ _ => 0)
    (rfl : ({ State.initial with device := ⟨false, image⟩ } : State).device.active = false) formatted
  rw [mountFs_eq (fun _ => true) (fun _ _ => 0) rfl formatted'] at mounts
  injection mounts with pair
  exact (congrFun (congrArg (fun result => result.2.fat) pair) block).symm

theorem fatImage_congr {fat fat' : Fat} (garbage : Buffer)
    (agree : ∀ block : BlockIndex, block.val < entriesPerPage → fat block = fat' block) :
    fatImage fat garbage = fatImage fat' garbage := by
  have pages : (Memory.tiled blockSize fun _ => Memory.tiled sizeofInt fun i =>
        intBytes (fat (Fin.ofNat _ i))) =
      Memory.tiled blockSize fun _ => Memory.tiled sizeofInt fun i =>
        intBytes (fat' (Fin.ofNat _ i)) := by
    funext offset
    have small : (offset % (blockSize : Int) / (sizeofInt : Int)).toNat < entriesPerPage := by
      simp only [blockSize, sizeofInt, entriesPerPage]
      omega
    have inside : (offset % (blockSize : Int) / (sizeofInt : Int)).toNat < diskBlocks :=
      lt_trans small (by decide)
    simp only [Memory.tiled]
    rw [agree]
    rwa [Fin.val_ofNat, Nat.mod_eq_of_lt inside]
  rw [fatImage, pages, fatImage]

/-- The image shows the first page of the FAT and nothing else. -/
theorem unmountedImage_inj (mounted : Mounted state) (garbage : Nat → Buffer) (fat fat' : Fat) :
    ({ state with fat } : State).unmountedImage garbage =
        ({ state with fat := fat' } : State).unmountedImage garbage ↔
      ∀ block : BlockIndex, block.val < entriesPerPage → fat block = fat' block := by
  constructor
  · intro same block small
    have stored : ∀ fat : Fat,
        Formatted (({ state with fat } : State).unmountedImage garbage) state.dir
          fun index => fat (Fin.ofNat _ (index % 1024)) :=
      fun fat => formatted_unmounted garbage { state with fat } mounted.superBlock
    have other := stored fat'
    rw [← same] at other
    have entry : fat (firstPage block) = fat' (firstPage block) :=
      (stored fat).unique other block
    rwa [firstPage_of_lt small] at entry
  · intro agree
    rw [State.unmountedImage, State.unmountedImage]
    simp only [fatImage_congr (garbage 1) agree]

/-! ## The persistence theorem -/

/-- For a mounted file system of a session with any FAT contents: unmounting and mounting
restores it exactly if the FAT repeats its first page and no data of a file are overwritten by the
tables, and two FAT contents are written to the same image exactly if they agree on the first
page. -/
theorem persistence {allowed : State → Call → Prop} (fresh : FreshMount tolerance start)
    (session : Session tolerance allowed start state) :
    (∀ fat, RoundTrip tolerance { state with fat } ↔ Restorable { state with fat }) ∧
    ∀ garbage fat fat' unmounted unmounted',
      umountFs tolerance garbage { state with fat } = .ok (0, unmounted) →
      umountFs tolerance garbage { state with fat := fat' } = .ok (0, unmounted') →
      (unmounted.device.image = unmounted'.device.image ↔
        ∀ block : BlockIndex, block.val < entriesPerPage → fat block = fat' block) := by
  obtain ⟨mountedStart, tolerates⟩ := fresh.mounted
  obtain ⟨mount, active, fs, superBlock⟩ := session.mounted fresh.start.sound mountedStart
  have mounted : ∀ fat, Mounted { state with fat } := fun _ => ⟨mount, active, fs, superBlock⟩
  constructor
  · exact fun fat => roundTrip_iff (mounted fat) tolerates
  · intro garbage fat fat' unmounted unmounted' unmounts unmounts'
    rw [(umount_mount (mounted fat) tolerates garbage garbage).1] at unmounts
    rw [(umount_mount (mounted fat') tolerates garbage garbage).1] at unmounts'
    cases unmounts
    cases unmounts'
    exact unmountedImage_inj (mounted state.fat) garbage fat fat'

def repeatedFat : Fat := fun block => if block.val % entriesPerPage = 10 then -1 else 0

/-- A file survives the round trip if the FAT repeats its first page. -/
theorem persistence_created : ∃ start created, FreshMount mountOnly start ∧
    Session mountOnly (fun _ _ => True) start created ∧ created.Used 63 ∧
    ({ created with fat := repeatedFat } : State).chain? 63 = some [10] ∧
    RoundTrip mountOnly { created with fat := repeatedFat } := by
  obtain ⟨start, fresh, dir, fat, fildes⟩ := exists_freshMount (by decide : mountOnly .fildesReset)
  obtain ⟨creates, -⟩ := firstFile mountOnly fresh.start.superBlock dir fat fildes
  have session : Session mountOnly (fun _ _ => True) start (start.created 63 10 fileName) :=
    .single ⟨fun _ _ => 0, .create fileName, 0, trivial, creates⟩
  refine ⟨start, _, fresh, session, by simp [State.Used, State.created], ?_,
    ((persistence fresh session).1 repeatedFat).mpr ⟨?_, ?_⟩⟩
  · have head : ((start.created 63 10 fileName).dir 63).head = fatNaming.ref 10 := by
      simp [State.created]
    have ended : repeatedFat 10 = fatNaming.stop := by decide
    refine chain?_eq_some_iff.mpr ?_
    change FatChain repeatedFat ((start.created 63 10 fileName).dir 63).head [10]
    rw [head]
    refine .cons ?_
    rw [ended]
    exact .stop
  · intro block
    have page : (firstPage block).val = block.val % entriesPerPage := by
      refine Nat.mod_eq_of_lt (lt_of_le_of_lt (Nat.mod_le _ _) block.isLt)
    simp only [repeatedFat, page, Nat.mod_mod]
  · intro slot used offset inside
    have same : slot = 63 := by
      by_contra other
      apply fresh.unused slot
      simpa [State.Used, State.created, other] using used
    subst same
    have empty : ((start.created 63 10 fileName).dir 63).size = 0 := by simp [State.created]
    change (offset : Int) < ((start.created 63 10 fileName).dir 63).size.toInt at inside
    rw [empty, Int32.toInt_zero] at inside
    omega

/-- Creating one file already spoils it: the entry of its block 10 comes back at block 1034 too,
and a FAT in which block 1034 is used is written to the same image. -/
theorem create_notRestored : ∃ start created unmounted remounted fat,
    FreshMount mountOnly start ∧ fsCreate start fileName = .ok (0, created) ∧
    umountFs mountOnly (fun _ _ => 0) created = .ok (0, unmounted) ∧
    mountFs mountOnly (fun _ _ => 0) unmounted = .ok (0, remounted) ∧
    created.fat 1034 = 0 ∧ remounted.fat 1034 = -1 ∧ ¬RoundTrip mountOnly created ∧
    fat ≠ created.fat ∧
    ({ created with fat } : State).unmountedImage (fun _ _ => 0) =
      created.unmountedImage fun _ _ => 0 := by
  obtain ⟨start, fresh, dir, zero, fildes⟩ :=
    exists_freshMount (by decide : mountOnly .fildesReset)
  obtain ⟨creates, -⟩ := firstFile mountOnly fresh.start.superBlock dir zero fildes
  obtain ⟨mount, active, fs, superBlock⟩ := fresh.mounted.1
  have mounted : Mounted (start.created 63 10 fileName) := ⟨mount, active, fs, superBlock⟩
  have used : (start.created 63 10 fileName).fat 10 = -1 := by simp [State.created]
  have free : (start.created 63 10 fileName).fat 1034 = 0 := by
    simp only [State.created, zero]
    rfl
  have page : firstPage 1034 = 10 := by decide
  obtain ⟨unmounts, mounts⟩ := umount_mount mounted fresh.mounted.2 (fun _ _ => 0) fun _ _ => 0
  refine ⟨start, _, _, _, Function.update (start.created 63 10 fileName).fat 1034 (-1), fresh,
    creates, unmounts, mounts, free, ?_, ?_, ?_, ?_⟩
  · rw [remounted_fat]
    simp only [page, used]
  · intro roundTrip
    have repeating := ((roundTrip_iff mounted fresh.mounted.2).mp roundTrip).repeating 1034
    rw [page, used, free] at repeating
    exact absurd repeating (by decide)
  · intro same
    have entry := congrFun same 1034
    rw [Function.update_self, free] at entry
    exact absurd entry (by decide)
  · refine (unmountedImage_inj mounted _ _ _).mpr fun block small => ?_
    refine Function.update_of_ne ?_ _ _
    rintro rfl
    exact absurd small (by decide)

end EC440.FileSystem
