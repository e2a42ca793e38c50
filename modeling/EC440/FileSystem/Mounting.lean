import EC440.FileSystem.Reading

/-!
# Mounting any disk

`mount_fs` takes every size and every block number from the disk.  It checks
none of them, and each of its failures comes after the disk has been opened.
-/

namespace EC440.FileSystem

open Outcome

variable {tolerance : Tolerance} {garbage : Nat → Buffer} {state after : State} {code : Int32}

/-- The file system of the disk has been loaded: the super block is the one of `make_fs`, the
tables are the bytes of its blocks, and no descriptor is open. -/
structure MountsLayout (before after : State) : Prop where
  mount : after.mount = true
  device : after.device = { before.device with active := true }
  fs : after.fs = some layout
  dir : after.dir = readDir (diskBytes before.device.image 1)
  fat : after.fat = readFatTable (diskBytes before.device.image 2)
  closed : ∀ descriptor, ¬after.Open descriptor

/-- Nothing is mounted, the disk is closed, and a formatted disk can be mounted next. -/
structure RefusesMount (tolerance : Tolerance) (after : State) : Prop where
  mount : after.mount = false
  closed : after.device.active = false
  later : ∀ garbage image dir fat, Formatted image dir fat → ∃ mounted,
    mountFs tolerance garbage { after with device := { after.device with image } } =
      .ok (0, mounted)

/-- `mount_fs` mounts the file system of the disk, or fails and leaves nothing behind. -/
def MountsOrRefuses (tolerance : Tolerance) (garbage : Nat → Buffer) (state : State) : Prop :=
  (∃ after, mountFs tolerance garbage state = .ok (0, after) ∧ MountsLayout state after) ∨
  ∃ after, mountFs tolerance garbage state = .ok (-1, after) ∧ RefusesMount tolerance after

/-! ## The ways out of mount_fs -/

theorem mountFs_active (tolerance : Tolerance) (garbage : Nat → Buffer)
    (active : state.device.active = true) : mountFs tolerance garbage state = .ok (-1, state) := by
  have failed : state.device.openDisk = none := by
    rw [Device.openDisk, if_pos active]
  rw [mountFs, failed]

theorem tolerate_bind_ok_iff {access : Stray} {result value : Int32 × State} :
    (tolerate tolerance access >>= fun _ => .ok result) = .ok value ↔
      tolerance access = true ∧ result = value := by
  rw [tolerate_bind]
  split
  next tolerates => simp [tolerates]
  next strict => simp [strict]

/-- A failure leaves the disk open, and a success has cleared 64 descriptors. -/
theorem mountFs_ok (inactive : state.device.active = false)
    (done : mountFs tolerance garbage state = .ok (code, after)) :
    code = -1 ∧ after.device.active = true ∨
    code = 0 ∧ tolerance .fildesReset = true ∧
      after.fs = some (readSuperBlock (diskBytes state.device.image 0)) := by
  have opened : state.device.openDisk = some { state.device with active := true } := by
    simp [Device.openDisk, inactive]
  have active : ({ state.device with active := true } : Device).active = true := rfl
  have read0 : ({ state.device with active := true } : Device).blockRead 0 =
      some (state.device.image 0) := blockRead_val active 0
  have super := ((holds_load (garbage 0) state.device.image 0).shorten
    (by decide : sizeofSuperBlock ≤ blockSize)).readSuperBlock_eq
  unfold mountFs at done
  simp only [opened, read0, super] at done
  split at done
  next =>
    cases done
    exact .inl ⟨rfl, rfl⟩
  next =>
    split at done
    next =>
      cases done
      exact .inl ⟨rfl, rfl⟩
    next =>
      right
      split at done
      next =>
        obtain ⟨-, -, done⟩ := bind_eq_ok_iff.mp done
        obtain ⟨tolerates, done⟩ := tolerate_bind_ok_iff.mp done
        cases done
        exact ⟨rfl, tolerates, rfl⟩
      next =>
        obtain ⟨tolerates, done⟩ := tolerate_bind_ok_iff.mp done
        cases done
        exact ⟨rfl, tolerates, rfl⟩

/-- `mount_fs` does its task on a closed disk with the super block of `make_fs` only, and there
it leaves `fildes`. -/
theorem mountsOrRefuses_iff : MountsOrRefuses tolerance garbage state ↔
    tolerance .fildesReset = true ∧ state.device.active = false ∧
      readSuperBlock (diskBytes state.device.image 0) = layout := by
  constructor
  · intro result
    cases inactive : state.device.active with
    | true =>
        have failed := mountFs_active tolerance garbage inactive
        rcases result with ⟨after, done, -⟩ | ⟨after, done, refuses⟩
        · rw [failed] at done
          cases done
        · rw [failed] at done
          cases done
          rw [refuses.closed] at inactive
          cases inactive
    | false =>
        rcases result with ⟨after, done, mounts⟩ | ⟨after, done, refuses⟩
        · rcases mountFs_ok inactive done with ⟨impossible, -⟩ | ⟨-, tolerates, fs⟩
          · exact absurd impossible (by decide)
          · rw [mounts.fs, Option.some.injEq] at fs
            exact ⟨tolerates, rfl, fs.symm⟩
        · rcases mountFs_ok inactive done with ⟨-, active⟩ | ⟨impossible, -⟩
          · rw [refuses.closed] at active
            cases active
          · exact absurd impossible (by decide)
  · rintro ⟨tolerates, inactive, superBlock⟩
    left
    have done := mountFs_layout tolerance garbage inactive superBlock
    rw [tolerate_bind, if_pos tolerates] at done
    exact ⟨_, done, ⟨rfl, rfl, rfl, rfl, rfl, fun descriptor => not_not.mpr rfl⟩⟩

/-- On no disk does `mount_fs` do its task: a success clears 32 descriptors that do not exist and
a failure leaves the disk open.  Apart from these stores it mounts exactly the closed disks with
the super block of `make_fs`. -/
theorem mounting (garbage : Nat → Buffer) (state : State) :
    ¬MountsOrRefuses noStray garbage state ∧
    (MountsOrRefuses mountOnly garbage state ↔
      state.device.active = false ∧ readSuperBlock (diskBytes state.device.image 0) = layout) := by
  constructor
  · intro result
    exact absurd (mountsOrRefuses_iff.mp result).1 (by decide)
  · rw [mountsOrRefuses_iff]
    exact and_iff_right (by decide)

/-! ## Three disks -/

def uniformDisk (byte : UInt8) : State :=
  { State.initial with device := { active := false, image := fun _ _ => byte } }

/-- The directory would be in block -1. -/
theorem mountFs_ones (tolerance : Tolerance) :
    mountFs tolerance (fun _ _ => 0) (uniformDisk 255) = .ok (-1, { uniformDisk 255 with
      device := { active := true, image := fun _ _ => 255 }
      fs := some { fatIdx := -1, fatLen := -1, dirIdx := -1, dirLen := -1, dataIdx := -1 } }) := by
  have opened : (uniformDisk 255).device.openDisk =
      some { active := true, image := fun _ _ => 255 } := rfl
  have read0 : ({ active := true, image := fun _ _ => 255 } : Device).blockRead 0 =
      some fun _ => 255 := rfl
  have super : readSuperBlock (Buffer.load (fun _ => 0) 0 fun _ => 255) =
      { fatIdx := -1, fatLen := -1, dirIdx := -1, dirLen := -1, dataIdx := -1 } := by decide
  unfold mountFs
  simp only [opened, read0, super]
  rfl

/-- The FAT would have no blocks. -/
theorem mountFs_zeroes (tolerance : Tolerance) (strict : tolerance .heap = false) :
    mountFs tolerance (fun _ _ => 0) (uniformDisk 0) = .error (.stray .heap) := by
  have opened : (uniformDisk 0).device.openDisk =
      some { active := true, image := fun _ _ => 0 } := rfl
  have read0 : ({ active := true, image := fun _ _ => 0 } : Device).blockRead 0 =
      some fun _ => 0 := rfl
  have super : readSuperBlock (Buffer.load (fun _ => 0) 0 fun _ => 0) =
      { fatIdx := 0, fatLen := 0, dirIdx := 0, dirLen := 0, dataIdx := 0 } := by decide
  unfold mountFs
  simp only [opened, read0, super, Int32.toInt_zero, tolerate, strict]
  rfl

/-- On a disk of bytes 255 `mount_fs` fails and leaves the disk open, so that no disk can be
mounted any more.  On a disk of zeroes it copies the FAT from an empty buffer.  On the disk of
`make_fs` it clears descriptors behind `fildes`. -/
theorem mounting_broken : ∃ after made,
    mountFs noStray (fun _ _ => 0) (uniformDisk 255) = .ok (-1, after) ∧
    after.device.active = true ∧
    (∀ tolerance garbage image, ∃ failed, mountFs tolerance garbage
      { after with device := { after.device with image } } = .ok (-1, failed)) ∧
    mountFs mountOnly (fun _ _ => 0) (uniformDisk 0) = .error (.stray .heap) ∧
    makeFs (fun _ _ => 0) (fun _ => 0) State.initial = (0, made) ∧
    mountFs noStray (fun _ _ => 0) made = .error (.stray .fildesReset) ∧
    ¬MountsOrRefuses noStray (fun _ _ => 0) (uniformDisk 255) ∧
    ¬MountsOrRefuses noStray (fun _ _ => 0) made := by
  have never : ∀ state, ¬MountsOrRefuses noStray (fun _ _ => 0) state := by
    intro state result
    exact absurd (mountsOrRefuses_iff.mp result).1 (by decide)
  rcases makeFs_cases (fun _ _ => 0) (fun _ => 0) State.initial with ⟨-, isOpen⟩ |
    ⟨image, made, formatted⟩
  · exact absurd isOpen (by decide)
  · have strays := mountFs_eq noStray (fun _ _ => 0)
      (rfl : ({ State.initial with device := { active := false, image } } : State).device.active =
        false) formatted
    rw [tolerate_bind] at strays
    exact ⟨_, _, mountFs_ones noStray, rfl,
      fun tolerance garbage image => ⟨_, mountFs_active tolerance garbage rfl⟩,
      mountFs_zeroes mountOnly (by decide), made, strays, never _, never _⟩

end EC440.FileSystem
