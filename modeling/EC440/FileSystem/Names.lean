import EC440.FileSystem.Persistence
import Mathlib.Data.List.TakeWhile

/-!
# Names of files

None of the searches by name looks at the `used` flag.  They are right because
an unused entry always has the empty name and no file can get that name.  This
does not depend on the contents of `FAT`, and so it survives `umount_fs` and
`mount_fs`, which do not restore them.
-/

namespace EC440.FileSystem

open Linked Outcome

variable {tolerance : Tolerance} {state after start : State} {code : Int32}

/-! ## Directories -/

/-- The names of used entries tell them apart and leave room for the terminating NUL. -/
structure Named (dir : Directory) : Prop extends Distinguished dir where
  short : ∀ slot, (dir slot).used ≠ 0 → (dir slot).name.text.length ≤ maxFName

theorem NameField.terminated {name : NameField} (short : name.text.length ≤ maxFName) :
    ∃ position, name position = 0 := by
  by_contra unterminated
  rw [not_exists] at unterminated
  have whole : name.text = List.ofFn name := by
    rw [NameField.text, List.takeWhile_eq_self_iff]
    intro byte membership
    obtain ⟨position, rfl⟩ := List.mem_ofFn.mp membership
    exact decide_eq_true (unterminated position)
  rw [whole, List.length_ofFn] at short
  omega

namespace Named

variable {dir dir' : Directory} {slot : Slot} {name : CString}

theorem congr (named : Named dir)
    (same : ∀ slot, (dir' slot).used = (dir slot).used ∧ (dir' slot).name = (dir slot).name) :
    Named dir' where
  toDistinguished := named.toDistinguished.congr same
  short slot := by
    rw [(same slot).1, (same slot).2]
    exact named.short slot

theorem create {entry : DirEntry} (named : Named dir) (unused : (dir slot).used = 0)
    (used : entry.used ≠ 0) (text : entry.name.text = name.bytes)
    (short : name.bytes.length ≤ maxFName) (new : ∀ other, ¬(dir other).name.Matches name) :
    Named (Function.update dir slot entry) where
  toDistinguished := named.toDistinguished.create unused used text new
  short other := by
    by_cases same : other = slot
    · rw [same, Function.update_self, text]
      exact fun _ => short
    · rw [Function.update_of_ne same]
      exact named.short other

theorem wipe {entry : DirEntry} (named : Named dir) (unused : entry.used = 0)
    (empty : entry.name.text = []) : Named (Function.update dir slot entry) where
  toDistinguished := named.toDistinguished.wipe unused empty
  short other := by
    by_cases same : other = slot
    · rw [same, Function.update_self]
      exact fun used => absurd unused used
    · rw [Function.update_of_ne same]
      exact named.short other

end Named

/-! ## Calls that handle names -/

def Call.HandlesNames : Call → Prop
  | .create _ => True
  | .delete _ => True
  | .opens _ => True
  | .close _ => True
  | _ => False

/-- The state is the same but for its tables, and the names in its directory are right. -/
structure Renamed (state after : State) : Prop where
  device : after.device = state.device
  mount : after.mount = state.mount
  fs : after.fs = state.fs
  named : Named after.dir

theorem Renamed.refl (named : Named state.dir) : Renamed state state :=
  ⟨rfl, rfl, rfl, named⟩

theorem fsCreate_named {name : CString} (named : Named state.dir)
    (done : fsCreate state name = .ok (code, after)) : Renamed state after := by
  unfold fsCreate at done
  by_cases long : name.bytes.length > 15
  · rw [if_pos long] at done
    cases done
    exact .refl named
  · rw [if_neg long] at done
    split at done
    next =>
      cases done
      exact .refl named
    next =>
      cases done
      exact .refl named
    next slot found =>
      obtain ⟨others, origin⟩ := createScan_eq_some found
      have unused : (state.dir slot).used = 0 := by simpa using origin
      obtain ⟨superBlock, -, done⟩ := bind_eq_ok_iff.mp done
      obtain ⟨index, -, done⟩ := bind_eq_ok_iff.mp done
      obtain ⟨fat, -, done⟩ := bind_eq_ok_iff.mp done
      cases done
      refine ⟨rfl, rfl, rfl, named.create unused (by decide : (1 : Int32) ≠ 0)
        (NameField.text_strcpy _ name (not_lt.mp long)) (not_lt.mp long) ?_⟩
      exact fun other => others other (List.mem_finRange other)

theorem fsDelete_named {name : CString} (named : Named state.dir)
    (done : fsDelete tolerance state name = .ok (code, after)) : Renamed state after := by
  unfold fsDelete at done
  split at done
  next =>
    obtain ⟨-, -, done⟩ := bind_eq_ok_iff.mp done
    cases done
    exact .refl named
  next slot found =>
    by_cases referenced : (state.dir slot).refCnt > 0
    · simp only [if_pos referenced] at done
      cases done
      exact .refl named
    · simp only [if_neg referenced] at done
      obtain ⟨⟨complete, fat⟩, -, done⟩ := bind_eq_ok_iff.mp done
      cases complete with
      | true =>
          cases done
          exact ⟨rfl, rfl, rfl, named.wipe rfl (NameField.text_clear _)⟩
      | false =>
          cases done
          exact ⟨rfl, rfl, rfl, named⟩

theorem fsOpen_named {name : CString} (named : Named state.dir)
    (done : fsOpen tolerance state name = .ok (code, after)) : Renamed state after := by
  rcases fsOpen_cases tolerance state name with failed | stopped |
    ⟨slot, descriptor, -, -, -, opened⟩
  · rw [failed] at done
    cases done
    exact .refl named
  · rw [stopped] at done
    cases done
  · rw [opened] at done
    cases done
    refine ⟨rfl, rfl, rfl, named.congr fun other => ?_⟩
    have entry := relink_entry state slot ((state.dir slot).refCnt + 1) descriptor
      { used := 1, file := (state.dir slot).head, offset := 0 } other
    exact ⟨entry.1, entry.2.1⟩

theorem fsClose_named {fildesI : Int} (named : Named state.dir)
    (done : fsClose tolerance state fildesI = .ok (code, after)) : Renamed state after := by
  unfold fsClose at done
  obtain ⟨descriptor, -, done⟩ := bind_eq_ok_iff.mp done
  by_cases invalid : invalidFildes state fildesI descriptor
  · rw [if_pos invalid] at done
    cases done
    exact .refl named
  · rw [if_neg invalid] at done
    split at done
    next =>
      obtain ⟨-, -, done⟩ := bind_eq_ok_iff.mp done
      cases done
      exact .refl named
    next slot _ =>
      by_cases unused : (state.dir slot).used = 0
      · simp only [if_pos unused] at done
        cases done
        exact .refl named
      · simp only [if_neg unused] at done
        cases done
        refine ⟨rfl, rfl, rfl, named.congr fun other => ?_⟩
        have entry := relink_entry state slot ((state.dir slot).refCnt - 1) descriptor
          { used := 0, file := 0, offset := -1 } other
        exact ⟨entry.1, entry.2.1⟩

theorem exec_named {garbage : Nat → Buffer} {call : Call} (handles : call.HandlesNames)
    (named : Named state.dir) (done : exec tolerance garbage state call = .ok (code, after)) :
    Renamed state after := by
  cases call with
  | create name => exact fsCreate_named named done
  | opens name => exact fsOpen_named named done
  | close fildesI => exact fsClose_named named done
  | delete name => exact fsDelete_named named done
  | _ => exact handles.elim

/-! ## Mounting and unmounting -/

/-- One step of a run over several mounts. -/
inductive LifeStep (tolerance : Tolerance) (before after : State) : Prop
  | call (garbage : Nat → Buffer) (call : Call) (code : Int32) (handles : call.HandlesNames)
      (done : exec tolerance garbage before call = .ok (code, after))
  | umount (garbage : Nat → Buffer) (code : Int32)
      (done : umountFs tolerance garbage before = .ok (code, after))
  | mount (garbage : Nat → Buffer) (code : Int32)
      (done : mountFs tolerance garbage before = .ok (code, after))

def Life (tolerance : Tolerance) : State → State → Prop :=
  Relation.ReflTransGen (LifeStep tolerance)

/-- The disk is closed and formatted with a directory whose names are right. -/
structure Unmounted (state : State) : Prop where
  mount : state.mount = false
  inactive : state.device.active = false
  formatted : ∃ dir fat, Formatted state.device.image dir fat ∧ Named dir

/-- The names are right in memory and, while it is not mounted, on the disk. -/
structure Lasting (state : State) : Prop where
  named : Named state.dir
  disk : Mounted state ∨ Unmounted state

theorem Renamed.lasting (renamed : Renamed state after) (lasting : Lasting state) :
    Lasting after where
  named := renamed.named
  disk := by
    rcases lasting.disk with ⟨mount, active, fs, superBlock⟩ | ⟨mount, inactive, formatted⟩
    · exact .inl ⟨renamed.mount.trans mount, renamed.device ▸ active, renamed.fs.trans fs,
        renamed.device ▸ superBlock⟩
    · exact .inr ⟨renamed.mount.trans mount, renamed.device ▸ inactive,
        renamed.device ▸ formatted⟩

theorem Lasting.umount (lasting : Lasting state) {garbage : Nat → Buffer}
    (done : umountFs tolerance garbage state = .ok (code, after)) : Lasting after := by
  rcases lasting.disk with mounted | unmounted
  · rw [umountFs_eq tolerance garbage mounted.mount mounted.active mounted.fs] at done
    cases done
    exact ⟨lasting.named, .inr ⟨rfl, rfl, _, _,
      formatted_unmounted garbage state mounted.superBlock, lasting.named⟩⟩
  · have failed : umountFs tolerance garbage state = .ok (-1, state) := by
      rw [umountFs, if_pos (by simp [unmounted.mount])]
    rw [failed] at done
    cases done
    exact lasting

theorem Lasting.mount (lasting : Lasting state) {garbage : Nat → Buffer}
    (done : mountFs tolerance garbage state = .ok (code, after)) : Lasting after := by
  rcases lasting.disk with mounted | ⟨-, inactive, dir, fat, formatted, named⟩
  · have failed : mountFs tolerance garbage state = .ok (-1, state) := by
      simp [mountFs, Device.openDisk, mounted.active]
    rw [failed] at done
    cases done
    exact lasting
  · rw [mountFs_eq tolerance garbage inactive formatted, tolerate_bind] at done
    split at done
    · cases done
      exact ⟨named, .inl ⟨rfl, rfl, rfl, formatted.superBlock⟩⟩
    · cases done

theorem LifeStep.lasting (step : LifeStep tolerance state after) (lasting : Lasting state) :
    Lasting after := by
  cases step with
  | call garbage call code handles done =>
      exact (exec_named handles lasting.named done).lasting lasting
  | umount garbage code done => exact lasting.umount done
  | mount garbage code done => exact lasting.mount done

theorem FreshMount.lasting (fresh : FreshMount tolerance start) : Lasting start := by
  obtain ⟨chart, sound⟩ := fresh.start.sound
  exact ⟨⟨sound.distinguished, fun slot used => absurd used (fresh.unused slot)⟩,
    .inl fresh.mounted.1⟩

theorem Life.lasting (life : Life tolerance start state) (lasting : Lasting start) :
    Lasting state :=
  invariant_of_reachable Lasting (fun _ _ lasting step => step.lasting lasting) lasting life

/-! ## The directory of a run -/

/-- `fs_create` needs an unused entry, and a name that no entry has. -/
theorem fsCreate_fails {name : CString}
    (occupied : ∀ slot, (state.dir slot).used = 0 → (state.dir slot).name.Matches name) :
    fsCreate state name = .ok (-1, state) := by
  unfold fsCreate
  by_cases long : name.bytes.length > 15
  · rw [if_pos long]
  · rw [if_neg long]
    split
    next => rfl
    next => rfl
    next slot found =>
      obtain ⟨others, origin⟩ := createScan_eq_some found
      have unused : (state.dir slot).used = 0 := by simpa using origin
      exact absurd (occupied slot unused) (others slot (List.mem_finRange slot))

/-- In every run that creates, deletes, opens and closes files, unmounts and mounts: the used
entries have different names of 1 to 15 bytes that are terminated in their array, and the others
have the empty name.  The empty name cannot be created, nor a file in a full directory, and the
searches for a nonempty name find the used entry of that name or nothing. -/
theorem directoryNames (fresh : FreshMount tolerance start) (life : Life tolerance start state) :
    (∀ first second, state.Used first → state.Used second →
      (state.dir first).name.text = (state.dir second).name.text → first = second) ∧
    (∀ slot, state.Used slot → 1 ≤ (state.dir slot).name.text.length ∧
      (state.dir slot).name.text.length ≤ maxFName ∧
      ∃ position, (state.dir slot).name position = 0) ∧
    (∀ slot, ¬state.Used slot → (state.dir slot).name.text = []) ∧
    (∀ name : CString, name.bytes = [] → fsCreate state name = .ok (-1, state)) ∧
    ((Finset.univ.filter state.Used).card ≤ maxFNum ∧
      ((Finset.univ.filter state.Used).card = maxFNum →
        ∀ name, fsCreate state name = .ok (-1, state))) ∧
    ∀ name : CString, name.bytes ≠ [] →
      (∀ slot, (search fun slot => (state.dir slot).name.Matches name) = some slot ↔
        state.Used slot ∧ (state.dir slot).name.Matches name) ∧
      ((search fun slot => (state.dir slot).name.Matches name) = none ↔
        ∀ slot, state.Used slot → ¬(state.dir slot).name.Matches name) := by
  have named := (life.lasting fresh.lasting).named
  refine ⟨named.distinct, ?_, ?_, ?_, ⟨?_, ?_⟩, ?_⟩
  · intro slot used
    have short := named.short slot used
    exact ⟨List.length_pos_iff.mpr (named.nonempty slot used), short, NameField.terminated short⟩
  · exact fun slot unused => named.unused slot (not_not.mp unused)
  · intro name empty
    exact fsCreate_fails fun slot unused => (named.unused slot unused).trans empty.symm
  · have bound := Finset.card_le_univ (Finset.univ.filter state.Used)
    rwa [Fintype.card_fin] at bound
  · intro full name
    refine fsCreate_fails fun slot unused => ?_
    have all : Finset.univ.filter state.Used = Finset.univ :=
      Finset.eq_univ_of_card _ (full.trans (Fintype.card_fin _).symm)
    have used : slot ∈ Finset.univ.filter state.Used := by
      rw [all]
      exact Finset.mem_univ slot
    exact absurd unused (Finset.mem_filter.mp used).2
  · intro name nonempty
    exact ⟨fun slot => named.search_eq_some_iff nonempty, named.search_eq_none_iff nonempty⟩

/-- A first file is found again after unmounting and mounting. -/
theorem directoryNames_remounted : ∃ start remounted, FreshMount mountOnly start ∧
    Life mountOnly start remounted ∧ remounted.Used 63 ∧
    (search fun slot => (remounted.dir slot).name.Matches fileName) = some 63 := by
  obtain ⟨start, fresh, dir, fat, fildes⟩ := exists_freshMount (by decide : mountOnly .fildesReset)
  obtain ⟨creates, -⟩ := firstFile mountOnly fresh.start.superBlock dir fat fildes
  obtain ⟨mount, active, fs, superBlock⟩ := fresh.mounted.1
  have mounted : Mounted (start.created 63 10 fileName) := ⟨mount, active, fs, superBlock⟩
  obtain ⟨unmounts, mounts⟩ := umount_mount mounted fresh.mounted.2 (fun _ _ => 0) fun _ _ => 0
  have life : Life mountOnly start ((start.created 63 10 fileName).remounted fun _ _ => 0) :=
    ((Relation.ReflTransGen.single (.call (fun _ _ => 0) (.create fileName) 0 trivial creates)).tail
      (.umount (fun _ _ => 0) 0 unmounts)).tail (.mount (fun _ _ => 0) 0 mounts)
  have entry : ((start.created 63 10 fileName).remounted fun _ _ => 0).dir 63 =
      { used := 1, name := (start.dir 63).name.strcpy fileName, size := 0,
        head := fatNaming.ref 10, refCnt := 0 } := by
    simp [State.remounted, State.mounted, State.created]
  have used : ((start.created 63 10 fileName).remounted fun _ _ => 0).Used 63 := by
    rw [State.Used, entry]
    exact (by decide : (1 : Int32) ≠ 0)
  refine ⟨start, _, fresh, life, used, ?_⟩
  have searches := (directoryNames fresh life).2.2.2.2.2 fileName (by decide)
  refine (searches.1 63).mpr ⟨used, ?_⟩
  rw [entry]
  exact NameField.text_strcpy _ fileName (by decide)

end EC440.FileSystem
