import EC440.LocalStorage.Bytes
import EC440.LocalStorage.Table

/-!
# Sound states

In a sound state the hash table is well formed, the pages of all areas are
backed, and every area has as many pages as its size asks for.
-/

namespace EC440.LocalStorage

open Linked References Outcome

variable {machine : Machine} {state after : State} {buckets : Bucket → List ElementPtr}
  {place : Tid → Option ElementPtr} {areas : Tid → Option Tls} {tid other : Tid} {tls : Tls}
  {pointer : ElementPtr} {element : HashElement}

/-! ## The number of pages -/

theorem toNat_pageSizeInt_toUInt32 (machine : Machine) :
    machine.pageSizeInt.toUInt32.toNat = machine.pageSize :=
  toNat_ofNat machine.pageSize_lt

theorem pagesFor_toNat (machine : Machine) (size : UInt32) :
    (pagesFor machine.pageSizeInt size).toNat =
      size.toNat / machine.pageSize + if 0 < size.toNat % machine.pageSize then 1 else 0 := by
  have large : 2 ^ 12 ≤ machine.pageSize := by
    obtain ⟨shift, lower, -, equality⟩ := machine.power
    rw [equality]
    exact Nat.pow_le_pow_right (by decide) lower
  have few : size.toNat / machine.pageSize < 2 ^ 20 := by
    refine Nat.div_lt_of_lt_mul (lt_of_lt_of_le size.toNat_lt ?_)
    calc 2 ^ 32 = 2 ^ 12 * 2 ^ 20 := by norm_num
      _ ≤ machine.pageSize * 2 ^ 20 := Nat.mul_le_mul_right _ large
  have rest : (size % machine.pageSizeInt.toUInt32 > 0) ↔ 0 < size.toNat % machine.pageSize := by
    rw [gt_iff_lt, UInt32.lt_iff_toNat_lt, UInt32.toNat_mod, toNat_pageSizeInt_toUInt32]
    rfl
  have one : (if size % machine.pageSizeInt.toUInt32 > 0 then (1 : UInt32) else 0).toNat =
      if 0 < size.toNat % machine.pageSize then 1 else 0 := by
    by_cases remainder : 0 < size.toNat % machine.pageSize
    · rw [if_pos remainder, if_pos (rest.mpr remainder)]
      rfl
    · rw [if_neg remainder, if_neg (fun positive => remainder (rest.mp positive))]
      rfl
  rw [pagesFor, UInt32.toNat_add, UInt32.toNat_div, toNat_pageSizeInt_toUInt32, one]
  apply Nat.mod_eq_of_lt
  split <;> omega

/-- The pages of an area hold its size. -/
theorem size_le_pagesFor (machine : Machine) (size : UInt32) :
    size.toNat ≤ (pagesFor machine.pageSizeInt size).toNat * machine.pageSize := by
  have division := Nat.div_add_mod size.toNat machine.pageSize
  have remainder := Nat.mod_lt size.toNat machine.pageSize_pos
  rw [pagesFor_toNat, Nat.add_mul, Nat.mul_comm (size.toNat / machine.pageSize)]
  split
  · omega
  · omega

/-! ## Soundness -/

/-- An area with the pages for its size, made after `tls_init`. -/
structure Sized (machine : Machine) (state : State) (tls : Tls) : Prop where
  initialized : state.initialized = true
  length : tls.pages.length = tls.pageNum.toNat
  pageNum : tls.pageNum = pagesFor machine.pageSizeInt tls.size

structure Sound (machine : Machine) (state : State) (buckets : Bucket → List ElementPtr)
    (place : Tid → Option ElementPtr) : Prop where
  table : Tabled state buckets place
  backed : Backed state (references (state.areaAt place))
  sized : ∀ tid tls, state.areaAt place tid = some tls → Sized machine state tls
  pageSize : state.initialized = true → state.pageSize = machine.pageSizeInt

theorem Sized.room (sized : Sized machine state tls) :
    tls.size.toNat ≤ tls.pages.length * machine.pageSize := by
  rw [sized.length, sized.pageNum]
  exact size_le_pagesFor machine tls.size

theorem areaAt_congr (elements : after.elements = state.elements) :
    after.areaAt place = state.areaAt place := by
  funext tid
  simp only [State.areaAt, elements]

theorem Sound.initial (machine : Machine) (memory : PageMemory) :
    Sound machine (.initial memory) (fun _ => []) fun _ => none where
  table :=
    { chain := fun _ => .stop
      mem_iff := by simp
      element := by simp
      below := by simp }
  backed :=
    { counted := ⟨by simp [references, State.areaAt], by simp [references, State.areaAt]⟩
      mapped := by simp [State.initial]
      apart := by simp [State.initial]
      below := by simp [State.initial]
      separate := by simp [Separate, references, State.areaAt] }
  sized := by simp [State.areaAt]
  pageSize := by simp [State.initial]

theorem Sound.of_untouched (sound : Sound machine state buckets place)
    (untouched : Untouched state after)
    (backed : Backed after (references (state.areaAt place))) :
    Sound machine after buckets place := by
  have areas : after.areaAt place = state.areaAt place := areaAt_congr untouched.elements
  refine ⟨sound.table.congr untouched.hashTable untouched.elements untouched.nextElement,
    by rwa [areas], ?_, ?_⟩
  · intro tid tls area
    rw [areas] at area
    obtain ⟨initialized, length, pageNum⟩ := sound.sized tid tls area
    exact ⟨untouched.initialized.trans initialized, length, pageNum⟩
  · intro initialized
    rw [untouched.pageSize]
    exact sound.pageSize (untouched.initialized.symm.trans initialized)

/-- The state after `tls_init`, which has run or runs now. -/
def State.ready (state : State) (machine : Machine) : State :=
  { state with initialized := true, pageSize := machine.pageSizeInt }

theorem Sound.ensureInit_eq (sound : Sound machine state buckets place) :
    ensureInit machine state = state.ready machine := by
  unfold ensureInit
  split
  next initialized =>
    have pageSize := sound.pageSize initialized
    cases state
    simp_all [State.ready]
  next => rfl

theorem Sound.ready (sound : Sound machine state buckets place) :
    Sound machine (state.ready machine) buckets place := by
  refine ⟨sound.table.congr rfl rfl rfl, sound.backed.of_mapped rfl rfl
    fun _ frame mapped => ⟨frame, mapped⟩, ?_, fun _ => rfl⟩
  intro tid tls area
  obtain ⟨-, length, pageNum⟩ := sound.sized tid tls area
  exact ⟨rfl, length, pageNum⟩

/-! ## Private arrays -/

/-- The area of a thread as a byte array. -/
def State.array (state : State) (machine : Machine) (tid : Tid) : Option (List UInt8) :=
  match hashSearch state tid with
  | .ok (some pointer) =>
      (state.elements pointer).map fun element =>
        (List.range element.tls.size.toNat).map
          (state.byteIn machine (areaOf (fun _ => none) tid element) tid)
  | _ => none

/-- The same, for areas known otherwise. -/
def arrayOf (machine : Machine) (state : State) (areas : Tid → Option Tls) (tid : Tid) :
    Option (List UInt8) :=
  (areas tid).map fun tls =>
    (List.range tls.size.toNat).map (state.byteIn machine (references areas) tid)

theorem Sound.array_eq (sound : Sound machine state buckets place) :
    state.array machine = arrayOf machine state (state.areaAt place) := by
  funext tid
  rw [State.array, sound.table.hashSearch_eq]
  cases placed : place tid with
  | none => simp [arrayOf, State.areaAt, placed]
  | some pointer =>
      obtain ⟨element, found, -⟩ := sound.table.element _ _ placed
      have area : state.areaAt place tid = some element.tls := by
        simp [State.areaAt, placed, found]
      simp only [found, Option.map_some, arrayOf, area]
      congr 2
      funext n
      simp [State.byteIn, State.byteAt, areaOf, references, area]

theorem Sound.array_eq_none_iff (sound : Sound machine state buckets place) :
    state.array machine tid = none ↔ place tid = none := by
  rw [sound.array_eq, arrayOf, Option.map_eq_none_iff]
  exact sound.table.areaAt_eq_none_iff

theorem arrayOf_congr {areas' : Tid → Option Tls}
    (size : (areas' tid).map (·.size) = (areas tid).map (·.size))
    (bytes : ∀ tls, areas tid = some tls → ∀ n < tls.size.toNat,
      after.byteIn machine (references areas') tid n =
        state.byteIn machine (references areas) tid n) :
    arrayOf machine after areas' tid = arrayOf machine state areas tid := by
  unfold arrayOf
  cases area : areas tid with
  | none =>
      rw [area, Option.map_none, Option.map_eq_none_iff] at size
      rw [size]
      rfl
  | some tls =>
      rw [area, Option.map_some, Option.map_eq_some_iff] at size
      obtain ⟨tls', area', size⟩ := size
      rw [area', Option.map_some, Option.map_some, size]
      congr 1
      apply List.map_congr_left
      intro n inside
      exact bytes tls area n (List.mem_range.mp inside)

theorem arrayOf_frame {areas' : Tid → Option Tls} (area : areas' tid = areas tid)
    (frames : ∀ slot p, references areas (tid, slot) = some p →
      (after.frameOf p).map (·.bytes) = (state.frameOf p).map (·.bytes)) :
    arrayOf machine after areas' tid = arrayOf machine state areas tid := by
  apply arrayOf_congr (by rw [area])
  intro tls _ n _
  apply State.byteAt_congr
  · simp [references, area]
  · exact frames _

theorem Sound.array_untouched (sound : Sound machine state buckets place)
    (sound' : Sound machine after buckets place) (elements : after.elements = state.elements)
    (frames : ∀ ref p, references (state.areaAt place) ref = some p →
      (after.frameOf p).map (·.bytes) = (state.frameOf p).map (·.bytes)) :
    after.array machine = state.array machine := by
  funext tid
  rw [sound.array_eq, sound'.array_eq, areaAt_congr elements]
  exact arrayOf_frame rfl fun slot p pointing => frames (tid, slot) p pointing

end EC440.LocalStorage
