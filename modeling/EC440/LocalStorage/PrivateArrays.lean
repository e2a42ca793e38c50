import EC440.LocalStorage.Operations

/-!
# Private arrays

What thread local storage is for: every thread owns a byte array of its own.
Creating an array zeroes it, cloning copies the array that the other thread
has at that moment, and reading and writing concern the caller's array only.
-/

namespace EC440.LocalStorage.Private

abbrev Arrays := Tid → Option (List UInt8)

/-- `data` written over the bytes from `offset` on. -/
def overwrite (array : List UInt8) (offset : Nat) (data : List UInt8) : List UInt8 :=
  array.take offset ++ data ++ array.drop (offset + data.length)

/-- `length` bytes from `offset` on. -/
def slice (array : List UInt8) (offset length : Nat) : List UInt8 :=
  (array.drop offset).take length

/-- A buffer with `bytes` stored at its start. -/
def fill (buffer : Buffer) (bytes : List UInt8) : Buffer := fun i => bytes.getD i (buffer i)

def respond (arrays : Arrays) (tid : Tid) : Call → Reply × Arrays
  | .create size =>
      if size = 0 ∨ arrays tid ≠ none then
        ({ code := -1, buffer := none }, arrays)
      else
        ({ code := 0, buffer := none },
          Function.update arrays tid (some (List.replicate size.toNat 0)))
  | .clone source =>
      match arrays tid, arrays source with
      | none, some array =>
          ({ code := 0, buffer := none }, Function.update arrays tid (some array))
      | _, _ => ({ code := -1, buffer := none }, arrays)
  | .write offset length buffer =>
      match arrays tid with
      | none => ({ code := -1, buffer := none }, arrays)
      | some array =>
          if offset.toNat + length.toNat ≤ array.length then
            ({ code := 0, buffer := none }, Function.update arrays tid
              (some (overwrite array offset.toNat ((List.range length.toNat).map buffer))))
          else
            ({ code := -1, buffer := none }, arrays)
  | .read offset length buffer =>
      match arrays tid with
      | none => ({ code := -1, buffer := some buffer }, arrays)
      | some array =>
          if offset.toNat + length.toNat ≤ array.length then
            ({ code := 0, buffer := some (fill buffer (slice array offset.toNat length.toNat)) },
              arrays)
          else
            ({ code := -1, buffer := some buffer }, arrays)
  | .destroy =>
      match arrays tid with
      | none => ({ code := -1, buffer := none }, arrays)
      | some _ => ({ code := 0, buffer := none }, Function.update arrays tid none)

theorem respond_other (arrays : Arrays) (call : Call) {tid other : Tid} (distinct : other ≠ tid) :
    (respond arrays tid call).2 other = arrays other := by
  cases call with
  | create size =>
      simp only [respond]
      split
      · rfl
      · exact Function.update_of_ne distinct _ _
  | clone source =>
      simp only [respond]
      split
      · exact Function.update_of_ne distinct _ _
      · rfl
  | write offset length buffer =>
      simp only [respond]
      split
      · rfl
      · split
        · exact Function.update_of_ne distinct _ _
        · rfl
  | read offset length buffer =>
      simp only [respond]
      split
      · rfl
      · split <;> rfl
  | destroy =>
      simp only [respond]
      split
      · rfl
      · exact Function.update_of_ne distinct _ _

theorem map_range_overwrite {size offset length : Nat} {before after : Nat → UInt8}
    {buffer : Buffer} (inside : offset + length ≤ size)
    (written : ∀ n < size, after n =
      if offset ≤ n ∧ n < offset + length then buffer (n - offset) else before n) :
    (List.range size).map after =
      overwrite ((List.range size).map before) offset ((List.range length).map buffer) := by
  apply List.ext_getElem?
  intro n
  have taken : (((List.range size).map before).take offset).length = offset := by
    simp only [List.length_take, List.length_map, List.length_range]
    omega
  have data : ((List.range length).map buffer).length = length := by simp
  by_cases beyond : size ≤ n
  · rw [List.getElem?_eq_none (by simpa using beyond), List.getElem?_eq_none]
    simp only [overwrite, List.length_append, List.length_drop, taken, data, List.length_map,
      List.length_range]
    omega
  · have small : n < size := not_le.mp beyond
    rw [List.getElem?_map, List.getElem?_range small, Option.map_some, written n small]
    by_cases early : n < offset
    · rw [if_neg (by omega), overwrite, List.append_assoc,
        List.getElem?_append_left (by omega), List.getElem?_take_of_lt early, List.getElem?_map,
        List.getElem?_range small]
      rfl
    · by_cases late : offset + length ≤ n
      · rw [if_neg (by omega), overwrite, List.getElem?_append_right (by simp [taken]; omega),
          List.getElem?_drop, List.length_append, taken, data, List.getElem?_map,
          show offset + length + (n - (offset + length)) = n by omega, List.getElem?_range small]
        rfl
      · rw [if_pos (by omega), overwrite, List.append_assoc,
          List.getElem?_append_right (by omega), List.getElem?_append_left (by omega), taken,
          List.getElem?_map, List.getElem?_range (by omega)]
        rfl

theorem fill_slice {size offset length : Nat} {bytes : Nat → UInt8} (buffer : Buffer)
    (inside : offset + length ≤ size) :
    fill buffer (slice ((List.range size).map bytes) offset length) = fun k =>
      if k < length then bytes (offset + k) else buffer k := by
  funext k
  rw [fill, slice, List.getD_eq_getElem?_getD]
  by_cases early : k < length
  · rw [if_pos early, List.getElem?_take_of_lt early, List.getElem?_drop, List.getElem?_map,
      List.getElem?_range (by omega)]
    rfl
  · rw [if_neg early, List.getElem?_eq_none]
    · rfl
    · rw [List.length_take]
      omega

end EC440.LocalStorage.Private
