import Mathlib.Data.List.Basic

/-!
# Ranges of a sequence

Reading a range of a finite sequence, and writing another sequence over it.
A write may run past the end, which makes the sequence longer.
-/

namespace EC440.Ranges

universe u

variable {Cell : Type u} {cells data : List Cell} {position count : Nat}

/-- Up to `count` cells from `position` on. -/
def slice (cells : List Cell) (position count : Nat) : List Cell :=
  (cells.drop position).take count

/-- `data` written over the cells from `position` on. -/
def overwrite (cells : List Cell) (position : Nat) (data : List Cell) : List Cell :=
  cells.take position ++ data ++ cells.drop (position + data.length)

@[simp]
theorem length_slice : (slice cells position count).length = min count (cells.length - position) := by
  rw [slice, List.length_take, List.length_drop]

theorem getElem?_slice (index : Nat) :
    (slice cells position count)[index]? =
      if index < count then cells[position + index]? else none := by
  rw [slice, List.getElem?_take, List.getElem?_drop]

theorem length_overwrite (inside : position ≤ cells.length) :
    (overwrite cells position data).length = max cells.length (position + data.length) := by
  rw [overwrite, List.length_append, List.length_append, List.length_take, List.length_drop]
  omega

theorem getElem?_overwrite (inside : position ≤ cells.length) (index : Nat) :
    (overwrite cells position data)[index]? =
      if position ≤ index ∧ index < position + data.length then data[index - position]?
      else cells[index]? := by
  have kept : (cells.take position).length = position := by
    rw [List.length_take]
    omega
  rw [overwrite, List.append_assoc]
  by_cases early : index < position
  · rw [List.getElem?_append_left (by omega), List.getElem?_take_of_lt early, if_neg (by omega)]
  · rw [List.getElem?_append_right (by omega), kept]
    by_cases within : index < position + data.length
    · rw [List.getElem?_append_left (by omega), if_pos (by omega)]
    · rw [List.getElem?_append_right (by omega), List.getElem?_drop, if_neg (by omega)]
      congr 1
      omega

end EC440.Ranges
