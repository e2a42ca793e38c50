import Mathlib.Data.List.Range
import Mathlib.Tactic.Ring
import Mathlib.Tactic.Linarith

/-!
# Flat memory and copies into it

A region of memory is a function from offsets to cells.  Offsets are integers,
so that an access before the start of the region has a meaning too.  A loop
that copies equally wide pieces one behind the other is a single copy of the
tiled pieces.
-/

namespace EC440

universe u

/-- Cells relative to the start of a region. -/
abbrev Memory (Cell : Type u) := Int → Cell

namespace Memory

variable {Cell : Type u}

/-- Copy `length` cells of `source` to `position`. -/
def memcpy (target : Memory Cell) (position : Int) (source : Memory Cell) (length : Nat) :
    Memory Cell := fun offset =>
  if position ≤ offset ∧ offset < position + length then source (offset - position)
  else target offset

/-- The region seen from `position` on. -/
def from_ (memory : Memory Cell) (position : Int) : Memory Cell :=
  fun offset => memory (position + offset)

/-- Pieces of one width laid one behind the other. -/
def tiled (width : Nat) (piece : Nat → Memory Cell) : Memory Cell :=
  fun offset => piece (offset / width).toNat (offset % width)

theorem memcpy_of_mem {target source : Memory Cell} {position offset : Int} {length : Nat}
    (lower : position ≤ offset) (upper : offset < position + length) :
    memcpy target position source length offset = source (offset - position) :=
  if_pos ⟨lower, upper⟩

theorem memcpy_of_notMem {target source : Memory Cell} {position offset : Int} {length : Nat}
    (outside : ¬(position ≤ offset ∧ offset < position + length)) :
    memcpy target position source length offset = target offset :=
  if_neg outside

@[simp]
theorem from_apply (memory : Memory Cell) (position offset : Int) :
    memory.from_ position offset = memory (position + offset) := rfl

/-- A loop of adjacent copies is one copy. -/
theorem foldl_memcpy (width count : Nat) (piece : Nat → Memory Cell) (base : Int)
    (target : Memory Cell) :
    (List.range count).foldl
        (fun memory (i : Nat) => memcpy memory (base + i * width) (piece i) width) target =
      memcpy target base (tiled width piece) (count * width) := by
  induction count with
  | zero =>
      funext offset
      simp [memcpy]
  | succ count inductionHypothesis =>
      rw [List.range_succ, List.foldl_append, inductionHypothesis]
      funext offset
      simp only [List.foldl_cons, List.foldl_nil]
      have total : ((count + 1 : Nat) * width : Nat) = count * width + width := by ring
      by_cases last : base + count * width ≤ offset ∧ offset < base + count * width + width
      · have inside : base ≤ offset ∧ offset < base + ((count + 1) * width : Nat) := by
          have nonneg : (0 : Int) ≤ count * width := by positivity
          rw [total]
          push_cast
          omega
        rw [memcpy_of_mem last.1 last.2, memcpy_of_mem inside.1 inside.2, tiled]
        have position : offset - base = (offset - (base + count * width)) + width * count := by
          ring
        have small : 0 ≤ offset - (base + count * width) ∧
            offset - (base + count * width) < width := by omega
        rw [position, Int.add_mul_ediv_left _ _ (by omega), Int.add_mul_emod_self_left,
          Int.ediv_eq_zero_of_lt small.1 small.2, Int.emod_eq_of_lt small.1 small.2]
        simp
      · rw [memcpy_of_notMem last]
        by_cases earlier : base ≤ offset ∧ offset < base + (count * width : Nat)
        · have inside : base ≤ offset ∧ offset < base + ((count + 1) * width : Nat) := by
            rw [total]
            push_cast at earlier ⊢
            omega
          rw [memcpy_of_mem earlier.1 earlier.2, memcpy_of_mem inside.1 inside.2]
        · have outside : ¬(base ≤ offset ∧ offset < base + ((count + 1) * width : Nat)) := by
            rw [total]
            push_cast at earlier ⊢
            omega
          rw [memcpy_of_notMem earlier, memcpy_of_notMem outside]

theorem foldl_memcpy_zero (width count : Nat) (piece : Nat → Memory Cell)
    (target : Memory Cell) :
    (List.range count).foldl
        (fun memory (i : Nat) => memcpy memory (i * width) (piece i) width) target =
      memcpy target 0 (tiled width piece) (count * width) := by
  simpa using foldl_memcpy width count piece 0 target

end Memory

end EC440
