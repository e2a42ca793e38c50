import Mathlib.Logic.Function.Basic
import Mathlib.Data.List.Basic

/-!
# File descriptors

A process has a table that says which open file a descriptor refers to.  A new
descriptor is the lowest that is not in use, and a child starts with a copy of
the table.
-/

namespace EC440.Descriptors

universe u

variable {File : Type u}

abbrev Table (File : Type u) := Nat → Option File

/-! ## Calls -/

/-- `close(fd)`, which fails and changes nothing if the descriptor is not open -/
def close (table : Table File) (fd : Nat) : Table File :=
  Function.update table fd none

/-- `dup2(old, new)`, which fails and changes nothing if `old` is not open -/
def dup2 (table : Table File) (old new : Nat) : Table File :=
  match table old with
  | some file => Function.update table new (some file)
  | none => table

def lowestFree (limit : Nat) (table : Table File) : Option Nat :=
  (List.range limit).find? fun fd => (table fd).isNone

def allocate (limit : Nat) (table : Table File) (file : File) : Option (Table File × Nat) :=
  (lowestFree limit table).map fun fd => (Function.update table fd (some file), fd)

/-- `pipe`, with the ends of the new pipe: the table and the two descriptors. -/
def pipe (limit : Nat) (table : Table File) (readEnd writeEnd : File) :
    Option (Table File × Nat × Nat) := do
  let (table, reader) ← allocate limit table readEnd
  let (table, writer) ← allocate limit table writeEnd
  some (table, reader, writer)

def closeAll (table : Table File) (fds : List Nat) : Table File :=
  fds.foldl close table

variable {table after : Table File} {fd : Nat}

/-! ## What they change -/

@[simp] theorem close_apply (table : Table File) (closed fd : Nat) :
    close table closed fd = if fd = closed then none else table fd := by
  by_cases same : fd = closed
  · rw [same, if_pos rfl, close, Function.update_self]
  · rw [if_neg same, close, Function.update_of_ne same]

theorem closeAll_apply (table : Table File) (fds : List Nat) (fd : Nat) :
    closeAll table fds fd = if fd ∈ fds then none else table fd := by
  induction fds generalizing table with
  | nil => rfl
  | cons closed rest inductionHypothesis =>
      refine (inductionHypothesis (close table closed)).trans ?_
      rw [close_apply]
      by_cases inRest : fd ∈ rest
      · rw [if_pos inRest, if_pos (List.mem_cons_of_mem _ inRest)]
      · simp [inRest]

theorem dup2_self {old new : Nat} {file : File} (isOpen : table old = some file) :
    dup2 table old new new = some file := by
  simp [dup2, isOpen]

@[simp] theorem dup2_of_ne {old new : Nat} (other : fd ≠ new) :
    dup2 table old new fd = table fd := by
  unfold dup2
  cases table old with
  | none => rfl
  | some file => exact Function.update_of_ne other ..

theorem allocate_eq {limit : Nat} {file : File}
    (allocated : allocate limit table file = some (after, fd)) :
    table fd = none ∧ after = Function.update table fd (some file) := by
  rcases Option.map_eq_some_iff.mp allocated with ⟨free, isFree, same⟩
  cases same
  have holds := List.find?_some isFree
  exact ⟨Option.isNone_iff_eq_none.mp holds, rfl⟩

theorem exists_allocate {limit : Nat} (file : File) (inside : fd < limit)
    (isFree : table fd = none) :
    ∃ new, allocate limit table file = some (Function.update table new (some file), new) ∧
      table new = none ∧ new < limit := by
  cases found : lowestFree limit table with
  | none =>
      have noneFree := List.find?_eq_none.mp found fd (List.mem_range.mpr inside)
      exact absurd (Option.isNone_iff_eq_none.mpr isFree) noneFree
  | some new =>
      have holds := List.find?_some found
      have newFree : table new = none := Option.isNone_iff_eq_none.mp holds
      have newInside : new < limit := List.mem_range.mp (List.mem_of_find?_eq_some found)
      refine ⟨new, ?_, newFree, newInside⟩
      rw [allocate, found]
      rfl

/-- The ends of a pipe get two descriptors that were free, and all others stay. -/
theorem pipe_eq {limit reader writer : Nat} {readEnd writeEnd : File}
    (opened : pipe limit table readEnd writeEnd = some (after, reader, writer)) :
    table reader = none ∧ table writer = none ∧ reader ≠ writer ∧
      after = Function.update (Function.update table reader (some readEnd)) writer
        (some writeEnd) := by
  simp only [pipe, Option.bind_eq_bind, Option.bind_eq_some_iff, Option.some.injEq,
    Prod.mk.injEq, Prod.exists] at opened
  rcases opened with ⟨middle, reader, forReader, last, writer, forWriter, rfl, rfl, rfl⟩
  rcases allocate_eq forReader with ⟨readerFree, rfl⟩
  rcases allocate_eq forWriter with ⟨writerFree, rfl⟩
  have differ : reader ≠ writer := by
    rintro rfl
    cases (Function.update_self ..).symm.trans writerFree
  rw [Function.update_of_ne differ.symm] at writerFree
  exact ⟨readerFree, writerFree, differ, rfl⟩

end EC440.Descriptors
