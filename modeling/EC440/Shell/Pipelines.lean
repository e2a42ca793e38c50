import EC440.Library.Descriptors
import EC440.Shell.Processes

/-!
# Pipelines

How `main` wires the commands of a pipeline: the pipes it opens, what each child
makes of its descriptors before `execvp`, and what the parent closes.  The cells
from `pipefds` on are memory, of which the array is the first `2 * (num_cmd - 1)`.
-/

namespace EC440.Shell

open Descriptors

/-- What a descriptor may refer to.  The pipes are numbered in the order they are made. -/
inductive File where
  | named (name : Buffer)
  | readEnd (pipe : Nat)
  | writeEnd (pipe : Nat)
  deriving DecidableEq, Repr

def File.pipe : File → Option Nat
  | .named _ => none
  | .readEnd pipe | .writeEnd pipe => some pipe

/-- What the calls depend on: how many descriptors a process may have, and which files `open`
finds or makes. -/
structure Machine where
  limit : Nat
  opens : Buffer → Bool

/-- The shell in front of its commands: its descriptors, how many pipes there have been, the
memory from `pipefds` on, and which cells of it were stored to. -/
structure Wiring where
  table : Table File
  pipes : Nat
  pipefds : Nat → Nat
  stored : List Nat

/-! ## The parent -/

/-- `pipe(pipefds + i * 2)` -/
def openPipe (machine : Machine) (wiring : Wiring) (i : Nat) : Option Wiring := do
  let (table, reader, writer) ←
    pipe machine.limit wiring.table (.readEnd wiring.pipes) (.writeEnd wiring.pipes)
  some
    { table
      pipes := wiring.pipes + 1
      pipefds := Function.update (Function.update wiring.pipefds (i * 2) reader) (i * 2 + 1) writer
      stored := wiring.stored ++ [i * 2, i * 2 + 1] }

/-- The first rounds of the loop that opens the pipes.  A `pipe` that fails is called again with
the same `i`, and is `none` here. -/
def openPipes (machine : Machine) (wiring : Wiring) : Nat → Option Wiring
  | 0 => some wiring
  | i + 1 => (openPipes machine wiring i).bind fun wiring => openPipe machine wiring i

/-- The declaration of `pipefds`, and `while (i < 2 * (num_cmd-1))`. -/
def openAllPipes (machine : Machine) (wiring : Wiring) (numCmd : Nat) : Option Wiring :=
  openPipes machine { wiring with stored := [] } (2 * (numCmd - 1))

/-- `close(pipefds[j])` for all `j` below `2 * (num_cmd-1)` -/
def closePipes (pipefds : Nat → Nat) (numCmd : Nat) (table : Table File) : Table File :=
  closeAll table ((List.range (2 * (numCmd - 1))).map pipefds)

/-! ## The children -/

/-- `open`, `dup2` to standard input or output, and `close`, if there is a redirection.  Where
`open` fails, so do the others. -/
def redirect (machine : Machine) (file : Option Buffer) (standard : Nat) (table : Table File) :
    Table File :=
  match file with
  | none => table
  | some name =>
      if machine.opens name then
        match allocate machine.limit table (.named name) with
        | some (table, opened) => close (dup2 table opened standard) opened
        | none => table
      else table

/-- The child of the `i`-th command, from `fork` to its closing loop. -/
def connect (machine : Machine) (pipefds : Nat → Nat) (numCmd i : Nat) (command : Command)
    (table : Table File) : Table File :=
  if i = 0 then
    let table := redirect machine command.fileIn 0 table
    let table := close table (pipefds 0)
    dup2 table (pipefds (i * 2 + 1)) 1
  else if i < numCmd - 1 then
    let table := dup2 table (pipefds ((i - 1) * 2)) 0
    dup2 table (pipefds (i * 2 + 1)) 1
  else
    let table := redirect machine command.fileOut 1 table
    let table := dup2 table (pipefds ((i - 1) * 2)) 0
    close table (pipefds (2 * (numCmd - 1) - 1))

/-- The child of the `i`-th command, from `fork` to `execvp`. -/
def childTable (machine : Machine) (pipefds : Nat → Nat) (numCmd i : Nat) (command : Command)
    (table : Table File) : Table File :=
  closePipes pipefds numCmd (connect machine pipefds numCmd i command table)

/-- The descriptors of the children at `execvp`, with the commands that `stageChild` finds.  `fork`
copies the descriptors of the shell. -/
def Wiring.children (machine : Machine) (wiring : Wiring) (numCmd : Nat)
    (commands : Nat → Command) (i : Nat) : Table File :=
  childTable machine wiring.pipefds numCmd i (commands i) wiring.table

def Wiring.parent (wiring : Wiring) (numCmd : Nat) : Table File :=
  closePipes wiring.pipefds numCmd wiring.table

/-! ## What is wanted -/

def Wiring.Numbered (wiring : Wiring) : Prop :=
  ∀ fd file, wiring.table fd = some file → ∀ pipe ∈ file.pipe, pipe < wiring.pipes

/-- Each command reads from the one before it, and sees the end of what that writes.  The pipes of
the pipeline are those from `first` on. -/
structure Connected (first numCmd : Nat) (parent : Table File) (child : Nat → Table File) :
    Prop where
  input : ∀ i, 0 < i → i < numCmd → child i 0 = some (.readEnd (first + (i - 1)))
  output : ∀ i, i + 1 < numCmd → child i 1 = some (.writeEnd (first + i))
  endOfFile : ∀ i, i + 1 < numCmd → ∀ fd, parent fd ≠ some (.writeEnd (first + i)) ∧
    ∀ j < numCmd, j ≠ i → child j fd ≠ some (.writeEnd (first + i))

/-- The commands are connected, with no more pipes and no more descriptors than that takes. -/
structure Wired (numCmd : Nat) (start opened : Wiring) (parent : Table File)
    (child : Nat → Table File) : Prop extends Connected start.pipes numCmd parent child where
  pipes : opened.pipes = start.pipes + (numCmd - 1)
  inside : ∀ cell ∈ opened.stored, cell < 2 * (numCmd - 1)
  nothingElse : ∀ i < numCmd, ∀ fd file, child i fd = some file →
    (∃ pipe ∈ file.pipe, start.pipes ≤ pipe) →
      fd = 0 ∧ 0 < i ∧ file = .readEnd (start.pipes + (i - 1)) ∨
        fd = 1 ∧ i + 1 < numCmd ∧ file = .writeEnd (start.pipes + i)

/-! ## The pipes that are opened -/

variable {machine : Machine} {start wiring after : Wiring} {i numCmd fd : Nat} {file : File}

/-- Which end `pipe` stores in the cell. -/
def endAt (first cell : Nat) : File :=
  if cell % 2 = 0 then .readEnd (first + cell / 2) else .writeEnd (first + cell / 2)

theorem endAt_pipe (first cell : Nat) : (endAt first cell).pipe = some (first + cell / 2) := by
  unfold endAt
  split <;> rfl

theorem endAt_even (first i : Nat) : endAt first (i * 2) = .readEnd (first + i) := by
  simp [endAt]

theorem endAt_odd (first i : Nat) : endAt first (i * 2 + 1) = .writeEnd (first + i) := by
  have odd : (i * 2 + 1) % 2 = 1 := by omega
  have half : (i * 2 + 1) / 2 = i := by omega
  simp [endAt, odd, half]

/-- What the first rounds have opened and stored. -/
structure Opened (start wiring : Wiring) (i : Nat) : Prop where
  pipes : wiring.pipes = start.pipes + i
  stored : wiring.stored = start.stored ++ List.range (2 * i)
  ends : ∀ cell < 2 * i, wiring.table (wiring.pipefds cell) = some (endAt start.pipes cell)
  fresh : ∀ cell < 2 * i, start.table (wiring.pipefds cell) = none
  known : ∀ fd file, wiring.table fd = some file →
    start.table fd = some file ∨ ∃ cell < 2 * i, fd = wiring.pipefds cell
  kept : ∀ fd, start.table fd ≠ none → wiring.table fd = start.table fd

namespace Opened

theorem initial (start : Wiring) : Opened start start 0 where
  pipes := rfl
  stored := (List.append_nil _).symm
  ends cell none := absurd none (Nat.not_lt_zero cell)
  fresh cell none := absurd none (Nat.not_lt_zero cell)
  known _ _ isFile := .inl isFile
  kept _ _ := rfl

theorem next (opened : Opened start wiring i) (succeeds : openPipe machine wiring i = some after) :
    Opened start after (i + 1) := by
  simp only [openPipe, Option.bind_eq_bind, Option.bind_eq_some_iff, Option.some.injEq,
    Prod.exists] at succeeds
  rcases succeeds with ⟨table, reader, writer, piped, rfl⟩
  rcases pipe_eq piped with ⟨readerFree, writerFree, differ, rfl⟩
  have free {fd : Nat} (isFree : wiring.table fd = none) : start.table fd = none := by
    by_contra isOpen
    exact isOpen ((opened.kept fd isOpen).symm.trans isFree)
  -- The cells of this round, and those of the rounds before.
  have cases {cell : Nat} (inRange : cell < 2 * (i + 1)) :
      cell = i * 2 ∨ cell = i * 2 + 1 ∨ cell < 2 * i ∧ cell ≠ i * 2 ∧ cell ≠ i * 2 + 1 := by
    omega
  have used {cell : Nat} (before : cell < 2 * i) :
      wiring.pipefds cell ≠ reader ∧ wiring.pipefds cell ≠ writer := by
    constructor
    · intro same
      cases (same ▸ opened.ends cell before).symm.trans readerFree
    · intro same
      cases (same ▸ opened.ends cell before).symm.trans writerFree
  constructor
  case pipes => exact congrArg (· + 1) opened.pipes
  case stored =>
    have range : List.range (2 * (i + 1)) = List.range (2 * i) ++ [i * 2, i * 2 + 1] := by
      rw [show 2 * (i + 1) = 2 * i + 1 + 1 by omega, List.range_succ, List.range_succ,
        Nat.mul_comm 2 i]
      simp
    rw [range, opened.stored, List.append_assoc]
  case ends =>
    intro cell inRange
    rcases cases inRange with rfl | rfl | ⟨before, notReader, notWriter⟩
    · simp [Function.update_of_ne differ, endAt_even, opened.pipes]
    · simp [endAt_odd, opened.pipes]
    · simp [Function.update_of_ne notReader, Function.update_of_ne notWriter,
        Function.update_of_ne (used before).1, Function.update_of_ne (used before).2,
        opened.ends cell before]
  case fresh =>
    intro cell inRange
    rcases cases inRange with rfl | rfl | ⟨before, notReader, notWriter⟩
    · simpa using free readerFree
    · simpa using free writerFree
    · simpa [Function.update_of_ne notReader, Function.update_of_ne notWriter] using
        opened.fresh cell before
  case known =>
    intro fd file isFile
    by_cases isWriter : fd = writer
    · exact .inr ⟨i * 2 + 1, by omega, by simp [isWriter]⟩
    by_cases isReader : fd = reader
    · exact .inr ⟨i * 2, by omega, by simp [isReader]⟩
    simp only [Function.update_of_ne isWriter, Function.update_of_ne isReader] at isFile
    rcases opened.known fd file isFile with before | ⟨cell, before, same⟩
    · exact .inl before
    · have notReader : cell ≠ i * 2 := by omega
      have notWriter : cell ≠ i * 2 + 1 := by omega
      refine .inr ⟨cell, by omega, ?_⟩
      simpa [Function.update_of_ne notReader, Function.update_of_ne notWriter] using same
  case kept =>
    intro fd isOpen
    have notReader : fd ≠ reader := by
      rintro rfl
      exact isOpen (free readerFree)
    have notWriter : fd ≠ writer := by
      rintro rfl
      exact isOpen (free writerFree)
    simpa [Function.update_of_ne notWriter, Function.update_of_ne notReader] using
      opened.kept fd isOpen

theorem rounds (succeeds : openPipes machine start i = some wiring) : Opened start wiring i := by
  induction i generalizing wiring with
  | zero =>
      cases succeeds
      exact .initial start
  | succ i inductionHypothesis =>
      rcases Option.bind_eq_some_iff.mp succeeds with ⟨before, opened, succeeds⟩
      exact (inductionHypothesis opened).next succeeds

variable (opened : Opened start wiring i)
include opened

theorem distinct {cell other : Nat} (inRange : cell < 2 * i) (otherInRange : other < 2 * i)
    (same : wiring.pipefds cell = wiring.pipefds other) : cell = other := by
  have ends := (opened.ends cell inRange).symm.trans (same ▸ opened.ends other otherInRange)
  unfold endAt at ends
  split at ends <;> split at ends <;> simp at ends <;> omega

theorem notStandard {cell standard : Nat} (isOpen : start.table standard ≠ none)
    (inRange : cell < 2 * i) : wiring.pipefds cell ≠ standard := by
  rintro rfl
  exact isOpen (opened.fresh cell inRange)

theorem cell_of_pipe (numbered : start.Numbered) (isFile : wiring.table fd = some file)
    {pipe : Nat} (isPipe : pipe ∈ file.pipe) (new : start.pipes ≤ pipe) :
    ∃ cell < 2 * i, fd = wiring.pipefds cell ∧ file = endAt start.pipes cell := by
  rcases opened.known fd file isFile with before | ⟨cell, inRange, rfl⟩
  · exact absurd (numbered fd file before pipe isPipe) (Nat.not_lt.mpr new)
  · cases isFile.symm.trans (opened.ends cell inRange)
    exact ⟨cell, inRange, rfl, rfl⟩

end Opened

/-! ## What a child makes of them -/

variable {table : Table File} {pipefds : Nat → Nat} {command : Command}

/-- Either nothing happens, or standard input or output becomes the file and nothing else
changes. -/
theorem redirect_cases (redirection : Option Buffer) (standard : Nat) :
    redirect machine redirection standard table = table ∨
      ∃ name new, table new = none ∧ redirect machine redirection standard table =
        close (dup2 (Function.update table new (some (.named name))) new standard) new := by
  cases redirection with
  | none => exact .inl rfl
  | some name =>
      by_cases opens : machine.opens name
      · rcases allocated : allocate machine.limit table (.named name) with _ | ⟨opened, new⟩
        · exact .inl (by simp [redirect, allocated])
        · rcases allocate_eq allocated with ⟨free, rfl⟩
          exact .inr ⟨name, new, free, by simp [redirect, opens, allocated]⟩
      · exact .inl (by simp [redirect, opens])

theorem redirect_of_ne {redirection : Option Buffer} {standard : Nat} (other : fd ≠ standard) :
    redirect machine redirection standard table fd = table fd := by
  rcases redirect_cases redirection standard with same | ⟨name, new, free, same⟩
  · rw [same]
  · rw [same, close_apply]
    split
    next isNew => exact (isNew ▸ free).symm
    next notNew =>
        rw [dup2_of_ne other]
        exact Function.update_of_ne notNew ..

theorem redirect_standard {redirection : Option Buffer} {standard : Nat}
    (isFile : redirect machine redirection standard table standard = some file) :
    table standard = some file ∨ file.pipe = none := by
  rcases redirect_cases redirection standard with same | ⟨name, new, free, same⟩
  · rw [same] at isFile
    exact .inl isFile
  · rw [same, close_apply] at isFile
    split at isFile
    · cases isFile
    · rw [dup2_self (Function.update_self ..)] at isFile
      cases isFile
      exact .inr rfl

theorem closePipes_of_ne (unlisted : ∀ cell < 2 * (numCmd - 1), pipefds cell ≠ fd) :
    closePipes pipefds numCmd table fd = table fd := by
  refine (closeAll_apply ..).trans (if_neg ?_)
  intro listed
  rcases List.mem_map.mp listed with ⟨cell, inRange, same⟩
  exact unlisted cell (List.mem_range.mp inRange) same

theorem closePipes_some (isFile : closePipes pipefds numCmd table fd = some file) :
    table fd = some file ∧ ∀ cell < 2 * (numCmd - 1), pipefds cell ≠ fd := by
  have applied := (closeAll_apply table ((List.range (2 * (numCmd - 1))).map pipefds) fd).symm.trans
    isFile
  split at applied
  · cases applied
  next unlisted =>
      refine ⟨applied, fun cell inRange same => ?_⟩
      exact unlisted (List.mem_map.mpr ⟨cell, List.mem_range.mpr inRange, same⟩)

theorem connect_of_ne (notInput : fd ≠ 0) (notOutput : fd ≠ 1) :
    connect machine pipefds numCmd i command table fd = table fd ∨
      connect machine pipefds numCmd i command table fd = none ∧
        (fd = pipefds 0 ∨ fd = pipefds (2 * (numCmd - 1) - 1)) := by
  unfold connect
  split
  · rw [dup2_of_ne notOutput, close_apply]
    split
    next closed => exact .inr ⟨rfl, .inl closed⟩
    next => exact .inl (redirect_of_ne notInput)
  · split
    · rw [dup2_of_ne notOutput, dup2_of_ne notInput]
      exact .inl rfl
    · rw [close_apply]
      split
      next closed => exact .inr ⟨rfl, .inr closed⟩
      next =>
          rw [dup2_of_ne notInput]
          exact .inl (redirect_of_ne notOutput)

section Surplus

variable (opened : Opened start wiring (2 * (numCmd - 1)))
include opened

theorem unlisted_of_surplus {cell : Nat} (surplus : 2 * (numCmd - 1) ≤ cell)
    (inRange : cell < 2 * (2 * (numCmd - 1))) :
    ∀ listed < 2 * (numCmd - 1), wiring.pipefds listed ≠ wiring.pipefds cell := by
  intro listed isListed same
  have cells := opened.distinct (by omega) inRange same
  omega

/-- The shell keeps both ends of the pipes that no command uses. -/
theorem parent_surplus {cell : Nat} (surplus : 2 * (numCmd - 1) ≤ cell)
    (inRange : cell < 2 * (2 * (numCmd - 1))) :
    wiring.parent numCmd (wiring.pipefds cell) = some (endAt start.pipes cell) :=
  (closePipes_of_ne (unlisted_of_surplus opened surplus inRange)).trans (opened.ends cell inRange)

/-- The children keep them, too. -/
theorem children_surplus (hasInput : start.table 0 ≠ none) (hasOutput : start.table 1 ≠ none)
    (commands : Nat → Command) {cell : Nat} (surplus : 2 * (numCmd - 1) ≤ cell)
    (inRange : cell < 2 * (2 * (numCmd - 1))) :
    wiring.children machine numCmd commands i (wiring.pipefds cell) =
      some (endAt start.pipes cell) := by
  have unlisted := unlisted_of_surplus opened surplus inRange
  refine (closePipes_of_ne unlisted).trans ?_
  rcases connect_of_ne (opened.notStandard hasInput inRange)
    (opened.notStandard hasOutput inRange) with same | ⟨-, isFirst | isLast⟩
  · exact same.trans (opened.ends cell inRange)
  · exact absurd isFirst.symm (unlisted 0 (by omega))
  · exact absurd isLast.symm (unlisted (2 * (numCmd - 1) - 1) (by omega))

end Surplus

section Children

variable (several : 2 ≤ numCmd) (opened : Opened start wiring (2 * (numCmd - 1)))
include several opened

theorem connect_input (hasInput : start.table 0 ≠ none) (hasOutput : start.table 1 ≠ none)
    (positive : 0 < i) (isChild : i < numCmd) :
    connect machine wiring.pipefds numCmd i command wiring.table 0 =
      some (.readEnd (start.pipes + (i - 1))) := by
  have inRange : (i - 1) * 2 < 2 * (2 * (numCmd - 1)) := by omega
  have isEnd := opened.ends _ inRange
  rw [endAt_even] at isEnd
  rw [connect, if_neg (Nat.ne_of_gt positive)]
  split
  · rw [dup2_of_ne Nat.zero_ne_one]
    exact dup2_self isEnd
  · have notClosed := opened.notStandard hasInput
      (show 2 * (numCmd - 1) - 1 < 2 * (2 * (numCmd - 1)) by omega)
    rw [close_apply, if_neg notClosed.symm]
    apply dup2_self
    rw [redirect_of_ne (opened.notStandard hasOutput inRange)]
    exact isEnd

theorem connect_output (hasInput : start.table 0 ≠ none) (isChild : i + 1 < numCmd) :
    connect machine wiring.pipefds numCmd i command wiring.table 1 =
      some (.writeEnd (start.pipes + i)) := by
  have inRange : i * 2 + 1 < 2 * (2 * (numCmd - 1)) := by omega
  have isEnd := opened.ends _ inRange
  rw [endAt_odd] at isEnd
  have notInput := opened.notStandard hasInput inRange
  unfold connect
  split
  next first =>
      subst first
      apply dup2_self
      have notClosed : wiring.pipefds (0 * 2 + 1) ≠ wiring.pipefds 0 := by
        intro same
        have cells := opened.distinct inRange (by omega) same
        cases cells
      rw [close_apply, if_neg notClosed, redirect_of_ne notInput]
      exact isEnd
  next =>
      rw [if_pos (show i < numCmd - 1 by omega)]
      apply dup2_self
      rw [dup2_of_ne notInput]
      exact isEnd

theorem connect_firstInput (hasInput : start.table 0 ≠ none)
    (isFile : connect machine wiring.pipefds numCmd 0 command wiring.table 0 = some file) :
    wiring.table 0 = some file ∨ file.pipe = none := by
  have notClosed := opened.notStandard hasInput (show 0 < 2 * (2 * (numCmd - 1)) by omega)
  rw [connect, if_pos rfl, dup2_of_ne Nat.zero_ne_one, close_apply, if_neg notClosed.symm] at isFile
  exact redirect_standard isFile

theorem connect_lastOutput (hasOutput : start.table 1 ≠ none)
    (isFile : connect machine wiring.pipefds numCmd (numCmd - 1) command wiring.table 1 =
      some file) :
    wiring.table 1 = some file ∨ file.pipe = none := by
  have notFirst : numCmd - 1 ≠ 0 := by omega
  have notClosed := opened.notStandard hasOutput
    (show 2 * (numCmd - 1) - 1 < 2 * (2 * (numCmd - 1)) by omega)
  rw [connect, if_neg notFirst, if_neg (Nat.lt_irrefl _), close_apply, if_neg notClosed.symm,
    dup2_of_ne Nat.one_ne_zero] at isFile
  exact redirect_standard isFile

theorem childTable_pipe (numbered : start.Numbered) (hasInput : start.table 0 ≠ none)
    (hasOutput : start.table 1 ≠ none) (isChild : i < numCmd)
    (isFile : childTable machine wiring.pipefds numCmd i command wiring.table fd = some file)
    {pipe : Nat} (isPipe : pipe ∈ file.pipe) (new : start.pipes ≤ pipe) :
    (fd = 0 ∧ 0 < i ∧ file = .readEnd (start.pipes + (i - 1)) ∨
      fd = 1 ∧ i + 1 < numCmd ∧ file = .writeEnd (start.pipes + i)) ∨
      start.pipes + (numCmd - 1) ≤ pipe := by
  rcases closePipes_some isFile with ⟨connected, unlisted⟩
  -- Neither the shell's own input nor its own output is one of the pipes.
  have notOwn {standard : Nat} (isOpen : start.table standard ≠ none)
      (own : wiring.table standard = some file ∨ file.pipe = none) : False := by
    rcases own with own | noPipe
    · rcases opened.cell_of_pipe numbered own isPipe new with ⟨cell, inRange, same, -⟩
      exact opened.notStandard isOpen inRange same.symm
    · cases noPipe.symm.trans isPipe
  by_cases isInput : fd = 0
  · subst isInput
    rcases Nat.eq_zero_or_pos i with rfl | positive
    · exact (notOwn hasInput (connect_firstInput several opened hasInput connected)).elim
    · cases connected.symm.trans
        (connect_input several opened hasInput hasOutput positive isChild)
      exact .inl (.inl ⟨rfl, positive, rfl⟩)
  by_cases isOutput : fd = 1
  · subst isOutput
    by_cases notLast : i + 1 < numCmd
    · cases connected.symm.trans (connect_output several opened hasInput notLast)
      exact .inl (.inr ⟨rfl, notLast, rfl⟩)
    · have last : i = numCmd - 1 := by omega
      subst last
      exact (notOwn hasOutput (connect_lastOutput several opened hasOutput connected)).elim
  rcases connect_of_ne isInput isOutput with same | ⟨closed, -⟩
  · rw [same] at connected
    rcases opened.cell_of_pipe numbered connected isPipe new with ⟨cell, inRange, rfl, rfl⟩
    have surplus : 2 * (numCmd - 1) ≤ cell := by
      by_contra listed
      exact unlisted cell (Nat.lt_of_not_le listed) rfl
    rw [endAt_pipe] at isPipe
    cases isPipe
    exact .inr (by omega)
  · cases closed.symm.trans connected

theorem connected (numbered : start.Numbered) (hasInput : start.table 0 ≠ none)
    (hasOutput : start.table 1 ≠ none) (commands : Nat → Command) :
    Connected start.pipes numCmd (wiring.parent numCmd)
      (wiring.children machine numCmd commands) where
  input i positive isChild := by
    refine (closePipes_of_ne fun cell listed => ?_).trans
      (connect_input several opened hasInput hasOutput positive isChild)
    exact opened.notStandard hasInput (by omega)
  output i isChild := by
    refine (closePipes_of_ne fun cell listed => ?_).trans
      (connect_output several opened hasInput isChild)
    exact opened.notStandard hasOutput (by omega)
  endOfFile i isPipe fd := by
    constructor
    · intro isWriter
      rcases closePipes_some isWriter with ⟨isFile, unlisted⟩
      rcases opened.cell_of_pipe numbered isFile rfl (Nat.le_add_right ..) with
        ⟨cell, inRange, rfl, same⟩
      have pipes := (congrArg File.pipe same).trans (endAt_pipe start.pipes cell)
      simp only [File.pipe, Option.some.injEq] at pipes
      exact unlisted cell (by omega) rfl
    · intro j isChild other isWriter
      rcases childTable_pipe several opened numbered hasInput hasOutput isChild isWriter rfl
        (Nat.le_add_right ..) with (⟨-, -, same⟩ | ⟨-, -, same⟩) | surplus
      · cases same
      · simp only [File.writeEnd.injEq] at same
        omega
      · omega

end Children

/-! ## The pipeline -/

theorem notWired (several : 2 ≤ numCmd)
    (succeeds : openAllPipes machine start numCmd = some wiring) (parent : Table File)
    (child : Nat → Table File) : ¬Wired numCmd start wiring parent child := by
  intro wired
  have pipes := (Opened.rounds succeeds).pipes
  have wanted := wired.pipes
  simp only at pipes
  omega

/-- For every number of commands the shell opens twice the pipes that they need, and stores the
descriptors of the others behind the array.  The commands are connected as they should be, but the
shell and all of its children keep both ends of the pipes that no command uses. -/
theorem pipeline_opensTwice (machine : Machine) (numCmd : Nat) (start wiring : Wiring)
    (commands : Nat → Command) (several : 2 ≤ numCmd) (numbered : start.Numbered)
    (succeeds : openAllPipes machine start numCmd = some wiring) :
    wiring.pipes = start.pipes + 2 * (numCmd - 1) ∧
      wiring.stored = List.range (2 * (2 * (numCmd - 1))) ∧
      (start.table 0 ≠ none → start.table 1 ≠ none →
        Connected start.pipes numCmd (wiring.parent numCmd)
            (wiring.children machine numCmd commands) ∧
          ∀ cell, 2 * (numCmd - 1) ≤ cell → cell < 2 * (2 * (numCmd - 1)) →
            wiring.parent numCmd (wiring.pipefds cell) = some (endAt start.pipes cell) ∧
            ∀ i < numCmd, wiring.children machine numCmd commands i (wiring.pipefds cell) =
              some (endAt start.pipes cell)) ∧
      ¬Wired numCmd start wiring (wiring.parent numCmd)
        (wiring.children machine numCmd commands) := by
  have opened := Opened.rounds succeeds
  refine ⟨opened.pipes, opened.stored, fun hasInput hasOutput => ⟨?_, ?_⟩,
    notWired several succeeds _ _⟩
  · exact connected several opened numbered hasInput hasOutput commands
  · intro cell surplus inRange
    constructor
    · exact parent_surplus opened surplus inRange
    · intro i _
      exact children_surplus opened hasInput hasOutput commands surplus inRange

/-! ## Two commands -/

def smallMachine : Machine where
  limit := 16
  opens _ := true

def terminalShell : Wiring where
  table fd := if fd < 3 then some (.named [116, 116, 121]) else none
  pipes := 0
  pipefds _ := 0
  stored := []

def twoCommands (i : Nat) : Command where
  args := [[97 + UInt8.ofNat i]]
  fileIn := none
  fileOut := none

-- The second of two commands has the first pipe as input, and both ends of a second pipe.
example : (openAllPipes smallMachine terminalShell 2).map
    (fun wiring => (List.range 7).map (wiring.children smallMachine 2 twoCommands 1)) =
    some [some (.readEnd 0), some (.named [116, 116, 121]), some (.named [116, 116, 121]), none,
      none, some (.readEnd 1), some (.writeEnd 1)] := by
  decide +kernel

theorem terminalShell_numbered : terminalShell.Numbered := by
  intro fd file isFile pipe isPipe
  simp only [terminalShell, Option.ite_none_right_eq_some, Option.some.injEq] at isFile
  rcases isFile with ⟨-, rfl⟩
  cases isPipe

theorem terminalShell_opens :
    ∃ wiring, openAllPipes smallMachine terminalShell 2 = some wiring := by
  have evaluated : (openAllPipes smallMachine terminalShell 2).isSome = true := by
    decide +kernel
  exact Option.isSome_iff_exists.mp evaluated

theorem pipeline_opensTwice_two :
    ∃ wiring, openAllPipes smallMachine terminalShell 2 = some wiring ∧
      wiring.pipes = 2 ∧ wiring.stored = [0, 1, 2, 3] ∧
      Connected 0 2 (wiring.parent 2) (wiring.children smallMachine 2 twoCommands) ∧
      wiring.children smallMachine 2 twoCommands 1 (wiring.pipefds 3) = some (.writeEnd 1) ∧
      ¬Wired 2 terminalShell wiring (wiring.parent 2)
        (wiring.children smallMachine 2 twoCommands) := by
  rcases terminalShell_opens with ⟨wiring, succeeds⟩
  rcases pipeline_opensTwice smallMachine 2 terminalShell wiring twoCommands (Nat.le_refl 2)
    terminalShell_numbered succeeds with ⟨pipes, stored, kept, notWired⟩
  rcases kept (by decide) (by decide) with ⟨connected, surplus⟩
  exact ⟨wiring, succeeds, pipes, stored, connected,
    (surplus 3 (by decide) (by decide)).2 1 (by decide), notWired⟩

theorem pipeline_opensTwice_broken :
    ¬∀ (machine : Machine) (numCmd : Nat) (start wiring : Wiring) (commands : Nat → Command),
      2 ≤ numCmd → start.Numbered → openAllPipes machine start numCmd = some wiring →
      Wired numCmd start wiring (wiring.parent numCmd)
        (wiring.children machine numCmd commands) := by
  intro always
  rcases terminalShell_opens with ⟨wiring, succeeds⟩
  exact notWired (Nat.le_refl 2) succeeds _ _
    (always smallMachine 2 terminalShell wiring twoCommands (Nat.le_refl 2) terminalShell_numbered
      succeeds)

end EC440.Shell
