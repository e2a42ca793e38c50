import Mathlib.Logic.Relation
import EC440.Shell.Words

/-!
# The array that parse_input fills

`parse_input` allocates 512 pointers and stores one after the other without
looking at their number.  Here the array is part of the state: a store behind
its end is `none`, and then the function does not return.  It returns if and
only if fewer than 512 strings are found, and a line of 511 bytes has no more.
-/

namespace EC440.Shell

variable {before text line rest behind : Buffer} {delim : Byte} {pointers : List Pointer}

/-- What `malloc(512*sizeof(char*))` returns.  What it holds at first is arbitrary. -/
abbrev Separated := Vector (Option Pointer) 512

/-- `*(separated+i) = pointer` -/
def store (separated : Separated) (i : Nat) (pointer : Option Pointer) : Option Separated :=
  if inside : i < 512 then some (separated.set i pointer) else none

/-- The variables of `parse_input`, at the condition of its loop. -/
structure Scan where
  buffer : Buffer
  lim : Option Pointer
  separated : Separated
  i : Nat

/-- In front of the loop. -/
def parseStart (buffer : Buffer) (line : Pointer) (delim : Byte) (allocated : Separated) : Scan :=
  let lim := strpbrk buffer line delim
  let leading := buffer[line]? = some space
  { buffer
    lim :=
      if leading ∧ delim = space then lim.bind fun lim => strpbrk buffer (lim + 1) delim else lim
    separated := allocated.set 0 (some (if leading then line + 1 else line))
    i := 1 }

/-- A round of the loop, with the delimiter that `lim` points to. -/
def Scan.round (delim : Byte) (scan : Scan) (lim : Pointer) : Option Scan :=
  let next (separated : Separated) (i : Nat) : Scan :=
    { buffer := scan.buffer.set lim 0
      lim := strpbrk scan.buffer (lim + 1) delim
      separated
      i }
  if Kept (cstring scan.buffer (lim + 1)) then
    (store scan.separated scan.i (some (lim + 1))).map fun separated => next separated (scan.i + 1)
  else some (next scan.separated scan.i)

def ParseStep (delim : Byte) (scan after : Scan) : Prop :=
  ∃ lim, scan.lim = some lim ∧ scan.round delim lim = some after

/-- What `parse_input` leaves behind. -/
structure Parsed where
  buffer : Buffer
  separated : Separated
  numfound : Nat

/-- Behind the loop. -/
def Scan.finish (scan : Scan) : Option Parsed := do
  let last ← scan.separated[scan.i - 1]?.join
  let separated ← store scan.separated scan.i none
  some { buffer := cutAt scan.buffer last newline, separated, numfound := scan.i }

/-- `parse_input(line, &numfound, delim)` comes to its end, and never stores behind the array. -/
def ParseReturns (buffer : Buffer) (line : Pointer) (delim : Byte) (allocated : Separated)
    (parsed : Parsed) : Prop :=
  ∃ last : Scan, Relation.ReflTransGen (ParseStep delim) (parseStart buffer line delim allocated)
      last ∧ last.lim = none ∧ last.finish = some parsed

/-! ## The array -/

def holding (allocated : Separated) (stored : List (Option Pointer)) : Separated :=
  Vector.ofFn fun i => stored[i.val]?.getD allocated[i.val]

theorem store_holding (allocated : Separated) (stored : List (Option Pointer))
    (pointer : Option Pointer) :
    store (holding allocated stored) stored.length pointer =
      if stored.length < 512 then some (holding allocated (stored ++ [pointer])) else none := by
  unfold store
  split
  next inside =>
      apply congrArg some
      ext i bound : 1
      rw [Vector.getElem_set]
      simp only [holding, Vector.getElem_ofFn]
      split
      next isPlace => simp [← isPlace]
      next other =>
          rcases Nat.lt_or_gt_of_ne other with later | earlier
          · have length : (stored ++ [pointer]).length ≤ i := by
              rw [List.length_append]
              exact later
            rw [List.getElem?_eq_none later.le, List.getElem?_eq_none length]
          · rw [List.getElem?_append_left earlier]
  next => rfl

theorem set_zero (allocated : Separated) (pointer : Option Pointer) :
    allocated.set 0 pointer = holding allocated [pointer] := by
  have nothing : holding allocated [] = allocated := by
    ext i bound : 1
    simp [holding]
  have stored := store_holding allocated [] pointer
  rw [nothing] at stored
  exact Option.some.inj stored

theorem holding_last (allocated : Separated) {stored : List (Option Pointer)}
    {pointer : Option Pointer} (room : stored.length < 512) :
    (holding allocated (stored ++ [pointer]))[stored.length]? = some pointer := by
  rw [Vector.getElem?_eq_getElem room]
  simp [holding]

/-! ## The loop -/

def Scan.at (allocated : Separated) (delim : Byte) (pointers : List Pointer)
    (before text behind : Buffer) : Scan where
  buffer := within before text behind
  lim := strpbrk (within before text behind) before.length delim
  separated := holding allocated (pointers.map some)
  i := pointers.length

theorem Scan.at_other {allocated : Separated} {c : Byte} (noNul : 0 ∉ c :: rest)
    (other : c ≠ delim) :
    Scan.at allocated delim pointers before (c :: rest) behind =
      Scan.at allocated delim pointers (before ++ [c]) rest behind := by
  rw [Scan.at, strpbrk_other noNul other, within_cons]
  rfl

theorem Scan.round_at {allocated : Separated} (noNul : 0 ∉ delim :: rest) :
    (Scan.at allocated delim pointers before (delim :: rest) behind).round delim before.length =
      if Kept rest then
        if pointers.length < 512 then
          some (Scan.at allocated delim (pointers ++ [before.length + 1]) (before ++ [0]) rest
            behind)
        else none
      else some (Scan.at allocated delim pointers (before ++ [0]) rest behind) := by
  have noNulBehind := List.not_mem_of_not_mem_cons noNul
  have stored := store_holding allocated (pointers.map some) (some (before.length + 1))
  rw [List.length_map] at stored
  simp only [Scan.round, Scan.at, cstring_behind noNulBehind, set_within,
    strpbrk_behind delim 0 noNulBehind, stored]
  split
  next => split <;> simp
  next => rfl

theorem ParseStep.at_iff {allocated : Separated} {after : Scan} (noNul : 0 ∉ delim :: rest) :
    ParseStep delim (Scan.at allocated delim pointers before (delim :: rest) behind) after ↔
      (Scan.at allocated delim pointers before (delim :: rest) behind).round delim before.length =
        some after := by
  have lim : (Scan.at allocated delim pointers before (delim :: rest) behind).lim =
      some before.length := strpbrk_here noNul
  simp only [ParseStep, lim, Option.some.injEq, exists_eq_left']

theorem Scan.at_nil_lim (allocated : Separated) :
    (Scan.at allocated delim pointers before [] behind).lim = none := by
  simp [Scan.at, strpbrk_within]

theorem ParseStep.run_at_iff {allocated : Separated} {last : Scan} (noNul : 0 ∉ delim :: rest) :
    Relation.ReflTransGen (ParseStep delim)
          (Scan.at allocated delim pointers before (delim :: rest) behind) last ∧
        last.lim = none ↔
      ∃ after, (Scan.at allocated delim pointers before (delim :: rest) behind).round delim
          before.length = some after ∧
        Relation.ReflTransGen (ParseStep delim) after last ∧ last.lim = none := by
  rw [Relation.ReflTransGen.cases_head_iff]
  constructor
  · rintro ⟨rfl | ⟨after, step, run⟩, ended⟩
    · have lim : (Scan.at allocated delim pointers before (delim :: rest) behind).lim =
          some before.length := strpbrk_here noNul
      rw [lim] at ended
      cases ended
    · exact ⟨after, (ParseStep.at_iff noNul).mp step, run, ended⟩
  · rintro ⟨after, round, run, ended⟩
    exact ⟨.inr ⟨after, (ParseStep.at_iff noNul).mpr round, run⟩, ended⟩

/-- The loop comes to its end if and only if the array has room for the strings it finds. -/
theorem parse_runs_iff {allocated : Separated} {last : Scan} (noNul : 0 ∉ text)
    (room : pointers.length ≤ 512) :
    Relation.ReflTransGen (ParseStep delim) (Scan.at allocated delim pointers before text behind)
          last ∧ last.lim = none ↔
      (pointers ++ starts delim before.length text).length ≤ 512 ∧
        last = Scan.at allocated delim (pointers ++ starts delim before.length text)
          (before ++ cut delim text) [] behind := by
  induction text generalizing before pointers with
  | nil =>
      have ended := @Scan.at_nil_lim before behind delim pointers allocated
      simp only [starts, cut, List.map_nil, List.append_nil]
      constructor
      · rintro ⟨run, -⟩
        rcases Relation.ReflTransGen.cases_head run with rfl | ⟨after, ⟨lim, isLim, -⟩, -⟩
        · exact ⟨room, rfl⟩
        · rw [ended] at isLim
          cases isLim
      · rintro ⟨-, rfl⟩
        exact ⟨.refl, ended⟩
  | cons c rest inductionHypothesis =>
      have noNulBehind := List.not_mem_of_not_mem_cons noNul
      have next (d : Byte) : before ++ d :: cut delim rest = before ++ [d] ++ cut delim rest := by
        simp
      have length (d : Byte) : (before ++ [d]).length = before.length + 1 := by
        simp
      by_cases isDelim : c = delim
      · subst isDelim
        rw [ParseStep.run_at_iff noNul, Scan.round_at noNul, cut_cons, if_pos rfl, starts, next]
        by_cases kept : Kept rest
        · rw [if_pos kept, if_pos (show c = c ∧ Kept rest from ⟨rfl, kept⟩)]
          by_cases more : pointers.length < 512
          · have appended : (pointers ++ [before.length + 1]).length ≤ 512 := by
              rw [List.length_append]
              exact more
            simp only [if_pos more, Option.some.injEq, exists_eq_left',
              inductionHypothesis noNulBehind appended, length, List.append_assoc,
              List.singleton_append]
          · simp only [if_neg more, reduceCtorEq, false_and, exists_false, false_iff]
            rintro ⟨fits, -⟩
            rw [List.length_append, List.length_cons] at fits
            omega
        · rw [if_neg kept, if_neg fun both => kept both.2]
          simp only [Option.some.injEq, exists_eq_left', inductionHypothesis noNulBehind room,
            length]
      · rw [Scan.at_other noNul isDelim, inductionHypothesis noNulBehind room, cut_cons,
          if_neg isDelim, starts, if_neg fun both => isDelim both.1, next, length]

/-! ## The whole function -/

theorem parseStart_eq (allocated : Separated) (notSpace : text.head? ≠ some space) :
    parseStart (within before text behind) before.length delim allocated =
      Scan.at allocated delim [before.length] before text behind := by
  have notLeading := mt (leading_iff before text behind).mp notSpace
  simp only [parseStart, notLeading, false_and, if_false, set_zero]
  rfl

theorem parseStart_space (allocated : Separated) (noNul : 0 ∉ space :: rest) :
    parseStart (within before (space :: rest) behind) before.length delim allocated =
      Scan.at allocated delim [(before ++ [space]).length] (before ++ [space]) rest behind := by
  have leading := (leading_iff before (space :: rest) behind).mpr rfl
  have noNulBehind := List.not_mem_of_not_mem_cons noNul
  by_cases isSpace : delim = space
  · subst isSpace
    simp only [parseStart, leading, and_self, if_true, set_zero, strpbrk_here noNul,
      Option.bind_some, strpbrk_behind space space noNulBehind]
    rw [within_cons, Scan.at, List.length_append]
    rfl
  · simp only [parseStart, leading, isSpace, and_false, if_false, if_true, set_zero,
      strpbrk_other noNul (Ne.symm isSpace)]
    rw [within_cons, Scan.at, List.length_append]
    rfl

/-- The pointers, with the `NULL` behind them. -/
def returned (allocated : Separated) (found : Buffer × List Pointer) : Parsed where
  buffer := found.1
  separated := holding allocated (found.2.map some ++ [none])
  numfound := found.2.length

theorem Scan.finish_at (allocated : Separated) (front : List Pointer) (last : Pointer) :
    (Scan.at allocated delim (front ++ [last]) before text behind).finish =
      if (front ++ [last]).length < 512 then
        some (returned allocated
          (cutAt (within before text behind) last newline, front ++ [last]))
      else none := by
  have stored := store_holding allocated ((front ++ [last]).map some) none
  rw [List.length_map] at stored
  split
  next room =>
      have earlier : (front.map some).length < 512 := by
        rw [List.length_append] at room
        rw [List.length_map]
        exact Nat.lt_of_succ_lt room
      have isLast := @holding_last allocated (front.map some) (some last) earlier
      rw [List.length_map] at isLast
      rw [if_pos room] at stored
      simp only [Scan.finish, Scan.at, List.length_append, List.length_singleton,
        Nat.add_sub_cancel, List.map_append, List.map_cons, List.map_nil] at stored ⊢
      simp [isLast, stored, returned]
  next full =>
      rw [if_neg full] at stored
      simp only [Scan.finish, Scan.at, stored, Option.bind_eq_bind, Option.bind_none,
        Option.bind_fun_none]

theorem concat_getLastD (first : Pointer) (others : List Pointer) :
    ∃ front, first :: others = front ++ [others.getLastD first] := by
  rcases List.eq_nil_or_concat' others with rfl | ⟨front, last, rfl⟩
  · exact ⟨[], rfl⟩
  · exact ⟨first :: front, by simp⟩

theorem runs_split_iff {allocated : Separated} {parsed : Parsed} (noNul : 0 ∉ text) :
    (∃ last, Relation.ReflTransGen (ParseStep delim)
        (Scan.at allocated delim [before.length] before text behind) last ∧ last.lim = none ∧
        last.finish = some parsed) ↔
      (split delim before text behind).2.length < 512 ∧
        parsed = returned allocated (split delim before text behind) := by
  have runs {last : Scan} := @parse_runs_iff before text behind delim [before.length] allocated
    last noNul (show [before.length].length ≤ 512 by simp)
  have bytes : within (before ++ cut delim text) [] behind =
      within before (cut delim text) behind := by
    simp [within]
  simp only [← and_assoc, runs]
  rcases concat_getLastD before.length (starts delim before.length text) with ⟨front, same⟩
  have finished := @Scan.finish_at (before ++ cut delim text) [] behind delim allocated front
    ((starts delim before.length text).getLastD before.length)
  rw [← same, bytes] at finished
  simp only [List.singleton_append, and_assoc, exists_eq_left, exists_and_left, finished]
  rw [Option.ite_none_right_eq_some, Option.some.injEq, @eq_comm _ parsed]
  constructor
  · rintro ⟨-, room, isParsed⟩
    exact ⟨room, isParsed⟩
  · rintro ⟨room, isParsed⟩
    exact ⟨Nat.le_of_lt room, room, isParsed⟩

/-- `parse_input` returns if and only if it finds fewer than 512 strings. -/
theorem parseReturns_iff {allocated : Separated} {parsed : Parsed} (noNul : 0 ∉ line) :
    ParseReturns (within before line behind) before.length delim allocated parsed ↔
      (parseInput (within before line behind) before.length delim).2.length < 512 ∧
        parsed = returned allocated
          (parseInput (within before line behind) before.length delim) := by
  unfold ParseReturns
  by_cases leading : line.head? = some space
  · rcases List.head?_eq_some_iff.mp leading with ⟨rest, rfl⟩
    have noNulBehind := List.not_mem_of_not_mem_cons noNul
    rw [parseStart_space allocated noNul, parseInput_space noNulBehind]
    exact runs_split_iff noNulBehind
  · rw [parseStart_eq allocated leading, parseInput_eq noNul leading]
    exact runs_split_iff noNul

/-! ## Lines of at most 511 bytes -/

theorem le_of_mem_starts {start pointer : Pointer}
    (isStart : pointer ∈ starts delim start text) : pointer ≤ start + text.length := by
  induction text generalizing start with
  | nil => cases isStart
  | cons c rest inductionHypothesis =>
      have behind (isStart : pointer ∈ starts delim (start + 1) rest) :
          pointer ≤ start + (c :: rest).length := by
        have bound := inductionHypothesis isStart
        rw [Nat.add_right_comm] at bound
        exact bound
      rw [starts] at isStart
      split at isStart
      next =>
          rcases List.mem_cons.mp isStart with rfl | isStart
          · exact Nat.add_le_add_left (Nat.succ_pos _) start
          · exact behind isStart
      next => exact behind isStart

theorem delim_notMem_takeWhile (delim : Byte) (text : Buffer) :
    delim ∉ text.takeWhile (· ≠ delim) := by
  intro found
  simpa using List.mem_takeWhile_imp found

theorem delim_notMem_fields {string : Buffer} (isField : string ∈ fields delim text) :
    delim ∉ string := by
  rcases List.mem_cons.mp isField with rfl | isPiece
  · exact delim_notMem_takeWhile delim text
  · induction text with
    | nil => cases isPiece
    | cons c rest inductionHypothesis =>
        have behind (isPiece : string ∈ pieces delim rest) : delim ∉ string :=
          inductionHypothesis (List.mem_cons_of_mem _ isPiece) isPiece
        rw [pieces] at isPiece
        split at isPiece
        · rcases List.mem_cons.mp isPiece with rfl | isPiece
          · exact delim_notMem_takeWhile delim rest
          · exact behind isPiece
        · exact behind isPiece

theorem prefix_of_mem_chompLast {string : Buffer} {strings : List Buffer}
    (found : string ∈ chompLast strings) : ∃ whole ∈ strings, string <+: whole := by
  induction strings with
  | nil => cases found
  | cons first others inductionHypothesis =>
      cases others with
      | nil =>
          cases List.mem_singleton.mp found
          exact ⟨first, List.mem_singleton.mpr rfl, List.takeWhile_prefix _⟩
      | cons second others =>
          rcases List.mem_cons.mp found with rfl | found
          · exact ⟨string, List.mem_cons_self, List.prefix_rfl⟩
          · rcases inductionHypothesis found with ⟨whole, isString, isPrefix⟩
            exact ⟨whole, List.mem_cons_of_mem _ isString, isPrefix⟩

/-- What the caller of `parse_input` relies on. -/
structure Fits (before line behind : Buffer) (delim : Byte) (allocated : Separated)
    (parsed : Parsed) (pointers : List Pointer) : Prop where
  /-- The strings and the `NULL` behind them are all that is stored. -/
  stored : parsed.separated = holding allocated (pointers.map some ++ [none])
  room : pointers.length < 512
  numfound : parsed.numfound = pointers.length
  inside : ∀ pointer ∈ pointers, before.length ≤ pointer ∧ pointer ≤ before.length + line.length
  increasing : pointers.Pairwise (· < ·)
  noDelim : ∀ pointer ∈ pointers, delim ∉ cstring parsed.buffer pointer

theorem fits_of_split (allocated : Separated) (noNul : 0 ∉ text)
    (room : (split delim before text behind).2.length < 512) :
    Fits before text behind delim allocated (returned allocated (split delim before text behind))
      (split delim before text behind).2 where
  stored := rfl
  room := room
  numfound := rfl
  inside := by
    intro pointer isFound
    rcases List.mem_cons.mp isFound with rfl | isStart
    · exact ⟨Nat.le_refl _, Nat.le_add_right ..⟩
    · have later := lt_of_mem_starts isStart
      exact ⟨by omega, le_of_mem_starts isStart⟩
  increasing := (@starts_pairwise before text behind delim noNul).imp fun later =>
    Nat.lt_of_le_of_lt (Nat.le_add_right ..) later
  noDelim := by
    intro pointer isFound inString
    have isString : cstring (split delim before text behind).1 pointer ∈
        (split delim before text behind).2.map (cstring (split delim before text behind).1) :=
      List.mem_map_of_mem isFound
    rw [split_strings noNul] at isString
    rcases prefix_of_mem_chompLast isString with ⟨whole, isField, isPrefix⟩
    exact delim_notMem_fields isField (isPrefix.subset inString)

theorem Fits.cons {allocated : Separated} {parsed : Parsed} {c : Byte}
    (fits : Fits (before ++ [c]) rest behind delim allocated parsed pointers) :
    Fits before (c :: rest) behind delim allocated parsed pointers where
  stored := fits.stored
  room := fits.room
  numfound := fits.numfound
  inside := by
    intro pointer isFound
    have bounds := fits.inside pointer isFound
    rw [List.length_append, List.length_singleton, Nat.add_right_comm] at bounds
    exact ⟨Nat.le_of_succ_le bounds.1, bounds.2⟩
  increasing := fits.increasing
  noDelim := fits.noDelim

/-- On a line of at most 511 bytes `parse_input` returns, the pointers and the `NULL` behind
them fit into its array, they point into the line one behind the other, and no string has the
delimiter in it. -/
theorem parseInput_fits (before line behind : Buffer) (delim : Byte) (allocated : Separated)
    (noNul : 0 ∉ line) (short : line.length ≤ 511) :
    ∃ parsed pointers,
      (∀ result, ParseReturns (within before line behind) before.length delim allocated result ↔
        result = parsed) ∧
      Fits before line behind delim allocated parsed pointers := by
  have room {before text : Buffer} (short : text.length ≤ 511) :
      (split delim before text behind).2.length < 512 :=
    Nat.lt_of_le_of_lt (split_length ..) (by omega)
  have fits : Fits before line behind delim allocated
      (returned allocated (parseInput (within before line behind) before.length delim))
      (parseInput (within before line behind) before.length delim).2 := by
    by_cases leading : line.head? = some space
    · rcases List.head?_eq_some_iff.mp leading with ⟨rest, rfl⟩
      have noNulBehind := List.not_mem_of_not_mem_cons noNul
      rw [parseInput_space noNulBehind]
      exact (fits_of_split allocated noNulBehind (room (Nat.le_of_succ_le short))).cons
    · rw [parseInput_eq noNul leading]
      exact fits_of_split allocated noNul (room short)
  exact ⟨_, _, fun result => (parseReturns_iff noNul).trans (and_iff_right fits.room), fits⟩

theorem parseInput_fits_pair : ∃ parsed pointers,
    (∀ result, ParseReturns (within [] [97, space, 98, newline] []) 0 space
      (Vector.replicate 512 none) result ↔ result = parsed) ∧
    Fits [] [97, space, 98, newline] [] space (Vector.replicate 512 none) parsed pointers :=
  parseInput_fits [] _ [] space _ (by decide) (by decide)

theorem starts_replicate (notNewline : delim ≠ newline) (notSpace : delim ≠ space) (n : Nat)
    (start : Pointer) : (starts delim start (List.replicate n delim)).length = n - 1 := by
  induction n generalizing start with
  | zero => rfl
  | succ n inductionHypothesis =>
      rw [List.replicate_succ, starts]
      cases n with
      | zero => simp [Kept, starts]
      | succ n =>
          have kept : Kept (List.replicate (n + 1) delim) := by
            refine ⟨?_, ?_, by simp⟩
            · intro same
              exact notNewline (List.cons.inj same).1
            · intro same
              exact notSpace (List.cons.inj same).1
          rw [if_pos ⟨rfl, kept⟩, List.length_cons, inductionHypothesis]
          rfl

/-- Nothing but delimiters fill the array, and one more does not fit. -/
theorem parseReturns_replicate_iff {allocated : Separated} (notNul : delim ≠ 0)
    (notNewline : delim ≠ newline) (notSpace : delim ≠ space) (n : Nat) :
    (∃ parsed, ParseReturns (within before (List.replicate n delim) behind) before.length delim
      allocated parsed) ↔ n ≤ 511 := by
  have noNul : 0 ∉ List.replicate n delim := by
    intro found
    exact notNul (List.eq_of_mem_replicate found).symm
  have noSpace : (List.replicate n delim).head? ≠ some space := by
    cases n with
    | zero => simp
    | succ n => exact fun same => notSpace (Option.some.inj same)
  have length : (split delim before (List.replicate n delim) behind).2.length = n - 1 + 1 :=
    congrArg Nat.succ (starts_replicate notNewline notSpace n before.length)
  simp only [parseReturns_iff noNul, parseInput_eq noNul noSpace, length, exists_and_left,
    exists_eq, and_true]
  omega

end EC440.Shell
