import EC440.Shell.Redirections

/-!
# Rejected commands

A line with one command is rejected if `parse_input` finds more than two
strings.  A delimiter counts for that only if more than a single space stands
behind it, up to the end of what the pass sees.
-/

namespace EC440.Shell

/-! ## What is wanted -/

/-- No file name follows, but nothing or another operator. -/
def Nameless (rest : Buffer) : Prop :=
  ∀ c ∈ (rest.dropWhile (· = space)).head?, c = less ∨ c = greater

/-- Two redirections of one kind, or an operator without a file name. -/
def Malformed (line : Buffer) : Prop :=
  2 ≤ line.count less ∨ 2 ≤ line.count greater ∨
    ∃ operator ∈ [less, greater], ∃ front rest,
      chomp line = front ++ operator :: rest ∧ Nameless rest

/-- How many delimiters have a string behind them that is kept. -/
def keptCount (delim : Byte) : Buffer → Nat
  | [] => 0
  | c :: rest => if c = delim ∧ Kept rest then keptCount delim rest + 1 else keptCount delim rest

/-- If there is one `file_in`, `killspaces` does not leave the line. -/
def TrimsInside (line : Buffer) : Prop :=
  let (input, sections) := parseInput (line ++ [0]) 0 bar
  let (input, _) := parseInput input (sections.headD 0) greater
  let (input, inRedirCheck) := parseInput input (sections.headD 0) less
  ∀ command fileIn, inRedirCheck = [command, fileIn] →
    (trim (parseArgs input command).1 fileIn).isSome

/-- When a line is rejected. -/
def Rejectable (line : Buffer) : Prop :=
  2 ≤ keptCount less ((chomp line).takeWhile (· ≠ greater)) ∨
    2 ≤ keptCount greater (chomp line) ∧ TrimsInside line

/-! ## The numbers of strings -/

variable {before text line rest behind : Buffer} {delim : Byte}

theorem starts_length_eq (delim : Byte) (start : Pointer) (text : Buffer) :
    (starts delim start text).length = keptCount delim text := by
  induction text generalizing start with
  | nil => rfl
  | cons c rest inductionHypothesis =>
      rw [starts, keptCount]
      split
      · rw [List.length_cons, inductionHypothesis]
      · exact inductionHypothesis _

theorem keptCount_space (notSpace : delim ≠ space) (rest : Buffer) :
    keptCount delim (space :: rest) = keptCount delim rest :=
  if_neg fun kept => notSpace kept.1.symm

theorem cut_within (delim : Byte) (before text behind : Buffer) :
    ∃ later, within before (cut delim text) behind =
      within before (text.takeWhile (· ≠ delim)) later := by
  induction text generalizing before with
  | nil => exact ⟨behind, rfl⟩
  | cons c rest inductionHypothesis =>
      by_cases isDelim : c = delim
      · refine ⟨cut delim rest ++ 0 :: behind, ?_⟩
        simp [isDelim, within]
      · rcases inductionHypothesis (before ++ [c]) with ⟨later, same⟩
        refine ⟨later, ?_⟩
        rw [cut_cons, if_neg isDelim, within_cons, same, ← within_cons,
          List.takeWhile_cons_of_pos (by simpa using isDelim)]

theorem parseInput_counts (notSpace : delim ≠ space) (noNul : 0 ∉ text)
    (noNewline : newline ∉ text) :
    ∃ later, (parseInput (within before text behind) before.length delim).1 =
        within before (text.takeWhile (· ≠ delim)) later ∧
      (parseInput (within before text behind) before.length delim).2.length =
        keptCount delim text + 1 := by
  by_cases leading : text.head? = some space
  · rcases List.head?_eq_some_iff.mp leading with ⟨rest, rfl⟩
    have noNulBehind := List.not_mem_of_not_mem_cons noNul
    have noNewlineBehind := List.not_mem_of_not_mem_cons noNewline
    rcases cut_within delim before (space :: rest) behind with ⟨later, same⟩
    rw [cut_cons, if_neg notSpace.symm, within_cons] at same
    refine ⟨later, ?_, ?_⟩
    · rw [parseInput_space noNulBehind, split_of_noNewline noNulBehind noNewlineBehind, same]
    · rw [parseInput_space noNulBehind, split, keptCount_space notSpace, List.length_cons,
        starts_length_eq]
  · rcases cut_within delim before text behind with ⟨later, same⟩
    refine ⟨later, ?_, ?_⟩
    · rw [parseInput_eq noNul leading, split_of_noNewline noNul noNewline, same]
    · rw [parseInput_eq noNul leading, split, List.length_cons, starts_length_eq]

/-! ## The checks -/

theorem finishSingle_rejects_iff {input : Buffer} {args outRedirCheck : List Pointer}
    {fileIn : Option Pointer} (someString : outRedirCheck ≠ []) :
    singleCommand.finishSingle input args fileIn outRedirCheck = some .read ↔
      3 ≤ outRedirCheck.length := by
  match outRedirCheck, someString with
  | [first], _ => simp [singleCommand.finishSingle]
  | [first, second], _ =>
      rcases isTrimmed : trim (cutAt input second newline) second with _ | ⟨trimmed, fileOut⟩ <;>
        simp [singleCommand.finishSingle, isTrimmed]
  | first :: second :: third :: others, _ => simp [singleCommand.finishSingle]

theorem singleCommand_rejects_iff {input afterOut afterIn : Buffer} {command : Pointer}
    {outRedirCheck inRedirCheck : List Pointer}
    (parsedOut : parseInput input command greater = (afterOut, outRedirCheck))
    (parsedIn : parseInput afterOut command less = (afterIn, inRedirCheck))
    (someOut : outRedirCheck ≠ []) (someIn : inRedirCheck ≠ []) :
    singleCommand input command = some .read ↔
      3 ≤ inRedirCheck.length ∨ 3 ≤ outRedirCheck.length ∧
        ∀ command fileIn, inRedirCheck = [command, fileIn] →
          (trim (parseArgs afterIn command).1 fileIn).isSome := by
  match inRedirCheck, someIn with
  | [first], _ =>
      simp only [singleCommand, parsedOut, parsedIn, finishSingle_rejects_iff someOut]
      simp
  | [first, second], _ =>
      rcases isTrimmed : trim (parseArgs afterIn first).1 second with _ | ⟨trimmed, fileIn⟩
      · simp [singleCommand, parsedOut, parsedIn, isTrimmed]
      · simp [singleCommand, parsedOut, parsedIn, isTrimmed, finishSingle_rejects_iff someOut]
  | first :: second :: third :: others, _ =>
      simp [singleCommand, parsedOut, parsedIn]

theorem keptCount_append (notSpace : delim ≠ space) {front : Buffer}
    (isFront : front = [] ∨ front = [space]) (text : Buffer) :
    keptCount delim (front ++ text) = keptCount delim text := by
  rcases isFront with rfl | rfl
  · rfl
  · exact keptCount_space notSpace text

/-- When the shell rejects a line. -/
theorem rejects_iff (noNul : 0 ∉ line) (oneLine : newline ∉ line.dropLast) (noBar : bar ∉ line) :
    afterFork (line ++ [0]) = some .read ↔ Rejectable line := by
  rcases parse_bar noNul oneLine noBar with ⟨front, command, later, isLine, isFront, parsed⟩
  have isFront : front = [] ∨ front = [space] := isFront.imp id And.left
  have inLine {c : Byte} (inCommand : c ∈ command) : c ∈ line.takeWhile (· ≠ newline) := by
    rw [takeWhile_eq_chomp oneLine, isLine]
    exact List.mem_append_right _ inCommand
  have noNulHere : 0 ∉ command := fun inCommand =>
    noNul ((List.takeWhile_prefix _).subset (inLine inCommand))
  have noNewline : newline ∉ command := fun inCommand => by
    simpa using List.mem_takeWhile_imp (inLine inCommand)
  rcases @parseInput_counts front command later greater (by decide) noNulHere noNewline with
    ⟨afterOut, bufferOut, countOut⟩
  rcases @parseInput_counts front (command.takeWhile (· ≠ greater)) afterOut less (by decide)
    (fun inPart => noNulHere ((List.takeWhile_prefix _).subset inPart))
    (fun inPart => noNewline ((List.takeWhile_prefix _).subset inPart)) with ⟨-, -, countIn⟩
  rcases parsedOut : parseInput (within front command later) front.length greater with
    ⟨inputOut, outRedirCheck⟩
  rw [parsedOut] at bufferOut countOut
  replace bufferOut : inputOut = within front (command.takeWhile (· ≠ greater)) afterOut :=
    bufferOut
  subst bufferOut
  rcases parsedIn : parseInput (within front (command.takeWhile (· ≠ greater)) afterOut)
    front.length less with ⟨inputIn, inRedirCheck⟩
  rw [parsedIn] at countIn
  have someOut : outRedirCheck ≠ [] := by
    rintro rfl
    cases countOut
  have someIn : inRedirCheck ≠ [] := by
    rintro rfl
    cases countIn
  have single : afterFork (line ++ [0]) =
      singleCommand (within front command later) front.length := by
    rw [afterFork, parsed]
  have countsOut : keptCount greater (chomp line) = keptCount greater command := by
    rw [isLine, keptCount_append (by decide) isFront]
  have countsIn : keptCount less ((chomp line).takeWhile (· ≠ greater)) =
      keptCount less (command.takeWhile (· ≠ greater)) := by
    have plain : ∀ c ∈ front, decide (c ≠ greater) = true := by
      rcases isFront with rfl | rfl <;> simp [space, greater]
    rw [isLine, List.takeWhile_append_of_pos plain, keptCount_append (by decide) isFront]
  rw [single, singleCommand_rejects_iff parsedOut parsedIn someOut someIn, Rejectable, countsOut,
    countsIn]
  simp only [TrimsInside, parsed, List.headD_cons, parsedOut, parsedIn]
  dsimp only at countOut countIn
  rw [countOut, countIn]
  simp only [Nat.succ_le_succ_iff]

/-! ## Both kinds of lines -/

/-- A line of words and redirections is handled as it says if and only if the spaces in front of
the operators and their order permit it, and a malformed line is rejected if and only if enough of
its operators have more than a space behind them. -/
theorem redirections_parsed (line : CommandLine) (malformed : Buffer) :
    (afterFork (line.text ++ [0]) = some (.single line.command) ↔ line.Handled) ∧
      (0 ∉ malformed → newline ∉ malformed.dropLast → bar ∉ malformed → ampersand ∉ malformed →
        Malformed malformed → (afterFork (malformed ++ [0]) = some .read ↔ Rejectable malformed)) := by
  constructor
  · exact line.handled_iff
  · intro noNul oneLine noBar _ _
    exact rejects_iff noNul oneLine noBar

/-- The file `a` or `b`, with a space on both sides of the operator. -/
def spacedFile (name : Byte) (isWord : IsWord [name]) : Redirection where
  spacesBefore := 1
  spacesAfter := 1
  name := [name]
  isWord := isWord

/-- `c < a > b` -/
def inputFirst : CommandLine where
  words := [[99]]
  redirections := .inputOutput (spacedFile 97 (by decide)) (spacedFile 98 (by decide))
  ended := true
  someWord := by decide
  areWords := by decide

/-- `c > b < a` -/
def outputFirst : CommandLine where
  words := [[99]]
  redirections := .outputInput (spacedFile 98 (by decide)) (spacedFile 97 (by decide))
  ended := true
  someWord := by decide
  areWords := by decide

/-- The lines `c < a > b` and `c <a <b`. -/
theorem redirections_parsed_both :
    afterFork (inputFirst.text ++ [0]) = some (.single inputFirst.command) ∧
      Rejectable [99, space, less, 97, space, less, 98, newline] := by
  rcases redirections_parsed inputFirst [99, space, less, 97, space, less, 98, newline] with
    ⟨handled, rejects⟩
  constructor
  · apply handled.mpr
    exact ⟨by decide, 1, rfl, by decide⟩
  · apply (rejects (by decide) (by decide) (by decide) (by decide) (.inl (by decide))).mp
    decide

/-- The line `c > b < a` is executed with an output file of the name `b < a`, and `c <` without
any redirection. -/
theorem redirections_parsed_broken :
    ¬(∀ line : CommandLine, afterFork (line.text ++ [0]) = some (.single line.command)) ∧
      ¬∀ line : Buffer, 0 ∉ line → newline ∉ line.dropLast → bar ∉ line → ampersand ∉ line →
        Malformed line → afterFork (line ++ [0]) = some .read := by
  constructor
  · intro always
    exact absurd (always outputFirst) (by decide)
  · intro always
    have malformed : Malformed [99, space, less, newline] :=
      .inr (.inr ⟨less, by decide, [99, space], [], by decide, by simp [Nameless]⟩)
    have rejected := always _ (by decide) (by decide) (by decide) (by decide) malformed
    exact absurd rejected (by decide)

end EC440.Shell
