import EC440.Shell.Processes
import EC440.Shell.Trailing
import EC440.Shell.Words

/-!
# Redirections of a single command

The three passes of `parse_input` over a line with one command, for `>`, `<`
and the spaces, and `killspaces` on the file names.  A line of words with a
redirection of input, of output or of both, in either order, is handled as it
should be if the spaces in front of the operators are few or of the right
number, and input comes first.
-/

namespace EC440.Shell

/-! ## What is wanted -/

/-- The bytes that the shell takes for more than a part of a word. -/
def special : List Byte :=
  [0, newline, space, less, greater, bar, ampersand]

def IsWord (word : Buffer) : Prop :=
  word ≠ [] ∧ ∀ c ∈ word, c ∉ special

instance (word : Buffer) : Decidable (IsWord word) :=
  decidable_of_iff (word ≠ [] ∧ word.all (fun c => decide (c ∉ special)) = true)
    (and_congr_right' (by simp))

/-- An operator with the spaces around it, and the file name. -/
structure Redirection where
  spacesBefore : Nat
  spacesAfter : Nat
  name : Buffer
  isWord : IsWord name

def Redirection.text (operator : Byte) (file : Redirection) : Buffer :=
  spaces file.spacesBefore ++ operator :: (spaces file.spacesAfter ++ file.name)

inductive Redirections where
  | none
  | input (file : Redirection)
  | output (file : Redirection)
  | inputOutput (fileIn fileOut : Redirection)
  | outputInput (fileOut fileIn : Redirection)

namespace Redirections

def text : Redirections → Buffer
  | none => []
  | input file => file.text less
  | output file => file.text greater
  | inputOutput fileIn fileOut => fileIn.text less ++ fileOut.text greater
  | outputInput fileOut fileIn => fileOut.text greater ++ fileIn.text less

def fileIn : Redirections → Option Buffer
  | none | output _ => .none
  | input file | inputOutput file _ | outputInput _ file => some file.name

def fileOut : Redirections → Option Buffer
  | none | input _ => .none
  | output file | inputOutput _ file | outputInput file _ => some file.name

end Redirections

/-- Words with single spaces between them, redirections, and perhaps a newline. -/
structure CommandLine where
  words : List Buffer
  redirections : Redirections
  ended : Bool
  someWord : words ≠ []
  areWords : ∀ word ∈ words, IsWord word

namespace CommandLine

variable (line : CommandLine)

def joined : Buffer :=
  [space].intercalate line.words

def text : Buffer :=
  line.joined ++ line.redirections.text ++ if line.ended then [newline] else []

def command : Command where
  args := line.words
  fileIn := line.redirections.fileIn
  fileOut := line.redirections.fileOut

/-- When the shell does as the line says.  Between the name of the input file and `>`,
`killspaces` has to remove all spaces without leaving the line. -/
def Handled : Prop :=
  match line.redirections with
  | .none => True
  | .input file | .output file => file.spacesBefore ≤ 2
  | .inputOutput fileIn fileOut =>
      fileIn.spacesBefore ≤ 2 ∧ ∃ k, fileOut.spacesBefore = triangle k ∧
        k < (line.joined ++ fileIn.text less).length
  | .outputInput _ _ => False

end CommandLine

/-! ## Words and spaces -/

variable {text word rest behind : Buffer} {list : List Buffer}

theorem notMem_of_special {c : Byte} (isSpecial : c ∈ special) (isWord : IsWord word) : c ∉ word :=
  fun inWord => isWord.2 c inWord isSpecial

theorem notMem_intercalate {c : Byte} (isSpecial : c ∈ special) (notSpace : c ≠ space)
    (areWords : ∀ word ∈ list, IsWord word) : c ∉ [space].intercalate list := by
  induction list with
  | nil => simp
  | cons word others inductionHypothesis =>
      have notHere := notMem_of_special isSpecial (areWords word List.mem_cons_self)
      have notBehind := inductionHypothesis fun other isOther =>
        areWords other (List.mem_cons_of_mem _ isOther)
      cases others with
      | nil => simpa using notHere
      | cons next others =>
          rw [List.intercalate_cons_cons]
          simp [notHere, notSpace, notBehind]

theorem notMem_cut {delim : Byte} (notNul : delim ≠ 0) (text : Buffer) : delim ∉ cut delim text := by
  intro inText
  rcases List.mem_map.mp inText with ⟨c, -, same⟩
  split at same
  · exact notNul same.symm
  next other => exact other same

/-- What stands in front of a file name, after the pass for the arguments. -/
theorem length_front (text : Buffer) : ([] ++ cut space text ++ [0]).length = text.length + 1 := by
  simp [cut]

theorem IsWord.kept (isWord : IsWord word) (rest : Buffer) : Kept (word ++ rest) := by
  cases word with
  | nil => exact absurd rfl isWord.1
  | cons c others =>
      have plain := isWord.2 c List.mem_cons_self
      refine ⟨?_, ?_, by simp⟩
      · rintro same
        rw [(List.cons.inj same).1] at plain
        exact plain (by decide)
      · rintro same
        rw [(List.cons.inj same).1] at plain
        exact plain (by decide)

theorem chompLast_of_noNewline (noNewline : ∀ word ∈ list, newline ∉ word) :
    chompLast list = list := by
  induction list with
  | nil => rfl
  | cons word others inductionHypothesis =>
      cases others with
      | nil => rw [chompLast, takeWhile_of_notMem (noNewline word List.mem_cons_self)]
      | cons next others =>
          rw [chompLast, inductionHypothesis fun other isOther =>
            noNewline other (List.mem_cons_of_mem _ isOther)]

/-- The words are found in front of at most two spaces. -/
theorem fields_intercalate (someWord : list ≠ []) (areWords : ∀ word ∈ list, IsWord word) {n : Nat}
    (few : n ≤ 2) : fields space ([space].intercalate list ++ spaces n) = list := by
  induction list with
  | nil => exact absurd rfl someWord
  | cons word others inductionHypothesis =>
      have noSpace : space ∉ word :=
        notMem_of_special (by decide) (areWords word List.mem_cons_self)
      cases others with
      | nil =>
          rw [List.intercalate_singleton]
          cases n with
          | zero => simpa [spaces] using fields_of_notMem noSpace
          | succ n =>
              have notKept : ¬Kept (spaces n) := by
                rcases Nat.le_one_iff_eq_zero_or_eq_one.mp (Nat.le_of_succ_le_succ few) with
                  rfl | rfl
                · decide
                · decide
              rw [spaces_succ, fields_append noSpace, if_neg notKept]
      | cons next others =>
          have areWords : ∀ other ∈ next :: others, IsWord other :=
            fun other isOther => areWords other (List.mem_cons_of_mem _ isOther)
          have found := inductionHypothesis (List.cons_ne_nil next others) areWords
          have kept : Kept ([space].intercalate (next :: others) ++ spaces n) := by
            have isWord := areWords next List.mem_cons_self
            cases others with
            | nil =>
                rw [List.intercalate_singleton]
                exact isWord.kept _
            | cons last others =>
                rw [List.intercalate_cons_cons, List.append_assoc, List.append_assoc]
                exact isWord.kept _
          rw [List.intercalate_cons_cons, List.append_assoc, List.append_assoc,
            List.singleton_append, fields_append noSpace, if_pos kept, found]

/-- The arguments that are found are the words if and only if not more than two spaces follow. -/
theorem chompLast_fields_iff (someWord : list ≠ []) (areWords : ∀ word ∈ list, IsWord word)
    (n : Nat) :
    chompLast (fields space ([space].intercalate list ++ spaces n)) = list ↔ n ≤ 2 := by
  constructor
  · intro same
    by_contra many
    obtain ⟨n, rfl⟩ : ∃ more, n = more + 1 + 2 := ⟨n - 3, by omega⟩
    have found : [] ∈ chompLast (fields space ([space].intercalate list ++ spaces (n + 1 + 2))) :=
      mem_chompLast_nil (nil_mem_fields _ (List.cons_ne_nil space (spaces n)))
    rw [same] at found
    exact (areWords [] found).1 rfl
  · intro few
    rw [fields_intercalate someWord areWords few]
    apply chompLast_of_noNewline
    intro word inList
    exact notMem_of_special (by decide) (areWords word inList)

/-! ## File names -/

variable {front name : Buffer} {a t : Nat}

theorem within_behind (front text rest behind : Buffer) :
    within front text (rest ++ 0 :: behind) = within (front ++ text ++ [0]) rest behind := by
  simp [within]

theorem skipSpaces_within (noNul : 0 ∉ name) (isName : name.head? ≠ some space) :
    skipSpaces (within front (spaces a ++ name) behind) front.length = front.length + a := by
  have noNulHere : 0 ∉ spaces a ++ name := by
    intro inText
    rcases List.mem_append.mp inText with inSpaces | inName
    · cases mem_spaces inSpaces
    · exact noNul inName
  have stops : name.takeWhile (· = space) = [] := by
    cases name with
    | nil => rfl
    | cons c rest =>
        have other : c ≠ space := fun same => isName (congrArg some same)
        simp [other]
  have all : ∀ c ∈ spaces a, decide (c = space) = true := fun c isSpace =>
    decide_eq_true (mem_spaces isSpace)
  rw [skipSpaces, cstring_within noNulHere, List.takeWhile_append_of_pos all, stops,
    List.append_nil, spaces_length]

theorem IsWord.head_ne (isWord : IsWord name) (rest : Buffer) :
    (name ++ rest).head? ≠ some space := by
  cases name with
  | nil => exact absurd rfl isWord.1
  | cons c others =>
      intro same
      cases same
      exact isWord.2 space List.mem_cons_self (by decide)

theorem trim_word (isWord : IsWord name) :
    trim (within front (spaces a ++ name) behind) front.length =
      some (within front (spaces a ++ name) behind, front.length + a) := by
  have noNul : 0 ∉ name := notMem_of_special (by decide) isWord
  have notSpace : name.head? ≠ some space := by
    simpa using isWord.head_ne []
  have length : front.length + a = (front ++ spaces a).length := by
    rw [List.length_append, spaces_length]
  have bytes : within front (spaces a ++ name) behind = within (front ++ spaces a) name behind := by
    simp [within]
  have unchanged : killspaces (within (front ++ spaces a) name behind) (front ++ spaces a).length =
      some (within (front ++ spaces a) name behind) := by
    rcases List.eq_nil_or_concat' name with rfl | ⟨first, last, rfl⟩
    · exact absurd rfl isWord.1
    · apply killspaces_of_last noNul
      rintro rfl
      exact isWord.2 space (by simp) (by decide)
  rw [trim, skipSpaces_within noNul notSpace, bytes, length, unchanged]
  rfl

/-- The spaces behind a name are removed in steps. -/
theorem trim_spaced (isWord : IsWord name) (noSpace : space ∉ front) (notEmpty : front ≠ []) :
    ∃ m rest, triangle m + rest = t ∧ rest ≤ m ∧
      if m + 1 ≤ front.length + a + name.length + rest then
        ∃ pad junk : Buffer, pad.length = a ∧ junk.length + rest = t ∧
          trim (within front (spaces a ++ (name ++ spaces t)) behind) front.length =
            some (within (front ++ pad) (name ++ spaces rest) (junk ++ behind), front.length + a)
      else
        trim (within front (spaces a ++ (name ++ spaces t)) behind) front.length = none := by
  have noNul : 0 ∉ name := notMem_of_special (by decide) isWord
  have noSpaceInName : space ∉ name := notMem_of_special (by decide) isWord
  have length : front.length + a = (front ++ spaces a).length := by
    rw [List.length_append, spaces_length]
  have bytes : within front (spaces a ++ (name ++ spaces t)) behind =
      within (front ++ spaces a) (name ++ spaces t) behind := by
    simp [within]
  rcases @killspaces_name behind front name a t noSpace notEmpty noNul noSpaceInName with
    ⟨m, rest, total, few, killed⟩
  refine ⟨m, rest, total, few, ?_⟩
  rw [trim, skipSpaces_within (noNul_append_spaces noNul t) (isWord.head_ne _), bytes, length,
    ← length]
  split
  next inside =>
      rw [if_pos inside] at killed
      rcases killed with ⟨pad, junk, isPad, isJunk, killed⟩
      refine ⟨pad, junk, isPad, isJunk, ?_⟩
      rw [length, killed]
      rfl
  next outside =>
      rw [length, (if_neg outside).mp killed]
      rfl

/-! ## The passes -/

variable {delim : Byte}

/-- A text in which the passes find delimiters only: no NUL, no newline and no space in front. -/
structure Scannable (text : Buffer) : Prop where
  noNul : 0 ∉ text
  noNewline : newline ∉ text
  notSpace : text.head? ≠ some space

theorem Scannable.parse (scannable : Scannable text) (noDelim : delim ∉ text) :
    parseInput (within [] text behind) 0 delim = (within [] text behind, [0]) := by
  change parseInput (within [] text behind) ([] : Buffer).length delim = _
  rw [parseInput_eq scannable.noNul scannable.notSpace,
    split_of_notMem scannable.noNul scannable.noNewline noDelim]
  rfl

theorem Scannable.parse_once (scannable : Scannable (text ++ delim :: rest))
    (noDelim : delim ∉ text) (onlyOne : delim ∉ rest) (kept : Kept rest) :
    parseInput (within [] (text ++ delim :: rest) behind) 0 delim =
      (within [] text (rest ++ 0 :: behind), [0, text.length + 1]) := by
  change parseInput (within [] (text ++ delim :: rest) behind) ([] : Buffer).length delim = _
  rw [parseInput_eq scannable.noNul scannable.notSpace,
    split_once scannable.noNul scannable.noNewline noDelim onlyOne kept, List.length_nil,
    Nat.zero_add]

theorem Scannable.parseArgs (scannable : Scannable text) :
    parseArgs (within [] text behind) 0 =
      (within [] (cut space text) behind, 0 :: starts space 0 text) := by
  change parseInput (within [] text behind) ([] : Buffer).length space = _
  rw [parseInput_eq scannable.noNul scannable.notSpace,
    split_of_noNewline scannable.noNul scannable.noNewline]
  rfl

theorem Scannable.args (scannable : Scannable text) :
    (0 :: starts space 0 text).map (cstring (within [] (cut space text) behind)) =
      chompLast (fields space text) := by
  have strings := @split_strings [] text behind space scannable.noNul
  rwa [split_of_noNewline scannable.noNul scannable.noNewline] at strings

theorem Scannable.append (scannable : Scannable text) (isDelim : delim ∈ [less, greater])
    (noNul : 0 ∉ rest) (noNewline : newline ∉ rest) : Scannable (text ++ delim :: rest) := by
  have notSpecial : delim ≠ 0 ∧ delim ≠ newline ∧ delim ≠ space := by
    rcases List.mem_pair.mp isDelim with rfl | rfl <;> decide
  constructor
  case noNul => simp [scannable.noNul, noNul, notSpecial.1.symm]
  case noNewline => simp [scannable.noNewline, noNewline, notSpecial.2.1.symm]
  case notSpace =>
    cases text with
    | nil => simpa using notSpecial.2.2
    | cons c others => exact scannable.notSpace

theorem IsWord.kept_behind (isWord : IsWord name) (a : Nat) (rest : Buffer) :
    Kept (spaces a ++ (name ++ rest)) := by
  cases a with
  | zero => exact isWord.kept rest
  | succ a =>
      refine ⟨fun same => ?_, fun same => ?_, by simp⟩
      · cases (List.cons.inj same).1
      · have none := (List.cons.inj same).2
        simp [isWord.1] at none

/-- A file name with spaces around it. -/
structure Spaced (rest : Buffer) : Prop where
  kept : Kept rest
  notMem : ∀ c ∈ special, c ≠ space → c ∉ rest

theorem IsWord.spaced (isWord : IsWord name) (a t : Nat) :
    Spaced (spaces a ++ (name ++ spaces t)) where
  kept := isWord.kept_behind a _
  notMem c isSpecial notSpace inText := by
    rcases List.mem_append.mp inText with inSpaces | inText
    · exact notSpace (mem_spaces inSpaces)
    · rcases List.mem_append.mp inText with inName | inSpaces
      · exact isWord.2 c inName isSpecial
      · exact notSpace (mem_spaces inSpaces)

theorem IsWord.spaced_before (isWord : IsWord name) (a : Nat) : Spaced (spaces a ++ name) := by
  simpa [spaces] using isWord.spaced a 0

theorem cstring_name {pad junk : Buffer} (isPad : pad.length = a) (isWord : IsWord name) (n : Nat) :
    cstring (within (front ++ pad) (name ++ spaces n) junk) (front.length + a) =
      name ++ spaces n := by
  have length : front.length + a = (front ++ pad).length := by
    rw [List.length_append, isPad]
  rw [length]
  exact cstring_within (noNul_append_spaces (notMem_of_special (by decide) isWord) n)

theorem cstring_word (isWord : IsWord name) (a : Nat) :
    cstring (within front (spaces a ++ name) behind) (front.length + a) = name := by
  have string := @cstring_name front name a (spaces a) behind (spaces_length a) isWord 0
  simpa [within, spaces] using string

theorem finishSingle_output (isWord : IsWord name) (front : Buffer) (a : Nat) (behind : Buffer)
    (args : List Pointer) (fileIn : Option Pointer) (first : Pointer) :
    singleCommand.finishSingle (within front (spaces a ++ name) behind) args fileIn
        [first, front.length] = some (.single
      { args := args.map (cstring (within front (spaces a ++ name) behind))
        fileIn := fileIn.map (cstring (within front (spaces a ++ name) behind))
        fileOut := some name }) := by
  have spaced := isWord.spaced_before a
  have notCut : newline ∉ cstring (within front (spaces a ++ name) behind) front.length := by
    rw [cstring_within (spaced.notMem 0 (by decide) (by decide))]
    exact spaced.notMem newline (by decide) (by decide)
  simp only [singleCommand.finishSingle, cutAt_of_notMem notCut, trim_word isWord,
    Option.bind_eq_bind, Option.bind_some, cstring_word isWord]

section Commands

variable (scannable : Scannable text) (noLess : less ∉ text) (noGreater : greater ∉ text)
include scannable noLess noGreater

theorem singleCommand_none :
    singleCommand (within [] text behind) 0 = some (.single
      { args := chompLast (fields space text), fileIn := none, fileOut := none }) := by
  simp only [singleCommand, scannable.parse noGreater, scannable.parse noLess, scannable.parseArgs,
    singleCommand.finishSingle, scannable.args, Option.map_none]

theorem singleCommand_input (isWord : IsWord name) :
    singleCommand (within [] (text ++ less :: (spaces a ++ name)) behind) 0 = some (.single
      { args := chompLast (fields space text), fileIn := some name, fileOut := none }) := by
  have spaced := isWord.spaced_before a
  have scannableLine : Scannable (text ++ less :: (spaces a ++ name)) :=
    scannable.append (by decide) (spaced.notMem 0 (by decide) (by decide))
      (spaced.notMem newline (by decide) (by decide))
  have noGreaterHere : greater ∉ text ++ less :: (spaces a ++ name) := by
    have notBehind := spaced.notMem greater (by decide) (by decide)
    have other : greater ≠ less := by decide
    simp only [List.mem_append, List.mem_cons, not_or] at notBehind ⊢
    exact ⟨noGreater, other, notBehind⟩
  have length := length_front text
  have trimmed := @trim_word behind ([] ++ cut space text ++ [0]) name a isWord
  have string := @cstring_word behind ([] ++ cut space text ++ [0]) name isWord a
  rw [length, ← within_behind] at trimmed string
  simp only [singleCommand, scannableLine.parse noGreaterHere,
    scannableLine.parse_once noLess (spaced.notMem less (by decide) (by decide)) spaced.kept,
    scannable.parseArgs, trimmed, Option.bind_eq_bind, Option.bind_some,
    singleCommand.finishSingle, scannable.args, Option.map_some, string]

theorem singleCommand_output (isWord : IsWord name) :
    singleCommand (within [] (text ++ greater :: (spaces a ++ name)) behind) 0 = some (.single
      { args := chompLast (fields space text), fileIn := none, fileOut := some name }) := by
  have spaced := isWord.spaced_before a
  have scannableLine : Scannable (text ++ greater :: (spaces a ++ name)) :=
    scannable.append (by decide) (spaced.notMem 0 (by decide) (by decide))
      (spaced.notMem newline (by decide) (by decide))
  have length := length_front text
  have finished := finishSingle_output isWord ([] ++ cut space text ++ [0]) a behind
    (0 :: starts space 0 text) none 0
  rw [length, ← within_behind] at finished
  simp only [singleCommand,
    scannableLine.parse_once noGreater (spaced.notMem greater (by decide) (by decide)) spaced.kept,
    scannable.parse noLess, scannable.parseArgs, finished, scannable.args, Option.map_none]

omit noLess noGreater in
theorem finishSingle_inputOutput {nameOut pad junk : Buffer} {b n : Nat} (isWord : IsWord name)
    (isWordOut : IsWord nameOut) (isPad : pad.length = a) (isJunk : junk.length + n = t) :
    singleCommand.finishSingle
        (within ([] ++ cut space text ++ [0] ++ pad) (name ++ spaces n)
          (junk ++ (spaces b ++ nameOut ++ 0 :: behind)))
        (0 :: starts space 0 text) (some (text.length + 1 + a))
        [0, (text ++ less :: (spaces a ++ (name ++ spaces t))).length + 1] = some (.single
      { args := chompLast (fields space text)
        fileIn := some (name ++ spaces n)
        fileOut := some nameOut }) := by
  have place :
      ([] ++ cut space text ++ [0] ++ pad ++ (name ++ spaces n) ++ [0] ++ junk).length =
        (text ++ less :: (spaces a ++ (name ++ spaces t))).length + 1 := by
    simp only [cut, List.length_append, List.length_map, List.length_cons, List.length_nil,
      spaces_length]
    omega
  -- The same bytes, with the output file and with the arguments in the middle.
  have outputBytes : within ([] ++ cut space text ++ [0] ++ pad) (name ++ spaces n)
      (junk ++ (spaces b ++ nameOut ++ 0 :: behind)) =
      within ([] ++ cut space text ++ [0] ++ pad ++ (name ++ spaces n) ++ [0] ++ junk)
        (spaces b ++ nameOut) behind := by
    simp [within]
  have argsBytes : within ([] ++ cut space text ++ [0] ++ pad) (name ++ spaces n)
      (junk ++ (spaces b ++ nameOut ++ 0 :: behind)) =
      within [] (cut space text) (pad ++ (name ++ spaces n) ++ 0 :: (junk ++
        (spaces b ++ nameOut ++ 0 :: behind))) := by
    simp [within]
  have string := @cstring_name ([] ++ cut space text ++ [0]) name a pad
    (junk ++ (spaces b ++ nameOut ++ 0 :: behind)) isPad isWord n
  rw [length_front] at string
  have finished := finishSingle_output isWordOut
    ([] ++ cut space text ++ [0] ++ pad ++ (name ++ spaces n) ++ [0] ++ junk) b behind
    (0 :: starts space 0 text) (some (text.length + 1 + a)) 0
  rw [place, ← outputBytes, Option.map_some, string, argsBytes, scannable.args] at finished
  rw [argsBytes]
  exact finished

/-- `killspaces` decides how much of the spaces in front of `>` belongs to the name. -/
theorem singleCommand_inputOutput {nameOut : Buffer} {b : Nat} (isWord : IsWord name)
    (isWordOut : IsWord nameOut) :
    ∃ m rest, triangle m + rest = t ∧ rest ≤ m ∧
      singleCommand (within [] (text ++ less :: (spaces a ++ (name ++ spaces t)) ++
          greater :: (spaces b ++ nameOut)) behind) 0 =
        if m + 1 ≤ text.length + 1 + a + name.length + rest then
          some (.single
            { args := chompLast (fields space text)
              fileIn := some (name ++ spaces rest)
              fileOut := some nameOut })
        else none := by
  have spaced := isWord.spaced a t
  have spacedOut := isWordOut.spaced_before b
  have scannableIn : Scannable (text ++ less :: (spaces a ++ (name ++ spaces t))) :=
    scannable.append (by decide) (spaced.notMem 0 (by decide) (by decide))
      (spaced.notMem newline (by decide) (by decide))
  have scannableLine : Scannable (text ++ less :: (spaces a ++ (name ++ spaces t)) ++
      greater :: (spaces b ++ nameOut)) :=
    scannableIn.append (by decide) (spacedOut.notMem 0 (by decide) (by decide))
      (spacedOut.notMem newline (by decide) (by decide))
  have noGreaterIn : greater ∉ text ++ less :: (spaces a ++ (name ++ spaces t)) := by
    have notBehind := spaced.notMem greater (by decide) (by decide)
    have other : greater ≠ less := by decide
    rw [List.mem_append, List.mem_cons, not_or, not_or]
    exact ⟨noGreater, other, notBehind⟩
  have length := length_front text
  have noSpace : space ∉ [] ++ cut space text ++ [0] := by
    have notCut := notMem_cut (show space ≠ 0 by decide) text
    simpa using ⟨notCut, by decide⟩
  rcases @trim_spaced (spaces b ++ nameOut ++ 0 :: behind) ([] ++ cut space text ++ [0]) name a t
    isWord noSpace (by simp) with ⟨m, rest, total, few, trimmed⟩
  refine ⟨m, rest, total, few, ?_⟩
  rw [length, ← within_behind] at trimmed
  simp only [singleCommand,
    scannableLine.parse_once noGreaterIn (spacedOut.notMem greater (by decide) (by decide))
      spacedOut.kept,
    scannableIn.parse_once noLess (spaced.notMem less (by decide) (by decide)) spaced.kept,
    scannable.parseArgs]
  split
  next inside =>
      rw [if_pos inside] at trimmed
      rcases trimmed with ⟨pad, junk, isPad, isJunk, trimmed⟩
      simp only [trimmed, Option.bind_eq_bind, Option.bind_some]
      exact finishSingle_inputOutput scannable isWord isWordOut isPad isJunk
  next outside =>
      have trimmed := (if_neg outside).mp trimmed
      simp only [trimmed, Option.bind_eq_bind, Option.bind_none]

/-- With `>` in front, `<` belongs to the name of the output file. -/
theorem singleCommand_outputInput (isWord : IsWord name) (noNulBehind : 0 ∉ rest)
    (noNewlineBehind : newline ∉ rest) (noGreaterBehind : greater ∉ rest) {command : Command}
    (executed : singleCommand (within [] (text ++ greater :: (spaces a ++ (name ++ rest))) behind) 0 =
      some (.single command)) : command.fileIn = none := by
  have spaced := isWord.spaced_before a
  have absent (c : Byte) (isSpecial : c ∈ special) (notSpace : c ≠ space) (notBehind : c ∉ rest) :
      c ∉ spaces a ++ (name ++ rest) := by
    rw [← List.append_assoc, List.mem_append, not_or]
    exact ⟨spaced.notMem c isSpecial notSpace, notBehind⟩
  have scannableLine : Scannable (text ++ greater :: (spaces a ++ (name ++ rest))) :=
    scannable.append (by decide) (absent 0 (by decide) (by decide) noNulBehind)
      (absent newline (by decide) (by decide) noNewlineBehind)
  simp only [singleCommand,
    scannableLine.parse_once noGreater (absent greater (by decide) (by decide) noGreaterBehind)
      (isWord.kept_behind a rest),
    scannable.parse noLess, scannable.parseArgs, singleCommand.finishSingle, Option.bind_eq_bind,
    Option.bind_eq_some_iff, Option.some.injEq, Point.single.injEq] at executed
  rcases executed with ⟨trimmed, -, rfl⟩
  rfl

end Commands

/-! ## The pass for the pipes -/

variable {line before : Buffer}

theorem cutAt_newline (noNul : 0 ∉ text) (oneLine : newline ∉ text.dropLast) :
    ∃ later, cutAt (within before text behind) before.length newline =
      within before (chomp text) later := by
  rcases List.eq_nil_or_concat' text with rfl | ⟨front, last, rfl⟩
  · exact ⟨behind, cutAt_of_notMem (by simp [cstring_within noNul])⟩
  · rw [List.dropLast_concat] at oneLine
    by_cases isNewline : last = newline
    · subst isNewline
      have notIn : front.findIdx? (· = newline) = none := by
        apply List.findIdx?_eq_none_iff.mpr
        intro c inFront
        have other : c ≠ newline := by
          rintro rfl
          exact oneLine inFront
        simpa using other
      refine ⟨0 :: behind, ?_⟩
      rw [cutAt, strpbrk_within noNul, List.findIdx?_append, notIn]
      simp [chomp, within]
    · refine ⟨behind, ?_⟩
      rw [chomp, List.getLast?_concat, if_neg fun same => isNewline (Option.some.inj same)]
      apply cutAt_of_notMem
      rw [cstring_within noNul]
      simpa using ⟨oneLine, fun same => isNewline same.symm⟩

theorem parse_bar (noNul : 0 ∉ line) (oneLine : newline ∉ line.dropLast) (noBar : bar ∉ line) :
    ∃ before command later, chomp line = before ++ command ∧
      (before = [] ∨ before = [space] ∧ line.head? = some space) ∧
      parseInput (line ++ [0]) 0 bar = (within before command later, [before.length]) := by
  change ∃ before command later, _ ∧ _ ∧
    parseInput (within [] line []) ([] : Buffer).length bar = (_, _)
  by_cases leading : line.head? = some space
  · rcases List.head?_eq_some_iff.mp leading with ⟨rest, rfl⟩
    have noNulBehind := List.not_mem_of_not_mem_cons noNul
    have noBarBehind := List.not_mem_of_not_mem_cons noBar
    have oneLineBehind := notMem_dropLast_of_cons oneLine
    rcases @cutAt_newline rest [] [space] noNulBehind oneLineBehind with ⟨later, isLater⟩
    refine ⟨[space], chomp rest, later, chomp_append [] rest, .inr ⟨rfl, leading⟩, ?_⟩
    rw [parseInput_space noNulBehind, split, starts_of_notMem noBarBehind, cut_of_notMem noBarBehind]
    exact congrArg (·, [1]) isLater
  · rcases @cutAt_newline line [] [] noNul oneLine with ⟨later, isLater⟩
    refine ⟨[], chomp line, later, rfl, .inl rfl, ?_⟩
    rw [parseInput_eq noNul leading, split, starts_of_notMem noBar, cut_of_notMem noBar]
    exact congrArg (·, [0]) isLater

/-! ## Lines with redirections -/

theorem notMem_front {c : Byte} (isSpecial : c ∈ special) (notSpace : c ≠ space)
    (areWords : ∀ word ∈ list, IsWord word) (n : Nat) :
    c ∉ [space].intercalate list ++ spaces n := by
  intro inText
  rcases List.mem_append.mp inText with inWords | inSpaces
  · exact notMem_intercalate isSpecial notSpace areWords inWords
  · exact notSpace (mem_spaces inSpaces)

theorem head_intercalate (someWord : list ≠ []) (areWords : ∀ word ∈ list, IsWord word)
    (rest : Buffer) : ([space].intercalate list ++ rest).head? ≠ some space := by
  match list, someWord with
  | [word], _ =>
      rw [List.intercalate_singleton]
      exact (areWords word List.mem_cons_self).head_ne rest
  | word :: next :: others, _ =>
      rw [List.intercalate_cons_cons, List.append_assoc, List.append_assoc]
      exact (areWords word List.mem_cons_self).head_ne _

theorem scannable_front (someWord : list ≠ []) (areWords : ∀ word ∈ list, IsWord word) (n : Nat) :
    Scannable ([space].intercalate list ++ spaces n) where
  noNul := notMem_front (by decide) (by decide) areWords n
  noNewline := notMem_front (by decide) (by decide) areWords n
  notSpace := head_intercalate someWord areWords _

namespace Redirection

theorem notMem {file : Redirection} {operator c : Byte} (isSpecial : c ∈ special)
    (notSpace : c ≠ space) (other : c ≠ operator) : c ∉ file.text operator := by
  have notBehind := (file.isWord.spaced_before file.spacesAfter).notMem c isSpecial notSpace
  intro inText
  rcases List.mem_append.mp inText with inSpaces | inText
  · exact notSpace (mem_spaces inSpaces)
  · rcases List.mem_cons.mp inText with same | inRest
    · exact other same
    · exact notBehind inRest

end Redirection

theorem Redirections.notMem {redirections : Redirections} {c : Byte} (isSpecial : c ∈ special)
    (notSpace : c ≠ space) (notLess : c ≠ less) (notGreater : c ≠ greater) :
    c ∉ redirections.text := by
  cases redirections with
  | none => exact List.not_mem_nil
  | input file => exact Redirection.notMem isSpecial notSpace notLess
  | output file => exact Redirection.notMem isSpecial notSpace notGreater
  | inputOutput fileIn fileOut =>
      intro inText
      rcases List.mem_append.mp inText with inText | inText
      · exact Redirection.notMem isSpecial notSpace notLess inText
      · exact Redirection.notMem isSpecial notSpace notGreater inText
  | outputInput fileOut fileIn =>
      intro inText
      rcases List.mem_append.mp inText with inText | inText
      · exact Redirection.notMem isSpecial notSpace notGreater inText
      · exact Redirection.notMem isSpecial notSpace notLess inText

namespace CommandLine

variable (line : CommandLine)

def body : Buffer :=
  line.joined ++ line.redirections.text

theorem notMem_body {c : Byte} (isSpecial : c ∈ special) (notSpace : c ≠ space) (notLess : c ≠ less)
    (notGreater : c ≠ greater) : c ∉ line.body := by
  intro inText
  rcases List.mem_append.mp inText with inWords | inText
  · exact notMem_intercalate isSpecial notSpace line.areWords inWords
  · exact Redirections.notMem isSpecial notSpace notLess notGreater inText

theorem text_eq : line.text = line.body ++ if line.ended then [newline] else [] :=
  rfl

theorem notMem_text {c : Byte} (isSpecial : c ∈ special) (notSpace : c ≠ space) (notLess : c ≠ less)
    (notGreater : c ≠ greater) (notNewline : c ≠ newline) : c ∉ line.text := by
  have notInBody := line.notMem_body isSpecial notSpace notLess notGreater
  rw [text_eq]
  cases line.ended <;> simp [notInBody, notNewline]

/-- The pass for `|` cuts the newline. -/
theorem afterFork_eq :
    ∃ later, afterFork (line.text ++ [0]) = singleCommand (within [] line.body later) 0 := by
  have noNewline : newline ∉ line.body :=
    line.notMem_body (by decide) (by decide) (by decide) (by decide)
  have oneLine : newline ∉ line.text.dropLast := by
    rw [text_eq]
    cases line.ended with
    | true => simpa using noNewline
    | false =>
        intro inText
        exact noNewline (by simpa using (List.dropLast_sublist _).subset inText)
  have chomped : chomp line.text = line.body := by
    rw [← takeWhile_eq_chomp oneLine, text_eq, List.takeWhile_append,
      takeWhile_of_notMem noNewline]
    cases line.ended <;> simp
  have notSpace : line.text.head? ≠ some space := by
    rw [text, List.append_assoc]
    exact head_intercalate line.someWord line.areWords _
  rcases parse_bar (line.notMem_text (by decide) (by decide) (by decide) (by decide) (by decide))
    oneLine (line.notMem_text (by decide) (by decide) (by decide) (by decide) (by decide)) with
    ⟨before, command, later, isLine, rfl | ⟨-, leading⟩, parsed⟩
  · rw [chomped, List.nil_append] at isLine
    subst isLine
    refine ⟨later, ?_⟩
    rw [afterFork, parsed]
    rfl
  · exact absurd leading notSpace

/-- The shell does what the line says if and only if the spaces and the order permit it. -/
theorem handled_iff : afterFork (line.text ++ [0]) = some (.single line.command) ↔ line.Handled := by
  rcases line.afterFork_eq with ⟨later, executed⟩
  rw [executed]
  rcases line with ⟨words, redirections, ended, someWord, areWords⟩
  have scannable (n : Nat) := scannable_front someWord areWords n
  have noLess (n : Nat) : less ∉ [space].intercalate words ++ spaces n :=
    notMem_front (by decide) (by decide) areWords n
  have noGreater (n : Nat) : greater ∉ [space].intercalate words ++ spaces n :=
    notMem_front (by decide) (by decide) areWords n
  have found (n : Nat) := chompLast_fields_iff someWord areWords n
  cases redirections with
  | none =>
      have single := @singleCommand_none _ later (scannable 0) (noLess 0) (noGreater 0)
      change singleCommand (within [] ([space].intercalate words ++ spaces 0) later) 0 = _ ↔ True
      rw [single, (found 0).mpr (Nat.zero_le 2)]
      exact iff_of_true rfl trivial
  | input file =>
      have single := @singleCommand_input _ later _ file.spacesAfter (scannable file.spacesBefore)
        (noLess _) (noGreater _) file.isWord
      rw [List.append_assoc] at single
      refine Iff.trans ?_ (found file.spacesBefore)
      change singleCommand (within [] ([space].intercalate words ++ file.text less) later) 0 = _ ↔ _
      rw [Redirection.text, single]
      simp [command, Redirections.fileIn, Redirections.fileOut]
  | output file =>
      have single := @singleCommand_output _ later _ file.spacesAfter (scannable file.spacesBefore)
        (noLess _) (noGreater _) file.isWord
      rw [List.append_assoc] at single
      refine Iff.trans ?_ (found file.spacesBefore)
      change singleCommand (within [] ([space].intercalate words ++ file.text greater) later) 0 = _ ↔
        _
      rw [Redirection.text, single]
      simp [command, Redirections.fileIn, Redirections.fileOut]
  | inputOutput fileIn fileOut =>
      rcases @singleCommand_inputOutput _ later _ fileIn.spacesAfter fileOut.spacesBefore
        (scannable fileIn.spacesBefore) (noLess _) (noGreater _) _ fileOut.spacesAfter
        fileIn.isWord fileOut.isWord with ⟨m, rest, total, few, single⟩
      have bytes : ([space].intercalate words ++ (fileIn.text less ++ fileOut.text greater)) =
          [space].intercalate words ++ spaces fileIn.spacesBefore ++ less ::
            (spaces fileIn.spacesAfter ++ (fileIn.name ++ spaces fileOut.spacesBefore)) ++
            greater :: (spaces fileOut.spacesAfter ++ fileOut.name) := by
        simp [Redirection.text]
      change singleCommand (within [] ([space].intercalate words ++
        (fileIn.text less ++ fileOut.text greater)) later) 0 = _ ↔ _ ∧ _
      have place : ([space].intercalate words ++ fileIn.text less).length =
          ([space].intercalate words ++ spaces fileIn.spacesBefore).length + 1 +
            fileIn.spacesAfter + fileIn.name.length := by
        simp only [Redirection.text, List.length_append, List.length_cons, spaces_length]
        omega
      rw [bytes, single]
      constructor
      · intro same
        split at same
        next inside =>
            simp only [command, Redirections.fileIn, Redirections.fileOut, Option.some.injEq,
              Point.single.injEq, Command.mk.injEq] at same
            have lengths := congrArg List.length same.2.1
            rw [List.length_append, spaces_length] at lengths
            obtain rfl : rest = 0 := by omega
            refine ⟨(found _).mp same.1, m, total.symm, ?_⟩
            change m < ([space].intercalate words ++ fileIn.text less).length
            omega
        next => cases same
      · rintro ⟨fewSpaces, k, isTriangle, inside⟩
        rcases eq_of_triangle (total.trans isTriangle) few with ⟨rfl, rfl⟩
        change k < ([space].intercalate words ++ fileIn.text less).length at inside
        rw [if_pos (by omega), (found _).mpr fewSpaces]
        simp [command, Redirections.fileIn, Redirections.fileOut, spaces]
  | outputInput fileOut fileIn =>
      have bytes : ([space].intercalate words ++ (fileOut.text greater ++ fileIn.text less)) =
          [space].intercalate words ++ spaces fileOut.spacesBefore ++ greater ::
            (spaces fileOut.spacesAfter ++ (fileOut.name ++ fileIn.text less)) := by
        simp [Redirection.text]
      refine iff_of_false (fun executed => ?_) id
      change singleCommand (within [] ([space].intercalate words ++
        (fileOut.text greater ++ fileIn.text less)) later) 0 = _ at executed
      rw [bytes] at executed
      have notFound := singleCommand_outputInput (scannable fileOut.spacesBefore) (noLess _)
        (noGreater _) fileOut.isWord
        (Redirection.notMem (by decide) (by decide) (by decide))
        (Redirection.notMem (by decide) (by decide) (by decide))
        (Redirection.notMem (by decide) (by decide) (by decide)) executed
      cases notFound

end CommandLine

end EC440.Shell
