import EC440.Shell.Redirections

/-!
# The commands of a pipeline

What the child of one command makes of the text between two bars.  It skips one
space in front of the text in each pass of `parse_input`, copies the name of a
redirection, and frees the copy after it has moved the pointer behind the
spaces in front of the name.
-/

namespace EC440.Shell

/-! ## The copy of the file name -/

section Texts

variable {text rest name front : Buffer} {delim : Byte} {list : List Buffer}

/-- The argument of `free(file_in)` or `free(file_out)` in the child of the `i`-th command, as an
index into the block that `malloc` returned.  A child that frees another address is stopped. -/
def stageFreed (input : Buffer) (sections : List Pointer) (i : Nat) : Option Pointer :=
  let command := sections.getD i 0
  if i = 0 then
    let (input, inRedirCheck) := parseInput input command less
    match inRedirCheck with
    | [_, file] => do
        let copy ← strcpy (cstring input file)
        some (skipSpaces copy 0)
    | _ => some 0
  else if i < sections.length - 1 then some 0
  else
    let (input, outRedirCheck) := parseInput input command greater
    match outRedirCheck with
    | [_, file] => do
        let copy ← strcpy (cstring input file)
        some (skipSpaces (cutAt copy 0 newline) 0)
    | _ => some 0

/-- The child of the `i`-th command gets to `execvp` with this command. -/
def Carries (input : Buffer) (sections : List Pointer) (i : Nat) (command : Command) : Prop :=
  stageFreed input sections i = some 0 ∧ stageChild input sections i = some (.execvp command)

theorem killspaces_start (noNul : 0 ∉ name) (noSpace : space ∉ name) (t : Nat) (behind : Buffer) :
    ∃ m rest, triangle m + rest = t ∧ rest ≤ m ∧
      if m + 1 ≤ name.length + rest then
        ∃ junk : Buffer, killspaces (within [] (name ++ spaces t) behind) 0 =
          some (within [] (name ++ spaces rest) (junk ++ behind))
      else killspaces (within [] (name ++ spaces t) behind) 0 = none := by
  rcases killspaces_trailing noNul t behind with ⟨m, rest, junk, total, few, -, loop⟩
  rcases loop [] with ⟨fuel, positive, rounds⟩
  rw [List.length_nil] at positive rounds
  obtain ⟨fuel, rfl⟩ := Nat.exists_eq_add_of_lt positive
  rw [Nat.zero_add] at rounds
  have noNulRest := noNul_append_spaces noNul rest
  have length : (name ++ spaces rest).length = name.length + rest := by
    rw [List.length_append, spaces_length]
  refine ⟨m, rest, total, few, ?_⟩
  rw [rounds]
  split
  next inside =>
      refine ⟨junk, ?_⟩
      rcases exists_byte (show name.length + rest - (m + 1) < name.length by omega) with
        ⟨first, c, others, rfl, isFirst⟩
      have notSpace : c ≠ space := by
        rintro rfl
        simp at noSpace
      apply @killLoop_inside [] _ _ fuel _ noNulRest first (others ++ spaces rest) c notSpace
      · simp
      · rw [length, isFirst]
        omega
  next outside =>
      apply killLoop_outside
      have strlen := @strlen_within [] (name ++ spaces rest) (junk ++ behind) noNulRest
      rw [List.length_nil] at strlen
      rw [strlen, length]
      omega

theorem cstring_start (noNul : 0 ∉ text) (behind : Buffer) :
    cstring (within [] text behind) 0 = text :=
  @cstring_within [] text behind noNul

theorem trim_start (isWord : IsWord name) (t : Nat) :
    ∃ m rest, triangle m + rest = t ∧ rest ≤ m ∧
      if m + 1 ≤ name.length + rest then
        ∃ copy, trim (within [] (name ++ spaces t) []) 0 = some (copy, 0) ∧
          cstring copy 0 = name ++ spaces rest
      else trim (within [] (name ++ spaces t) []) 0 = none := by
  have noNul : 0 ∉ name := notMem_of_special (by decide) isWord
  have noSpace : space ∉ name := notMem_of_special (by decide) isWord
  rcases killspaces_start noNul noSpace t [] with ⟨m, rest, total, few, killed⟩
  have unmoved : skipSpaces (within [] (name ++ spaces t) []) 0 = 0 := by
    have skipped := @skipSpaces_within [] [] (name ++ spaces t) 0 (noNul_append_spaces noNul t)
      (isWord.head_ne _)
    simpa [spaces] using skipped
  refine ⟨m, rest, total, few, ?_⟩
  split
  next inside =>
      rw [if_pos inside] at killed
      obtain ⟨junk, killed⟩ := killed
      refine ⟨within [] (name ++ spaces rest) (junk ++ []), ?_, ?_⟩
      · rw [trim, unmoved, killed]
        rfl
      · exact cstring_start (noNul_append_spaces noNul rest) _
  next outside =>
      rw [if_neg outside] at killed
      rw [trim, unmoved, killed]
      rfl

/-- The copy gives the name if and only if the spaces behind it are of the right number. -/
theorem trim_start_iff (isWord : IsWord name) (t : Nat) :
    ((trim (within [] (name ++ spaces t) []) 0).map fun found => cstring found.1 found.2) =
        some name ↔
      ∃ k, t = triangle k ∧ k < name.length := by
  rcases trim_start isWord t with ⟨m, rest, total, few, trimmed⟩
  constructor
  · intro found
    split at trimmed
    next inside =>
        obtain ⟨copy, trimmed, string⟩ := trimmed
        rw [trimmed, Option.map_some, string, Option.some.injEq] at found
        have lengths := congrArg List.length found
        rw [List.length_append, spaces_length] at lengths
        obtain rfl : rest = 0 := by omega
        exact ⟨m, total.symm, by omega⟩
    next =>
        rw [trimmed] at found
        cases found
  · rintro ⟨k, isTriangle, inside⟩
    rcases eq_of_triangle (total.trans isTriangle) few with ⟨rfl, rfl⟩
    rw [if_pos (by omega)] at trimmed
    obtain ⟨copy, trimmed, string⟩ := trimmed
    rw [trimmed, Option.map_some, string]
    simp [spaces]

/-! ## The space in front -/

/-- The text that `parse_input` scans. -/
def skipped (text : Buffer) : Buffer :=
  if text.head? = some space then text.tail else text

theorem skipped_of_head_ne (notSpace : text.head? ≠ some space) : skipped text = text :=
  if_neg notSpace

theorem mem_of_mem_skipped {c : Byte} (inSkipped : c ∈ skipped text) : c ∈ text := by
  unfold skipped at inSkipped
  split at inSkipped
  · exact List.mem_of_mem_tail inSkipped
  · exact inSkipped

theorem skipped_spaces (notSpace : text.head? ≠ some space) (n : Nat) :
    skipped (spaces n ++ text) = spaces (n - 1) ++ text := by
  cases n with
  | zero => exact skipped_of_head_ne notSpace
  | succ n => simp [skipped, spaces_succ]

theorem skipped_append (notSpace : delim ≠ space) (front rest : Buffer) :
    skipped (front ++ delim :: rest) = skipped front ++ delim :: rest := by
  cases front with
  | nil =>
      have same : (delim :: rest).head? ≠ some space := by simpa using notSpace
      exact skipped_of_head_ne same
  | cons c front =>
      unfold skipped
      rw [List.cons_append, List.head?_cons, List.head?_cons]
      split <;> rfl

theorem parseInput_skipped (noNul : 0 ∉ text) (before behind : Buffer) :
    ∃ skippedBefore, within skippedBefore (skipped text) behind = within before text behind ∧
      ∀ delim, parseInput (within before text behind) before.length delim =
        split delim skippedBefore (skipped text) behind := by
  by_cases leading : text.head? = some space
  · obtain ⟨rest, rfl⟩ := List.head?_eq_some_iff.mp leading
    refine ⟨before ++ [space], ?_, fun delim => ?_⟩
    · simp [skipped, within]
    · rw [parseInput_space (List.not_mem_of_not_mem_cons noNul)]
      simp [skipped]
  · refine ⟨before, ?_, fun delim => ?_⟩
    · rw [skipped_of_head_ne leading]
    · rw [parseInput_eq noNul leading, skipped_of_head_ne leading]

theorem parseArgs_skipped (noNul : 0 ∉ text) (noNewline : newline ∉ text) (before behind : Buffer) :
    ∃ buffer args, parseArgs (within before text behind) before.length = (buffer, args) ∧
      args.map (cstring buffer) = chompLast (fields space (skipped text)) ∧
      ∀ k, cstring buffer (before.length + text.length + 1 + k) = cstring behind k := by
  rcases parseInput_skipped noNul before behind with ⟨skippedBefore, same, passes⟩
  have noNul' : 0 ∉ skipped text := fun inSkipped => noNul (mem_of_mem_skipped inSkipped)
  have noNewline' : newline ∉ skipped text :=
    fun inSkipped => noNewline (mem_of_mem_skipped inSkipped)
  have strings := @split_strings skippedBefore (skipped text) behind space noNul'
  rw [split_of_noNewline noNul' noNewline'] at strings
  refine ⟨_, _, (passes space).trans (split_of_noNewline noNul' noNewline'), strings, fun k => ?_⟩
  have lengths := congrArg List.length same
  have cutLength : (cut space (skipped text)).length = (skipped text).length := List.length_map _
  simp only [within, List.length_append, List.length_cons] at lengths
  have place : before.length + text.length + 1 + k =
      (skippedBefore ++ cut space (skipped text) ++ [0]).length + k := by
    simp only [List.length_append, cutLength, List.length_singleton]
    omega
  rw [place, ← cstring_skip (skippedBefore ++ cut space (skipped text) ++ [0]) behind k]
  simp [within]

theorem parseInput_once (noNul : 0 ∉ front ++ delim :: rest)
    (noNewline : newline ∉ front ++ delim :: rest) (notSpace : delim ≠ space)
    (noDelim : delim ∉ front) (onlyOne : delim ∉ rest) (kept : Kept rest) (before behind : Buffer) :
    ∃ skippedBefore, parseInput (within before (front ++ delim :: rest) behind) before.length delim =
      (within skippedBefore (skipped front) (rest ++ 0 :: behind),
        [skippedBefore.length, skippedBefore.length + (skipped front).length + 1]) := by
  rcases parseInput_skipped noNul before behind with ⟨skippedBefore, -, passes⟩
  have noNul' : 0 ∉ skipped front ++ delim :: rest := by
    rw [← skipped_append notSpace]
    exact fun inSkipped => noNul (mem_of_mem_skipped inSkipped)
  have noNewline' : newline ∉ skipped front ++ delim :: rest := by
    rw [← skipped_append notSpace]
    exact fun inSkipped => noNewline (mem_of_mem_skipped inSkipped)
  have noDelim' : delim ∉ skipped front := fun inSkipped => noDelim (mem_of_mem_skipped inSkipped)
  refine ⟨skippedBefore, ?_⟩
  rw [passes delim, skipped_append notSpace, split_once noNul' noNewline' noDelim' onlyOne kept]

theorem parseInput_none (noNul : 0 ∉ text) (noNewline : newline ∉ text) (noDelim : delim ∉ text)
    (before behind : Buffer) :
    ∃ start, parseInput (within before text behind) before.length delim =
      (within before text behind, [start]) := by
  rcases parseInput_skipped noNul before behind with ⟨skippedBefore, same, passes⟩
  refine ⟨skippedBefore.length, ?_⟩
  rw [passes delim, split_of_notMem (fun inSkipped => noNul (mem_of_mem_skipped inSkipped))
    (fun inSkipped => noNewline (mem_of_mem_skipped inSkipped))
    fun inSkipped => noDelim (mem_of_mem_skipped inSkipped), same]

/-- The words are found if and only if no space is left in front of them, and at most two
follow. -/
theorem words_found_iff (someWord : list ≠ []) (areWords : ∀ word ∈ list, IsWord word) (n t : Nat) :
    chompLast (fields space (spaces n ++ ([space].intercalate list ++ spaces t))) = list ↔
      n = 0 ∧ t ≤ 2 := by
  cases n with
  | zero =>
      rw [← chompLast_fields_iff someWord areWords t]
      simp [spaces]
  | succ n =>
      refine iff_of_false (fun same => ?_) fun none => Nat.succ_ne_zero n none.1
      have text_eq : spaces (n + 1) ++ ([space].intercalate list ++ spaces t) =
          [] ++ space :: (spaces n ++ ([space].intercalate list ++ spaces t)) := by
        rw [spaces_succ]
        rfl
      have first : [] ∈ fields space (spaces (n + 1) ++ ([space].intercalate list ++ spaces t)) := by
        rw [text_eq, fields_append List.not_mem_nil]
        exact List.mem_cons_self
      have empty := mem_chompLast_nil first
      rw [same] at empty
      exact (areWords [] empty).1 rfl

end Texts

/-! ## One command -/

/-- A command with the spaces around it, and perhaps a redirection. -/
structure Stage where
  lead : Nat
  words : List Buffer
  file : Option Redirection
  trail : Nat
  someWord : words ≠ []
  areWords : ∀ word ∈ words, IsWord word

namespace Stage

variable (stage : Stage)

def joined : Buffer :=
  [space].intercalate stage.words

def tail (operator : Byte) : Buffer :=
  (match stage.file with
  | none => []
  | some file => file.text operator) ++ spaces stage.trail

def textFrom (operator : Byte) (lead : Nat) : Buffer :=
  spaces lead ++ (stage.joined ++ stage.tail operator)

def text (operator : Byte) : Buffer :=
  stage.textFrom operator stage.lead

def fileName : Option Buffer :=
  stage.file.map (·.name)

/-- When the command is executed as it says, with `leads` spaces skipped in front of words
without a redirection. -/
def Carried (leads : Nat) : Prop :=
  match stage.file with
  | none => stage.lead ≤ leads ∧ stage.trail ≤ 2
  | some file =>
      stage.lead ≤ leads + 1 ∧ file.spacesBefore ≤ 2 ∧ file.spacesAfter = 0 ∧
        file.name.length + stage.trail < 256 ∧
        ∃ k, stage.trail = triangle k ∧ k < file.name.length

variable {stage} {operator : Byte} {n : Nat}

theorem joined_head (rest : Buffer) : (stage.joined ++ rest).head? ≠ some space :=
  head_intercalate stage.someWord stage.areWords rest

theorem skipped_textFrom : skipped (stage.textFrom operator n) = stage.textFrom operator (n - 1) :=
  skipped_spaces (joined_head _) n

theorem notMem_joined {c : Byte} (isSpecial : c ∈ special) (notSpace : c ≠ space) :
    c ∉ stage.joined :=
  notMem_intercalate isSpecial notSpace stage.areWords

theorem notMem_textFrom {c : Byte} (isSpecial : c ∈ special) (notSpace : c ≠ space)
    (other : c ≠ operator) : c ∉ stage.textFrom operator n := by
  have notSpaces : ∀ n, c ∉ spaces n := fun n inSpaces => notSpace (mem_spaces inSpaces)
  have notFile : c ∉ match stage.file with
      | none => []
      | some file => file.text operator := by
    cases stage.file with
    | none => exact List.not_mem_nil
    | some file => exact Redirection.notMem isSpecial notSpace other
  simp only [textFrom, tail, List.mem_append, not_or]
  exact ⟨notSpaces _, notMem_joined isSpecial notSpace, notFile, notSpaces _⟩

theorem textFrom_none (plain : stage.file = none) :
    stage.textFrom operator n = spaces n ++ (stage.joined ++ spaces stage.trail) := by
  simp [textFrom, tail, plain]

theorem textFrom_some {file : Redirection} (redirected : stage.file = some file) :
    stage.textFrom operator n =
      (spaces n ++ (stage.joined ++ spaces file.spacesBefore)) ++
        operator :: (spaces file.spacesAfter ++ (file.name ++ spaces stage.trail)) := by
  simp [textFrom, tail, redirected, Redirection.text]

theorem args_none (plain : stage.file = none) (before behind : Buffer) :
    ∃ buffer args, parseArgs (within before (stage.textFrom operator n) behind) before.length =
        (buffer, args) ∧
      (args.map (cstring buffer) = stage.words ↔ n ≤ 1 ∧ stage.trail ≤ 2) := by
  have noNul : 0 ∉ stage.textFrom less n := notMem_textFrom (by decide) (by decide) (by decide)
  have noNewline : newline ∉ stage.textFrom less n :=
    notMem_textFrom (by decide) (by decide) (by decide)
  rw [textFrom_none plain] at noNul noNewline ⊢
  rcases parseArgs_skipped noNul noNewline before behind with ⟨buffer, args, parsed, strings, -⟩
  refine ⟨buffer, args, parsed, ?_⟩
  rw [strings, skipped_spaces (joined_head _), joined,
    words_found_iff stage.someWord stage.areWords]
  omega

theorem parse_some {file : Redirection} (redirected : stage.file = some file)
    (isOperator : operator ∈ [less, greater]) (before behind : Buffer) :
    ∃ middle first found buffer args,
      parseInput (within before (stage.textFrom operator n) behind) before.length operator =
        (middle, [first, found]) ∧
      parseArgs middle first = (buffer, args) ∧
      (args.map (cstring buffer) = stage.words ↔ n ≤ 2 ∧ file.spacesBefore ≤ 2) ∧
      cstring middle found = spaces file.spacesAfter ++ (file.name ++ spaces stage.trail) ∧
      cstring buffer found = spaces file.spacesAfter ++ (file.name ++ spaces stage.trail) := by
  have facts : operator ≠ space ∧ operator ≠ 0 ∧ operator ≠ newline ∧ operator ∈ special := by
    rcases List.mem_pair.mp isOperator with rfl | rfl <;> decide
  obtain ⟨notSpace, notNul, notNewline, isSpecial⟩ := facts
  have noNul : 0 ∉ stage.textFrom operator n := notMem_textFrom (by decide) (by decide) notNul.symm
  have noNewline : newline ∉ stage.textFrom operator n :=
    notMem_textFrom (by decide) (by decide) notNewline.symm
  have spaced := file.isWord.spaced file.spacesAfter stage.trail
  have noOperator : operator ∉ spaces n ++ (stage.joined ++ spaces file.spacesBefore) := by
    simp only [List.mem_append, not_or]
    exact ⟨fun inSpaces => notSpace (mem_spaces inSpaces), notMem_joined isSpecial notSpace,
      fun inSpaces => notSpace (mem_spaces inSpaces)⟩
  rw [textFrom_some redirected] at noNul noNewline ⊢
  rcases parseInput_once noNul noNewline notSpace noOperator
    (spaced.notMem operator isSpecial notSpace) spaced.kept before behind with
    ⟨skippedBefore, parsed⟩
  have front_eq := skipped_spaces (stage.joined_head (spaces file.spacesBefore)) n
  rw [front_eq] at parsed
  have inFront : ∀ c ∈ spaces (n - 1) ++ (stage.joined ++ spaces file.spacesBefore),
      c ∈ (spaces n ++ (stage.joined ++ spaces file.spacesBefore)) ++
        operator :: (spaces file.spacesAfter ++ (file.name ++ spaces stage.trail)) := by
    intro c inText
    rw [← front_eq] at inText
    exact List.mem_append_left _ (mem_of_mem_skipped inText)
  rcases parseArgs_skipped (fun nul => noNul (inFront 0 nul))
    (fun here => noNewline (inFront newline here)) skippedBefore
    (spaces file.spacesAfter ++ (file.name ++ spaces stage.trail) ++ 0 :: behind) with
    ⟨buffer, args, args_eq, strings, later⟩
  refine ⟨_, _, _, buffer, args, parsed, args_eq, ?_, ?_, ?_⟩
  · rw [strings, skipped_spaces (joined_head _), joined,
      words_found_iff stage.someWord stage.areWords]
    omega
  · have place : skippedBefore.length +
        (spaces (n - 1) ++ (stage.joined ++ spaces file.spacesBefore)).length + 1 =
        (skippedBefore ++ (spaces (n - 1) ++ (stage.joined ++ spaces file.spacesBefore)) ++
          [0]).length := by
      simp only [List.length_append, List.length_singleton]
    rw [within_behind, place]
    exact cstring_within (spaced.notMem 0 (by decide) (by decide))
  · have string := later 0
    rw [Nat.add_zero] at string
    rw [string]
    exact @cstring_within [] _ behind (spaced.notMem 0 (by decide) (by decide))

theorem copied_iff (file : Redirection) :
    (((strcpy (spaces file.spacesAfter ++ (file.name ++ spaces stage.trail))).bind fun copy =>
        some (skipSpaces copy 0)) = some 0 ∧
      ((strcpy (spaces file.spacesAfter ++ (file.name ++ spaces stage.trail))).bind fun copy =>
        (trim copy 0).map fun found => cstring found.1 found.2) = some file.name) ↔
    file.spacesAfter = 0 ∧ file.name.length + stage.trail < 256 ∧
      ∃ k, stage.trail = triangle k ∧ k < file.name.length := by
  have noNul : 0 ∉ file.name ++ spaces stage.trail :=
    noNul_append_spaces (notMem_of_special (by decide) file.isWord) _
  have skips := @skipSpaces_within [] [] (file.name ++ spaces stage.trail) file.spacesAfter noNul
    (file.isWord.head_ne _)
  have copy_eq : ∀ rest : Buffer, rest ++ [0] = within [] rest [] := fun rest => rfl
  simp only [List.length_nil, Nat.zero_add] at skips
  have length : (spaces file.spacesAfter ++ (file.name ++ spaces stage.trail)).length =
      file.spacesAfter + (file.name.length + stage.trail) := by
    simp only [List.length_append, spaces_length]
  simp only [strcpy, length]
  by_cases short : file.spacesAfter + (file.name.length + stage.trail) < 256
  · simp only [if_pos short, copy_eq, Option.bind_some, skips, Option.some.injEq]
    constructor
    · rintro ⟨unmoved, found⟩
      rw [unmoved] at short found
      refine ⟨unmoved, by omega, (trim_start_iff file.isWord stage.trail).mp ?_⟩
      simpa [spaces] using found
    · rintro ⟨unmoved, -, found⟩
      refine ⟨unmoved, ?_⟩
      rw [unmoved]
      simpa [spaces] using (trim_start_iff file.isWord stage.trail).mpr found
  · simp only [if_neg short, Option.bind_none, reduceCtorEq, false_and, false_iff, not_and]
    omega

end Stage

end EC440.Shell
