import EC440.Shell.Stages

/-!
# Lines with several commands

The pass of `parse_input` for `|` over the commands of a pipeline, and what each
child makes of its section afterwards.  Every child executes its command as it
was typed if and only if the spaces around the words and around the operator are
few or of the right number, and the name of the file fits its copy.
-/

namespace EC440.Shell

/-! ## What is typed -/

/-- Commands with a `|` between them, and perhaps a newline. -/
structure PipelineLine where
  first : Stage
  between : List Stage
  last : Stage
  ended : Bool
  plain : ∀ stage ∈ between, stage.file = none

namespace PipelineLine

variable (line : PipelineLine)

def stages : List Stage :=
  line.first :: (line.between ++ [line.last])

def ending : Buffer :=
  if line.ended then [newline] else []

def text : Buffer :=
  [bar].intercalate
    (line.first.text less ::
      (line.between.map (·.text greater) ++ [line.last.text greater ++ line.ending]))

end PipelineLine

/-- What the `i`-th command of a pipeline says.  Its file is the input of the first command and
the output of the others. -/
def Stage.command (stage : Stage) (i : Nat) : Command where
  args := stage.words
  fileIn := if i = 0 then stage.fileName else none
  fileOut := if i = 0 then none else stage.fileName

/-! ## The sections -/

section Sections

variable {buffer text : Buffer} {delim : Byte} {p : Pointer} {list : List Buffer}

theorem within_of_cstring (ends : buffer.getLast? = some 0) (notEmpty : cstring buffer p ≠ []) :
    ∃ before behind, buffer = within before (cstring buffer p) behind ∧ before.length = p := by
  have inside : p < buffer.length := by
    by_contra outside
    apply notEmpty
    rw [cstring, List.drop_eq_nil_of_le (Nat.le_of_not_lt outside)]
    rfl
  have nulBehind : 0 ∈ buffer.drop p := by
    apply List.mem_of_getLast?
    rw [List.getLast?_drop, if_neg (Nat.not_le.mpr inside), ends]
  rcases List.eq_append_cons_of_mem nulBehind with ⟨string, behind, dropped, noNul⟩
  have string_eq : cstring buffer p = string := by
    rw [cstring, dropped, List.takeWhile_append, takeWhile_of_notMem noNul]
    simp
  refine ⟨buffer.take p, behind, ?_, List.length_take_of_le (Nat.le_of_lt inside)⟩
  rw [string_eq, within, List.append_assoc, ← dropped, List.take_append_drop]

theorem cutAt_getLast (front : Buffer) (p : Pointer) (c : Byte) :
    (cutAt (front ++ [0]) p c).getLast? = some 0 := by
  unfold cutAt
  split
  next found _ =>
      rw [List.getLast?_eq_getElem?, List.length_set, List.getElem?_set]
      split
      · simp_all
      · rw [← List.getLast?_eq_getElem?, List.getLast?_concat]
  next => exact List.getLast?_concat

theorem afterFork_several {input : Buffer} {found : List Pointer}
    (parsed : parseInput buffer 0 bar = (input, found)) (several : 2 ≤ found.length) :
    afterFork buffer = some (.pipe input found 0) := by
  rw [afterFork, parsed]
  rcases found with _ | ⟨first, _ | ⟨second, others⟩⟩
  · cases several
  · exact absurd several (by simp)
  · rfl

/-- Something stands there beside spaces and newlines. -/
def Solid (text : Buffer) : Prop :=
  ∃ c ∈ text, c ≠ space ∧ c ≠ newline

theorem Solid.kept (solid : Solid text) (rest : Buffer) : Kept (text ++ rest) := by
  rcases solid with ⟨c, inText, notSpace, notNewline⟩
  have inAll : c ∈ text ++ rest := List.mem_append_left _ inText
  refine ⟨fun same => ?_, fun same => ?_, fun none => ?_⟩
  · rw [same] at inAll
    exact notNewline (List.mem_singleton.mp inAll)
  · rw [same] at inAll
    exact notSpace (List.mem_singleton.mp inAll)
  · rw [List.eq_nil_of_length_eq_zero none] at inAll
    cases inAll

theorem Solid.of_subset {more : Buffer} (solid : Solid text) (inMore : ∀ c ∈ text, c ∈ more) :
    Solid more :=
  solid.imp fun c isByte => ⟨inMore c isByte.1, isByte.2⟩

theorem notMem_join {c : Byte} (other : c ≠ delim) (noByte : ∀ text ∈ list, c ∉ text) :
    c ∉ [delim].intercalate list := by
  induction list with
  | nil => exact List.not_mem_nil
  | cons text others inductionHypothesis =>
      have notHere := noByte text List.mem_cons_self
      have notBehind := inductionHypothesis fun text inOthers =>
        noByte text (List.mem_cons_of_mem _ inOthers)
      cases others with
      | nil => simpa using notHere
      | cons next others =>
          rw [List.intercalate_cons_cons]
          simp [notHere, other, notBehind]

theorem fields_join (noDelim : ∀ text ∈ list, delim ∉ text) (solid : ∀ text ∈ list, Solid text)
    (some : list ≠ []) : fields delim ([delim].intercalate list) = list := by
  induction list with
  | nil => exact absurd rfl some
  | cons text others inductionHypothesis =>
      have noDelimHere := noDelim text List.mem_cons_self
      cases others with
      | nil =>
          rw [List.intercalate_singleton]
          exact fields_of_notMem noDelimHere
      | cons next others =>
          have found := inductionHypothesis
            (fun text inOthers => noDelim text (List.mem_cons_of_mem _ inOthers))
            (fun text inOthers => solid text (List.mem_cons_of_mem _ inOthers))
            (List.cons_ne_nil next others)
          have kept : Kept ([delim].intercalate (next :: others)) := by
            have isSolid := solid next (List.mem_cons_of_mem _ List.mem_cons_self)
            cases others with
            | nil =>
                rw [List.intercalate_singleton, ← List.append_nil next]
                exact isSolid.kept []
            | cons third others =>
                rw [List.intercalate_cons_cons, List.append_assoc]
                exact isSolid.kept _
          rw [List.intercalate_cons_cons, List.append_assoc, List.singleton_append,
            fields_append noDelimHere, if_pos kept, found]

theorem chompLast_concat (front : List Buffer) (last : Buffer) :
    chompLast (front ++ [last]) = front ++ [last.takeWhile (· ≠ newline)] := by
  induction front with
  | nil => rfl
  | cons first rest inductionHypothesis =>
      rcases notEmpty : rest ++ [last] with _ | ⟨second, others⟩
      · simp at notEmpty
      · rw [List.cons_append, notEmpty, chompLast, ← notEmpty, inductionHypothesis,
          List.cons_append]

end Sections

namespace Stage

variable {stage : Stage} {operator : Byte} {n : Nat}

theorem solid_textFrom : Solid (stage.textFrom operator n) := by
  obtain ⟨word, others, words_eq⟩ := List.exists_cons_of_ne_nil stage.someWord
  have isWord := stage.areWords word (words_eq ▸ List.mem_cons_self)
  obtain ⟨c, rest, word_eq⟩ := List.exists_cons_of_ne_nil isWord.1
  have inWord : c ∈ word := word_eq ▸ List.mem_cons_self
  have inJoined : c ∈ stage.joined := by
    rw [joined, words_eq]
    cases others with
    | nil => simpa using inWord
    | cons next others =>
        rw [List.intercalate_cons_cons]
        simp [inWord]
  refine ⟨c, ?_, ?_, ?_⟩
  · simp [textFrom, inJoined]
  · rintro rfl
    exact isWord.2 space inWord (by decide)
  · rintro rfl
    exact isWord.2 newline inWord (by decide)

end Stage

namespace PipelineLine

variable (line : PipelineLine)

/-- The texts of the commands as `parse_input` hands them out: it skips a space in front of the
line. -/
def sections : List Buffer :=
  line.first.textFrom less (line.first.lead - 1) ::
    (line.between.map (·.text greater) ++ [line.last.text greater])

theorem notMem_ending {c : Byte} (notNewline : c ≠ newline) : c ∉ line.ending := by
  unfold ending
  split <;> simp [notNewline]

theorem takeWhile_last : (line.last.text greater ++ line.ending).takeWhile (· ≠ newline) =
    line.last.text greater := by
  have noNewline : newline ∉ line.last.text greater :=
    Stage.notMem_textFrom (by decide) (by decide) (by decide)
  rw [List.takeWhile_append, takeWhile_of_notMem noNewline]
  cases ended : line.ended with
  | true => simp [ending, ended]
  | false => simp [ending, ended]

theorem text_eq : line.text = line.first.text less ++ bar :: [bar].intercalate
    (line.between.map (·.text greater) ++ [line.last.text greater ++ line.ending]) := by
  rw [text]
  cases line.between with
  | nil => simp
  | cons stage others =>
      rw [List.map_cons, List.cons_append, List.intercalate_cons_cons]
      simp

theorem skipped_text : skipped line.text = [bar].intercalate
    (line.first.textFrom less (line.first.lead - 1) ::
      (line.between.map (·.text greater) ++ [line.last.text greater ++ line.ending])) := by
  rw [text_eq, skipped_append (by decide), Stage.text, Stage.skipped_textFrom]
  cases line.between with
  | nil => simp
  | cons stage others =>
      rw [List.map_cons, List.cons_append, List.intercalate_cons_cons]
      simp

theorem notMem_text {c : Byte} (isSpecial : c ∈ special) (notSpace : c ≠ space) (notLess : c ≠ less)
    (notGreater : c ≠ greater) (notBar : c ≠ bar) (notNewline : c ≠ newline) : c ∉ line.text := by
  apply notMem_join notBar
  intro text inTexts
  rcases List.mem_cons.mp inTexts with rfl | inTexts
  · exact Stage.notMem_textFrom isSpecial notSpace notLess
  rcases List.mem_append.mp inTexts with inBetween | isLast
  · obtain ⟨stage, -, rfl⟩ := List.mem_map.mp inBetween
    exact Stage.notMem_textFrom isSpecial notSpace notGreater
  · rw [List.mem_singleton.mp isLast, List.mem_append, not_or]
    exact ⟨Stage.notMem_textFrom isSpecial notSpace notGreater, line.notMem_ending notNewline⟩

theorem noNul_text : 0 ∉ line.text := by
  apply line.notMem_text <;> decide

theorem strings_eq : chompLast (fields bar (skipped line.text)) = line.sections := by
  have noBar : ∀ (stage : Stage) operator n, bar ≠ operator → bar ∉ stage.textFrom operator n :=
    fun stage operator n notBar => Stage.notMem_textFrom (by decide) (by decide) notBar
  have noBarLast : bar ∉ line.ending := line.notMem_ending (by decide)
  rw [skipped_text, fields_join]
  · rw [← List.cons_append, chompLast_concat, takeWhile_last]
    rfl
  · intro text inTexts
    rcases List.mem_cons.mp inTexts with rfl | inTexts
    · exact noBar _ _ _ (by decide)
    rcases List.mem_append.mp inTexts with inBetween | isLast
    · obtain ⟨stage, -, rfl⟩ := List.mem_map.mp inBetween
      exact noBar _ _ _ (by decide)
    · rw [List.mem_singleton.mp isLast, List.mem_append, not_or]
      exact ⟨noBar _ _ _ (by decide), noBarLast⟩
  · intro text inTexts
    rcases List.mem_cons.mp inTexts with rfl | inTexts
    · exact Stage.solid_textFrom
    rcases List.mem_append.mp inTexts with inBetween | isLast
    · obtain ⟨stage, -, rfl⟩ := List.mem_map.mp inBetween
      exact Stage.solid_textFrom
    · rw [List.mem_singleton.mp isLast]
      apply Stage.solid_textFrom.of_subset
      intro c inText
      exact List.mem_append_left _ inText
  · exact List.cons_ne_nil _ _

end PipelineLine

/-! ## The children -/

namespace Stage

variable {stage : Stage} {before behind : Buffer} {list : List Pointer} {i k : Nat}

theorem plain_iff {operator : Byte} (plain : stage.file = none) (before behind : Buffer) :
    (let (input, args) := parseArgs (within before (stage.textFrom operator (stage.lead - k)) behind)
      before.length
     some (Point.execvp { args := args.map (cstring input), fileIn := none, fileOut := none })) =
      some (.execvp (stage.command i)) ↔ stage.Carried (1 + k) := by
  rcases @args_none stage operator (stage.lead - k) plain before behind with
    ⟨buffer, args, parsed, found⟩
  have lead_iff : stage.lead - k ≤ 1 ↔ stage.lead ≤ 1 + k := by omega
  rw [lead_iff] at found
  rw [parsed]
  simp only [Option.some.injEq, Point.execvp.injEq, command, fileName, plain, Option.map_none,
    ite_self, Command.mk.injEq, and_self, and_true, Carried]
  exact found

theorem carries_between (plain : stage.file = none) (isSection : list[i]? = some before.length)
    (notFirst : i ≠ 0) (notLast : i < list.length - 1) :
    Carries (within before (stage.textFrom greater stage.lead) behind) list i (stage.command i) ↔
      stage.Carried 1 := by
  have freed : stageFreed (within before (stage.textFrom greater stage.lead) behind) list i =
      some 0 := by
    simp [stageFreed, notFirst, notLast]
  have section_eq : list.getD i 0 = before.length := by
    rw [List.getD_eq_getElem?_getD, isSection, Option.getD_some]
  rw [Carries, freed, stageChild, section_eq, if_neg notFirst, if_pos notLast]
  refine (and_iff_right rfl).trans ?_
  exact @plain_iff stage i 0 greater plain before behind

theorem notMem_plain {operator c : Byte} {n : Nat} (plain : stage.file = none)
    (isSpecial : c ∈ special) (notSpace : c ≠ space) : c ∉ stage.textFrom operator n := by
  rw [textFrom_none plain]
  simp only [List.mem_append, not_or]
  exact ⟨fun inSpaces => notSpace (mem_spaces inSpaces), notMem_joined isSpecial notSpace,
    fun inSpaces => notSpace (mem_spaces inSpaces)⟩

theorem parse_plain {operator : Byte} (plain : stage.file = none)
    (isOperator : operator ∈ [less, greater]) (before behind : Buffer) (n : Nat) :
    ∃ start, parseInput (within before (stage.textFrom operator n) behind) before.length operator =
      (within before (stage.textFrom operator n) behind, [start]) := by
  have facts : operator ≠ space ∧ operator ∈ special := by
    rcases List.mem_pair.mp isOperator with rfl | rfl <;> decide
  apply parseInput_none
  · exact notMem_plain plain (by decide) (by decide)
  · exact notMem_plain plain (by decide) (by decide)
  · exact notMem_plain plain facts.2 facts.1

theorem strcpy_cutAt {α : Type} {source : Buffer} (noNul : 0 ∉ source) (noNewline : newline ∉ source)
    (next : Buffer → Option α) :
    ((strcpy source).bind fun copy => next (cutAt copy 0 newline)) = (strcpy source).bind next := by
  unfold strcpy
  split
  · have string : cstring (source ++ [0]) 0 = source := cstring_start noNul []
    rw [Option.bind_some, Option.bind_some, cutAt_of_notMem (by rwa [string])]
  · rfl

theorem copied_point {copied : Option Buffer} {point : Buffer → Point} {wanted : Point}
    {words : Prop} {name : Buffer} (point_iff : ∀ found, point found = wanted ↔ words ∧ found = name) :
    (copied.bind fun copy => (trim copy 0).bind fun found =>
        some (point (cstring found.1 found.2))) = some wanted ↔
      words ∧ (copied.bind fun copy => (trim copy 0).map fun found => cstring found.1 found.2) =
        some name := by
  have mapped : (copied.bind fun copy => (trim copy 0).bind fun found =>
      some (point (cstring found.1 found.2))) =
      (copied.bind fun copy => (trim copy 0).map fun found => cstring found.1 found.2).map point := by
    rw [Option.map_bind]
    congr 1
    funext copy
    rw [Function.comp_apply, Option.map_map]
    cases trim copy 0 <;> rfl
  rw [mapped, Option.map_eq_some_iff]
  constructor
  · rintro ⟨found, isFound, isPoint⟩
    obtain ⟨isWords, rfl⟩ := (point_iff found).mp isPoint
    exact ⟨isWords, isFound⟩
  · rintro ⟨isWords, isFound⟩
    exact ⟨name, isFound, (point_iff name).mpr ⟨isWords, rfl⟩⟩

theorem carried_some_iff {file : Redirection} {strings : List Buffer} {freed : Option Pointer}
    {name : Option Buffer} (redirected : stage.file = some file)
    (words : strings = stage.words ↔ stage.lead - k ≤ 2 ∧ file.spacesBefore ≤ 2)
    (copied : freed = some 0 ∧ name = some file.name ↔
      file.spacesAfter = 0 ∧ file.name.length + stage.trail < 256 ∧
        ∃ k, stage.trail = triangle k ∧ k < file.name.length) :
    (freed = some 0 ∧ strings = stage.words ∧ name = some file.name) ↔ stage.Carried (1 + k) := by
  have lead_iff : stage.lead - k ≤ 2 ↔ stage.lead ≤ 1 + k + 1 := by omega
  rw [lead_iff] at words
  simp only [Carried, redirected]
  rw [and_left_comm, words, copied, and_assoc]

theorem carries_first (isSection : list[0]? = some before.length) :
    Carries (within before (stage.textFrom less (stage.lead - k)) behind) list 0
      (stage.command 0) ↔ stage.Carried (1 + k) := by
  have section_eq : list.getD 0 0 = before.length := by
    rw [List.getD_eq_getElem?_getD, isSection, Option.getD_some]
  have isOperator : less ∈ [less, greater] := by decide
  cases isFile : stage.file with
  | none =>
      rcases parse_plain isFile isOperator before behind (stage.lead - k) with ⟨start, parsed⟩
      rw [Carries, stageFreed, stageChild, section_eq, if_pos rfl, if_pos rfl, parsed]
      refine (and_iff_right rfl).trans ?_
      exact plain_iff isFile before behind
  | some file =>
      rcases @parse_some stage less (stage.lead - k) file isFile isOperator before behind with
        ⟨middle, first, found, buffer, args, parsed, args_eq, words, copied, later⟩
      rw [Carries, stageFreed, stageChild, section_eq, if_pos rfl, if_pos rfl, parsed]
      refine Iff.trans ?_ (carried_some_iff isFile words (copied_iff file))
      simp only [args_eq, copied, later, Option.bind_eq_bind]
      apply and_congr_right
      intro _
      apply @copied_point _ fun name =>
        .execvp { args := args.map (cstring buffer), fileIn := some name, fileOut := none }
      intro name
      simp [command, fileName, isFile]

theorem carries_last (isSection : list[i]? = some before.length) (notFirst : i ≠ 0)
    (isLast : i + 1 = list.length) :
    Carries (within before (stage.textFrom greater stage.lead) behind) list i
      (stage.command i) ↔ stage.Carried 1 := by
  have section_eq : list.getD i 0 = before.length := by
    rw [List.getD_eq_getElem?_getD, isSection, Option.getD_some]
  have notBetween : ¬i < list.length - 1 := by omega
  have isOperator : greater ∈ [less, greater] := by decide
  cases isFile : stage.file with
  | none =>
      rcases parse_plain isFile isOperator before behind stage.lead with ⟨start, parsed⟩
      rw [Carries, stageFreed, stageChild, section_eq, if_neg notFirst, if_neg notFirst,
        if_neg notBetween, if_neg notBetween, parsed]
      refine (and_iff_right rfl).trans ?_
      exact @plain_iff stage i 0 greater isFile before behind
  | some file =>
      rcases @parse_some stage greater stage.lead file isFile isOperator before behind with
        ⟨middle, first, found, buffer, args, parsed, args_eq, words, copied, later⟩
      have spaced := file.isWord.spaced file.spacesAfter stage.trail
      have noNul := spaced.notMem 0 (by decide) (by decide)
      have noNewline := spaced.notMem newline (by decide) (by decide)
      rw [Carries, stageFreed, stageChild, section_eq, if_neg notFirst, if_neg notFirst,
        if_neg notBetween, if_neg notBetween, parsed]
      refine Iff.trans ?_ (@carried_some_iff stage 0 file _ _ _ isFile words (copied_iff file))
      simp only [args_eq, copied, later, Option.bind_eq_bind,
        strcpy_cutAt noNul noNewline fun copy => some (skipSpaces copy 0),
        strcpy_cutAt noNul noNewline fun copy => (trim copy 0).bind fun found => some (Point.execvp
          { args := args.map (cstring buffer)
            fileIn := none
            fileOut := some (cstring found.1 found.2) })]
      apply and_congr_right
      intro _
      apply @copied_point _ fun name =>
        .execvp { args := args.map (cstring buffer), fileIn := none, fileOut := some name }
      intro name
      simp [command, fileName, isFile, notFirst]

end Stage

/-! ## The whole line -/

namespace PipelineLine

variable (line : PipelineLine)

theorem afterFork_eq :
    ∃ input found, afterFork (line.text ++ [0]) = some (.pipe input found 0) ∧
      input.getLast? = some 0 ∧ found.map (cstring input) = line.sections := by
  rcases @parseInput_skipped line.text line.noNul_text [] [] with ⟨before, -, passes⟩
  have noNul : 0 ∉ skipped line.text := fun inSkipped => line.noNul_text (mem_of_mem_skipped inSkipped)
  have strings := (@split_strings before _ [] bar noNul).trans line.strings_eq
  refine ⟨_, _, ?_, cutAt_getLast (before ++ cut bar (skipped line.text)) _ newline, strings⟩
  apply afterFork_several (passes bar)
  have lengths := congrArg List.length strings
  rw [List.length_map] at lengths
  have several : 2 ≤ line.sections.length := by
    simp [sections]
  exact several.trans_eq lengths.symm

variable {line} {input : Buffer} {found : List Pointer}

theorem found_length (strings : found.map (cstring input) = line.sections) :
    found.length = line.stages.length := by
  have same := congrArg List.length strings
  simpa [sections, stages] using same

theorem section_within {i : Nat} {stage : Stage} {operator : Byte} {n : Nat}
    (ends : input.getLast? = some 0) (strings : found.map (cstring input) = line.sections)
    (isSection : line.sections[i]? = some (stage.textFrom operator n)) :
    ∃ before behind : Buffer, input = within before (stage.textFrom operator n) behind ∧
      found[i]? = some before.length := by
  rw [← strings, List.getElem?_map, Option.map_eq_some_iff] at isSection
  obtain ⟨p, isPointer, string⟩ := isSection
  have notEmpty : cstring input p ≠ [] := by
    rw [string]
    obtain ⟨c, inText, -⟩ := @Stage.solid_textFrom stage operator n
    exact List.ne_nil_of_mem inText
  obtain ⟨before, behind, same, rfl⟩ := within_of_cstring ends notEmpty
  rw [string] at same
  exact ⟨before, behind, same, isPointer⟩

/-- The children, one by one. -/
theorem carries_iff (ends : input.getLast? = some 0)
    (strings : found.map (cstring input) = line.sections) {i : Nat} {stage : Stage}
    (isStage : line.stages[i]? = some stage) :
    Carries input found i (stage.command i) ↔ stage.Carried (if i = 0 then 2 else 1) := by
  have length := found_length strings
  simp only [stages, List.length_cons, List.length_append, List.length_nil] at length
  cases i with
  | zero =>
      obtain rfl : line.first = stage := Option.some.inj isStage
      obtain ⟨before, behind, rfl, isPointer⟩ :=
        @section_within line _ _ 0 line.first less (line.first.lead - 1) ends strings rfl
      exact @Stage.carries_first line.first before behind found 1 isPointer
  | succ i =>
      rw [stages, List.getElem?_cons_succ] at isStage
      by_cases isBetween : i < line.between.length
      · rw [List.getElem?_append_left isBetween] at isStage
        have isSection : line.sections[i + 1]? = some (stage.textFrom greater stage.lead) := by
          rw [sections, List.getElem?_cons_succ, List.getElem?_append_left (by simpa),
            List.getElem?_map, isStage]
          rfl
        obtain ⟨before, behind, rfl, isPointer⟩ := section_within ends strings isSection
        apply Stage.carries_between (line.plain stage (List.mem_of_getElem? isStage)) isPointer
        · exact Nat.succ_ne_zero i
        · omega
      · rw [List.getElem?_append_right (Nat.le_of_not_lt isBetween), List.getElem?_singleton,
          Option.ite_none_right_eq_some, Option.some.injEq] at isStage
        obtain ⟨isEnd, rfl⟩ := isStage
        have isSection : line.sections[i + 1]? =
            some (line.last.textFrom greater line.last.lead) := by
          rw [sections, List.getElem?_cons_succ, List.getElem?_append_right, List.length_map, isEnd]
          · rfl
          · simpa using isBetween
        obtain ⟨before, behind, rfl, isPointer⟩ := section_within ends strings isSection
        apply Stage.carries_last isPointer (Nat.succ_ne_zero i)
        omega

/-- The shell separates the commands of a line, and each child gets to its command as it was typed
if and only if the spaces permit it. -/
theorem pipelineLine_carried (line : PipelineLine) :
    ∃ input sections, afterFork (line.text ++ [0]) = some (.pipe input sections 0) ∧
      sections.length = line.stages.length ∧
      ∀ i stage, line.stages[i]? = some stage →
        (Carries input sections i (stage.command i) ↔
          stage.Carried (if i = 0 then 2 else 1)) := by
  rcases line.afterFork_eq with ⟨input, found, separated, ends, strings⟩
  refine ⟨input, found, separated, found_length strings, ?_⟩
  intro i stage isStage
  exact carries_iff ends strings isStage

end PipelineLine

-- A space behind `<` makes the child of `a< f|b` free another address than that of its block.
example : stageFreed [97, 60, 32, 102, 0, 98, 0, 0] [0, 5] 0 = some 1 := by
  decide

end EC440.Shell
