import EC440.Shell.Splitting

/-!
# Words

`parse_input(line, _, " ")` finds the words of a line if the line has no spaces
side by side.  It takes two spaces for an empty word, but not at the very end,
where a remaining single space is skipped.
-/

namespace EC440.Shell

variable {before text line rest behind : Buffer}

/-! ## What is wanted -/

def chomp (line : Buffer) : Buffer :=
  if line.getLast? = some newline then line.dropLast else line

/-- The maximal runs of other bytes than spaces. -/
def words (text : Buffer) : List Buffer :=
  (text.splitOn space).filter (· ≠ [])

/-- `parse_input` finds the words of the line, and there is room for the `NULL` behind them. -/
def FindsWords (before line behind : Buffer) : Prop :=
  let parsed := parseInput (within before line behind) before.length space
  parsed.2.map (cstring parsed.1) = words (chomp line) ∧ parsed.2.length < 512

instance (before line behind : Buffer) : Decidable (FindsWords before line behind) :=
  inferInstanceAs (Decidable (_ = _ ∧ _ < _))

/-- Where two spaces stand side by side, the line ends. -/
def SingleSpaced (line : Buffer) : Prop :=
  ∀ front rest, line = front ++ space :: space :: rest → rest = []

theorem singleSpaced_iff (text : Buffer) :
    (∀ i < text.length, text[i]? = some space → text[i + 1]? = some space → i + 2 = text.length) ↔
      SingleSpaced text := by
  constructor
  · rintro places front rest rfl
    have last := places front.length (by simp) (by simp) (by simp)
    simp only [List.length_append, List.length_cons] at last
    exact List.eq_nil_of_length_eq_zero (by omega)
  · intro singleSpaced i inText first second
    rcases List.getElem?_eq_some_iff.mp first with ⟨here, isSpace⟩
    rcases List.getElem?_eq_some_iff.mp second with ⟨next, isSecond⟩
    have behind : text.drop i = space :: space :: text.drop (i + 2) := by
      rw [List.drop_eq_getElem_cons here, isSpace, List.drop_eq_getElem_cons next, isSecond]
    have same := (List.take_append_drop i text).symm
    rw [behind] at same
    have last := List.drop_eq_nil_iff.mp (singleSpaced _ _ same)
    omega

instance (line : Buffer) : Decidable (SingleSpaced line) :=
  decidable_of_iff _ (singleSpaced_iff line)

/-! ## Words of a text -/

theorem words_eq_single (noSpace : space ∉ text) (notEmpty : text ≠ []) : words text = [text] := by
  simp [words, List.splitOn_eq_singleton noSpace, notEmpty]

theorem words_append (noSpace : space ∉ text) (notEmpty : text ≠ []) :
    words (text ++ space :: rest) = text :: words rest := by
  simp [words, List.splitOn_append_cons_self_of_not_mem noSpace, notEmpty]

theorem words_space (text : Buffer) : words (space :: text) = words text := by
  simp [words, List.splitOn_cons_eq_if_modifyHead]

theorem nil_notMem_words (text : Buffer) : [] ∉ words text := by
  simp [words]

theorem chomp_append (text rest : Buffer) :
    chomp (text ++ space :: rest) = text ++ space :: chomp rest := by
  cases rest with
  | nil => simp [chomp, newline, space]
  | cons c rest => by_cases isNewline : (c :: rest).getLast? = some newline <;> simp_all [chomp]

theorem takeWhile_eq_chomp (oneLine : newline ∉ line.dropLast) :
    line.takeWhile (· ≠ newline) = chomp line := by
  rcases List.eq_nil_or_concat' line with rfl | ⟨front, last, rfl⟩
  · rfl
  · rw [List.dropLast_concat] at oneLine
    rw [List.takeWhile_append, takeWhile_of_notMem oneLine, chomp, List.getLast?_concat,
      List.dropLast_concat]
    by_cases isNewline : last = newline <;> simp [isNewline]

theorem words_chomp_of_not_kept (notKept : ¬Kept rest) : words (chomp rest) = [] := by
  rcases cases_of_not_kept notKept with rfl | rfl | rfl <;> decide

/-! ## The strings that are found -/

theorem mem_chompLast_nil {strings : List Buffer} (found : [] ∈ strings) :
    [] ∈ chompLast strings := by
  induction strings with
  | nil => exact found
  | cons first rest inductionHypothesis =>
      cases rest with
      | nil =>
          cases List.mem_singleton.mp found
          exact List.mem_singleton_self _
      | cons second rest =>
          rcases List.mem_cons.mp found with rfl | inRest
          · exact List.mem_cons_self
          · exact List.mem_cons_of_mem _ (inductionHypothesis inRest)

theorem chompLast_fields (text rest : Buffer) :
    chompLast (text :: fields space rest) = text :: chompLast (fields space rest) :=
  rfl

theorem nil_mem_fields (front : Buffer) (more : rest ≠ []) :
    [] ∈ fields space (front ++ space :: space :: rest) := by
  have kept : Kept (space :: rest) := by
    refine ⟨fun same => ?_, fun same => more ?_, Nat.succ_ne_zero _⟩
    · cases same
    · exact (List.cons.inj same).2
  have found : [] ∈ pieces space (front ++ space :: space :: rest) := by
    induction front with
    | nil => simp [pieces, kept]
    | cons c front inductionHypothesis =>
        rw [List.cons_append, pieces]
        split
        · exact List.mem_cons_of_mem _ inductionHypothesis
        · exact inductionHypothesis
  exact List.mem_cons_of_mem _ found

/-- The text starts with a word. -/
def StartsWord (text : Buffer) : Prop :=
  ∃ c rest, text = c :: rest ∧ c ≠ space ∧ c ≠ newline

theorem SingleSpaced.startsWord (singleSpaced : SingleSpaced (text ++ space :: rest))
    (oneLine : newline ∉ rest.dropLast) (kept : Kept rest) : StartsWord rest := by
  cases rest with
  | nil => exact absurd rfl kept.2.2
  | cons c rest =>
      refine ⟨c, rest, rfl, ?_, ?_⟩
      · rintro rfl
        cases singleSpaced text rest rfl
        exact kept.2.1 rfl
      · rintro rfl
        cases rest with
        | nil => exact kept.1 rfl
        | cons d rest => exact oneLine List.mem_cons_self

theorem SingleSpaced.suffix (singleSpaced : SingleSpaced (text ++ rest)) : SingleSpaced rest := by
  intro front last same
  apply singleSpaced (text ++ front)
  rw [same, List.append_assoc]

theorem SingleSpaced.fields_eq_words (singleSpaced : SingleSpaced text)
    (oneLine : newline ∉ text.dropLast) (startsWord : StartsWord text) :
    chompLast (fields space text) = words (chomp text) := by
  induction length : text.length using Nat.strongRecOn generalizing text with
  | _ _ inductionHypothesis =>
    subst length
    rcases startsWord with ⟨c, others, isText, notSpace, notNewline⟩
    by_cases hasSpace : space ∈ text
    · rcases List.eq_append_cons_of_mem hasSpace with ⟨word, rest, rfl, noSpace⟩
      have notEmpty : word ≠ [] := by
        rintro rfl
        exact notSpace (List.cons.inj isText).1.symm
      rw [List.dropLast_append_of_ne_nil (List.cons_ne_nil space rest)] at oneLine
      have noNewline : newline ∉ word := fun inWord => oneLine (List.mem_append_left _ inWord)
      rw [fields_append noSpace, chomp_append, words_append noSpace notEmpty]
      by_cases kept : Kept rest
      · have oneLineBehind : newline ∉ rest.dropLast :=
          notMem_dropLast_of_cons fun inRest => oneLine (List.mem_append_right word inRest)
        rw [if_pos kept, chompLast_fields]
        apply congrArg (word :: ·)
        apply inductionHypothesis _ _ _ oneLineBehind (singleSpaced.startsWord oneLineBehind kept) rfl
        · simp only [List.length_append, List.length_cons]
          omega
        · rw [← List.singleton_append, ← List.append_assoc] at singleSpaced
          exact singleSpaced.suffix
      · rw [if_neg kept, words_chomp_of_not_kept kept, chompLast, takeWhile_of_notMem noNewline]
    · have noSpace : space ∉ chomp text := by
        rw [← takeWhile_eq_chomp oneLine]
        exact fun inWord => hasSpace ((List.takeWhile_prefix _).subset inWord)
      have notEmpty : chomp text ≠ [] := by
        rw [← takeWhile_eq_chomp oneLine, isText]
        simp [notNewline]
      rw [fields_of_notMem hasSpace, chompLast, takeWhile_eq_chomp oneLine,
        words_eq_single noSpace notEmpty]

theorem fields_eq_words_iff (oneLine : newline ∉ text.dropLast) (startsWord : StartsWord text) :
    chompLast (fields space text) = words (chomp text) ↔ SingleSpaced text := by
  constructor
  · rintro same front rest rfl
    by_contra more
    have found := mem_chompLast_nil (nil_mem_fields front more)
    rw [same] at found
    exact nil_notMem_words _ found
  · intro singleSpaced
    exact singleSpaced.fields_eq_words oneLine startsWord

/-! ## Lines -/

theorem split_length (delim : Byte) (before text behind : Buffer) :
    (split delim before text behind).2.length ≤ text.length - 1 + 1 :=
  Nat.succ_le_succ (starts_length ..)

/-- Only the strings count, for there is always room for them. -/
theorem findsWords_of_split {before' : Buffer} (noNul : 0 ∉ text) (short : text.length ≤ 511)
    (parsed : parseInput (within before line behind) before.length space =
      split space before' text behind) :
    FindsWords before line behind ↔ chompLast (fields space text) = words (chomp line) := by
  have room : (split space before' text behind).2.length < 512 :=
    Nat.lt_of_le_of_lt (split_length ..) (by omega)
  rw [FindsWords, parsed]
  simp only [split_strings noNul, room, and_true]

theorem startsWord_of_notBlank (oneLine : newline ∉ line.dropLast)
    (notBlank : ∃ c ∈ chomp line, c ≠ space) (notSpace : line.head? ≠ some space) :
    StartsWord line := by
  rcases notBlank with ⟨c, inLine, -⟩
  cases line with
  | nil => cases inLine
  | cons d rest =>
      refine ⟨d, rest, rfl, fun isSpace => notSpace (congrArg some isSpace), ?_⟩
      rintro rfl
      rw [← takeWhile_eq_chomp oneLine] at inLine
      simp at inLine

/-- `parse_input(line, _, " ")` finds the words of a line that is not blank, wherever it is in
memory, if and only if two spaces stand side by side at most at its very end. -/
theorem parseInput_words_iff (before line behind : Buffer) (noNul : 0 ∉ line)
    (short : line.length ≤ 511) (oneLine : newline ∉ line.dropLast)
    (notBlank : ∃ c ∈ chomp line, c ≠ space) :
    FindsWords before line behind ↔ SingleSpaced line := by
  by_cases leading : line.head? = some space
  · rcases List.head?_eq_some_iff.mp leading with ⟨rest, rfl⟩
    have noNulBehind := List.not_mem_of_not_mem_cons noNul
    have chompRest : chomp (space :: rest) = space :: chomp rest := chomp_append [] rest
    rw [findsWords_of_split noNulBehind (Nat.le_of_succ_le short) (parseInput_space noNulBehind),
      chompRest, words_space]
    rw [chompRest] at notBlank
    have notBlankBehind : ∃ c ∈ chomp rest, c ≠ space := by
      rcases notBlank with ⟨c, inLine, notSpace⟩
      exact ⟨c, (List.mem_cons.mp inLine).resolve_left notSpace, notSpace⟩
    by_cases second : rest.head? = some space
    · rcases List.head?_eq_some_iff.mp second with ⟨more, rfl⟩
      constructor
      · intro same
        have found : [] ∈ chompLast (fields space (space :: more)) :=
          mem_chompLast_nil (List.mem_cons.mpr (.inl rfl))
        rw [same] at found
        exact absurd found (nil_notMem_words _)
      · intro singleSpaced
        cases singleSpaced [] more rfl
        rcases notBlankBehind with ⟨c, inLine, notSpace⟩
        exact absurd (List.mem_singleton.mp inLine) notSpace
    · have oneLineBehind := notMem_dropLast_of_cons oneLine
      rw [fields_eq_words_iff oneLineBehind
        (startsWord_of_notBlank oneLineBehind notBlankBehind second)]
      constructor
      · rintro singleSpaced (_ | ⟨c, front⟩) last same
        · have second' := (List.cons.inj same).2
          exact absurd (congrArg List.head? second') second
        · exact singleSpaced front last (List.cons.inj same).2
      · intro singleSpaced
        exact @SingleSpaced.suffix [space] rest singleSpaced
  · rw [findsWords_of_split noNul short (parseInput_eq noNul leading)]
    exact fields_eq_words_iff oneLine (startsWord_of_notBlank oneLine notBlank leading)

theorem parseInput_words_iff_single :
    FindsWords [] [space, 97, space, 98, space, newline] [] :=
  (parseInput_words_iff [] _ [] (by decide) (by decide) (by decide)
    ⟨97, by decide, by decide⟩).mpr (by decide)

/-- The line `a  b` has two words, and three strings are found. -/
theorem parseInput_words_iff_broken :
    ¬∀ before line behind : Buffer, 0 ∉ line → line.length ≤ 511 → newline ∉ line.dropLast →
      (∃ c ∈ chomp line, c ≠ space) → FindsWords before line behind := by
  intro always
  have found := always [] [97, space, space, 98, newline] [] (by decide) (by decide) (by decide)
    ⟨97, by decide, by decide⟩
  exact absurd found (by decide)

end EC440.Shell
