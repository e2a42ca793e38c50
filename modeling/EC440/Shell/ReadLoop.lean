import Mathlib.Logic.Relation
import EC440.Shell.Processes

/-!
# The read loop

How `main` reads lines: `fgets` into `input`, the scan for a blank line, and
the commands, which may leave anything in `input` and then return to the loop.
`fflush(stdin)` loses nothing of what can be read.
-/

namespace EC440.Shell

/-! ## Lines of a stream -/

/-- What `fgets` takes from a stream, and what it leaves. -/
def readLine : Nat → Buffer → Buffer × Buffer
  | 0, stream => ([], stream)
  | _ + 1, [] => ([], [])
  | room + 1, c :: rest =>
      if c = newline then ([c], rest)
      else (c :: (readLine room rest).1, (readLine room rest).2)

/-- Where `main` is. -/
inductive ReadPoint where
  /-- `line = fgets(input, 512, stdin)` -/
  | fgets
  /-- `line[i]` in the scan -/
  | scan (i : Nat)
  /-- `line[0]` of `NULL` -/
  | null
  /-- `line[i]` behind `input` -/
  | outside
  /-- The line is not blank. -/
  | commands
  /-- Behind the loop. -/
  | exit
  deriving DecidableEq, Repr

/-- `line` is what `fgets` stored last, `stream` what can still be read. -/
structure Reader where
  input : Buffer
  line : Buffer
  stream : Buffer
  point : ReadPoint
  deriving DecidableEq, Repr

namespace Reader

def start (input stream : Buffer) : Reader where
  input := input
  line := []
  stream := stream
  point := .fgets

/-- What happens next.  The commands leave other bytes in `input`. -/
def perform (reader : Reader) (left : Buffer) : Option Reader :=
  match reader.point with
  | .fgets =>
      let input := List.replicate 256 0 ++ reader.input.drop 256
      if reader.stream = [] then some { reader with input, point := .null }
      else
        let (line, stream) := readLine 511 reader.stream
        some { input := line ++ 0 :: input.drop (line.length + 1), line, stream, point := .scan 0 }
  | .scan i =>
      match reader.input[i]? with
      | some c =>
          if c = newline then some { reader with point := .fgets }
          else if isspace c then some { reader with point := .scan (i + 1) }
          else some { reader with point := .commands }
      | none => some { reader with point := .outside }
  | .commands =>
      if left.length = reader.input.length then
        some { reader with input := left, point := .fgets }
      else none
  | .null | .outside | .exit => none

def Follows (reader after : Reader) : Prop :=
  ∃ left, reader.perform left = some after

abbrev Reaches : Reader → Reader → Prop :=
  Relation.ReflTransGen Follows

end Reader

/-! ## What is wanted -/

def Blank (line : Buffer) : Prop :=
  ∀ c ∈ line, isspace c

structure LoopsSafely (input stream : Buffer) : Prop where
  notNull : ∀ reader, (Reader.start input stream).Reaches reader → reader.point ≠ .null
  inside : ∀ reader i, (Reader.start input stream).Reaches reader → reader.point = .scan i →
    i ≤ strlen reader.input 0
  skipsBlank : ∀ reader, (Reader.start input stream).Reaches reader → reader.point = .commands →
    ¬Blank reader.line
  exits : ∀ reader, (Reader.start input stream).Reaches reader →
    (∀ after, ¬reader.Follows after) → reader.point = .exit

/-! ## Lines -/

variable {room : Nat} {stream line input : Buffer}

theorem readLine_append (room : Nat) (stream : Buffer) :
    (readLine room stream).1 ++ (readLine room stream).2 = stream := by
  induction room generalizing stream with
  | zero => rfl
  | succ room inductionHypothesis =>
      cases stream with
      | nil => rfl
      | cons c rest =>
          rw [readLine]
          split
          · rfl
          · rw [List.cons_append, inductionHypothesis]

theorem readLine_length (room : Nat) (stream : Buffer) :
    (readLine room stream).1.length ≤ room := by
  induction room generalizing stream with
  | zero => exact Nat.le_refl 0
  | succ room inductionHypothesis =>
      cases stream with
      | nil => exact Nat.zero_le _
      | cons c rest =>
          rw [readLine]
          split
          · exact Nat.succ_le_succ (Nat.zero_le room)
          · exact Nat.succ_le_succ (inductionHypothesis rest)

theorem readLine_newline (room : Nat) (stream : Buffer) :
    newline ∉ (readLine room stream).1.dropLast := by
  induction room generalizing stream with
  | zero => exact List.not_mem_nil
  | succ room inductionHypothesis =>
      cases stream with
      | nil => exact List.not_mem_nil
      | cons c rest =>
          rw [readLine]
          split
          · exact List.not_mem_nil
          next other =>
              intro inLine
              have inRest := inductionHypothesis rest
              rcases first : (readLine room rest).1 with _ | ⟨d, others⟩
              · simp [first] at inLine
              · rw [first] at inLine inRest
                rcases List.mem_cons.mp inLine with same | inOthers
                · exact other same.symm
                · exact inRest inOthers

theorem isLine_readLine (some : stream ≠ []) : IsLine (readLine 511 stream).1 := by
  refine ⟨?_, Nat.lt_succ_of_le (readLine_length 511 stream), readLine_newline 511 stream⟩
  cases stream with
  | nil => exact absurd rfl some
  | cons c rest =>
      rw [readLine]
      split <;> simp

/-! ## The scan -/

/-- The bytes in front of the one that is looked at. -/
def Passed (bytes : Buffer) : Prop :=
  ∀ c ∈ bytes, isspace c ∧ c ≠ newline

theorem Passed.append {passed : Buffer} {c : Byte} (isPassed : Passed passed)
    (isSpace : isspace c = true) (other : c ≠ newline) : Passed (passed ++ [c]) := by
  intro d inBytes
  rcases List.mem_append.mp inBytes with inPassed | isLast
  · exact isPassed d inPassed
  · cases List.mem_singleton.mp isLast
    exact ⟨isSpace, other⟩

theorem Passed.blank {passed rest : Buffer} (isPassed : Passed passed)
    (isLine : IsLine (passed ++ newline :: rest)) : Blank (passed ++ newline :: rest) := by
  have last : rest = [] := by
    by_contra more
    apply isLine.2.2
    rw [List.dropLast_append_of_ne_nil (List.cons_ne_nil newline rest),
      List.dropLast_cons_of_ne_nil more]
    exact List.mem_append_right _ List.mem_cons_self
  subst last
  intro c inLine
  rcases List.mem_append.mp inLine with inPassed | isLast
  · exact (isPassed c inPassed).1
  · cases List.mem_singleton.mp isLast
    decide

theorem Passed.isBlank_append {passed : Buffer} (isPassed : Passed passed) (rest : Buffer) :
    isBlank (passed ++ rest) = isBlank rest := by
  induction passed with
  | nil => rfl
  | cons c others inductionHypothesis =>
      rcases isPassed c List.mem_cons_self with ⟨isSpace, other⟩
      rw [List.cons_append, isBlank, isSpace, decide_eq_false other, Bool.false_or, Bool.true_and]
      exact inductionHypothesis fun d inOthers => isPassed d (List.mem_cons_of_mem c inOthers)

theorem Passed.length_le {passed : Buffer} (isPassed : Passed passed) (rest : Buffer) :
    passed.length ≤ strlen (passed ++ rest) 0 := by
  have noNul : 0 ∉ passed := by
    intro inPassed
    cases (isPassed 0 inPassed).1
  rw [strlen, cstring, List.drop_zero, List.takeWhile_append_of_pos]
  · rw [List.length_append]
    exact Nat.le_add_right ..
  · intro c inPassed
    have other : c ≠ 0 := by
      rintro rfl
      exact noNul inPassed
    simpa using other

def ReadPoint.Known (reader : Reader) : ReadPoint → Prop
  | .fgets | .null => True
  | .scan i => IsLine reader.line ∧ ∃ passed rest behind, reader.line = passed ++ rest ∧
      passed.length = i ∧ Passed passed ∧ reader.input = reader.line ++ 0 :: behind
  | .commands => ∃ passed rest, reader.line = passed ++ rest ∧ Passed passed ∧
      ∀ c ∈ rest.head?, isspace c = false
  | .outside | .exit => False

namespace Reader

structure Known (reader : Reader) : Prop where
  size : reader.input.length = 512
  point : reader.point.Known reader

/-- How many steps are left at most. -/
def remaining (reader : Reader) : Nat :=
  600 * reader.stream.length +
    match reader.point with
    | .fgets => 1
    | .scan i => 515 - i
    | .commands => 2
    | .null | .outside | .exit => 0

variable {reader after : Reader}

theorem Known.start (size : input.length = 512) : (start input stream).Known where
  size := size
  point := trivial

theorem Known.fgets (known : reader.Known) (isPoint : reader.point = .fgets)
    (follows : reader.Follows after) :
    after.Known ∧ after.remaining < reader.remaining ∧ after.point ≠ .fgets := by
  rcases follows with ⟨left, performed⟩
  have size := known.size
  simp only [perform, isPoint] at performed
  split at performed
  · cases performed
    refine ⟨⟨?_, trivial⟩, ?_, ?_⟩
    · simp only [List.length_append, List.length_replicate, List.length_drop]
      omega
    · simp [remaining, isPoint]
    · simp
  next some =>
      cases performed
      have isLine := isLine_readLine some
      have lengths := congrArg List.length (readLine_append 511 reader.stream)
      have positive := List.length_pos_iff.mpr isLine.1
      have short := isLine.2.1
      rw [List.length_append] at lengths
      refine ⟨⟨?_, ?_⟩, ?_, ?_⟩
      · simp only [List.length_append, List.length_cons, List.length_replicate, List.length_drop]
        omega
      · exact ⟨isLine, [], _, _, rfl, rfl, by simp [Passed], rfl⟩
      · simp only [remaining, isPoint]
        omega
      · simp

theorem Known.scan (known : reader.Known) {i : Nat} (isPoint : reader.point = .scan i)
    (follows : reader.Follows after) :
    after.Known ∧ after.remaining < reader.remaining ∧
      (after.point = .fgets → isBlank (reader.line ++ [0]) = true ∧ Blank reader.line) := by
  rcases follows with ⟨left, performed⟩
  have point := known.point
  rw [isPoint] at point
  rcases point with ⟨isLine, passed, rest, behind, splits, length, isPassed, isInput⟩
  have short : passed.length ≤ 511 := by
    have bound := isLine.2.1
    rw [splits, List.length_append] at bound
    omega
  cases rest with
  | nil =>
      have byte : reader.input[i]? = some 0 := by
        rw [isInput, splits, List.append_nil, ← length]
        simp
      simp only [perform, isPoint, byte] at performed
      cases performed
      refine ⟨⟨known.size, ⟨passed, [], splits, isPassed, by simp⟩⟩, ?_, by simp⟩
      simp only [remaining, isPoint]
      omega
  | cons c others =>
      have byte : reader.input[i]? = some c := by
        rw [isInput, splits, ← length]
        simp
      simp only [perform, isPoint, byte] at performed
      split at performed
      next isNewline =>
          cases performed
          refine ⟨⟨known.size, trivial⟩, ?_, fun _ => ?_⟩
          · simp only [remaining, isPoint]
            omega
          · rw [splits, isNewline] at isLine ⊢
            rw [List.append_assoc, isPassed.isBlank_append]
            exact ⟨rfl, isPassed.blank isLine⟩
      next other =>
          split at performed
          next isSpace =>
              cases performed
              refine ⟨⟨known.size, isLine, passed ++ [c], others, behind, ?_, ?_, ?_, isInput⟩, ?_,
                by simp⟩
              · simp [splits]
              · simp [length]
              · exact isPassed.append isSpace other
              · simp only [remaining, isPoint]
                omega
          next notSpace =>
              cases performed
              refine ⟨⟨known.size, passed, c :: others, splits, isPassed, ?_⟩, ?_, by simp⟩
              · simpa using notSpace
              · simp only [remaining, isPoint]
                omega

theorem Known.commands (known : reader.Known) (isPoint : reader.point = .commands)
    (follows : reader.Follows after) : after.Known ∧ after.remaining < reader.remaining := by
  rcases follows with ⟨left, performed⟩
  simp only [perform, isPoint, Option.ite_none_right_eq_some, Option.some.injEq] at performed
  rcases performed with ⟨sameSize, rfl⟩
  refine ⟨⟨sameSize.trans known.size, trivial⟩, ?_⟩
  simp [remaining, isPoint]

theorem Known.follow (known : reader.Known) (follows : reader.Follows after) :
    after.Known ∧ after.remaining < reader.remaining ∧
      (reader.point ≠ .commands → after.point = .fgets →
        isBlank (reader.line ++ [0]) = true ∧ Blank reader.line) := by
  cases isPoint : reader.point with
  | fgets =>
      rcases known.fgets isPoint follows with ⟨later, fewer, notBack⟩
      exact ⟨later, fewer, fun _ back => absurd back notBack⟩
  | scan i =>
      rcases known.scan isPoint follows with ⟨later, fewer, skipped⟩
      exact ⟨later, fewer, fun _ => skipped⟩
  | commands =>
      rcases known.commands isPoint follows with ⟨later, fewer⟩
      exact ⟨later, fewer, fun other => absurd rfl other⟩
  | null | outside | exit =>
      rcases follows with ⟨left, performed⟩
      simp [perform, isPoint] at performed

theorem Known.reaches (known : reader.Known) (reaches : reader.Reaches after) : after.Known := by
  induction reaches with
  | refl => exact known
  | tail _ follows inductionHypothesis => exact (inductionHypothesis.follow follows).1

theorem Known.stuck_iff (known : reader.Known) :
    (∀ after, ¬reader.Follows after) ↔ reader.point = .null := by
  constructor
  · intro stuck
    have nothing : reader.perform reader.input = none := by
      apply Option.eq_none_iff_forall_ne_some.mpr
      intro after performed
      exact stuck after ⟨reader.input, performed⟩
    cases isPoint : reader.point with
    | fgets =>
        simp only [perform, isPoint] at nothing
        split at nothing <;> cases nothing
    | scan i =>
        simp only [perform, isPoint] at nothing
        split at nothing
        · split at nothing
          · cases nothing
          · split at nothing <;> cases nothing
        · cases nothing
    | commands => simp [perform, isPoint] at nothing
    | null => rfl
    | outside | exit =>
        have point := known.point
        rw [isPoint] at point
        exact point.elim
  · rintro isNull after ⟨left, performed⟩
    simp [perform, isNull] at performed

/-- Whatever is done, `NULL` is read in the end. -/
theorem Known.reaches_null (known : reader.Known) :
    ∃ after, reader.Reaches after ∧ after.point = .null := by
  induction steps : reader.remaining using Nat.strongRecOn generalizing reader with
  | _ _ inductionHypothesis =>
    subst steps
    by_cases stuck : ∀ after, ¬reader.Follows after
    · exact ⟨reader, .refl, known.stuck_iff.mp stuck⟩
    · push Not at stuck
      rcases stuck with ⟨next, follows⟩
      rcases known.follow follows with ⟨later, fewer, -⟩
      rcases inductionHypothesis _ fewer later rfl with ⟨after, reaches, isNull⟩
      exact ⟨after, .head follows reaches, isNull⟩

theorem Known.inside (known : reader.Known) {i : Nat} (isPoint : reader.point = .scan i) :
    i ≤ strlen reader.input 0 := by
  have point := known.point
  rw [isPoint] at point
  rcases point with ⟨-, passed, rest, behind, splits, length, isPassed, isInput⟩
  rw [isInput, splits, List.append_assoc, ← length]
  exact isPassed.length_le _

/-- A line that is taken for commands is no blank line with a newline. -/
theorem Known.notBlank (known : reader.Known) (isPoint : reader.point = .commands) :
    isBlank (reader.line ++ [0]) = false ∧ (Blank reader.line → newline ∉ reader.line) := by
  have point := known.point
  rw [isPoint] at point
  rcases point with ⟨passed, rest, splits, isPassed, notSpace⟩
  rw [splits, List.append_assoc, isPassed.isBlank_append]
  cases rest with
  | nil =>
      refine ⟨by decide, fun _ inLine => ?_⟩
      rw [List.append_nil] at inLine
      exact (isPassed newline inLine).2 rfl
  | cons c rest =>
      have notSpace : isspace c = false := notSpace c rfl
      have other : c ≠ newline := by
        rintro rfl
        cases notSpace
      constructor
      · rw [List.cons_append, isBlank, notSpace, decide_eq_false other]
        rfl
      · intro blank
        have isSpace : isspace c = true := blank c (by simp)
        cases isSpace.symm.trans notSpace

end Reader

/-! ## The loop -/

theorem not_loopsSafely (size : input.length = 512) (stream : Buffer) :
    ¬LoopsSafely input stream := by
  intro safe
  rcases (@Reader.Known.start stream input size).reaches_null with ⟨reader, reaches, isNull⟩
  exact safe.notNull reader reaches isNull

/-- For every stream the loop ends by reading `NULL`, after a number of steps that is bounded, and
nothing else ends it.  Up to there the scan stays in front of the NUL of each line, what it skips is
blank, and a blank line is not skipped only if it has no newline. -/
theorem readLoop_readsNull (input stream : Buffer) (size : input.length = 512) :
    (∀ reader, (Reader.start input stream).Reaches reader →
      (∀ i, reader.point = .scan i → i ≤ strlen reader.input 0) ∧
        (reader.point = .commands →
          isBlank (reader.line ++ [0]) = false ∧ (Blank reader.line → newline ∉ reader.line)) ∧
        (∀ after, reader.Follows after → after.remaining < reader.remaining ∧
          (reader.point ≠ .commands → after.point = .fgets →
            isBlank (reader.line ++ [0]) = true ∧ Blank reader.line)) ∧
        ((∀ after, ¬reader.Follows after) ↔ reader.point = .null)) ∧
      (∃ reader, (Reader.start input stream).Reaches reader ∧ reader.point = .null) ∧
      ¬LoopsSafely input stream := by
  have start : (Reader.start input stream).Known := .start size
  refine ⟨fun reader reaches => ?_, start.reaches_null, not_loopsSafely size stream⟩
  have known := start.reaches reaches
  refine ⟨fun i isPoint => known.inside isPoint, known.notBlank, fun after follows => ?_,
    known.stuck_iff⟩
  exact (known.follow follows).2

-- A blank line without newline is taken for commands.
example : (((Reader.start (List.replicate 512 0) [space]).perform []).bind fun reader =>
    (reader.perform []).bind fun reader => (reader.perform []).map Reader.point) =
    some .commands := by
  decide +kernel

/-- A blank line and a command without newline. -/
theorem readLoop_readsNull_command :
    (∃ reader, (Reader.start (List.replicate 512 0) [space, newline, 97]).Reaches reader ∧
        reader.point = .null) ∧
      ¬LoopsSafely (List.replicate 512 0) [space, newline, 97] :=
  (readLoop_readsNull _ [space, newline, 97] List.length_replicate).2

/-- Already at the end of an empty stream. -/
theorem readLoop_readsNull_broken :
    ¬∀ input stream : Buffer, input.length = 512 → LoopsSafely input stream := by
  intro always
  have safe := always (List.replicate 512 0) [] List.length_replicate
  exact not_loopsSafely List.length_replicate [] safe

end EC440.Shell
