import Mathlib.Data.List.TakeWhile
import EC440.Shell.Strings

/-!
# What parse_input finds

`parse_input` cuts the string it scans.  Here its result is read off the text
of the string alone: which pointers are kept, what the strings at them are, and
what the buffer becomes, wherever in memory the string lies.
-/

namespace EC440.Shell

variable {before text rest behind : Buffer} {delim : Byte} {start : Pointer}

theorem takeWhile_of_notMem {c : Byte} (absent : c ∉ text) :
    text.takeWhile (· ≠ c) = text := by
  apply List.takeWhile_eq_self_iff.mpr
  intro d inText
  have other : d ≠ c := by
    rintro rfl
    exact absent inText
  simpa using other

theorem notMem_dropLast_of_cons {c d : Byte} (absent : c ∉ (d :: rest).dropLast) :
    c ∉ rest.dropLast := by
  cases rest with
  | nil => exact List.not_mem_nil
  | cons e rest => exact List.not_mem_of_not_mem_cons absent

/-! ## Strings in memory -/

def within (before text behind : Buffer) : Buffer :=
  before ++ text ++ 0 :: behind

theorem within_cons (before rest behind : Buffer) (c : Byte) :
    within before (c :: rest) behind = within (before ++ [c]) rest behind := by
  simp [within]

theorem set_within (before rest behind : Buffer) (c : Byte) :
    (within before (c :: rest) behind).set before.length 0 = within (before ++ [0]) rest behind := by
  simp [within]

theorem leading_iff (before text behind : Buffer) :
    (within before text behind)[before.length]? = some space ↔ text.head? = some space := by
  cases text with
  | nil => simp [within, space]
  | cons c rest => simp [within]

theorem cstring_skip (skipped buffer : Buffer) (pointer : Pointer) :
    cstring (skipped ++ buffer) (skipped.length + pointer) = cstring buffer pointer := by
  unfold cstring
  rw [List.drop_append, List.drop_eq_nil_of_le (Nat.le_add_right ..), List.nil_append,
    Nat.add_sub_cancel_left]

@[simp] theorem cstring_within (noNul : 0 ∉ text) :
    cstring (within before text behind) before.length = text := by
  have string := cstring_skip before (text ++ 0 :: behind) 0
  rw [Nat.add_zero, ← List.append_assoc] at string
  rw [within, string, cstring, List.drop_zero, List.takeWhile_append, takeWhile_of_notMem noNul]
  simp

theorem cstring_behind {c : Byte} (noNul : 0 ∉ rest) :
    cstring (within before (c :: rest) behind) (before.length + 1) = rest := by
  have string : cstring (within (before ++ [c]) rest behind) (before ++ [c]).length = rest :=
    cstring_within noNul
  rwa [← within_cons, List.length_append] at string

theorem strpbrk_within (noNul : 0 ∉ text) :
    strpbrk (within before text behind) before.length delim =
      (text.findIdx? (· = delim)).map (before.length + ·) := by
  rw [strpbrk, cstring_within noNul]

theorem strpbrk_behind (c d : Byte) (noNul : 0 ∉ rest) :
    strpbrk (within before (c :: rest) behind) (before.length + 1) delim =
      strpbrk (within (before ++ [d]) rest behind) (before ++ [d]).length delim := by
  rw [strpbrk, cstring_behind noNul, strpbrk_within noNul]
  simp

theorem strpbrk_here (noNul : 0 ∉ delim :: rest) :
    strpbrk (within before (delim :: rest) behind) before.length delim = some before.length := by
  simp [strpbrk_within noNul, List.findIdx?_cons]

theorem strpbrk_other {c : Byte} (noNul : 0 ∉ c :: rest) (other : c ≠ delim) :
    strpbrk (within before (c :: rest) behind) before.length delim =
      strpbrk (within (before ++ [c]) rest behind) (before ++ [c]).length delim := by
  have noNulBehind := List.not_mem_of_not_mem_cons noNul
  rw [strpbrk_within noNul, strpbrk_within noNulBehind]
  simp [List.findIdx?_cons, other, Function.comp_def, Nat.add_assoc, Nat.add_comm 1]

/-! ## Cutting a string -/

theorem cstring_set {buffer : Buffer} {pointer place : Nat}
    (later : pointer + (cstring buffer pointer).length ≤ place) :
    cstring (buffer.set place 0) pointer = cstring buffer pointer := by
  have bytes (bytes : Buffer) (i : Nat) (later : (bytes.takeWhile (· ≠ 0)).length ≤ i) :
      (bytes.set i 0).takeWhile (· ≠ 0) = bytes.takeWhile (· ≠ 0) := by
    induction bytes generalizing i with
    | nil => rfl
    | cons c rest inductionHypothesis =>
        by_cases isNul : c = 0
        · cases i <;> simp [isNul]
        · cases i with
          | zero => simp [isNul] at later
          | succ i =>
              have later : (rest.takeWhile (· ≠ 0)).length ≤ i := by simpa [isNul] using later
              simpa [isNul] using inductionHypothesis i later
  unfold cstring at later ⊢
  rw [List.drop_set, if_neg (by omega)]
  exact bytes _ _ (by omega)

theorem cstring_cutAt (buffer : Buffer) (pointer : Pointer) (c : Byte) :
    cstring (cutAt buffer pointer c) pointer = (cstring buffer pointer).takeWhile (· ≠ c) := by
  have bytes (bytes : Buffer) (i : Nat)
      (found : (bytes.takeWhile (· ≠ 0)).findIdx? (· = c) = some i) :
      (bytes.set i 0).takeWhile (· ≠ 0) = (bytes.takeWhile (· ≠ 0)).takeWhile (· ≠ c) := by
    induction bytes generalizing i with
    | nil => cases found
    | cons d rest inductionHypothesis =>
        by_cases isNul : d = 0
        · simp [isNul] at found
        · rw [List.takeWhile_cons_of_pos (by simpa using isNul)] at found ⊢
          by_cases same : d = c
          · simp only [List.findIdx?_cons, same, decide_true, if_true, Option.some.injEq] at found
            subst found
            simp [same]
          · simp only [List.findIdx?_cons, same, decide_false, Bool.false_eq_true, if_false,
              Option.map_eq_some_iff] at found
            rcases found with ⟨i, found, rfl⟩
            simpa [same, isNul] using inductionHypothesis i found
  unfold cutAt strpbrk
  rcases found : (cstring buffer pointer).findIdx? (· = c) with _ | i
  · apply (takeWhile_of_notMem _).symm
    intro inString
    simpa using List.findIdx?_eq_none_iff.mp found c inString
  · change cstring (buffer.set (pointer + i) 0) pointer = _
    unfold cstring at found ⊢
    rw [List.drop_set, if_neg (Nat.not_lt.mpr (Nat.le_add_right ..)), Nat.add_sub_cancel_left]
    exact bytes _ i found

/-- A string that ends in front of another one does not notice. -/
theorem cstring_cutAt_of_lt {buffer : Buffer} {pointer later : Nat} {c : Byte}
    (earlier : pointer + (cstring buffer pointer).length < later) :
    cstring (cutAt buffer later c) pointer = cstring buffer pointer := by
  unfold cutAt strpbrk
  rcases (cstring buffer later).findIdx? (· = c) with _ | i
  · rfl
  · exact cstring_set (Nat.le_trans (Nat.le_of_lt earlier) (Nat.le_add_right ..))

theorem cutAt_of_notMem {buffer : Buffer} {pointer : Pointer} {c : Byte}
    (absent : c ∉ cstring buffer pointer) : cutAt buffer pointer c = buffer := by
  have found : (cstring buffer pointer).findIdx? (· = c) = none := by
    apply List.findIdx?_eq_none_iff.mpr
    intro d inString
    have other : d ≠ c := by
      rintro rfl
      exact absent inString
    simpa using other
  rw [cutAt, strpbrk, found]
  rfl

/-! ## The loop -/

/-- The string behind a delimiter is kept. -/
def Kept (rest : Buffer) : Prop :=
  rest ≠ [newline] ∧ rest ≠ [space] ∧ rest.length ≠ 0

instance (rest : Buffer) : Decidable (Kept rest) :=
  inferInstanceAs (Decidable (_ ∧ _ ∧ _))

def cut (delim : Byte) (text : Buffer) : Buffer :=
  text.map fun c => if c = delim then 0 else c

/-- The pointers kept by the loop, for a text that starts at the pointer. -/
def starts (delim : Byte) : Pointer → Buffer → List Pointer
  | _, [] => []
  | start, c :: rest =>
      if c = delim ∧ Kept rest then (start + 1) :: starts delim (start + 1) rest
      else starts delim (start + 1) rest

@[simp] theorem cut_cons (delim c : Byte) (rest : Buffer) :
    cut delim (c :: rest) = (if c = delim then 0 else c) :: cut delim rest :=
  rfl

theorem parseLoop_eq {fuel : Nat} (enough : text.count delim ≤ fuel) (noNul : 0 ∉ text)
    (separated : List Pointer) :
    parseLoop delim fuel (within before text behind)
        (strpbrk (within before text behind) before.length delim) separated =
      (within before (cut delim text) behind, separated ++ starts delim before.length text) := by
  induction text generalizing before fuel separated with
  | nil => cases fuel <;> simp [strpbrk_within, parseLoop, cut, starts]
  | cons c rest inductionHypothesis =>
      have noNulBehind := List.not_mem_of_not_mem_cons noNul
      by_cases isDelim : c = delim
      · subst isDelim
        rw [List.count_cons_self] at enough
        cases fuel with
        | zero => cases enough
        | succ fuel =>
            rw [strpbrk_here noNul, parseLoop, cstring_behind noNulBehind, set_within,
              strpbrk_behind c 0 noNulBehind,
              inductionHypothesis (Nat.le_of_succ_le_succ enough) noNulBehind]
            simp only [starts, true_and, cut_cons, if_true, ← within_cons]
            split
            next kept =>
                rw [if_pos (show Kept rest from kept), List.append_assoc, List.length_append]
                rfl
            next notKept =>
                rw [if_neg (show ¬Kept rest from notKept), List.length_append]
                rfl
      · rw [List.count_cons_of_ne isDelim] at enough
        rw [strpbrk_other noNul isDelim, within_cons, inductionHypothesis enough noNulBehind]
        simp [starts, isDelim, within_cons]

/-! ## The whole function -/

/-- What `parse_input` makes of a text that it scans from its first byte on. -/
def split (delim : Byte) (before text behind : Buffer) : Buffer × List Pointer :=
  (cutAt (within before (cut delim text) behind)
      ((starts delim before.length text).getLastD before.length) newline,
    before.length :: starts delim before.length text)

theorem count_le_length (before text behind : Buffer) (delim : Byte) :
    text.count delim ≤ (within before text behind).length := by
  have few : text.count delim ≤ text.length := List.count_le_length
  simp only [within, List.length_append]
  omega

theorem parseInput_eq (noNul : 0 ∉ text) (notSpace : text.head? ≠ some space) :
    parseInput (within before text behind) before.length delim =
      split delim before text behind := by
  have notLeading := mt (leading_iff before text behind).mp notSpace
  have loop := @parseLoop_eq before text behind delim _
    (count_le_length before text behind delim) noNul [before.length]
  simp only [parseInput, notLeading, false_and, if_false, loop, split, List.singleton_append,
    List.getLastD_cons]

theorem parseInput_space (noNul : 0 ∉ rest) :
    parseInput (within before (space :: rest) behind) before.length delim =
      split delim (before ++ [space]) rest behind := by
  have leading := (leading_iff before (space :: rest) behind).mpr rfl
  have noNulHere : 0 ∉ space :: rest := by
    intro inText
    rcases List.mem_cons.mp inText with isNul | inRest
    · cases isNul
    · exact noNul inRest
  have next : before.length + 1 = (before ++ [space]).length := by
    simp
  have loop := @parseLoop_eq (before ++ [space]) rest behind delim _
    (count_le_length (before ++ [space]) rest behind delim) noNul [(before ++ [space]).length]
  by_cases isSpace : delim = space
  · subst isSpace
    simp only [parseInput, leading, and_self, if_true, strpbrk_here noNulHere, Option.bind_some,
      strpbrk_behind space space noNul]
    simp only [within_cons, loop, split, List.singleton_append, List.getLastD_cons, next]
  · simp only [parseInput, leading, isSpace, and_false, if_false, if_true,
      strpbrk_other noNulHere (Ne.symm isSpace)]
    simp only [within_cons, loop, split, List.singleton_append, List.getLastD_cons, next]

/-! ## The strings that are found -/

/-- The string from here to the next delimiter, and those behind the delimiters that count. -/
def pieces (delim : Byte) : Buffer → List Buffer
  | [] => []
  | c :: rest =>
      if c = delim ∧ Kept rest then rest.takeWhile (· ≠ delim) :: pieces delim rest
      else pieces delim rest

def fields (delim : Byte) (text : Buffer) : List Buffer :=
  text.takeWhile (· ≠ delim) :: pieces delim text

def chompLast : List Buffer → List Buffer
  | [] => []
  | [last] => [last.takeWhile (· ≠ newline)]
  | first :: second :: rest => first :: chompLast (second :: rest)

theorem cstring_cut (noNul : 0 ∉ text) :
    cstring (within before (cut delim text) behind) before.length =
      text.takeWhile (· ≠ delim) := by
  have bytes : (cut delim text ++ 0 :: behind).takeWhile (· ≠ 0) = text.takeWhile (· ≠ delim) := by
    induction text with
    | nil => simp [cut]
    | cons c rest inductionHypothesis =>
        have notNul := (List.ne_of_not_mem_cons noNul).symm
        have inRest := inductionHypothesis (List.not_mem_of_not_mem_cons noNul)
        by_cases isDelim : c = delim
        · simp [isDelim]
        · simpa [isDelim, notNul] using inRest
  have string := cstring_skip before (cut delim text ++ 0 :: behind) 0
  rw [Nat.add_zero, ← List.append_assoc] at string
  exact string.trans bytes

theorem map_cstring_starts (noNul : 0 ∉ text) :
    (starts delim before.length text).map (cstring (within before (cut delim text) behind)) =
      pieces delim text := by
  induction text generalizing before with
  | nil => rfl
  | cons c rest inductionHypothesis =>
      have noNulBehind := List.not_mem_of_not_mem_cons noNul
      have next (d : Byte) : before.length + 1 = (before ++ [d]).length := by
        simp
      rw [cut_cons, within_cons, starts, pieces]
      generalize (if c = delim then 0 else c) = d
      split
      · rw [next d, List.map_cons, cstring_cut noNulBehind, inductionHypothesis noNulBehind]
      · rw [next d, inductionHypothesis noNulBehind]

theorem lt_of_mem_starts {start later : Nat} (isStart : later ∈ starts delim start text) :
    start + (text.takeWhile (· ≠ delim)).length < later := by
  induction text generalizing start with
  | nil => cases isStart
  | cons c rest inductionHypothesis =>
      have behind (isStart : later ∈ starts delim (start + 1) rest) :
          start + ((c :: rest).takeWhile (· ≠ delim)).length < later := by
        have bound := inductionHypothesis isStart
        have length : ((c :: rest).takeWhile (· ≠ delim)).length ≤
            (rest.takeWhile (· ≠ delim)).length + 1 := by
          rw [List.takeWhile_cons]
          split <;> simp
        omega
      rw [starts] at isStart
      split at isStart
      next kept =>
          rcases List.mem_cons.mp isStart with rfl | isStart
          · simp [kept.1]
          · exact behind isStart
      next => exact behind isStart

theorem starts_pairwise (noNul : 0 ∉ text) :
    (before.length :: starts delim before.length text).Pairwise fun pointer later =>
      pointer + (cstring (within before (cut delim text) behind) pointer).length < later := by
  have first {before text : Buffer} (noNul : 0 ∉ text) {later : Pointer}
      (isStart : later ∈ starts delim before.length text) :
      before.length + (cstring (within before (cut delim text) behind) before.length).length <
        later := by
    rw [cstring_cut noNul]
    exact lt_of_mem_starts isStart
  refine List.pairwise_cons.mpr ⟨fun later isStart => first noNul isStart, ?_⟩
  induction text generalizing before with
  | nil => exact .nil
  | cons c rest inductionHypothesis =>
      have noNulBehind := List.not_mem_of_not_mem_cons noNul
      have next (d : Byte) : before.length + 1 = (before ++ [d]).length := by
        simp
      rw [cut_cons, within_cons, starts]
      generalize (if c = delim then 0 else c) = d
      split
      · rw [next d]
        exact List.pairwise_cons.mpr ⟨fun later isStart => first noNulBehind isStart,
          inductionHypothesis noNulBehind⟩
      · rw [next d]
        exact inductionHypothesis noNulBehind

/-- Only the last string loses its newline. -/
theorem map_cutAt {buffer : Buffer} {first : Pointer} {others : List Pointer}
    (apart : (first :: others).Pairwise fun pointer later =>
      pointer + (cstring buffer pointer).length < later) :
    (first :: others).map (cstring (cutAt buffer (others.getLastD first) newline)) =
      chompLast ((first :: others).map (cstring buffer)) := by
  induction others generalizing first with
  | nil => simp [chompLast, cstring_cutAt]
  | cons second rest inductionHypothesis =>
      rcases List.pairwise_cons.mp apart with ⟨earlier, apart⟩
      have isLater := earlier _ List.getLastD_mem_cons
      rw [List.getLastD_cons, List.map_cons, cstring_cutAt_of_lt isLater,
        inductionHypothesis apart]
      rfl

/-- The strings that `parse_input` finds. -/
theorem split_strings (noNul : 0 ∉ text) :
    (split delim before text behind).2.map (cstring (split delim before text behind).1) =
      chompLast (fields delim text) := by
  refine (map_cutAt (starts_pairwise noNul)).trans ?_
  rw [List.map_cons, cstring_cut noNul, map_cstring_starts noNul]
  rfl

/-! ## Their text -/

theorem cases_of_not_kept (notKept : ¬Kept rest) :
    rest = [newline] ∨ rest = [space] ∨ rest = [] := by
  by_contra long
  push Not at long
  exact notKept ⟨long.1, long.2.1, fun none => long.2.2 (List.eq_nil_of_length_eq_zero none)⟩

theorem pieces_of_not_kept (notKept : ¬Kept rest) : pieces delim rest = [] := by
  rcases cases_of_not_kept notKept with rfl | rfl | rfl <;> simp [pieces, Kept]

theorem fields_of_notMem (noDelim : delim ∉ text) : fields delim text = [text] := by
  have noPieces : pieces delim text = [] := by
    induction text with
    | nil => rfl
    | cons c rest inductionHypothesis =>
        have other := List.ne_of_not_mem_cons noDelim
        rw [pieces, if_neg fun kept => other kept.1.symm]
        exact inductionHypothesis (List.not_mem_of_not_mem_cons noDelim)
  rw [fields, noPieces, takeWhile_of_notMem noDelim]

theorem fields_append (noDelim : delim ∉ text) :
    fields delim (text ++ delim :: rest) =
      text :: if Kept rest then fields delim rest else [] := by
  induction text with
  | nil =>
      by_cases kept : Kept rest
      · simp [fields, pieces, kept]
      · simp [fields, pieces, kept, pieces_of_not_kept kept]
  | cons c text inductionHypothesis =>
      have other := (List.ne_of_not_mem_cons noDelim).symm
      rcases List.cons.inj (inductionHypothesis (List.not_mem_of_not_mem_cons noDelim)) with
        ⟨first, others⟩
      apply congrArg₂ List.cons
      · rw [List.cons_append, List.takeWhile_cons_of_pos (by simpa using other), first]
      · rw [List.cons_append, pieces, if_neg fun kept => other kept.1, others]

theorem mem_of_mem_fields {string : Buffer} {c : Byte} (isField : string ∈ fields delim text)
    (inString : c ∈ string) : c ∈ text := by
  rcases List.mem_cons.mp isField with rfl | isPiece
  · exact (List.takeWhile_prefix _).subset inString
  · induction text with
    | nil => cases isPiece
    | cons d rest inductionHypothesis =>
        apply List.mem_cons_of_mem
        rw [pieces] at isPiece
        split at isPiece
        · rcases List.mem_cons.mp isPiece with rfl | isPiece
          · exact (List.takeWhile_prefix _).subset inString
          · exact inductionHypothesis (List.mem_cons_of_mem _ isPiece) isPiece
        · exact inductionHypothesis (List.mem_cons_of_mem _ isPiece) isPiece

theorem split_of_noNewline (noNul : 0 ∉ text) (noNewline : newline ∉ text) :
    split delim before text behind =
      (within before (cut delim text) behind,
        before.length :: starts delim before.length text) := by
  have strings : (before.length :: starts delim before.length text).map
      (cstring (within before (cut delim text) behind)) = fields delim text := by
    rw [List.map_cons, cstring_cut noNul, map_cstring_starts noNul]
    rfl
  have isField : cstring (within before (cut delim text) behind)
      ((starts delim before.length text).getLastD before.length) ∈ fields delim text := by
    rw [← strings]
    exact List.mem_map_of_mem List.getLastD_mem_cons
  rw [split, cutAt_of_notMem fun inString => noNewline (mem_of_mem_fields isField inString)]

theorem cut_of_notMem (noDelim : delim ∉ text) : cut delim text = text := by
  refine (List.map_congr_left fun c inText => if_neg ?_).trans (List.map_id text)
  rintro rfl
  exact noDelim inText

theorem starts_of_notMem (noDelim : delim ∉ text) (start : Pointer) :
    starts delim start text = [] := by
  induction text generalizing start with
  | nil => rfl
  | cons c rest inductionHypothesis =>
      have other := List.ne_of_not_mem_cons noDelim
      rw [starts, if_neg fun kept => other kept.1.symm]
      exact inductionHypothesis (List.not_mem_of_not_mem_cons noDelim) _

theorem starts_append (noDelim : delim ∉ text) (start : Pointer) :
    starts delim start (text ++ delim :: rest) =
      if Kept rest then
        (start + text.length + 1) :: starts delim (start + text.length + 1) rest
      else starts delim (start + text.length + 1) rest := by
  induction text generalizing start with
  | nil => simp [starts]
  | cons c text inductionHypothesis =>
      have other := List.ne_of_not_mem_cons noDelim
      rw [List.cons_append, starts, if_neg fun kept => other kept.1.symm,
        inductionHypothesis (List.not_mem_of_not_mem_cons noDelim)]
      simp only [List.length_cons, Nat.add_assoc, Nat.add_comm 1]

theorem split_of_notMem (noNul : 0 ∉ text) (noNewline : newline ∉ text) (noDelim : delim ∉ text) :
    split delim before text behind = (within before text behind, [before.length]) := by
  rw [split_of_noNewline noNul noNewline, cut_of_notMem noDelim, starts_of_notMem noDelim]

theorem split_once (noNul : 0 ∉ text ++ delim :: rest) (noNewline : newline ∉ text ++ delim :: rest)
    (noDelim : delim ∉ text) (onlyOne : delim ∉ rest) (kept : Kept rest) :
    split delim before (text ++ delim :: rest) behind =
      (within before text (rest ++ 0 :: behind),
        [before.length, before.length + text.length + 1]) := by
  have cutOnce : cut delim (text ++ delim :: rest) = text ++ 0 :: rest := by
    have first := cut_of_notMem noDelim
    have second := cut_of_notMem onlyOne
    unfold cut at first second ⊢
    rw [List.map_append, List.map_cons, first, second, if_pos rfl]
  rw [split_of_noNewline noNul noNewline, cutOnce, starts_append noDelim, if_pos kept,
    starts_of_notMem onlyOne]
  simp [within]

theorem starts_length (delim : Byte) (start : Pointer) (text : Buffer) :
    (starts delim start text).length ≤ text.length - 1 := by
  induction text generalizing start with
  | nil => exact Nat.le_refl 0
  | cons c rest inductionHypothesis =>
      have bound := inductionHypothesis (start + 1)
      rw [starts]
      split
      next kept =>
          have notEmpty := kept.2.2.2
          simp only [List.length_cons]
          omega
      next =>
          simp only [List.length_cons]
          omega

end EC440.Shell
