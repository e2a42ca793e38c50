import Mathlib.Data.List.DropRight
import EC440.Shell.Trailing

/-!
# When killspaces removes the trailing spaces

The length of the string shrinks while the index of `killspaces` grows, so that
its rounds do not look at neighbouring bytes: `k` rounds remove `triangle k`
spaces, and the round after them looks at the byte with `k` others behind it.
-/

namespace EC440.Shell

variable {before text behind body buffer after : Buffer} {input fuel i t : Nat}

def trimmed (text : Buffer) : Buffer :=
  text.rdropWhile (· = space)

def trailing (text : Buffer) : Nat :=
  (text.rtakeWhile (· = space)).length

/-- The trailing spaces of the string are gone and nothing else has changed.  This holds with
any bytes in front of the string and also with none, where an access in front of the string is
an access in front of the buffer. -/
def Trims (text behind : Buffer) : Prop :=
  ∃ after, (∀ before, killspaces (within before text behind) before.length =
      some (before ++ after)) ∧
    cstring after 0 = trimmed text ∧
    ∀ place, place < (trimmed text).length ∨ text.length ≤ place →
      after[place]? = (within [] text behind)[place]?

/-- As many trailing spaces as some rounds remove, and then a byte that ends the loop. -/
def Trimmable (text : Buffer) : Prop :=
  ∃ k c, trailing text = triangle k ∧ (trimmed text).reverse[k]? = some c ∧ c ≠ space

theorem trimmed_append (text : Buffer) : trimmed text ++ spaces (trailing text) = text := by
  have isSpaces : text.rtakeWhile (· = space) = spaces (trailing text) := by
    apply List.eq_replicate_iff.mpr ⟨rfl, ?_⟩
    intro c isTrailing
    simpa using List.mem_rtakeWhile_imp isTrailing
  rw [trimmed, ← isSpaces]
  exact List.rdropWhile_append_rtakeWhile

/-! ## Whatever the loop does -/

theorem killLoop_changes (loop : killLoop input fuel buffer i = some after) (place : Nat) :
    after[place]? = buffer[place]? ∨ buffer[place]? = some space ∧ after[place]? = some 0 := by
  induction fuel generalizing buffer i with
  | zero => cases loop
  | succ fuel inductionHypothesis =>
      simp only [killLoop] at loop
      split at loop
      next =>
          split at loop
          next isSpace =>
              have later := inductionHypothesis loop
              rw [List.getElem?_set] at later
              split at later
              next isPlace =>
                  rw [isPlace] at isSpace
                  have inside := (List.getElem?_eq_some_iff.mp isSpace).1
                  rw [isPlace, if_pos inside] at later
                  rcases later with isNul | ⟨wasSpace, -⟩
                  · exact .inr ⟨isSpace, isNul⟩
                  · cases wasSpace
              next => exact later
          next =>
              cases loop
              exact .inl rfl
      next => cases loop

/-- Every round but the last overwrites a space, so that the loop comes to its end. -/
theorem killLoop_add (enough : buffer.count space < fuel) (more : Nat) :
    killLoop input (fuel + more) buffer i = killLoop input fuel buffer i := by
  induction fuel generalizing buffer i with
  | zero => cases enough
  | succ fuel inductionHypothesis =>
      rw [Nat.succ_add]
      simp only [killLoop]
      split
      next =>
          split
          next isSpace =>
              apply inductionHypothesis
              rcases List.getElem?_eq_some_iff.mp isSpace with ⟨inside, isSpace⟩
              have isThere : 0 < buffer.count space :=
                List.count_pos_iff.mpr (isSpace ▸ List.getElem_mem inside)
              have fewer := @List.count_set _ _ 0 space buffer _ inside
              rw [isSpace, if_pos (beq_self_eq_true space), if_neg (by decide)] at fewer
              omega
          next => rfl
      next => rfl

theorem killspaces_eq_of_lt (enough : buffer.length < fuel) :
    killLoop input fuel buffer 1 = killspaces buffer input := by
  obtain ⟨more, rfl⟩ := Nat.exists_eq_add_of_le (Nat.succ_le_of_lt enough)
  exact killLoop_add (Nat.lt_succ_of_le List.count_le_length) more

theorem strlen_le_of_nul {pointer : Pointer} {n : Nat} (isNul : buffer[pointer + n]? = some 0) :
    strlen buffer pointer ≤ n := by
  by_contra longer
  have inside := Nat.lt_of_not_le longer
  have isPrefix : cstring buffer pointer <+: buffer.drop pointer := List.takeWhile_prefix _
  have isByte := isPrefix.getElem inside
  rw [List.getElem?_eq_some_iff] at isNul
  rcases isNul with ⟨bound, isNul⟩
  rw [List.getElem_drop, isNul] at isByte
  have notNul := List.mem_takeWhile_imp (List.getElem_mem inside)
  simp [isByte] at notNul

/-! ## When it does what it is for -/

theorem cstring_first (noNul : 0 ∉ text) : cstring (within [] text behind) 0 = text :=
  cstring_within noNul

theorem exists_byte_from_end {k : Nat} {c : Byte} (isByte : body.reverse[k]? = some c) :
    ∃ first others, body = first ++ c :: others ∧ others.length = k := by
  rcases List.getElem?_eq_some_iff.mp isByte with ⟨inside, isByte⟩
  rcases exists_byte inside with ⟨others, d, first, bytes, length⟩
  have same : d = c := by
    simp only [bytes, ← length] at isByte
    simpa using isByte
  refine ⟨first.reverse, others.reverse, ?_, by rw [List.length_reverse, length]⟩
  rw [← List.reverse_inj, bytes, same]
  simp

/-- In front of the trailing spaces, at the NUL and behind it nothing has changed. -/
theorem unchanged_within (noNul : 0 ∉ body) {junk : Buffer} (lengths : junk.length = t)
    (killed : killspaces (within [] (body ++ spaces t) behind) 0 =
      some (within [] body (junk ++ behind)))
    {place : Nat} (outside : place < body.length ∨ (body ++ spaces t).length ≤ place) :
    (within [] body (junk ++ behind))[place]? =
      (within [] (body ++ spaces t) behind)[place]? := by
  rcases killLoop_changes killed place with same | ⟨wasSpace, isNul⟩
  · exact same
  · exfalso
    rcases outside with inBody | behindText
    · have inAfter : (within [] body (junk ++ behind))[place]? = body[place]? := by
        rw [within, List.nil_append, List.getElem?_append_left inBody]
      rw [inAfter] at isNul
      exact noNul (List.mem_of_getElem? isNul)
    · obtain ⟨n, rfl⟩ := Nat.exists_eq_add_of_le behindText
      have inMemory : (within [] (body ++ spaces t) behind)[(body ++ spaces t).length + n]? =
          (0 :: behind)[n]? := by
        rw [within, List.nil_append, List.getElem?_append_right (Nat.le_add_right ..),
          Nat.add_sub_cancel_left]
      rw [inMemory] at wasSpace
      cases n with
      | zero => cases wasSpace
      | succ n =>
          have inAfter : (within [] body (junk ++ behind))[(body ++ spaces t).length + (n + 1)]? =
              (0 :: behind)[n + 1]? := by
            have place : (body ++ spaces t).length + (n + 1) =
                (body ++ 0 :: junk).length + n := by
              simp only [List.length_append, List.length_cons, spaces_length, lengths]
              omega
            have bytes : within [] body (junk ++ behind) = (body ++ 0 :: junk) ++ behind := by
              simp [within]
            rw [place, bytes, List.getElem?_append_right (Nat.le_add_right ..),
              Nat.add_sub_cancel_left]
            rfl
          rw [inAfter, wasSpace] at isNul
          cases isNul

theorem trims_of_round (noNul : 0 ∉ body) {k : Nat} {c : Byte} (isByte : body.reverse[k]? = some c)
    (notSpace : c ≠ space) (isTrimmed : trimmed (body ++ spaces (triangle k)) = body) :
    Trims (body ++ spaces (triangle k)) behind := by
  rcases killspaces_trailing noNul (triangle k) behind with
    ⟨m, rest, junk, total, few, lengths, loop⟩
  rcases eq_of_triangle total few with ⟨rfl, rfl⟩
  have killed (before : Buffer) :
      killspaces (within before (body ++ spaces (triangle k)) behind) before.length =
        some (before ++ within [] body (junk ++ behind)) := by
    rcases loop before with ⟨fuel, enough, loop⟩
    rcases exists_byte_from_end isByte with ⟨first, others, rfl, rfl⟩
    have place : first.length + (others.length + 1) =
        (first ++ c :: others ++ spaces 0).length := by
      simp only [List.length_append, List.length_cons, spaces_length]
      omega
    obtain ⟨fuel, rfl⟩ := Nat.exists_eq_add_of_lt enough
    rw [loop, killLoop_inside (noNul_append_spaces noNul 0) notSpace
      (List.append_assoc first (c :: others) (spaces 0)) place]
    simp [within, spaces]
  refine ⟨within [] body (junk ++ behind), killed, ?_, fun place outside => ?_⟩
  · rw [isTrimmed]
    exact cstring_first noNul
  · rw [isTrimmed] at outside
    exact unchanged_within noNul lengths (killed []) outside

theorem short_of_cut {first others : Buffer}
    (loop : killLoop input fuel (first ++ 0 :: others) i = some after) :
    strlen after 0 ≤ first.length := by
  apply strlen_le_of_nul
  rw [Nat.zero_add]
  rcases killLoop_changes loop first.length with same | ⟨-, isNul⟩
  · rw [same]
    simp
  · exact isNul

theorem trimmable_of_trims (noNul : 0 ∉ body) (isTrimmed : trimmed (body ++ spaces t) = body)
    (trims : Trims (body ++ spaces t) behind) :
    ∃ k c, t = triangle k ∧ body.reverse[k]? = some c ∧ c ≠ space := by
  rcases trims with ⟨after, killed, string, -⟩
  rw [isTrimmed] at string
  rcases killspaces_trailing noNul t behind with ⟨m, rest, junk, total, few, lengths, loop⟩
  rcases loop [] with ⟨fuel, enough, loop⟩
  obtain ⟨fuel, rfl⟩ := Nat.exists_eq_add_of_lt enough
  rw [killed []] at loop
  change some after = killLoop 0 (0 + fuel + 1) _ _ at loop
  have noNulRest := noNul_append_spaces noNul rest
  have length : strlen (within [] (body ++ spaces rest) (junk ++ behind)) 0 =
      body.length + rest := by
    rw [strlen, cstring_first noNulRest, List.length_append, spaces_length]
  by_cases inside : m + 1 ≤ body.length + rest
  · rcases exists_byte (show body.length + rest - (m + 1) < body.length by omega) with
      ⟨first, c, others, rfl, isFirst⟩
    have bytes : within [] (first ++ c :: others ++ spaces rest) (junk ++ behind) =
        first ++ c :: (others ++ spaces rest ++ 0 :: (junk ++ behind)) := by
      simp [within]
    have place : first.length + (m + 1) =
        0 + strlen (within [] (first ++ c :: others ++ spaces rest) (junk ++ behind)) 0 := by
      rw [length, isFirst, Nat.sub_add_cancel inside, Nat.zero_add]
    rw [bytes] at place loop
    by_cases isSpace : c = space
    · subst isSpace
      rw [killLoop_cut place] at loop
      have short := short_of_cut loop.symm
      rw [strlen, string, List.length_append, List.length_cons] at short
      omega
    · rw [killLoop_stop isSpace place, ← bytes, Option.some.injEq] at loop
      subst loop
      rw [cstring_first noNulRest] at string
      have none : rest = 0 := by simpa [spaces] using string
      subst none
      refine ⟨m, c, by omega, ?_, isSpace⟩
      have others : others.length = m := by
        simp only [List.length_append, List.length_cons] at isFirst inside
        omega
      simp [← others]
  · rw [killLoop_outside (by omega)] at loop
    cases loop

/-- `killspaces` removes the trailing spaces of a string, and neither looks in front of it nor
changes anything else, if and only if some rounds remove them all and the next one finds another
byte inside the string. -/
theorem killspaces_trims_iff (text behind : Buffer) (noNul : 0 ∉ text) :
    Trims text behind ↔ Trimmable text := by
  have isText := trimmed_append text
  have noNulTrimmed : 0 ∉ trimmed text := by
    intro inTrimmed
    exact noNul ((List.rdropWhile_prefix _ _).subset inTrimmed)
  constructor
  · intro trims
    rw [← isText] at trims
    exact trimmable_of_trims noNulTrimmed (congrArg trimmed isText) trims
  · rintro ⟨k, c, rounds, isByte, notSpace⟩
    rw [rounds] at isText
    have trims := @trims_of_round behind _ noNulTrimmed _ _ isByte notSpace
      (congrArg trimmed isText)
    rwa [isText] at trims

theorem killspaces_trims_iff_once : Trims [108, 115, space] [] :=
  (killspaces_trims_iff [108, 115, space] [] (by decide)).mpr
    ⟨1, 108, by decide, by decide, by decide⟩

/-- Of two trailing spaces one is left. -/
theorem killspaces_trims_iff_broken : ¬∀ text behind : Buffer, 0 ∉ text → Trims text behind := by
  intro always
  rcases always [108, 115, space, space] [] (by decide) with ⟨after, killed, string, -⟩
  have result : killspaces (within [] [108, 115, space, space] []) 0 =
      some [108, 115, space, 0, 0] := by
    decide
  have isAfter := result.symm.trans (killed [])
  cases isAfter
  exact absurd string (by decide)

end EC440.Shell
