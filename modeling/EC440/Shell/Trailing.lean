import Mathlib.Order.Monotone.Basic
import EC440.Shell.Splitting

/-!
# What killspaces removes

The `i`-th round of `killspaces` looks at the `i`-th byte from the end of what
is left, and cuts the string there: rounds 1, 2, 3 and so on remove one, two,
three spaces, as long as there are so many.  The round after that may look at
any byte, also in front of the string.
-/

namespace EC440.Shell

variable {before text behind front name : Buffer} {input fuel i : Nat}

def spaces (n : Nat) : Buffer :=
  List.replicate n space

@[simp] theorem spaces_length (n : Nat) : (spaces n).length = n :=
  List.length_replicate

theorem mem_spaces {n : Nat} {c : Byte} (isSpace : c ∈ spaces n) : c = space :=
  List.eq_of_mem_replicate isSpace

theorem spaces_add (m n : Nat) : spaces (m + n) = spaces m ++ spaces n :=
  List.replicate_add ..

theorem spaces_succ (n : Nat) : spaces (n + 1) = space :: spaces n :=
  List.replicate_succ

/-- How many spaces are gone after the first rounds. -/
def triangle : Nat → Nat
  | 0 => 0
  | k + 1 => triangle k + (k + 1)

theorem le_triangle (k : Nat) : k ≤ triangle k := by
  cases k with
  | zero => exact Nat.le_refl 0
  | succ k => exact Nat.le_add_left ..

theorem triangle_strictMono : StrictMono triangle :=
  strictMono_nat_of_lt_succ fun k => Nat.lt_add_of_pos_right (Nat.succ_pos k)

/-- Nothing is left only of these numbers of spaces. -/
theorem eq_of_triangle {k m left : Nat} (same : triangle m + left = triangle k) (few : left ≤ m) :
    k = m ∧ left = 0 := by
  have notMore : k < m + 1 := by
    apply triangle_strictMono.lt_iff_lt.mp
    rw [triangle]
    omega
  have notFewer : m ≤ k := by
    apply triangle_strictMono.le_iff_le.mp
    omega
  have isLast : k = m := by omega
  subst isLast
  exact ⟨rfl, by omega⟩

/-! ## One round -/

theorem strlen_within (noNul : 0 ∉ text) :
    strlen (within before text behind) before.length = text.length := by
  rw [strlen, cstring_within noNul]

theorem killLoop_cut {first rest : Buffer}
    (isPlace : first.length + i = input + strlen (first ++ space :: rest) input) :
    killLoop input (fuel + 1) (first ++ space :: rest) i =
      killLoop input fuel (first ++ 0 :: rest) (i + 1) := by
  have inside : i ≤ input + strlen (first ++ space :: rest) input := by omega
  have place : input + strlen (first ++ space :: rest) input - i = first.length := by omega
  simp [killLoop, inside, place]

theorem killLoop_stop {first rest : Buffer} {c : Byte} (notSpace : c ≠ space)
    (isPlace : first.length + i = input + strlen (first ++ c :: rest) input) :
    killLoop input (fuel + 1) (first ++ c :: rest) i = some (first ++ c :: rest) := by
  have inside : i ≤ input + strlen (first ++ c :: rest) input := by omega
  have place : input + strlen (first ++ c :: rest) input - i = first.length := by omega
  simp [killLoop, inside, place, notSpace]

theorem killLoop_outside {buffer : Buffer} (outside : input + strlen buffer input < i) :
    killLoop input (fuel + 1) buffer i = none := by
  simp only [killLoop, Nat.not_le.mpr outside, if_false]

/-! ## The rounds at the end -/

theorem noNul_append_spaces (noNul : 0 ∉ text) (n : Nat) : 0 ∉ text ++ spaces n := by
  intro inText
  rcases List.mem_append.mp inText with inText | inSpaces
  · exact noNul inText
  · cases mem_spaces inSpaces

/-- As long as there are enough spaces, the rounds cut more and more of them, whatever is in
front of the string. -/
theorem killLoop_trailing (noNul : 0 ∉ text) (k left : Nat) (behind : Buffer) :
    ∃ m rest junk, triangle m + rest = triangle k + left ∧ rest ≤ m ∧
      junk.length + rest = left ∧ k ≤ m ∧
      ∀ before fuel, killLoop before.length (fuel + (m - k))
          (within before (text ++ spaces left) behind) (k + 1) =
        killLoop before.length fuel (within before (text ++ spaces rest) (junk ++ behind))
          (m + 1) := by
  induction left using Nat.strongRecOn generalizing k behind with
  | ind left inductionHypothesis =>
      by_cases few : left ≤ k
      · refine ⟨k, left, [], rfl, few, Nat.zero_add left, Nat.le_refl k, fun before fuel => ?_⟩
        rw [Nat.sub_self]
        rfl
      · obtain ⟨fewer, rfl⟩ : ∃ fewer, left = fewer + (k + 1) := ⟨left - (k + 1), by omega⟩
        rcases inductionHypothesis fewer (by omega) (k + 1) (spaces k ++ 0 :: behind) with
          ⟨m, rest, junk, total, few, lengths, isLater, loop⟩
        refine ⟨m, rest, junk ++ (spaces k ++ [0]), ?_, few, ?_, by omega, fun before fuel => ?_⟩
        · rw [total, triangle]
          omega
        · simp only [List.length_append, spaces_length, List.length_singleton]
          omega
        · have bytes : within before (text ++ spaces (fewer + (k + 1))) behind =
              (before ++ (text ++ spaces fewer)) ++ space :: (spaces k ++ 0 :: behind) := by
            simp [within, spaces_add, spaces_succ]
          have place : (before ++ (text ++ spaces fewer)).length + (k + 1) = before.length +
              strlen (within before (text ++ spaces (fewer + (k + 1))) behind) before.length := by
            rw [strlen_within (noNul_append_spaces noNul _)]
            simp only [List.length_append, spaces_length]
            omega
          have rounds : fuel + (m - k) = fuel + (m - (k + 1)) + 1 := by omega
          rw [bytes] at place ⊢
          rw [rounds, killLoop_cut place]
          simpa [within] using loop before fuel

/-! ## The rounds in front of the string -/

/-- Spaces in front of the string are cut one after the other, up to another byte. -/
theorem killLoop_leftwards (noNul : 0 ∉ text) {last : Byte} (notSpace : last ≠ space) {n : Nat}
    (pad : Buffer) (enough : n < fuel) (isInput : input = (front ++ last :: spaces n ++ pad).length)
    (isPlace : (front ++ last :: spaces n).length + i = input + text.length + 1) :
    ∃ later : Buffer, later.length = n + pad.length ∧
      killLoop input fuel (within (front ++ last :: spaces n ++ pad) text behind) i =
        some (within (front ++ last :: later) text behind) := by
  induction n generalizing pad fuel i with
  | zero =>
      cases fuel with
      | zero => cases enough
      | succ fuel =>
          refine ⟨pad, (Nat.zero_add _).symm, ?_⟩
          have bytes : within (front ++ last :: spaces 0 ++ pad) text behind =
              front ++ last :: (pad ++ text ++ 0 :: behind) := by
            simp [within, spaces]
          have place : front.length + i = input +
              strlen (within (front ++ last :: spaces 0 ++ pad) text behind) input := by
            rw [isInput, strlen_within noNul, ← isInput]
            simp only [List.length_append, List.length_cons, spaces_length] at isPlace
            omega
          rw [bytes] at place ⊢
          rw [killLoop_stop notSpace place]
          simp [within]
  | succ n inductionHypothesis =>
      cases fuel with
      | zero => cases enough
      | succ fuel =>
          have bytes : within (front ++ last :: spaces (n + 1) ++ pad) text behind =
              (front ++ last :: spaces n) ++ space :: (pad ++ text ++ 0 :: behind) := by
            have more : spaces (n + 1) = spaces n ++ [space] := spaces_add n 1
            simp [within, more]
          have place : (front ++ last :: spaces n).length + i = input +
              strlen (within (front ++ last :: spaces (n + 1) ++ pad) text behind) input := by
            rw [isInput, strlen_within noNul, ← isInput]
            simp only [List.length_append, List.length_cons, spaces_length] at isPlace ⊢
            omega
          rw [bytes] at place ⊢
          rw [killLoop_cut place]
          simp only [List.length_append, List.length_cons, spaces_length] at isInput isPlace
          rcases @inductionHypothesis fuel (i + 1) (0 :: pad) (Nat.lt_of_succ_lt_succ enough)
            (by simp only [List.length_append, List.length_cons, spaces_length]; omega)
            (by simp only [List.length_append, List.length_cons, spaces_length]; omega) with
            ⟨later, length, loop⟩
          refine ⟨later, ?_, ?_⟩
          · rw [length, List.length_cons]
            omega
          · simpa [within] using loop

theorem exists_byte {bytes : Buffer} {n : Nat} (inside : n < bytes.length) :
    ∃ first c rest, bytes = first ++ c :: rest ∧ first.length = n := by
  refine ⟨bytes.take n, bytes[n], bytes.drop (n + 1), ?_, List.length_take_of_le inside.le⟩
  rw [← List.drop_eq_getElem_cons inside, List.take_append_drop]

/-- A byte of the string that is no space stops the rounds. -/
theorem killLoop_inside (noNul : 0 ∉ text) {first rest : Buffer} {c : Byte}
    (notSpace : c ≠ space) (bytes : text = first ++ c :: rest)
    (isPlace : first.length + i = text.length) :
    killLoop before.length (fuel + 1) (within before text behind) i =
      some (within before text behind) := by
  have stop := @strlen_within before text behind noNul
  have place : (before ++ first).length + i = before.length +
      strlen (within before text behind) before.length := by
    rw [stop, List.length_append, Nat.add_assoc, isPlace]
  have memory : within before text behind = (before ++ first) ++ c :: (rest ++ 0 :: behind) := by
    simp [within, bytes]
  rw [memory] at place ⊢
  exact killLoop_stop notSpace place

/-- So does a byte in front of it. -/
theorem killLoop_infront (noNul : 0 ∉ text) {first rest : Buffer} {c : Byte}
    (notSpace : c ≠ space) (isPlace : first.length + i = (first ++ c :: rest).length + text.length) :
    killLoop (first ++ c :: rest).length (fuel + 1) (within (first ++ c :: rest) text behind) i =
      some (within (first ++ c :: rest) text behind) := by
  have place : first.length + i = (first ++ c :: rest).length +
      strlen (within (first ++ c :: rest) text behind) (first ++ c :: rest).length := by
    rw [strlen_within noNul, isPlace]
  have memory : within (first ++ c :: rest) text behind =
      first ++ c :: (rest ++ text ++ 0 :: behind) := by
    simp [within]
  rw [memory] at place ⊢
  exact killLoop_stop notSpace place

/-- A space in front of the string is cut with all that stand in front of it, up to bytes that
are no spaces. -/
theorem killLoop_gap (noSpace : space ∉ front) (notEmpty : front ≠ []) (noNul : 0 ∉ text) {a n : Nat}
    (inGap : n < a) (enough : n + 1 < fuel)
    (isPlace : front.length + n + i = front.length + a + text.length) :
    ∃ pad : Buffer, pad.length = a ∧
      killLoop (front ++ spaces a).length fuel (within (front ++ spaces a) text behind) i =
        some (within (front ++ pad) text behind) := by
  obtain ⟨others, rfl⟩ : ∃ others, a = n + 1 + others := ⟨a - (n + 1), by omega⟩
  rcases List.eq_nil_or_concat' front with rfl | ⟨first, last, rfl⟩
  · exact absurd rfl notEmpty
  · have notSpace : last ≠ space := by
      rintro rfl
      simp at noSpace
    have bytes : first ++ [last] ++ spaces (n + 1 + others) =
        first ++ last :: spaces (n + 1) ++ spaces others := by
      simp [spaces_add]
    have isLast : (first ++ last :: spaces (n + 1)).length + i =
        (first ++ last :: spaces (n + 1) ++ spaces others).length + text.length + 1 := by
      simp only [List.length_append, List.length_cons, List.length_nil, spaces_length]
        at isPlace ⊢
      omega
    rw [bytes]
    rcases killLoop_leftwards noNul notSpace (spaces others) enough rfl isLast with
      ⟨later, isLater, loop⟩
    refine ⟨later, by simpa using isLater, ?_⟩
    simpa using loop

section Names

variable {a m rest : Nat} (noSpace : space ∉ front) (notEmpty : front ≠ []) (noNul : 0 ∉ name)
  (noSpaceInName : space ∉ name)
include noSpace notEmpty noNul noSpaceInName

theorem killLoop_name (few : rest ≤ m) (enough : a < fuel) :
    if m + 1 ≤ front.length + a + name.length + rest then
      ∃ pad : Buffer, pad.length = a ∧
        killLoop (front ++ spaces a).length fuel
            (within (front ++ spaces a) (name ++ spaces rest) behind) (m + 1) =
          some (within (front ++ pad) (name ++ spaces rest) behind)
    else
      killLoop (front ++ spaces a).length fuel
        (within (front ++ spaces a) (name ++ spaces rest) behind) (m + 1) = none := by
  have noNulRest := noNul_append_spaces noNul rest
  have length : (name ++ spaces rest).length = name.length + rest := by
    rw [List.length_append, spaces_length]
  obtain ⟨fuel, rfl⟩ := Nat.exists_eq_add_of_lt enough
  split
  next inside =>
      obtain ⟨place, isPlace⟩ : ∃ place, place + (m + 1) = front.length + a + name.length + rest :=
        ⟨front.length + a + name.length + rest - (m + 1), Nat.sub_add_cancel inside⟩
      by_cases inName : front.length + a ≤ place
      · rcases exists_byte (show place - (front.length + a) < name.length by omega) with
          ⟨first, c, others, rfl, isFirst⟩
        have notSpace : c ≠ space := by
          rintro rfl
          simp at noSpaceInName
        refine ⟨spaces a, spaces_length a, killLoop_inside noNulRest notSpace
          (List.append_assoc first (c :: others) (spaces rest)) ?_⟩
        rw [length, isFirst]
        omega
      · by_cases inSpaces : front.length ≤ place
        · obtain ⟨n, rfl⟩ := Nat.exists_eq_add_of_le inSpaces
          apply killLoop_gap noSpace notEmpty noNulRest (show n < a by omega) (by omega)
          rw [length]
          omega
        · rcases exists_byte (Nat.lt_of_not_le inSpaces) with ⟨first, c, others, rfl, isFirst⟩
          have notSpace : c ≠ space := by
            rintro rfl
            simp at noSpace
          have bytes : first ++ c :: others ++ spaces a = first ++ c :: (others ++ spaces a) :=
            List.append_assoc ..
          refine ⟨spaces a, spaces_length a, ?_⟩
          rw [bytes]
          apply killLoop_infront noNulRest notSpace
          rw [← bytes, List.length_append, spaces_length, length]
          omega
  next outside =>
      apply killLoop_outside
      rw [strlen_within noNulRest, List.length_append, spaces_length, length]
      omega

end Names

/-! ## The whole function -/

theorem killspaces_of_last {last : Byte} (noNul : 0 ∉ text ++ [last]) (notSpace : last ≠ space) :
    killspaces (within before (text ++ [last]) behind) before.length =
      some (within before (text ++ [last]) behind) := by
  have bytes : within before (text ++ [last]) behind = (before ++ text) ++ last :: 0 :: behind := by
    simp [within]
  have place : (before ++ text).length + 1 =
      before.length + strlen (within before (text ++ [last]) behind) before.length := by
    rw [strlen_within noNul]
    simp only [List.length_append, List.length_singleton]
    omega
  rw [killspaces, bytes] at *
  exact killLoop_stop notSpace place

/-- The rounds that remove trailing spaces, and those that are left. -/
theorem killspaces_trailing (noNul : 0 ∉ text) (t : Nat) (behind : Buffer) :
    ∃ m rest junk, triangle m + rest = t ∧ rest ≤ m ∧ junk.length + rest = t ∧
      ∀ before, ∃ fuel, before.length < fuel ∧
        killspaces (within before (text ++ spaces t) behind) before.length =
          killLoop before.length fuel (within before (text ++ spaces rest) (junk ++ behind))
            (m + 1) := by
  rcases killLoop_trailing noNul 0 t behind with ⟨m, rest, junk, total, few, lengths, -, loop⟩
  simp only [triangle, Nat.zero_add] at total loop
  refine ⟨m, rest, junk, total, few, lengths, fun before => ?_⟩
  have notMore := le_triangle m
  obtain ⟨fuel, rounds⟩ :
      ∃ fuel, (within before (text ++ spaces t) behind).length + 1 = fuel + (m - 0) :=
    ⟨(within before (text ++ spaces t) behind).length + 1 - m, by
      simp only [within, List.length_append, List.length_cons, spaces_length]
      omega⟩
  refine ⟨fuel, ?_, ?_⟩
  · simp only [within, List.length_append, List.length_cons, spaces_length] at rounds
    omega
  · rw [killspaces, rounds]
    exact loop before fuel

theorem killspaces_name {a t : Nat} (noSpace : space ∉ front) (notEmpty : front ≠ [])
    (noNul : 0 ∉ name) (noSpaceInName : space ∉ name) :
    ∃ m rest, triangle m + rest = t ∧ rest ≤ m ∧
      if m + 1 ≤ front.length + a + name.length + rest then
        ∃ pad junk : Buffer, pad.length = a ∧ junk.length + rest = t ∧
          killspaces (within (front ++ spaces a) (name ++ spaces t) behind)
              (front ++ spaces a).length =
            some (within (front ++ pad) (name ++ spaces rest) (junk ++ behind))
      else
        killspaces (within (front ++ spaces a) (name ++ spaces t) behind)
          (front ++ spaces a).length = none := by
  rcases killspaces_trailing noNul t behind with ⟨m, rest, junk, total, few, lengths, loop⟩
  rcases loop (front ++ spaces a) with ⟨fuel, enough, loop⟩
  rw [List.length_append, spaces_length] at enough
  have last := @killLoop_name (junk ++ behind) front name fuel a m rest noSpace notEmpty noNul
    noSpaceInName few (Nat.lt_of_le_of_lt (Nat.le_add_left ..) enough)
  refine ⟨m, rest, total, few, ?_⟩
  rw [loop]
  split
  next inside =>
      rw [if_pos inside] at last
      rcases last with ⟨pad, isPad, last⟩
      exact ⟨pad, junk, isPad, lengths, last⟩
  next outside => exact (if_neg outside).mp last

end EC440.Shell
