import Mathlib.Data.Set.Card
import Mathlib.Logic.Function.Basic
import Mathlib.Tactic.Linarith

/-!
# Counted references

References point to shared items, and a counter kept with each item says how
many references point to it.  A reference may be set up, dropped, or moved to
an item that nothing else points to; the lemmas say how the counters have to
follow.
-/

namespace EC440.References

universe u v

variable {Ref : Type u} {Item : Type v}

noncomputable def count (target : Ref → Option Item) (item : Item) : Nat :=
  {ref | target ref = some item}.ncard

/-- Finitely many references are set, and every item that one of them points to carries the
number of references to it. -/
structure Counted (target : Ref → Option Item) (counter : Item → Option Int) : Prop where
  finite : {ref | target ref ≠ none}.Finite
  counts : ∀ ref item, target ref = some item → counter item = some (count target item : Int)

section Count

variable {target : Ref → Option Item}

theorem finite_pointing (finite : {ref | target ref ≠ none}.Finite) (item : Item) :
    {ref | target ref = some item}.Finite := by
  apply finite.subset
  intro ref pointing
  have isSet : target ref = some item := pointing
  simp [isSet]

theorem count_pos (finite : {ref | target ref ≠ none}.Finite) {ref : Ref} {item : Item}
    (pointing : target ref = some item) : 0 < count target item := by
  apply (Set.ncard_pos (finite_pointing finite item)).mpr
  exact ⟨ref, pointing⟩

theorem unique_of_count_le_one (finite : {ref | target ref ≠ none}.Finite) {first second : Ref}
    {item : Item} (single : count target item ≤ 1) (fromFirst : target first = some item)
    (fromSecond : target second = some item) : first = second :=
  (Set.ncard_le_one (finite_pointing finite item)).mp single first fromFirst second fromSecond

variable [DecidableEq Ref]

theorem finite_update (finite : {ref | target ref ≠ none}.Finite) (ref : Ref)
    (new : Option Item) : {other | Function.update target ref new other ≠ none}.Finite := by
  apply (finite.insert ref).subset
  intro other isSet
  by_cases same : other = ref
  · exact .inl same
  · right
    have unchanged : Function.update target ref new other ≠ none := isSet
    rwa [Function.update_of_ne same] at unchanged

theorem count_set (finite : {ref | target ref ≠ none}.Finite) {ref : Ref}
    (unset : target ref = none) (item other : Item) [Decidable (other = item)] :
    count (Function.update target ref (some item)) other =
      count target other + if other = item then 1 else 0 := by
  split
  next same =>
    subst same
    have inserted : {other' | Function.update target ref (some other) other' = some other} =
        insert ref {other' | target other' = some other} := by
      ext place
      by_cases here : place = ref
      · simp [here]
      · simp [here]
    rw [count, inserted, Set.ncard_insert_of_notMem _ (finite_pointing finite other), count]
    simp [unset]
  next distinct =>
    have same : {other' | Function.update target ref (some item) other' = some other} =
        {other' | target other' = some other} := by
      ext place
      by_cases here : place = ref
      · simp [here, unset, Ne.symm distinct]
      · simp [Function.update_of_ne here]
    rw [count, same, count, Nat.add_zero]

theorem update_unset (ref : Ref) : Function.update target ref none ref = none :=
  Function.update_self ..

theorem count_unset (finite : {ref | target ref ≠ none}.Finite) {ref : Ref} {item : Item}
    (pointing : target ref = some item) (other : Item) [Decidable (other = item)] :
    count (Function.update target ref none) other + (if other = item then 1 else 0) =
      count target other := by
  have restored := count_set (finite_update finite ref none) (update_unset ref) item other
  rw [Function.update_idem, ← pointing, Function.update_eq_self] at restored
  exact restored.symm

end Count

namespace Counted

variable {target : Ref → Option Item} {counter counter' : Item → Option Int}

theorem congr (counted : Counted target counter)
    (same : ∀ ref item, target ref = some item → counter' item = counter item) :
    Counted target counter' where
  finite := counted.finite
  counts ref item pointing := (same ref item pointing).trans (counted.counts ref item pointing)

theorem pos (counted : Counted target counter) {ref : Ref} {item : Item} {number : Int}
    (pointing : target ref = some item) (counts : counter item = some number) : 0 < number := by
  have exactly := counted.counts ref item pointing
  rw [counts, Option.some.injEq] at exactly
  rw [exactly]
  exact_mod_cast count_pos counted.finite pointing

theorem unique (counted : Counted target counter) {first second : Ref} {item : Item}
    {number : Int} (counts : counter item = some number) (single : number ≤ 1)
    (fromFirst : target first = some item) (fromSecond : target second = some item) :
    first = second := by
  apply unique_of_count_le_one counted.finite _ fromFirst fromSecond
  have exactly := counted.counts first item fromFirst
  rw [counts, Option.some.injEq] at exactly
  omega

/-- An item whose counter is more than one has a reference besides each of its references. -/
theorem exists_other (counted : Counted target counter) {ref : Ref} {item : Item} {number : Int}
    (pointing : target ref = some item) (counts : counter item = some number)
    (several : 1 < number) : ∃ other, other ≠ ref ∧ target other = some item := by
  have exactly := counted.counts ref item pointing
  rw [counts, Option.some.injEq] at exactly
  have many : 1 < count target item := by omega
  obtain ⟨other, pointing', distinct⟩ := Set.exists_ne_of_one_lt_ncard many ref
  exact ⟨other, distinct, pointing'⟩

variable [DecidableEq Ref] [DecidableEq Item]

theorem share (counted : Counted target counter) {ref other : Ref} {item : Item} {number : Int}
    (unset : target ref = none) (pointing : target other = some item)
    (counts : counter item = some number) :
    Counted (Function.update target ref (some item))
      (Function.update counter item (some (number + 1))) := by
  have exactly := counted.counts other item pointing
  rw [counts, Option.some.injEq] at exactly
  refine ⟨finite_update counted.finite ref _, ?_⟩
  intro place item' pointing'
  rw [count_set counted.finite unset]
  by_cases same : item' = item
  · subst same
    simp [exactly]
  · rw [Function.update_of_ne same, if_neg same, Nat.add_zero]
    refine counted.counts place item' ?_
    by_cases here : place = ref
    · subst here
      rw [Function.update_self, Option.some.injEq] at pointing'
      exact absurd pointing'.symm same
    · rwa [Function.update_of_ne here] at pointing'

theorem adopt (counted : Counted target counter) {ref : Ref} {item : Item}
    (unset : target ref = none) (fresh : ∀ other, target other ≠ some item) :
    Counted (Function.update target ref (some item)) (Function.update counter item (some 1)) := by
  have unused : count target item = 0 := by
    apply (Set.ncard_eq_zero (finite_pointing counted.finite item)).mpr
    ext place
    simp [fresh place]
  refine ⟨finite_update counted.finite ref _, ?_⟩
  intro place item' pointing'
  rw [count_set counted.finite unset]
  by_cases same : item' = item
  · subst same
    simp [unused]
  · rw [Function.update_of_ne same, if_neg same, Nat.add_zero]
    refine counted.counts place item' ?_
    by_cases here : place = ref
    · subst here
      rw [Function.update_self, Option.some.injEq] at pointing'
      exact absurd pointing'.symm same
    · rwa [Function.update_of_ne here] at pointing'

theorem drop (counted : Counted target counter) {ref : Ref} {item : Item} {number : Int}
    (pointing : target ref = some item) (counts : counter item = some number) :
    Counted (Function.update target ref none)
      (Function.update counter item (some (number - 1))) := by
  have exactly := counted.counts ref item pointing
  rw [counts, Option.some.injEq] at exactly
  refine ⟨finite_update counted.finite ref _, ?_⟩
  intro place item' pointing'
  have here : place ≠ ref := by
    rintro rfl
    simp at pointing'
  rw [Function.update_of_ne here] at pointing'
  have fewer := count_unset counted.finite pointing item'
  by_cases same : item' = item
  · subst same
    rw [if_pos rfl] at fewer
    rw [Function.update_self, exactly, ← fewer]
    simp
  · rw [if_neg same, Nat.add_zero] at fewer
    rw [Function.update_of_ne same, fewer]
    exact counted.counts place item' pointing'

/-- Dropping the only reference to an item; what happens to its counter does not matter. -/
theorem forget (counted : Counted target counter) {ref : Ref} {item : Item} {number : Int}
    (pointing : target ref = some item) (counts : counter item = some number)
    (single : number ≤ 1) (left : Option Int) :
    Counted (Function.update target ref none) (Function.update counter item left) := by
  refine (counted.drop pointing counts).congr ?_
  intro place item' pointing'
  have here : place ≠ ref := by
    rintro rfl
    simp at pointing'
  rw [Function.update_of_ne here] at pointing'
  have distinct : item' ≠ item := by
    rintro rfl
    exact here (counted.unique counts single pointing' pointing)
  rw [Function.update_of_ne distinct, Function.update_of_ne distinct]

theorem replace (counted : Counted target counter) {ref : Ref} {item fresh : Item}
    {number : Int} (pointing : target ref = some item) (counts : counter item = some number)
    (unused : ∀ other, target other ≠ some fresh) :
    Counted (Function.update target ref (some fresh))
      (Function.update (Function.update counter item (some (number - 1))) fresh (some 1)) := by
  have untouched : ∀ other, Function.update target ref none other ≠ some fresh := by
    intro other
    by_cases here : other = ref
    · simp [here]
    · rw [Function.update_of_ne here]
      exact unused other
  have adopted := (counted.drop pointing counts).adopt (update_unset ref) untouched
  rwa [Function.update_idem] at adopted

end Counted

end EC440.References
