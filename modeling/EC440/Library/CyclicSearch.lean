import Mathlib.Data.Fin.Basic
import Mathlib.Logic.Relation

/-!
# Cyclic searches

The indices of an array, visited from the one behind the current index on, from
the last one back to 0 and up to the current index.  A machine whose loop looks
at one index after the other in this order finds the first one that is ready,
if it starts inside the array.  Who goes on in this order without passing by a
target comes closer to it each time, and visits no index twice.
-/

namespace EC440.CyclicSearch

universe u

variable {count : Nat}

/-- The place of an index in the order `current + 1`, …, `count - 1`, 0, …, `current`. -/
def place (current index : Fin count) : Nat :=
  if current.val < index.val then index.val - current.val else index.val + count - current.val

theorem place_self (current : Fin count) : place current current = count := by
  rw [place, if_neg (Nat.lt_irrefl _)]
  omega

theorem place_pos (current index : Fin count) : 0 < place current index := by
  have bounds := And.intro current.isLt index.isLt
  unfold place
  split <;> omega

theorem place_lt {current index : Fin count} (other : index ≠ current) :
    place current index < count := by
  have bounds := And.intro current.isLt index.isLt
  have otherVal : index.val ≠ current.val := fun same => other (Fin.ext same)
  unfold place
  split <;> omega

theorem place_injective (current : Fin count) : Function.Injective (place current) := by
  intro first second same
  have bounds := And.intro current.isLt (And.intro first.isLt second.isLt)
  unfold place at same
  apply Fin.ext
  split at same <;> split at same <;> omega

theorem place_next {current index next : Fin count} (other : index ≠ current)
    (isNext : next.val = (index.val + 1) % count) :
    place current next = place current index + 1 := by
  have bounds := And.intro current.isLt (And.intro index.isLt next.isLt)
  have otherVal : index.val ≠ current.val := fun same => other (Fin.ext same)
  rcases Nat.lt_or_ge (index.val + 1) count with inRange | last
  · rw [Nat.mod_eq_of_lt inRange] at isNext
    unfold place
    split <;> split <;> omega
  · have wraps : (index.val + 1) % count = 0 := by
      have isLast : index.val + 1 = count := by omega
      rw [isLast, Nat.mod_self]
    rw [wraps] at isNext
    unfold place
    split <;> split <;> omega

theorem place_le (current index : Fin count) : place current index ≤ count := by
  by_cases same : index = current
  · rw [same]
    exact (place_self current).le
  · exact (place_lt same).le

/-! ## Rotations -/

/-- Whoever goes from `current` to an index in front of the target is closer to it then. -/
theorem place_lt_place {current next target : Fin count}
    (inFront : place current next ≤ place current target) (other : next ≠ target) :
    place next target < place current target := by
  have bounds := And.intro current.isLt (And.intro next.isLt target.isLt)
  have otherVal : next.val ≠ target.val := fun same => other (Fin.ext same)
  unfold place at inFront ⊢
  split at inFront <;> split at inFront <;> split <;> omega

/-- The indices that are visited one after the other, each closer to the target than those before
it. -/
def Approach (target : Fin count) (visited : List (Fin count)) : Prop :=
  visited.Pairwise fun earlier later => place later target < place earlier target

namespace Approach

variable {target current : Fin count} {visited : List (Fin count)}

theorem single (current : Fin count) : Approach target [current] :=
  List.pairwise_singleton ..

/-- The approach goes on from where it is to an index that is closer. -/
theorem append {next : Fin count} (approach : Approach target (visited ++ [current]))
    (closer : place next target < place current target) :
    Approach target (visited ++ [current] ++ [next]) := by
  refine List.pairwise_append.mpr ⟨approach, List.pairwise_singleton .., ?_⟩
  intro earlier membership later isNext
  cases List.mem_singleton.mp isNext
  rcases List.mem_append.mp membership with before | isCurrent
  · have ahead := (List.pairwise_append.mp approach).2.2 earlier before current (.head _)
    exact closer.trans ahead
  · cases List.mem_singleton.mp isCurrent
    exact closer

theorem nodup (approach : Approach target visited) : visited.Nodup := by
  apply List.Pairwise.imp _ approach
  rintro earlier later closer rfl
  exact Nat.lt_irrefl _ closer

/-- An approach has at most as many stations as there are places up to the target. -/
theorem length_le_place (approach : Approach target (current :: visited)) :
    (current :: visited).length ≤ place current target := by
  induction visited generalizing current with
  | nil => exact place_pos current target
  | cons next rest inductionHypothesis =>
      rcases List.pairwise_cons.mp approach with ⟨closer, behind⟩
      have fromNext := inductionHypothesis behind
      exact Nat.succ_le_of_lt (lt_of_le_of_lt fromNext (closer next (.head _)))

end Approach

/-! ## Searches -/

/-- The chosen index comes first among those that are ready, and is the current one only if no
other is ready. -/
structure First (ready : Fin count → Prop) (current chosen : Fin count) : Prop where
  isReady : chosen ≠ current → ready chosen
  alone : chosen = current → ∀ other, ready other → other = current
  first : ∀ other, ready other → place current chosen ≤ place current other

/-- A machine that executes `while (!ready[next] && next != current) next = (next + 1) % count`,
with its states at the condition and behind the loop. -/
structure Loop {State : Type u} (executes : State → State → Prop) (search : Nat → State)
    (found : Fin count → State) (ready : Fin count → Prop) (current : Fin count) : Prop where
  ends : ∀ next : Fin count, ready next ∨ next = current →
    Relation.ReflTransGen executes (search next) (found next)
  goesOn : ∀ next : Fin count, ¬ready next → next ≠ current →
    Relation.ReflTransGen executes (search next) (search ((next.val + 1) % count))

namespace Loop

variable {State : Type u} {executes : State → State → Prop} {search : Nat → State}
  {found : Fin count → State} {ready : Fin count → Prop} {current : Fin count}

theorem first_from (loop : Loop executes search found ready current) (next : Fin count)
    (notBefore : ∀ other, ready other → place current next ≤ place current other) :
    ∃ chosen, First ready current chosen ∧
      Relation.ReflTransGen executes (search next) (found chosen) := by
  -- by induction on how many places are left
  induction left : count - place current next generalizing next with
  | zero =>
      have isCurrent : next = current := by
        by_contra other
        have ahead := place_lt other
        omega
      refine ⟨next, ⟨fun other => absurd isCurrent other, fun _ other isReady => ?_, notBefore⟩,
        loop.ends next (.inr isCurrent)⟩
      by_contra isOther
      have behind := notBefore other isReady
      rw [isCurrent, place_self] at behind
      exact absurd (place_lt isOther) (not_lt.mpr behind)
  | succ left inductionHypothesis =>
      have notCurrent : next ≠ current := by
        rintro rfl
        rw [place_self] at left
        omega
      by_cases isReady : ready next
      · exact ⟨next, ⟨fun _ => isReady, fun same => absurd same notCurrent, notBefore⟩,
          loop.ends next (.inl isReady)⟩
      · have positive : 0 < count := next.pos
        let following : Fin count := ⟨(next.val + 1) % count, Nat.mod_lt _ positive⟩
        have isFollowing : place current following = place current next + 1 :=
          place_next notCurrent rfl
        have stillNotBefore : ∀ other, ready other →
            place current following ≤ place current other := by
          intro other otherReady
          have behind := notBefore other otherReady
          have different : place current next ≠ place current other := by
            intro same
            rw [place_injective current same] at isReady
            exact isReady otherReady
          omega
        rcases inductionHypothesis following stillNotBefore (by omega) with
          ⟨chosen, first, finds⟩
        exact ⟨chosen, first, (loop.goesOn next isReady notCurrent).trans finds⟩

/-- A search that starts behind the current index, inside the array, ends at the first one that
is ready. -/
theorem first (loop : Loop executes search found ready current)
    (inside : current.val + 1 < count) :
    ∃ chosen, First ready current chosen ∧
      Relation.ReflTransGen executes (search (current.val + 1)) (found chosen) := by
  refine loop.first_from ⟨current.val + 1, inside⟩ fun other _ => ?_
  have isOne : place current ⟨current.val + 1, inside⟩ = 1 := by
    rw [place, if_pos (Nat.lt_succ_self _)]
    exact Nat.add_sub_cancel_left ..
  rw [isOne]
  exact place_pos current other

end Loop

end EC440.CyclicSearch
