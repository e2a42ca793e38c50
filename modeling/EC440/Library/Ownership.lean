import Mathlib.Algebra.BigOperators.Group.Finset.Basic
import Mathlib.Algebra.Order.BigOperators.Group.Finset
import Mathlib.Data.List.Nodup

/-!
# Exclusive holdings

A family of owners holds lists of items such that no item is held twice.  The
holdings of one owner may be replaced by any list of items that this owner
held or that nobody held, and the lengths of the holdings add up to the number
of items held.
-/

namespace EC440.Ownership

universe u v

variable {Owner : Type u} {Item : Type v}

/-- No item is held by two owners. -/
def Exclusive (holdings : Owner → List Item) : Prop :=
  ∀ first second, first ≠ second → List.Disjoint (holdings first) (holdings second)

theorem Exclusive.unique {holdings : Owner → List Item} (exclusive : Exclusive holdings)
    {first second : Owner} {item : Item} (inFirst : item ∈ holdings first)
    (inSecond : item ∈ holdings second) : first = second := by
  by_contra distinct
  exact exclusive first second distinct inFirst inSecond

theorem Exclusive.update [DecidableEq Owner] {holdings : Owner → List Item}
    (exclusive : Exclusive holdings) {owner : Owner} {items : List Item}
    (available : ∀ item ∈ items, item ∈ holdings owner ∨ ∀ other, item ∉ holdings other) :
    Exclusive (Function.update holdings owner items) := by
  have apart : ∀ other, other ≠ owner → List.Disjoint items (holdings other) := by
    intro other distinct item inItems inOther
    rcases available item inItems with own | free
    · exact distinct (exclusive.unique inOther own)
    · exact free other inOther
  intro first second distinct
  by_cases firstOwner : first = owner
  · subst firstOwner
    rw [Function.update_self, Function.update_of_ne distinct.symm]
    exact apart second distinct.symm
  · by_cases secondOwner : second = owner
    · subst secondOwner
      rw [Function.update_self, Function.update_of_ne firstOwner]
      exact (apart first firstOwner).symm
    · rw [Function.update_of_ne firstOwner, Function.update_of_ne secondOwner]
      exact exclusive first second distinct

/-- The lengths of exclusive holdings add up to the number of items held. -/
theorem Exclusive.sum_length [Fintype Owner] [DecidableEq Item] {holdings : Owner → List Item}
    (exclusive : Exclusive holdings) (nodup : ∀ owner, (holdings owner).Nodup) :
    ∑ owner, (holdings owner).length =
      (Finset.univ.biUnion fun owner => (holdings owner).toFinset).card := by
  rw [Finset.card_biUnion]
  · exact Finset.sum_congr rfl fun owner _ =>
      (List.toFinset_card_of_nodup (nodup owner)).symm
  · intro first _ second _ distinct
    rw [Function.onFun, Finset.disjoint_left]
    intro item inFirst inSecond
    exact exclusive first second distinct (List.mem_toFinset.mp inFirst)
      (List.mem_toFinset.mp inSecond)

theorem sum_length_append [Fintype Owner] [DecidableEq Owner] (holdings : Owner → List Item)
    (owner : Owner) (added : List Item) :
    ∑ other, (Function.update holdings owner (holdings owner ++ added) other).length =
      ∑ other, (holdings other).length + added.length := by
  have others : ∑ other ∈ Finset.univ.erase owner,
      (Function.update holdings owner (holdings owner ++ added) other).length =
        ∑ other ∈ Finset.univ.erase owner, (holdings other).length := by
    apply Finset.sum_congr rfl
    intro other membership
    rw [Function.update_of_ne (Finset.ne_of_mem_erase membership)]
  rw [← Finset.add_sum_erase _ _ (Finset.mem_univ owner),
    ← Finset.add_sum_erase _ (fun other => (holdings other).length) (Finset.mem_univ owner),
    Function.update_self, List.length_append, others]
  omega

end EC440.Ownership
