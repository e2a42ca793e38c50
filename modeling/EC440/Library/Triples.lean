import EC440.Library.Outcome

/-!
# Postconditions of operations that may stop

`Ensures outcome holds` says that a computation returns no value but those
that satisfy the postcondition.  There is one rule for each way in which
computations are put together.
-/

namespace EC440.Outcome

universe u v

variable {Reason : Type u} {Value Result : Type v} {outcome : Except Reason Value}
  {holds holds' : Value → Prop} {post : Result → Prop}

/-- If the computation returns, its value satisfies the postcondition. -/
def Ensures (outcome : Except Reason Value) (holds : Value → Prop) : Prop :=
  ∀ value, outcome = .ok value → holds value

namespace Ensures

theorem ok {value : Value} (satisfied : holds value) :
    Ensures (.ok value : Except Reason Value) holds := by
  rintro _ ⟨⟩
  exact satisfied

theorem error (reason : Reason) : Ensures (.error reason) holds := by
  rintro _ ⟨⟩

theorem mono (ensures : Ensures outcome holds) (weaker : ∀ value, holds value → holds' value) :
    Ensures outcome holds' :=
  fun value returned => weaker value (ensures value returned)

/-- One computation after another, when what the first one returns is known. -/
theorem bind {rest : Value → Except Reason Result} (first : Ensures outcome holds)
    (next : ∀ value, holds value → Ensures (rest value) post) : Ensures (outcome >>= rest) post := by
  intro result returned
  obtain ⟨value, before, after⟩ := bind_eq_ok_iff.mp returned
  exact next value (first value before) result after

/-- One computation after another, for every value that the first one returns. -/
theorem bind_of {rest : Value → Except Reason Result}
    (next : ∀ value, outcome = .ok value → Ensures (rest value) post) :
    Ensures (outcome >>= rest) post :=
  bind (fun _ returned => returned) next

theorem ite {condition : Prop} [Decidable condition] {first second : Except Reason Value}
    (yes : condition → Ensures first holds) (no : ¬condition → Ensures second holds) :
    Ensures (if condition then first else second) holds := by
  split
  next true_ => exact yes true_
  next false_ => exact no false_

/-- A loop over a list keeps what each of its rounds keeps. -/
theorem foldlM {Item : Type v} {body : Value → Item → Except Reason Value}
    (round : ∀ value item, holds value → Ensures (body value item) holds) (items : List Item)
    {start : Value} (initially : holds start) : Ensures (items.foldlM body start) holds := by
  induction items generalizing start with
  | nil => exact ok initially
  | cons item rest inductionHypothesis =>
      rw [List.foldlM_cons]
      exact bind (round start item initially) fun _ => inductionHypothesis

end Ensures

end EC440.Outcome
