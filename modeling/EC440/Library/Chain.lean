import Mathlib.Data.Fintype.Card
import Mathlib.Data.List.Nodup
import Mathlib.Logic.Function.Basic

/-!
# Finite chains of links

A linked structure stores, in the cell of every node, a link: either the name
of a further node or a distinguished value that ends the chain.  `Chain`
relates a link to the nodes visited from it, and `walk` computes them.  Both
are independent of what the nodes are: blocks of a disk, cells of a heap.
-/

namespace EC440.Linked

universe u v

/-- How links name nodes.  `read` is the partial inverse of `ref`; it is
undefined at `stop` and at every value that names no node. -/
structure Naming (Node : Type u) (Link : Type v) where
  ref : Node → Link
  stop : Link
  read : Link → Option Node
  read_ref : ∀ node, read (ref node) = some node
  read_stop : read stop = none
  ref_read : ∀ link node, read link = some node → ref node = link

/-- Heap pointers: a link is a node or the null pointer. -/
def Naming.pointer (Node : Type u) : Naming Node (Option Node) where
  ref := some
  stop := none
  read := id
  read_ref _ := rfl
  read_stop := rfl
  ref_read _ _ equality := equality.symm

variable {Node : Type u} {Link : Type v} (naming : Naming Node Link)

theorem Naming.ref_injective : Function.Injective naming.ref := by
  intro first second equality
  have read := naming.read_ref first
  rw [equality, naming.read_ref] at read
  exact (Option.some.inj read).symm

theorem Naming.ref_ne_stop (node : Node) : naming.ref node ≠ naming.stop := by
  intro equality
  have read := naming.read_ref node
  rw [equality, naming.read_stop] at read
  cases read

/-- Following the cells `next` from a link visits exactly the listed nodes, in
order, and then reads `stop`. -/
inductive Chain (next : Node → Link) : Link → List Node → Prop
  | stop : Chain next naming.stop []
  | cons {node : Node} {nodes : List Node} :
      Chain next (next node) nodes → Chain next (naming.ref node) (node :: nodes)

namespace Chain

variable {naming} {next next' : Node → Link} {link : Link} {nodes : List Node}

theorem nil_iff : Chain naming next link [] ↔ link = naming.stop := by
  constructor
  · intro chain
    cases chain
    rfl
  · rintro rfl
    exact .stop

theorem cons_iff {node : Node} :
    Chain naming next link (node :: nodes) ↔
      link = naming.ref node ∧ Chain naming next (next node) nodes := by
  constructor
  · intro chain
    cases chain with
    | cons rest => exact ⟨rfl, rest⟩
  · rintro ⟨rfl, rest⟩
    exact .cons rest

theorem stop_iff : Chain naming next naming.stop nodes ↔ nodes = [] := by
  constructor
  · intro chain
    cases nodes with
    | nil => rfl
    | cons node rest =>
        exact absurd (cons_iff.mp chain).1.symm (naming.ref_ne_stop node)
  · rintro rfl
    exact .stop

theorem ref_iff {node : Node} :
    Chain naming next (naming.ref node) nodes ↔
      ∃ rest, nodes = node :: rest ∧ Chain naming next (next node) rest := by
  constructor
  · intro chain
    cases nodes with
    | nil => exact absurd (nil_iff.mp chain) (naming.ref_ne_stop node)
    | cons first rest =>
        obtain ⟨equality, tail⟩ := cons_iff.mp chain
        obtain rfl := naming.ref_injective equality
        exact ⟨rest, rfl, tail⟩
  · rintro ⟨rest, rfl, tail⟩
    exact .cons tail

theorem unique {others : List Node} (chain : Chain naming next link nodes)
    (other : Chain naming next link others) : nodes = others := by
  induction chain generalizing others with
  | stop => exact (stop_iff.mp other).symm
  | cons rest inductionHypothesis =>
      obtain ⟨tail, rfl, tailChain⟩ := ref_iff.mp other
      rw [inductionHypothesis tailChain]

/-- Every suffix of a chain is the chain of the link that starts it. -/
theorem append_iff {first second : List Node} :
    Chain naming next link (first ++ second) ↔
      ∃ middle, Chain naming next middle second ∧
        ∀ tail, Chain naming next middle tail → Chain naming next link (first ++ tail) := by
  constructor
  · intro chain
    induction first generalizing link with
    | nil => exact ⟨link, chain, fun _ tail => tail⟩
    | cons node first inductionHypothesis =>
        obtain ⟨rfl, rest⟩ := cons_iff.mp chain
        obtain ⟨middle, suffix, restore⟩ := inductionHypothesis rest
        exact ⟨middle, suffix, fun tail holds => .cons (restore tail holds)⟩
  · rintro ⟨middle, suffix, restore⟩
    exact restore second suffix

theorem suffix {first second : List Node} {node : Node}
    (chain : Chain naming next link (first ++ node :: second)) :
    Chain naming next (next node) second := by
  obtain ⟨middle, suffix, _⟩ := append_iff.mp chain
  exact (cons_iff.mp suffix).2

theorem next_last {first : List Node} {last : Node}
    (chain : Chain naming next link (first ++ [last])) : next last = naming.stop :=
  nil_iff.mp chain.suffix

/-- A chain visits no node twice: the suffix after the first visit and the one
after the second would be the same list. -/
theorem nodup (chain : Chain naming next link nodes) : nodes.Nodup := by
  induction nodes generalizing link with
  | nil => exact List.nodup_nil
  | cons node rest inductionHypothesis =>
      obtain ⟨rfl, tail⟩ := cons_iff.mp chain
      refine List.nodup_cons.mpr ⟨?_, inductionHypothesis tail⟩
      intro membership
      obtain ⟨first, second, rfl⟩ := List.append_of_mem membership
      have same := tail.unique tail.suffix
      have lengths := congrArg List.length same
      simp only [List.length_append, List.length_cons] at lengths
      omega

theorem length_le_card [Fintype Node] (chain : Chain naming next link nodes) :
    nodes.length ≤ Fintype.card Node :=
  chain.nodup.length_le_card

theorem congr (chain : Chain naming next link nodes)
    (same : ∀ node ∈ nodes, next' node = next node) : Chain naming next' link nodes := by
  induction chain with
  | stop => exact .stop
  | cons rest inductionHypothesis =>
      refine .cons ?_
      rw [same _ List.mem_cons_self]
      exact inductionHypothesis fun node membership =>
        same node (List.mem_cons_of_mem _ membership)

/-- Two chains of one link over cells that agree up to some nodes: if the first comes to such a
node, both come to one. -/
theorem meets {others : List Node} {Changed : Node → Prop} (chain : Chain naming next link nodes)
    (other : Chain naming next' link others)
    (same : ∀ node, ¬Changed node → next' node = next node) {node : Node}
    (membership : node ∈ nodes) (changed : Changed node) :
    ∃ common, Changed common ∧ common ∈ nodes ∧ common ∈ others := by
  induction chain generalizing others with
  | stop => cases membership
  | @cons first rest _ inductionHypothesis =>
      obtain ⟨tail, rfl, tailChain⟩ := ref_iff.mp other
      by_cases here : Changed first
      · exact ⟨first, here, List.mem_cons_self, List.mem_cons_self⟩
      · rcases List.mem_cons.mp membership with rfl | inRest
        · exact absurd changed here
        · rw [same first here] at tailChain
          obtain ⟨common, isChanged, inFirst, inSecond⟩ := inductionHypothesis tailChain inRest
          exact ⟨common, isChanged, List.mem_cons_of_mem _ inFirst, List.mem_cons_of_mem _ inSecond⟩

theorem update_of_notMem [DecidableEq Node] {node : Node} (value : Link)
    (chain : Chain naming next link nodes) (fresh : node ∉ nodes) :
    Chain naming (Function.update next node value) link nodes :=
  chain.congr fun _ membership =>
    Function.update_of_ne (ne_of_mem_of_not_mem membership fresh) _ _

/-- Writing a link into the cell of a node of the chain replaces what follows it. -/
theorem redirect [DecidableEq Node] {first second tail : List Node} {node : Node} {value : Link}
    (chain : Chain naming next link (first ++ node :: second))
    (tailChain : Chain naming next value tail) (fresh : node ∉ tail) :
    Chain naming (Function.update next node value) link (first ++ node :: tail) := by
  induction first generalizing link with
  | nil =>
      obtain ⟨rfl, -⟩ := cons_iff.mp chain
      refine .cons ?_
      rw [Function.update_self]
      exact tailChain.update_of_notMem value fresh
  | cons head first inductionHypothesis =>
      obtain ⟨rfl, rest⟩ := cons_iff.mp chain
      have distinct : head ≠ node := by
        rintro rfl
        have nodup := chain.nodup
        simp at nodup
      refine .cons ?_
      rw [Function.update_of_ne distinct]
      exact inductionHypothesis rest

theorem cut [DecidableEq Node] {first second : List Node} {node : Node}
    (chain : Chain naming next link (first ++ node :: second)) :
    Chain naming (Function.update next node naming.stop) link (first ++ [node]) :=
  chain.redirect .stop List.not_mem_nil

theorem snoc [DecidableEq Node] {first : List Node} {last fresh : Node}
    (chain : Chain naming next link (first ++ [last])) (new : fresh ∉ first ++ [last]) :
    Chain naming
      (Function.update (Function.update next last (naming.ref fresh)) fresh naming.stop)
      link (first ++ [last, fresh]) := by
  have distinct : fresh ≠ last := fun equality => new (by simp [equality])
  have ended := chain.update_of_notMem naming.stop new
  rw [Function.update_comm distinct.symm]
  refine ended.redirect (Chain.cons ?_) (by simpa using distinct.symm)
  rw [Function.update_self]
  exact .stop

end Chain

section Walk

variable [DecidableEq Link]

/-- The nodes visited from a link, or `none` when the links leave the nodes or
no end is met within the fuel. -/
def walk (next : Node → Link) : Nat → Link → Option (List Node)
  | 0, _ => none
  | fuel + 1, link =>
      if link = naming.stop then
        some []
      else
        match naming.read link with
        | none => none
        | some node => (walk next fuel (next node)).map (node :: ·)

theorem walk_eq_some_iff {next : Node → Link} {fuel : Nat} {link : Link} {nodes : List Node} :
    walk naming next fuel link = some nodes ↔
      Chain naming next link nodes ∧ nodes.length < fuel := by
  induction fuel generalizing link nodes with
  | zero => simp [walk]
  | succ fuel inductionHypothesis =>
      by_cases atStop : link = naming.stop
      · subst atStop
        simp only [walk, if_true, Chain.stop_iff, Option.some.injEq]
        constructor
        · rintro rfl
          exact ⟨rfl, by simp⟩
        · rintro ⟨rfl, -⟩
          rfl
      · cases found : naming.read link with
        | none =>
            simp only [walk, if_neg atStop, found, reduceCtorEq, false_iff]
            rintro ⟨chain, -⟩
            cases chain with
            | stop => exact atStop rfl
            | cons rest => simp [naming.read_ref] at found
        | some node =>
            have named := naming.ref_read link node found
            subst named
            simp only [walk, if_neg atStop, found, Option.map_eq_some_iff,
              inductionHypothesis, Chain.ref_iff]
            constructor
            · rintro ⟨rest, ⟨chain, bound⟩, rfl⟩
              exact ⟨⟨rest, rfl, chain⟩, by simpa using bound⟩
            · rintro ⟨⟨rest, rfl, chain⟩, bound⟩
              exact ⟨rest, ⟨chain, by simpa using bound⟩, rfl⟩

/-- On finitely many nodes one step more than their number is fuel enough. -/
theorem walk_card_eq_some_iff [Fintype Node] {next : Node → Link} {link : Link}
    {nodes : List Node} :
    walk naming next (Fintype.card Node + 1) link = some nodes ↔
      Chain naming next link nodes := by
  rw [walk_eq_some_iff]
  exact ⟨And.left, fun chain => ⟨chain, Nat.lt_succ_of_le chain.length_le_card⟩⟩

end Walk

end EC440.Linked
