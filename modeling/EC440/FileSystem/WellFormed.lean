import EC440.FileSystem.Mount
import EC440.Library.Ownership
import Mathlib.Order.Interval.Finset.Fin

/-!
# Well-formed file systems

The file allocation table links the blocks of every file.  A file system is
well formed when the used directory entries own disjoint chains and the
nonzero entries of the data area are exactly the blocks of these chains.  The
proofs work with a chart, which names the chain of every entry.
-/

namespace EC440.FileSystem

open Linked Ownership

/-- The first data block, `fs->data_idx` of every file system that `make_fs` creates. -/
def dataStart : Nat := 10

theorem layout_dataIdx : layout.dataIdx.toInt = dataStart := by decide

/-! ## Table accesses -/

theorem blockIndex?_val (block : BlockIndex) : blockIndex? block.val = some block :=
  dif_pos block.isLt

theorem blockIndex?_eq_some_iff {index : Int} {block : BlockIndex} :
    blockIndex? index = some block ↔ index = block.val := by
  constructor
  · intro found
    unfold blockIndex? at found
    split at found
    next index =>
      split at found
      next inside =>
        cases found
        rfl
      next => cases found
    next => cases found
  · rintro rfl
    exact blockIndex?_val block

@[simp]
theorem readFat_val (fat : Fat) (block : BlockIndex) : readFat fat block.val = .ok (fat block) := by
  rw [readFat, blockIndex?_val]

theorem readFat_eq_ok_iff {fat : Fat} {index : Int} {value : Int32} :
    readFat fat index = .ok value ↔ ∃ block : BlockIndex, index = block.val ∧ fat block = value := by
  constructor
  · intro read
    unfold readFat at read
    split at read
    next block found =>
      cases read
      exact ⟨block, blockIndex?_eq_some_iff.mp found, rfl⟩
    next => cases read
  · rintro ⟨block, rfl, rfl⟩
    exact readFat_val fat block

@[simp]
theorem writeFat_val (fat : Fat) (block : BlockIndex) (value : Int32) :
    writeFat fat block.val value = .ok (Function.update fat block value) := by
  rw [writeFat, blockIndex?_val]

/-- A search loop stops at the first index that passes its test. -/
theorem search_eq_some {length : Nat} {test : Fin length → Bool} {index : Fin length}
    (found : search test = some index) :
    test index = true ∧ ∀ earlier < index, test earlier = false := by
  obtain ⟨passes, before, after, order, failed⟩ := List.find?_eq_some_iff_append.mp found
  refine ⟨passes, fun earlier less => ?_⟩
  have sorted := List.pairwise_lt_finRange length
  rw [order, List.pairwise_append] at sorted
  have membership : earlier ∈ before ++ index :: after := order ▸ List.mem_finRange earlier
  rcases List.mem_append.mp membership with inBefore | inAfter
  · simpa using failed earlier inBefore
  · have later := (List.pairwise_cons.mp sorted.2.1).1
    rcases List.mem_cons.mp inAfter with equal | inRest
    · exact absurd less (equal ▸ lt_irrefl _)
    · exact absurd (later earlier inRest) (lt_asymm less)

theorem search_eq_none {length : Nat} {test : Fin length → Bool} (found : search test = none)
    (index : Fin length) : test index = false := by
  simpa using List.find?_eq_none.mp found index (List.mem_finRange index)

/-! ## Chains of blocks -/

theorem toInt_ofNat_block (block : BlockIndex) : (Int32.ofNat block.val).toInt = block.val :=
  Int32.toInt_ofNat_of_lt (lt_trans block.isLt (by decide))

/-- Links between blocks: the number of the next block, or -1 at the end. -/
def fatNaming : Naming BlockIndex Int32 where
  ref block := Int32.ofNat block.val
  stop := -1
  read value := blockIndex? value.toInt
  read_ref block := by rw [toInt_ofNat_block, blockIndex?_val]
  read_stop := by decide
  ref_read value block found := by
    rw [blockIndex?_eq_some_iff] at found
    rw [← Int32.toInt_inj, toInt_ofNat_block, found]

@[simp]
theorem fatNaming_stop : fatNaming.stop = (-1 : Int32) := rfl

@[simp]
theorem toInt_ref (block : BlockIndex) : (fatNaming.ref block).toInt = block.val :=
  toInt_ofNat_block block

/-- The mark of a free block is also the number of block 0. -/
theorem ref_eq_zero_iff {block : BlockIndex} : fatNaming.ref block = 0 ↔ block = 0 :=
  fatNaming.ref_injective.eq_iff' rfl

theorem ref_ne_zero {block : BlockIndex} (data : dataStart ≤ block.val) :
    fatNaming.ref block ≠ 0 := by
  rw [ne_eq, ref_eq_zero_iff]
  rintro rfl
  exact absurd data (by decide)

theorem zero_notMem {blocks : List BlockIndex} (data : ∀ block ∈ blocks, dataStart ≤ block.val) :
    0 ∉ blocks :=
  fun membership => absurd (data 0 membership) (by decide)

abbrev FatChain (fat : Fat) : Int32 → List BlockIndex → Prop := Chain fatNaming fat

theorem FatChain.ne_zero {fat : Fat} {link : Int32} {blocks : List BlockIndex}
    (chain : FatChain fat link blocks) (data : ∀ block ∈ blocks, dataStart ≤ block.val)
    {block : BlockIndex} (membership : block ∈ blocks) : fat block ≠ 0 := by
  obtain ⟨first, second, rfl⟩ := List.append_of_mem membership
  have rest : FatChain fat (fat block) second := chain.suffix
  intro zero
  rw [zero] at rest
  cases second with
  | nil => exact absurd (Chain.nil_iff.mp rest) (by decide)
  | cons next second => exact ref_ne_zero (data next (by simp)) (Chain.cons_iff.mp rest).1.symm

namespace State

variable (state : State)

/-- `DIR[slot].used` -/
def Used (slot : Slot) : Prop := (state.dir slot).used ≠ 0

instance (slot : Slot) : Decidable (state.Used slot) := inferInstanceAs (Decidable (_ ≠ _))

/-- `fildes[descriptor].used` -/
def Open (descriptor : Descriptor) : Prop := (state.fildes descriptor).used ≠ 0

instance (descriptor : Descriptor) : Decidable (state.Open descriptor) :=
  inferInstanceAs (Decidable (_ ≠ _))

/-- The blocks visited from the head of a directory entry, if `FAT` leads to an end. -/
def chain? (slot : Slot) : Option (List BlockIndex) :=
  walk fatNaming state.fat chainFuel (state.dir slot).head

def chain (slot : Slot) : List BlockIndex := (state.chain? slot).getD []

def freeCount : Nat :=
  (Finset.univ.filter fun block : BlockIndex =>
    dataStart ≤ block.val ∧ state.fat block = 0).card

end State

theorem chain?_eq_some_iff {state : State} {slot : Slot} {blocks : List BlockIndex} :
    state.chain? slot = some blocks ↔ FatChain state.fat (state.dir slot).head blocks := by
  have card : chainFuel = Fintype.card BlockIndex + 1 := by simp [chainFuel]
  rw [State.chain?, card]
  exact walk_card_eq_some_iff fatNaming

theorem chain_eq {state : State} {slot : Slot} {blocks : List BlockIndex}
    (chain : FatChain state.fat (state.dir slot).head blocks) : state.chain slot = blocks := by
  rw [State.chain, chain?_eq_some_iff.mpr chain, Option.getD_some]

/-- Every used entry has a chain of data blocks that ends and never repeats a block, different
used entries share no block, and the nonzero entries of the data area are the blocks of these
chains. -/
structure WellFormed (state : State) : Prop where
  chains : ∀ slot, state.Used slot → ∃ blocks, state.chain? slot = some blocks ∧
    blocks ≠ [] ∧ blocks.Nodup ∧ ∀ block ∈ blocks, dataStart ≤ block.val
  disjoint : ∀ first second, state.Used first → state.Used second → first ≠ second →
    List.Disjoint (state.chain first) (state.chain second)
  accounted : ∀ block : BlockIndex, dataStart ≤ block.val →
    (state.fat block ≠ 0 ↔ ∃ slot, state.Used slot ∧ block ∈ state.chain slot)

/-! ## Charts -/

/-- `chart slot` lists the blocks of the entry `slot`, and is empty for unused entries.  Further
blocks may be marked as used that no entry owns. -/
structure Charted (fat : Fat) (dir : Directory) (chart : Slot → List BlockIndex) : Prop where
  chain : ∀ slot, (dir slot).used ≠ 0 → FatChain fat (dir slot).head (chart slot)
  nonempty : ∀ slot, (dir slot).used ≠ 0 → chart slot ≠ []
  unused : ∀ slot, (dir slot).used = 0 → chart slot = []
  exclusive : Exclusive chart
  data : ∀ slot, ∀ block ∈ chart slot, dataStart ≤ block.val
  reserved : ∀ block : BlockIndex, block.val < dataStart → fat block = 0

/-- No block is marked as used that no entry owns. -/
def Tight (fat : Fat) (chart : Slot → List BlockIndex) : Prop :=
  ∀ block, (∀ slot, block ∉ chart slot) → fat block = 0

namespace Charted

variable {fat fat' : Fat} {dir dir' : Directory} {chart : Slot → List BlockIndex}

theorem used_of_mem (charted : Charted fat dir chart) {slot : Slot} {block : BlockIndex}
    (membership : block ∈ chart slot) : (dir slot).used ≠ 0 := by
  intro unused
  rw [charted.unused slot unused] at membership
  cases membership

theorem nodup (charted : Charted fat dir chart) (slot : Slot) : (chart slot).Nodup := by
  by_cases used : (dir slot).used = 0
  · rw [charted.unused slot used]
    exact List.nodup_nil
  · exact (charted.chain slot used).nodup

theorem ne_zero (charted : Charted fat dir chart) {slot : Slot} {block : BlockIndex}
    (membership : block ∈ chart slot) : fat block ≠ 0 :=
  (charted.chain slot (charted.used_of_mem membership)).ne_zero (charted.data slot) membership

theorem notMem_of_zero (charted : Charted fat dir chart) {block : BlockIndex}
    (zero : fat block = 0) (slot : Slot) : block ∉ chart slot :=
  fun membership => charted.ne_zero membership zero

theorem chain_eq {state : State} (charted : Charted state.fat state.dir chart) {slot : Slot}
    (used : state.Used slot) : state.chain slot = chart slot :=
  FileSystem.chain_eq (charted.chain slot used)

theorem unique {state : State} {chart' : Slot → List BlockIndex}
    (charted : Charted state.fat state.dir chart) (charted' : Charted state.fat state.dir chart') :
    chart' = chart := by
  funext slot
  by_cases used : state.Used slot
  · rw [← charted.chain_eq used, ← charted'.chain_eq used]
  · rw [charted.unused slot (not_not.mp used), charted'.unused slot (not_not.mp used)]

theorem head_eq (charted : Charted fat dir chart) {slot : Slot} (used : (dir slot).used ≠ 0) :
    ∃ first rest, chart slot = first :: rest ∧ (dir slot).head = fatNaming.ref first := by
  have chain := charted.chain slot used
  cases listed : chart slot with
  | nil => exact absurd listed (charted.nonempty slot used)
  | cons first rest =>
      rw [listed] at chain
      exact ⟨first, rest, rfl, (Chain.cons_iff.mp chain).1⟩

theorem head_injective (charted : Charted fat dir chart) {first second : Slot}
    (usedFirst : (dir first).used ≠ 0) (usedSecond : (dir second).used ≠ 0)
    (same : (dir first).head = (dir second).head) : first = second := by
  obtain ⟨block, rest, listed, named⟩ := charted.head_eq usedFirst
  obtain ⟨block', rest', listed', named'⟩ := charted.head_eq usedSecond
  rw [named, named'] at same
  obtain rfl := fatNaming.ref_injective same
  exact charted.exclusive.unique (by rw [listed]; exact List.mem_cons_self)
    (by rw [listed']; exact List.mem_cons_self)

theorem head_data (charted : Charted fat dir chart) {slot : Slot} (used : (dir slot).used ≠ 0) :
    (dataStart : Int) ≤ (dir slot).head.toInt ∧ (dir slot).head.toInt < diskBlocks := by
  obtain ⟨first, rest, listed, named⟩ := charted.head_eq used
  rw [named, toInt_ref]
  have lower := charted.data slot first (by rw [listed]; exact List.mem_cons_self)
  exact ⟨by exact_mod_cast lower, by exact_mod_cast first.isLt⟩

/-- The entries that changed hands belong to one directory entry: its blocks become `blocks`,
taken from its old blocks and from free ones, and what it gives up is marked free. -/
theorem replace (charted : Charted fat dir chart) {slot : Slot} {blocks : List BlockIndex}
    (others : ∀ other, other ≠ slot →
      (dir' other).used = (dir other).used ∧ (dir' other).head = (dir other).head)
    (chain : (dir' slot).used ≠ 0 → FatChain fat' (dir' slot).head blocks ∧ blocks ≠ [])
    (unused : (dir' slot).used = 0 → blocks = [])
    (available : ∀ block ∈ blocks,
      block ∈ chart slot ∨ fat block = 0 ∧ dataStart ≤ block.val)
    (frame : ∀ block, block ∉ chart slot → block ∉ blocks → fat' block = fat block)
    (released : ∀ block, block ∈ chart slot → block ∉ blocks → fat' block = 0) :
    Charted fat' dir' (Function.update chart slot blocks) := by
  have untouched : ∀ other, other ≠ slot → ∀ block ∈ chart other, fat' block = fat block := by
    intro other distinct block membership
    refine frame block (fun own => distinct (charted.exclusive.unique membership own)) ?_
    intro inBlocks
    rcases available block inBlocks with own | ⟨zero, -⟩
    · exact distinct (charted.exclusive.unique membership own)
    · exact charted.ne_zero membership zero
  refine ⟨?_, ?_, ?_, ?_, ?_, ?_⟩
  · intro other used
    by_cases same : other = slot
    · subst same
      rw [Function.update_self]
      exact (chain used).1
    · rw [Function.update_of_ne same, (others other same).2]
      rw [(others other same).1] at used
      exact (charted.chain other used).congr (untouched other same)
  · intro other used
    by_cases same : other = slot
    · subst same
      rw [Function.update_self]
      exact (chain used).2
    · rw [Function.update_of_ne same]
      exact charted.nonempty other ((others other same).1 ▸ used)
  · intro other notUsed
    by_cases same : other = slot
    · subst same
      rw [Function.update_self]
      exact unused notUsed
    · rw [Function.update_of_ne same]
      exact charted.unused other ((others other same).1 ▸ notUsed)
  · apply charted.exclusive.update
    intro block membership
    exact (available block membership).imp_right fun ⟨zero, _⟩ => charted.notMem_of_zero zero
  · intro other block membership
    by_cases same : other = slot
    · subst same
      rw [Function.update_self] at membership
      exact (available block membership).elim (charted.data other block) And.right
    · rw [Function.update_of_ne same] at membership
      exact charted.data other block membership
  · intro block low
    rw [frame block, charted.reserved block low]
    · exact fun own => absurd (charted.data slot block own) (not_le.mpr low)
    · intro inBlocks
      refine absurd ?_ (not_le.mpr low)
      exact (available block inBlocks).elim (charted.data slot block) And.right

theorem wellFormed {state : State} (charted : Charted state.fat state.dir chart)
    (tight : Tight state.fat chart) : WellFormed state := by
  refine ⟨?_, ?_, ?_⟩
  · intro slot used
    exact ⟨chart slot, chain?_eq_some_iff.mpr (charted.chain slot used),
      charted.nonempty slot used, charted.nodup slot, charted.data slot⟩
  · intro first second usedFirst usedSecond distinct
    rw [charted.chain_eq usedFirst, charted.chain_eq usedSecond]
    exact charted.exclusive first second distinct
  · intro block _
    constructor
    · intro nonzero
      by_contra absent
      refine nonzero (tight block fun slot membership => absent ⟨slot, ?_, ?_⟩)
      · exact charted.used_of_mem membership
      · rwa [charted.chain_eq (charted.used_of_mem membership)]
    · rintro ⟨slot, used, membership⟩
      rw [charted.chain_eq used] at membership
      exact charted.ne_zero membership

end Charted

/-- What one entry gives up is marked free, so that no other block is marked as used. -/
theorem Tight.replace {fat fat' : Fat} {chart : Slot → List BlockIndex} (tight : Tight fat chart)
    {slot : Slot} {blocks : List BlockIndex}
    (frame : ∀ block, block ∉ chart slot → block ∉ blocks → fat' block = fat block)
    (released : ∀ block, block ∈ chart slot → block ∉ blocks → fat' block = 0) :
    Tight fat' (Function.update chart slot blocks) := by
  intro block absent
  have notInBlocks : block ∉ blocks := by
    simpa using absent slot
  by_cases own : block ∈ chart slot
  · exact released block own notInBlocks
  · rw [frame block own notInBlocks]
    refine tight block fun other membership => ?_
    by_cases same : other = slot
    · exact own (same ▸ membership)
    · exact absent other (by rwa [Function.update_of_ne same])

/-- Every used entry has a chain of data blocks that ends, and different used entries share no
block. -/
structure Chained (state : State) : Prop where
  chains : ∀ slot, state.Used slot → ∃ blocks, state.chain? slot = some blocks ∧
    blocks ≠ [] ∧ ∀ block ∈ blocks, dataStart ≤ block.val
  disjoint : ∀ first second, state.Used first → state.Used second → first ≠ second →
    List.Disjoint (state.chain first) (state.chain second)

theorem WellFormed.chained {state : State} (wellFormed : WellFormed state) : Chained state where
  chains slot used := by
    obtain ⟨blocks, found, nonempty, -, data⟩ := wellFormed.chains slot used
    exact ⟨blocks, found, nonempty, data⟩
  disjoint := wellFormed.disjoint

def State.chains (state : State) (slot : Slot) : List BlockIndex :=
  if (state.dir slot).used ≠ 0 then state.chain slot else []

theorem State.mem_chains {state : State} {slot : Slot} {block : BlockIndex} :
    block ∈ state.chains slot ↔ state.Used slot ∧ block ∈ state.chain slot := by
  by_cases used : (state.dir slot).used = 0 <;> simp [State.chains, State.Used, used]

/-- A state is charted by its own chains, as far as `FAT` is clear outside the data area. -/
theorem Chained.charted {state : State} (chained : Chained state)
    (reserved : ∀ block : BlockIndex, block.val < dataStart → state.fat block = 0) :
    Charted state.fat state.dir state.chains := by
  have chainOf : ∀ slot, state.Used slot →
      FatChain state.fat (state.dir slot).head (state.chain slot) ∧ state.chain slot ≠ [] ∧
        ∀ block ∈ state.chain slot, dataStart ≤ block.val := by
    intro slot used
    obtain ⟨blocks, found, nonempty, data⟩ := chained.chains slot used
    have chain := chain?_eq_some_iff.mp found
    rw [FileSystem.chain_eq chain]
    exact ⟨chain, nonempty, data⟩
  refine ⟨?_, ?_, ?_, ?_, ?_, reserved⟩
  · intro slot used
    rw [State.chains, if_pos used]
    exact (chainOf slot used).1
  · intro slot used
    rw [State.chains, if_pos used]
    exact (chainOf slot used).2.1
  · intro slot unused
    simp [State.chains, unused]
  · intro first second distinct block inFirst inSecond
    obtain ⟨usedFirst, inFirst⟩ := State.mem_chains.mp inFirst
    obtain ⟨usedSecond, inSecond⟩ := State.mem_chains.mp inSecond
    exact chained.disjoint first second usedFirst usedSecond distinct inFirst inSecond
  · intro slot block membership
    obtain ⟨used, membership⟩ := State.mem_chains.mp membership
    exact (chainOf slot used).2.2 block membership

theorem WellFormed.tight {state : State} (wellFormed : WellFormed state)
    (reserved : ∀ block : BlockIndex, block.val < dataStart → state.fat block = 0) :
    Tight state.fat state.chains := by
  intro block absent
  by_cases reservedBlock : block.val < dataStart
  · exact reserved block reservedBlock
  · by_contra nonzero
    obtain ⟨slot, used, membership⟩ :=
      (wellFormed.accounted block (not_lt.mp reservedBlock)).mp nonzero
    exact absent slot (State.mem_chains.mpr ⟨used, membership⟩)

theorem card_dataBlocks :
    (Finset.univ.filter fun block : BlockIndex => dataStart ≤ block.val).card =
      diskBlocks - dataStart := by
  have above : (Finset.univ.filter fun block : BlockIndex => dataStart ≤ block.val) =
      Finset.Ici ⟨dataStart, by decide⟩ := by
    ext block
    simp [Fin.le_def]
  rw [above, Fin.card_Ici]

/-- Free blocks and chain lengths always add up to the size of the data area. -/
theorem Charted.freeCount_add {state : State} {chart : Slot → List BlockIndex}
    (charted : Charted state.fat state.dir chart) (tight : Tight state.fat chart) :
    state.freeCount + ∑ slot, (chart slot).length = diskBlocks - dataStart := by
  have apart : Disjoint
      (Finset.univ.filter fun block : BlockIndex => dataStart ≤ block.val ∧ state.fat block = 0)
      (Finset.univ.biUnion fun slot => (chart slot).toFinset) := by
    rw [Finset.disjoint_left]
    simp only [Finset.mem_filter, Finset.mem_univ, true_and, Finset.mem_biUnion,
      List.mem_toFinset]
    rintro block ⟨-, zero⟩ ⟨slot, membership⟩
    exact charted.ne_zero membership zero
  rw [charted.exclusive.sum_length charted.nodup, State.freeCount, ← card_dataBlocks,
    ← Finset.card_union_of_disjoint apart]
  refine congrArg Finset.card ?_
  ext block
  simp only [Finset.mem_union, Finset.mem_filter, Finset.mem_univ, true_and,
    Finset.mem_biUnion, List.mem_toFinset]
  constructor
  · rintro (⟨lower, -⟩ | ⟨slot, membership⟩)
    · exact lower
    · exact charted.data slot block membership
  · intro lower
    by_cases zero : state.fat block = 0
    · exact .inl ⟨lower, zero⟩
    · right
      by_contra absent
      exact zero (tight block fun slot membership => absent ⟨slot, membership⟩)

theorem Charted.length_add_freeCount {state : State} {chart : Slot → List BlockIndex}
    (charted : Charted state.fat state.dir chart) (slot : Slot) :
    (chart slot).length + state.freeCount ≤ diskBlocks := by
  have apart : Disjoint (chart slot).toFinset
      (Finset.univ.filter fun block : BlockIndex =>
        dataStart ≤ block.val ∧ state.fat block = 0) := by
    rw [Finset.disjoint_left]
    simp only [Finset.mem_filter, Finset.mem_univ, true_and, List.mem_toFinset]
    rintro block own ⟨-, zero⟩
    exact charted.ne_zero own zero
  rw [State.freeCount, ← List.toFinset_card_of_nodup (charted.nodup slot),
    ← Finset.card_union_of_disjoint apart]
  exact (Finset.card_le_univ _).trans (Fintype.card_fin diskBlocks).le

theorem Charted.freeCount_append {state after : State} {chart : Slot → List BlockIndex}
    {slot : Slot} {added : List BlockIndex} (charted : Charted state.fat state.dir chart)
    (tight : Tight state.fat chart)
    (grown : Charted after.fat after.dir (Function.update chart slot (chart slot ++ added)))
    (tight' : Tight after.fat (Function.update chart slot (chart slot ++ added))) :
    after.freeCount + added.length = state.freeCount := by
  have before := charted.freeCount_add tight
  have behind := grown.freeCount_add tight'
  rw [sum_length_append] at behind
  omega

end EC440.FileSystem
