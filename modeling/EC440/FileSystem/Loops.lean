import EC440.FileSystem.WellFormed

/-!
# The loops over the file allocation table

One lemma for each loop of `fs.c` says what it does on a chain of data blocks;
callers use these lemmas and never unfold a loop.
-/

namespace EC440.FileSystem

open Linked Outcome

variable {fat : Fat} {link : Int32} {blocks : List BlockIndex}

theorem ref_ne_neg_one (block : BlockIndex) : fatNaming.ref block ≠ -1 :=
  fatNaming.ref_ne_stop block

/-! ## Searching a free block -/

theorem findFree_spec (fat : Fat) {remaining : Nat} (start : Int) (nonneg : 0 ≤ start)
    (bound : start + remaining = diskBlocks) :
    ∃ index, findFree fat remaining start = .ok index ∧ start ≤ index ∧ index ≤ diskBlocks ∧
      (∀ block : BlockIndex, start ≤ block.val → block.val < index → fat block ≠ 0) ∧
      ∀ block : BlockIndex, block.val = index → fat block = 0 := by
  induction remaining generalizing start with
  | zero =>
      refine ⟨start, rfl, le_refl _, by omega, fun _ lower upper => by omega, ?_⟩
      intro block equality
      have := block.isLt
      omega
  | succ remaining inductionHypothesis =>
      obtain ⟨current, value⟩ : ∃ current : BlockIndex, start = current.val :=
        ⟨⟨start.toNat, by omega⟩, (Int.toNat_of_nonneg nonneg).symm⟩
      subst value
      by_cases zero : fat current = 0
      · refine ⟨current.val, ?_, le_refl _, by omega, fun _ lower upper => by omega, ?_⟩
        · simp [findFree, bind, Except.bind, zero]
        · intro block equality
          obtain rfl : block = current := Fin.ext (by exact_mod_cast equality)
          exact zero
      · obtain ⟨index, found, lower, upper, before, hit⟩ :=
          inductionHypothesis (current.val + 1) (by omega) (by push_cast at bound ⊢; omega)
        refine ⟨index, ?_, by omega, upper, ?_, hit⟩
        · simpa [findFree, bind, Except.bind, zero] using found
        · intro block blockLower blockUpper
          by_cases same : block = current
          · exact same ▸ zero
          · refine before block ?_ blockUpper
            have : block.val ≠ current.val := fun equality => same (Fin.ext equality)
            omega

/-- The search for a free block ends at the first free data block, or at `DISK_BLOCKS` when
there is none. -/
theorem firstFree_spec (fat : Fat) :
    (∃ block : BlockIndex, firstFree fat layout = .ok block.val ∧ dataStart ≤ block.val ∧
      fat block = 0 ∧
      ∀ earlier : BlockIndex, dataStart ≤ earlier.val → earlier < block → fat earlier ≠ 0) ∨
    firstFree fat layout = .ok diskBlocks ∧
      ∀ block : BlockIndex, dataStart ≤ block.val → fat block ≠ 0 := by
  have start : (dataStart : Int) + (diskBlocks - (dataStart : Int)).toNat = diskBlocks := by decide
  obtain ⟨index, found, lower, upper, before, hit⟩ :=
    findFree_spec fat dataStart (by decide) start
  have search : firstFree fat layout = .ok index := by
    rw [firstFree, layout_dataIdx]
    exact found
  by_cases full : index = diskBlocks
  · subst full
    exact .inr ⟨search, fun block data => before block (by exact_mod_cast data)
      (by exact_mod_cast block.isLt)⟩
  · left
    obtain ⟨block, rfl⟩ : ∃ block : BlockIndex, index = block.val :=
      ⟨⟨index.toNat, by omega⟩, (Int.toNat_of_nonneg (by omega)).symm⟩
    refine ⟨block, search, by exact_mod_cast lower, hit block rfl, ?_⟩
    intro earlier data less
    exact before earlier (by exact_mod_cast data) (by exact_mod_cast less)

/-! ## Appending blocks -/

def freeBlocks (fat : Fat) : Finset BlockIndex :=
  Finset.univ.filter fun block => dataStart ≤ block.val ∧ fat block = 0

@[simp]
theorem mem_freeBlocks {block : BlockIndex} :
    block ∈ freeBlocks fat ↔ dataStart ≤ block.val ∧ fat block = 0 := by
  simp [freeBlocks]

/-- Only blocks in front of all other free ones are taken. -/
def FirstFit (fat : Fat) (taken : List BlockIndex) : Prop :=
  ∀ block ∈ freeBlocks fat, block ∉ taken → ∀ other ∈ taken, other < block

theorem firstFit_singleton {fresh : BlockIndex}
    (first : ∀ earlier : BlockIndex, dataStart ≤ earlier.val → earlier < fresh → fat earlier ≠ 0) :
    FirstFit fat [fresh] := by
  intro block isFree absent other membership
  obtain rfl := List.mem_singleton.mp membership
  obtain ⟨data, zero⟩ := mem_freeBlocks.mp isFree
  rcases lt_trichotomy block other with before | same | behind
  · exact absurd zero (first block data before)
  · exact absurd (List.mem_singleton.mpr same) absent
  · exact behind

theorem freeBlocks_append {last fresh : BlockIndex} (ended : fat last = -1)
    (free : fresh ∈ freeBlocks fat) :
    freeBlocks (Function.update (Function.update fat last (fatNaming.ref fresh)) fresh (-1)) =
      (freeBlocks fat).erase fresh := by
  ext block
  simp only [mem_freeBlocks, Finset.mem_erase]
  by_cases isFresh : block = fresh
  · subst isFresh
    simp
  · rw [Function.update_of_ne isFresh]
    by_cases isLast : block = last
    · subst isLast
      have nonzero := ref_ne_zero (mem_freeBlocks.mp free).1
      simp [ended, nonzero]
    · rw [Function.update_of_ne isLast]
      simp [isFresh]

/-- While the current block has a successor the loop does nothing at all. -/
theorem extendChain_of_linked {block : BlockIndex} (linked : fat block ≠ -1) (remaining : Nat) :
    extendChain layout remaining fat block.val = .ok fat := by
  induction remaining with
  | zero => rfl
  | succ remaining inductionHypothesis =>
      simpa [extendChain, bind, Except.bind, linked] using inductionHypothesis

/-- From the last block of a chain the loop appends one free block per iteration, as long as
there are free blocks. -/
theorem extendChain_of_last {first : List BlockIndex} {last : BlockIndex} (remaining : Nat)
    (chain : FatChain fat link (first ++ [last]))
    (nonzero : ∀ block ∈ first ++ [last], fat block ≠ 0) :
    ∃ added fat', extendChain layout remaining fat last.val = .ok fat' ∧
      FatChain fat' link (first ++ last :: added) ∧
      added.length = min remaining (freeBlocks fat).card ∧
      (∀ block ∈ added, block ∈ freeBlocks fat) ∧ FirstFit fat added ∧
      ∀ block, block ≠ last → block ∉ added → fat' block = fat block := by
  induction remaining generalizing fat first last with
  | zero =>
      exact ⟨[], fat, rfl, chain, by simp, by simp, by simp [FirstFit], fun _ _ _ => rfl⟩
  | succ remaining inductionHypothesis =>
      have ended : fat last = -1 := chain.next_last
      rcases firstFree_spec fat with ⟨fresh, found, data, zero, earlier⟩ | ⟨found, full⟩
      · have free : fresh ∈ freeBlocks fat := mem_freeBlocks.mpr ⟨data, zero⟩
        have new : fresh ∉ first ++ [last] := fun membership => nonzero fresh membership zero
        have notFull : (fresh.val : Int) ≠ diskBlocks := by
          have := fresh.isLt
          omega
        have extended := chain.snoc new
        have extendedNonzero : ∀ block ∈ (first ++ [last]) ++ [fresh],
            Function.update (Function.update fat last (fatNaming.ref fresh)) fresh fatNaming.stop
              block ≠ 0 := by
          intro block membership
          by_cases isFresh : block = fresh
          · subst isFresh
            simp
          · rw [Function.update_of_ne isFresh]
            by_cases isLast : block = last
            · subst isLast
              rw [Function.update_self]
              exact ref_ne_zero data
            · rw [Function.update_of_ne isLast]
              exact nonzero block (by simpa [isFresh] using membership)
        rw [show first ++ [last, fresh] = (first ++ [last]) ++ [fresh] by simp] at extended
        obtain ⟨added, fat', done, chain', length, taken, firstFit, frame⟩ :=
          inductionHypothesis extended extendedNonzero
        rw [fatNaming_stop, freeBlocks_append ended free, Finset.card_erase_of_mem free] at length
        rw [fatNaming_stop, freeBlocks_append ended free] at taken
        rw [FirstFit, fatNaming_stop, freeBlocks_append ended free] at firstFit
        have positive : 0 < (freeBlocks fat).card := Finset.card_pos.mpr ⟨fresh, free⟩
        refine ⟨fresh :: added, fat', ?_, by simpa using chain', by simp; omega, ?_, ?_, ?_⟩
        · have stored : Int32.ofInt fresh.val = fatNaming.ref fresh := rfl
          simpa [extendChain, bind, Except.bind, ended, found, notFull, stored] using done
        · intro block membership
          rcases List.mem_cons.mp membership with rfl | inAdded
          · exact free
          · exact Finset.mem_of_mem_erase (taken block inAdded)
        · intro block isFree absent other membership
          rw [List.mem_cons, not_or] at absent
          rcases List.mem_cons.mp membership with rfl | inAdded
          · exact firstFit_singleton earlier block isFree (by simpa using absent.1) other
              List.mem_cons_self
          · exact firstFit block (Finset.mem_erase.mpr ⟨absent.1, isFree⟩) absent.2 other inAdded
        · intro block notLast notAdded
          rw [List.mem_cons, not_or] at notAdded
          rw [frame block notAdded.1 notAdded.2, Function.update_of_ne notAdded.1,
            Function.update_of_ne notLast]
      · have none : freeBlocks fat = ∅ := by
          ext block
          simp only [mem_freeBlocks, Finset.notMem_empty, iff_false, not_and]
          exact full block
        obtain ⟨added, fat', done, chain', length, taken, firstFit, frame⟩ :=
          inductionHypothesis chain nonzero
        refine ⟨added, fat', ?_, chain', by simp [none] at length ⊢; exact length, taken,
          firstFit, frame⟩
        simpa [extendChain, bind, Except.bind, ended, found] using done

/-! ## Freeing blocks -/

/-- `fat` with the entries of some blocks set to 0. -/
def release (fat : Fat) (blocks : List BlockIndex) : Fat := fun block =>
  if block ∈ blocks then 0 else fat block

theorem release_cons {block : BlockIndex} {rest : List BlockIndex} :
    release (Function.update fat block 0) rest = release fat (block :: rest) := by
  funext other
  by_cases same : other = block
  · simp [release, same]
  · simp [release, same, Function.update_of_ne]

theorem release_of_notMem {block : BlockIndex} (absent : block ∉ blocks) :
    release fat blocks block = fat block := if_neg absent

theorem release_of_mem {block : BlockIndex} (present : block ∈ blocks) :
    release fat blocks block = 0 := if_pos present

/-- The loop of `fs_delete` frees a whole chain that does not come to block 0, whose number
stops it. -/
theorem freeChain_spec (fuel : Nat) {first : BlockIndex} {rest : List BlockIndex}
    (chain : FatChain fat (fatNaming.ref first) (first :: rest))
    (nonzero : 0 ∉ rest) (enough : rest.length < fuel) :
    freeChain fuel fat first.val = .ok (true, release fat (first :: rest)) := by
  induction rest generalizing fat first fuel with
  | nil =>
      obtain ⟨fuel, rfl⟩ := Nat.exists_eq_succ_of_ne_zero (Nat.ne_zero_of_lt enough)
      have ended : fat first = -1 := Chain.nil_iff.mp (Chain.cons_iff.mp chain).2
      have single : Function.update fat first 0 = release fat [first] := by
        rw [← release_cons]
        funext block
        simp [release]
      simp [freeChain, bind, Except.bind, ended, single]
  | cons second rest inductionHypothesis =>
      obtain ⟨fuel, rfl⟩ := Nat.exists_eq_succ_of_ne_zero (Nat.ne_zero_of_lt enough)
      have tail := (Chain.cons_iff.mp chain).2
      have linked : fat first = fatNaming.ref second := (Chain.cons_iff.mp tail).1
      have nodup := chain.nodup
      have kept : FatChain (Function.update fat first 0) (fatNaming.ref second) (second :: rest) := by
        rw [← linked]
        exact tail.update_of_notMem 0 (List.nodup_cons.mp nodup).1
      rw [List.mem_cons, not_or] at nonzero
      have freed := inductionHypothesis fuel kept nonzero.2 (by simpa using enough)
      rw [release_cons] at freed
      have continues : fatNaming.ref second ≠ 0 := mt ref_eq_zero_iff.mp (Ne.symm nonzero.1)
      simpa [freeChain, bind, Except.bind, linked, continues, ref_ne_neg_one] using freed

/-- When the loop of `fs_delete` reaches an end, it has walked along such a chain. -/
theorem chain_of_freeChain {fuel : Nat} {index : Int} {fat' : Fat}
    (done : freeChain fuel fat index = .ok (true, fat')) :
    ∃ (first : BlockIndex) (rest : List BlockIndex), index = first.val ∧
      FatChain fat (fatNaming.ref first) (first :: rest) ∧ 0 ∉ rest := by
  induction fuel generalizing fat index with
  | zero => cases done
  | succ fuel inductionHypothesis =>
      rw [freeChain] at done
      obtain ⟨next, read, done⟩ := bind_eq_ok_iff.mp done
      obtain ⟨first, rfl, rfl⟩ := readFat_eq_ok_iff.mp read
      refine ⟨first, ?_⟩
      split at done
      next ended =>
        refine ⟨[], rfl, .cons ?_, List.not_mem_nil⟩
        rw [ended]
        exact .stop
      next linked =>
        split at done
        next => cases done
        next continues =>
          simp only [writeFat_val, bind, Except.bind] at done
          obtain ⟨second, rest, number, chain, nonzero⟩ := inductionHypothesis done
          have linked : fat first = fatNaming.ref second := by
            rw [← Int32.toInt_inj, toInt_ref]
            exact number
          have distinct : second ≠ 0 := by
            rintro rfl
            exact continues linked
          have apart : first ∉ second :: rest := by
            intro membership
            obtain ⟨before, behind, listed⟩ := List.append_of_mem membership
            rw [listed] at chain
            -- the entry of `first` is 0 by now, so that the walk would come to block 0
            have suffix := chain.suffix
            rw [Function.update_self, ← ref_eq_zero_iff.mpr rfl] at suffix
            obtain ⟨behind, rfl, -⟩ := Chain.ref_iff.mp suffix
            cases before with
            | nil =>
                cases listed
                exact nonzero List.mem_cons_self
            | cons head before =>
                cases listed
                exact nonzero (List.mem_append_right _ (by simp))
          refine ⟨second :: rest, rfl, .cons ?_, ?_⟩
          · rw [linked]
            have restored := chain.update_of_notMem (fat first) apart
            rwa [Function.update_idem, Function.update_eq_self] at restored
          · rw [List.mem_cons, not_or]
            exact ⟨distinct.symm, nonzero⟩

/-! ## Walking to a block -/

/-- `advance` moves along the chain and leaves `FAT` when it is asked to go past its end. -/
theorem advance_spec (chain : FatChain fat link blocks) (steps : Nat) :
    (steps ≤ blocks.length ∧
      ∃ target, advance fat steps link = .ok target ∧ FatChain fat target (blocks.drop steps)) ∨
    blocks.length < steps ∧ advance fat steps link = .error (.outOfRange .fat (-1)) := by
  induction steps generalizing link blocks with
  | zero => exact .inl ⟨Nat.zero_le _, link, rfl, chain⟩
  | succ steps inductionHypothesis =>
      cases chain with
      | stop =>
          right
          refine ⟨by simp, ?_⟩
          have outside : readFat fat (-1) = .error (.outOfRange .fat (-1)) := rfl
          simp [advance, bind, Except.bind, fatNaming_stop, outside]
      | @cons block rest tail =>
          have moved : advance fat (steps + 1) (fatNaming.ref block) =
              advance fat steps (fat block) := by
            simp [advance, bind, Except.bind]
          rw [moved]
          rcases inductionHypothesis tail with ⟨bound, target, done, dropped⟩ | ⟨bound, stopped⟩
          · exact .inl ⟨by simpa using bound, target, done, by simpa using dropped⟩
          · exact .inr ⟨by simpa using bound, stopped⟩

/-! ## Exchanging blocks with the disk -/

@[simp]
theorem blockRead_val {device : Device} (active : device.active = true) (block : BlockIndex) :
    device.blockRead block.val = some (device.image block) := by
  rw [Device.blockRead, if_pos active, blockIndex?_val, Option.map_some]

@[simp]
theorem blockWrite_val {device : Device} (active : device.active = true) (block : BlockIndex)
    (content : Block) : device.blockWrite block.val content =
      some { device with image := Function.update device.image block content } := by
  rw [Device.blockWrite, if_pos active, blockIndex?_val, Option.map_some]

/-- The buffer after the blocks have been read into it, from the `index`-th block on. -/
def loadBlocks (image : BlockIndex → Block) : List BlockIndex → Nat → Buffer → Buffer
  | [], _, buffer => buffer
  | block :: rest, index, buffer =>
      loadBlocks image rest (index + 1) (buffer.load (index * blockSize) (image block))

/-- The disk after the blocks have been written from a buffer, from its `index`-th block on. -/
def storeBlocks (buffer : Buffer) : List BlockIndex → Nat → (BlockIndex → Block) → BlockIndex → Block
  | [], _, image => image
  | block :: rest, index, image =>
      storeBlocks buffer rest (index + 1)
        (Function.update image block (buffer.blockAt (index * blockSize)))

/-- A chain fits behind position `index` of a buffer, or the run survives that it does not. -/
def Fits (tolerance : Tolerance) (capacity : Int) (index length : Nat) : Prop :=
  length = 0 ∨ (index + length : Int) ≤ capacity ∨ tolerance .heap = true

instance (tolerance : Tolerance) (capacity : Int) (index length : Nat) :
    Decidable (Fits tolerance capacity index length) :=
  inferInstanceAs (Decidable (_ ∨ _ ∨ _))

theorem fits_succ {tolerance : Tolerance} {capacity : Int} {index length : Nat} :
    Fits tolerance capacity index (length + 1) ↔
      ¬((index : Int) ≥ capacity ∧ tolerance .heap = false) ∧
        Fits tolerance capacity (index + 1) length := by
  unfold Fits
  cases tolerance .heap <;> simp
  omega

theorem loadChain_eq (tolerance : Tolerance) {device : Device} (capacity : Int)
    (active : device.active = true) (chain : FatChain fat link blocks) (fuel index : Nat)
    (buffer : Buffer) (enough : blocks.length < fuel) :
    loadChain tolerance device fat capacity fuel link index buffer =
      if Fits tolerance capacity index blocks.length then
        .ok (some (loadBlocks device.image blocks index buffer))
      else .error (.stray .heap) := by
  induction chain generalizing fuel index buffer with
  | stop =>
      obtain ⟨fuel, rfl⟩ := Nat.exists_eq_succ_of_ne_zero (Nat.ne_zero_of_lt enough)
      simp [loadChain, loadBlocks, Fits]
  | @cons block rest tail inductionHypothesis =>
      obtain ⟨fuel, rfl⟩ := Nat.exists_eq_succ_of_ne_zero (Nat.ne_zero_of_lt enough)
      have next := inductionHypothesis fuel (index + 1)
        (buffer.load (index * blockSize) (device.image block)) (by simpa using enough)
      simp only [loadChain, if_neg (ref_ne_neg_one block), toInt_ref, blockRead_val active,
        readFat_val, List.length_cons, fits_succ, loadBlocks]
      by_cases beyond : (index : Int) ≥ capacity
      · cases allowed : tolerance .heap <;>
          simp [bind, Except.bind, tolerate, beyond, allowed, next]
      · simp [bind, Except.bind, beyond, next]

theorem storeChain_eq (tolerance : Tolerance) (capacity : Int) (buffer : Buffer)
    (chain : FatChain fat link blocks) (fuel index : Nat) (device : Device)
    (active : device.active = true) (enough : blocks.length < fuel) :
    storeChain tolerance fat capacity buffer fuel device link index =
      if Fits tolerance capacity index blocks.length then
        .ok (true, { device with image := storeBlocks buffer blocks index device.image })
      else .error (.stray .heap) := by
  induction chain generalizing fuel index device with
  | stop =>
      obtain ⟨fuel, rfl⟩ := Nat.exists_eq_succ_of_ne_zero (Nat.ne_zero_of_lt enough)
      simp [storeChain, storeBlocks, Fits]
  | @cons block rest tail inductionHypothesis =>
      obtain ⟨fuel, rfl⟩ := Nat.exists_eq_succ_of_ne_zero (Nat.ne_zero_of_lt enough)
      have next := inductionHypothesis fuel (index + 1)
        { device with
          image := Function.update device.image block (buffer.blockAt (index * blockSize)) }
        active (by simpa using enough)
      simp only [storeChain, if_neg (ref_ne_neg_one block), toInt_ref, blockWrite_val active,
        readFat_val, List.length_cons, fits_succ, storeBlocks]
      by_cases beyond : (index : Int) ≥ capacity
      · cases allowed : tolerance .heap <;>
          simp [bind, Except.bind, tolerate, beyond, allowed, next]
      · simp [bind, Except.bind, beyond, next]

/-- `fs_truncate` overwrites and frees all blocks of the tail. -/
theorem freeTail_eq (content : Block) (chain : FatChain fat link blocks) (fuel : Nat)
    (device : Device) (active : device.active = true) (enough : blocks.length < fuel) :
    freeTail content fuel device fat link =
      .ok (true, { device with
        image := fun block => if block ∈ blocks then content else device.image block },
        release fat blocks) := by
  induction blocks generalizing fuel link fat device with
  | nil =>
      obtain ⟨fuel, rfl⟩ := Nat.exists_eq_succ_of_ne_zero (Nat.ne_zero_of_lt enough)
      have ended : link = -1 := Chain.nil_iff.mp chain
      simp only [freeTail, if_pos ended]
      congr
  | cons block rest inductionHypothesis =>
      obtain ⟨fuel, rfl⟩ := Nat.exists_eq_succ_of_ne_zero (Nat.ne_zero_of_lt enough)
      obtain ⟨rfl, tail⟩ := Chain.cons_iff.mp chain
      have kept := tail.update_of_notMem 0 (List.nodup_cons.mp chain.nodup).1
      have freed := inductionHypothesis kept fuel
        { device with image := Function.update device.image block content }
        active (by simpa using enough)
      rw [release_cons] at freed
      have image : (fun other => if other ∈ rest then content
            else Function.update device.image block content other) =
          fun other => if other ∈ block :: rest then content else device.image other := by
        funext other
        by_cases same : other = block <;> by_cases inRest : other ∈ rest <;>
          simp [same, inRest]
      simp only [freeTail, if_neg (ref_ne_neg_one block), toInt_ref, blockWrite_val active,
        readFat_val, writeFat_val, bind, Except.bind, freed, image]

end EC440.FileSystem
