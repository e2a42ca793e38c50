import EC440.FileSystem.Calls

/-!
# Creating and deleting files

`fs_create` turns an unused entry and a free block into an empty file,
`fs_delete` turns an entry without open descriptors into an unused one and
frees its chain.
-/

namespace EC440.FileSystem

open Linked Outcome

variable {tolerance : Tolerance} {state : State} {chart : Slot → List BlockIndex}

/-! ## fs_create -/

theorem createScan_eq_some {dir : Directory} {name : CString} {slots : List Slot}
    {unused : Option Slot} {slot : Slot}
    (found : createScan dir name slots unused = some (some slot)) :
    (∀ other ∈ slots, ¬(dir other).name.Matches name) ∧
      ((dir slot).used = 0 ∨ unused = some slot) := by
  induction slots generalizing unused with
  | nil =>
      simp only [createScan, Option.some.injEq] at found
      exact ⟨by simp, .inr found⟩
  | cons head rest inductionHypothesis =>
      by_cases hit : (dir head).name.Matches name
      · simp [createScan, hit] at found
      · simp only [createScan, if_neg hit] at found
        obtain ⟨others, origin⟩ := inductionHypothesis found
        refine ⟨by simpa [hit] using others, ?_⟩
        rcases origin with isUnused | chosen
        · exact .inl isUnused
        · split at chosen
          next isUnused =>
            cases chosen
            exact .inl isUnused
          next => exact .inr chosen

def State.created (state : State) (slot : Slot) (fresh : BlockIndex) (name : CString) : State :=
  { state with
    fat := Function.update state.fat fresh (-1)
    dir := Function.update state.dir slot
      { used := 1
        name := (state.dir slot).name.strcpy name
        size := 0
        head := fatNaming.ref fresh
        refCnt := 0 } }

theorem fsCreate_cases (sound : Sound state chart) (name : CString) :
    fsCreate state name = .ok (-1, state) ∨
    fsCreate state name = .error (.outOfRange .fat diskBlocks) ∨
    ∃ slot fresh, ¬state.Used slot ∧ name.bytes.length ≤ maxFName ∧
      (∀ other, ¬(state.dir other).name.Matches name) ∧ fresh ∈ freeBlocks state.fat ∧
      FirstFit state.fat [fresh] ∧
      fsCreate state name = .ok (0, state.created slot fresh name) := by
  unfold fsCreate
  by_cases long : name.bytes.length > 15
  · exact .inl (if_pos long)
  · rw [if_neg long]
    split
    next => exact .inl rfl
    next => exact .inl rfl
    next slot found =>
      right
      obtain ⟨others, origin⟩ := createScan_eq_some found
      have unused : ¬state.Used slot := by simpa [State.Used] using origin
      rw [sound.superBlock_eq]
      rcases firstFree_spec state.fat with ⟨fresh, search, data, zero, earlier⟩ | ⟨search, -⟩
      · right
        refine ⟨slot, fresh, unused, not_lt.mp long, fun other => others other (List.mem_finRange _),
          mem_freeBlocks.mpr ⟨data, zero⟩, firstFit_singleton earlier, ?_⟩
        simp only [bind, Except.bind, search, writeFat_val]
        rfl
      · left
        simp only [bind, Except.bind, search]
        rfl

theorem Sound.openCount_free (sound : Sound state chart) {fresh : BlockIndex}
    (free : fresh ∈ freeBlocks state.fat) : state.openCount (fatNaming.ref fresh) = 0 := by
  by_contra nonzero
  obtain ⟨descriptor, isOpen, file⟩ := openCount_pos_iff.mp (Nat.pos_of_ne_zero nonzero)
  obtain ⟨slot, used, head⟩ := sound.owned descriptor isOpen
  obtain ⟨first, rest, listed, named⟩ := sound.charted.head_eq used
  have same : first = fresh := fatNaming.ref_injective (named.symm.trans (head.trans file))
  have membership : fresh ∈ chart slot := by
    rw [listed, same]
    exact List.mem_cons_self
  exact sound.charted.ne_zero membership (mem_freeBlocks.mp free).2

theorem Charted.created (charted : Charted state.fat state.dir chart) {slot : Slot}
    {fresh : BlockIndex} {name : CString} (unused : ¬state.Used slot)
    (free : fresh ∈ freeBlocks state.fat) :
    Charted (state.created slot fresh name).fat (state.created slot fresh name).dir
      (Function.update chart slot [fresh]) := by
  have empty : chart slot = [] := charted.unused slot (by simpa [State.Used] using unused)
  refine charted.replace ?_ ?_ ?_ ?_ ?_ ?_
  · intro other distinct
    simp [State.created, distinct]
  · intro _
    refine ⟨?_, by simp⟩
    have ended : (state.created slot fresh name).fat fresh = fatNaming.stop := by
      simp [State.created]
    have head : ((state.created slot fresh name).dir slot).head = fatNaming.ref fresh := by
      simp [State.created]
    rw [head]
    exact .cons (ended ▸ .stop)
  · simp [State.created]
  · intro block membership
    obtain rfl := List.mem_singleton.mp membership
    exact .inr (mem_freeBlocks.mp free).symm
  · intro block _ outside
    exact Function.update_of_ne (by simpa using outside) _ _
  · intro block own
    rw [empty] at own
    cases own

theorem Sound.created (sound : Sound state chart) {slot : Slot} {fresh : BlockIndex}
    {name : CString} (unused : ¬state.Used slot) (short : name.bytes.length ≤ maxFName)
    (new : ∀ other, ¬(state.dir other).name.Matches name) (free : fresh ∈ freeBlocks state.fat) :
    Sound (state.created slot fresh name) (Function.update chart slot [fresh]) := by
  have entry : ((state.created slot fresh name).dir slot) =
      { used := 1, name := (state.dir slot).name.strcpy name, size := 0,
        head := fatNaming.ref fresh, refCnt := 0 } := by simp [State.created]
  have otherEntry : ∀ other, other ≠ slot →
      (state.created slot fresh name).dir other = state.dir other :=
    fun other distinct => by simp [State.created, distinct]
  have usedOther : ∀ other, other ≠ slot →
      ((state.created slot fresh name).Used other ↔ state.Used other) :=
    fun other distinct => by rw [State.Used, State.Used, otherEntry other distinct]
  have usedSlot : (state.created slot fresh name).Used slot := by
    rw [State.Used, entry]
    exact (by decide : (1 : Int32) ≠ 0)
  have ne_slot : ∀ other, ¬(state.created slot fresh name).Used other → other ≠ slot :=
    fun other notUsed same => notUsed (same ▸ usedSlot)
  have names : Distinguished (state.created slot fresh name).dir :=
    sound.distinguished.create (not_not.mp unused) (by decide : (1 : Int32) ≠ 0)
      (NameField.text_strcpy _ name short) new
  refine ⟨sound.active, sound.superBlock, sound.charted.created unused free,
    fun other notUsed => names.unused other (not_not.mp notUsed), ?_, ?_, names.nonempty,
    names.distinct, ?_, ?_⟩
  · intro other notUsed
    rw [otherEntry other (ne_slot other notUsed)]
    exact sound.unusedHead other (mt (usedOther other (ne_slot other notUsed)).mpr notUsed)
  · intro other notUsed
    rw [otherEntry other (ne_slot other notUsed)]
    exact sound.unusedCount other (mt (usedOther other (ne_slot other notUsed)).mpr notUsed)
  · intro other isUsed
    have count : ∀ head, (state.created slot fresh name).openCount head = state.openCount head :=
      openCount_congr fun _ => ⟨rfl, rfl⟩
    rw [count]
    by_cases same : other = slot
    · subst same
      rw [entry]
      change (0 : Int32) = Int32.ofNat (state.openCount (fatNaming.ref fresh))
      rw [sound.openCount_free free]
      rfl
    · rw [otherEntry other same]
      exact sound.counted other ((usedOther other same).mp isUsed)
  · intro descriptor isOpen
    obtain ⟨owner, isUsed, head⟩ := sound.owned descriptor isOpen
    have distinct : owner ≠ slot := fun same => unused (same ▸ isUsed)
    refine ⟨owner, (usedOther owner distinct).mpr isUsed, ?_⟩
    rw [otherEntry owner distinct]
    exact head

/-! ## fs_delete -/

def State.deleted (state : State) (slot : Slot) (blocks : List BlockIndex) : State :=
  { state with
    fat := release state.fat blocks
    dir := Function.update state.dir slot
      { state.dir slot with used := 0, name := (state.dir slot).name.clear, size := 0, head := 0 } }

theorem fsDelete_chain (tolerance : Tolerance) {name : CString} {slot : Slot} {first : BlockIndex}
    {rest : List BlockIndex}
    (found : (search fun slot => (state.dir slot).name.Matches name) = some slot)
    (unreferenced : ¬(state.dir slot).refCnt > 0) (named : (state.dir slot).head = fatNaming.ref first)
    (chain : FatChain state.fat (fatNaming.ref first) (first :: rest)) (nonzero : 0 ∉ rest) :
    fsDelete tolerance state name = .ok (0, state.deleted slot (first :: rest)) := by
  have short : rest.length < chainFuel := by
    have bound := chain.length_le_card
    rw [Fintype.card_fin, List.length_cons] at bound
    rw [chainFuel]
    omega
  have freed := freeChain_spec chainFuel chain nonzero short
  unfold fsDelete
  simp only [found, if_neg unreferenced]
  rw [named, toInt_ref]
  simp only [bind, Except.bind, freed, if_true]
  rfl

theorem fsDelete_used (tolerance : Tolerance) (sound : Sound state chart) {name : CString}
    {slot : Slot} (found : (search fun slot => (state.dir slot).name.Matches name) = some slot)
    (used : state.Used slot) (unreferenced : ¬(state.dir slot).refCnt > 0) :
    fsDelete tolerance state name = .ok (0, state.deleted slot (chart slot)) := by
  obtain ⟨first, rest, listed, named⟩ := sound.charted.head_eq used
  have chain := sound.charted.chain slot used
  have data := sound.charted.data slot
  rw [listed, named] at chain
  rw [listed] at data ⊢
  exact fsDelete_chain tolerance found unreferenced named chain
    (zero_notMem fun block inRest => data block (List.mem_cons_of_mem first inRest))

/-- A deleted entry has head 0, and block 0 is never linked. -/
theorem fsDelete_wiped (tolerance : Tolerance) (sound : Sound state chart) {name : CString}
    {slot : Slot} (found : (search fun slot => (state.dir slot).name.Matches name) = some slot)
    (unreferenced : ¬(state.dir slot).refCnt > 0) (zero : (state.dir slot).head = 0) :
    fsDelete tolerance state name = .ok (-1, state) := by
  have clear : state.fat 0 = 0 := sound.charted.reserved 0 (by decide)
  have read : readFat state.fat 0 = .ok 0 := by
    rw [← clear]
    exact readFat_val state.fat 0
  unfold fsDelete
  simp only [found, if_neg unreferenced, zero, Int32.toInt_zero, chainFuel, freeChain, bind,
    Except.bind, read]
  rfl

/-- The head of an entry that has never been used is no block. -/
theorem fsDelete_blank (tolerance : Tolerance) {name : CString} {slot : Slot}
    (found : (search fun slot => (state.dir slot).name.Matches name) = some slot)
    (unreferenced : ¬(state.dir slot).refCnt > 0) (blank : (state.dir slot).head = -1) :
    fsDelete tolerance state name = .error (.outOfRange .fat (-1)) := by
  unfold fsDelete
  simp only [found, if_neg unreferenced, blank, chainFuel, freeChain, bind, Except.bind]
  rfl

theorem fsDelete_cases (tolerance : Tolerance) (sound : Sound state chart) (name : CString) :
    fsDelete tolerance state name = .ok (-1, state) ∨
    fsDelete tolerance state name = .error (.stray .dirPeek) ∨
    fsDelete tolerance state name = .error (.outOfRange .fat (-1)) ∨
    ∃ slot, state.Used slot ∧ (state.dir slot).name.Matches name ∧
      state.openCount (state.dir slot).head = 0 ∧
      fsDelete tolerance state name = .ok (0, state.deleted slot (chart slot)) := by
  cases found : search fun slot => decide ((state.dir slot).name.Matches name) with
  | none =>
      unfold fsDelete
      simp only [found, tolerate_bind]
      cases tolerance .dirPeek <;> simp
  | some slot =>
      by_cases referenced : (state.dir slot).refCnt > 0
      · left
        unfold fsDelete
        simp only [found, if_pos referenced]
      · by_cases used : state.Used slot
        · refine .inr (.inr (.inr ⟨slot, used, of_decide_eq_true (search_eq_some found).1, ?_,
            fsDelete_used tolerance sound found used referenced⟩))
          by_contra nonzero
          obtain ⟨descriptor, isOpen, file⟩ := openCount_pos_iff.mp (Nat.pos_of_ne_zero nonzero)
          exact referenced (sound.refCnt_pos used isOpen file)
        · rcases sound.unusedHead slot used with zero | blank
          · exact .inl (fsDelete_wiped tolerance sound found referenced zero)
          · exact .inr (.inr (.inl (fsDelete_blank tolerance found referenced blank)))

theorem Charted.deleted (charted : Charted state.fat state.dir chart) (slot : Slot) :
    Charted (state.deleted slot (chart slot)).fat (state.deleted slot (chart slot)).dir
      (Function.update chart slot []) := by
  refine charted.replace ?_ ?_ ?_ ?_ ?_ ?_
  · intro other distinct
    simp [State.deleted, distinct]
  · intro used
    simp [State.deleted] at used
  · intro _
    rfl
  · simp
  · intro block absent _
    exact release_of_notMem absent
  · intro block own _
    exact release_of_mem own

theorem Tight.deleted (tight : Tight state.fat chart) (slot : Slot) :
    Tight (state.deleted slot (chart slot)).fat (Function.update chart slot []) := by
  refine tight.replace ?_ ?_
  · intro block absent _
    exact release_of_notMem absent
  · intro block own _
    exact release_of_mem own

theorem Sound.deleted (sound : Sound state chart) {slot : Slot} (used : state.Used slot)
    (unreferenced : state.openCount (state.dir slot).head = 0) :
    Sound (state.deleted slot (chart slot)) (Function.update chart slot []) := by
  have entry : (state.deleted slot (chart slot)).dir slot =
      { state.dir slot with
        used := 0, name := (state.dir slot).name.clear, size := 0, head := 0 } := by
    simp [State.deleted]
  have otherEntry : ∀ other, other ≠ slot →
      (state.deleted slot (chart slot)).dir other = state.dir other :=
    fun other distinct => by simp [State.deleted, distinct]
  have usedOther : ∀ other, other ≠ slot →
      ((state.deleted slot (chart slot)).Used other ↔ state.Used other) :=
    fun other distinct => by rw [State.Used, State.Used, otherEntry other distinct]
  have ne_slot : ∀ other, (state.deleted slot (chart slot)).Used other → other ≠ slot := by
    rintro other isUsed rfl
    exact isUsed (by rw [entry])
  have names : Distinguished (state.deleted slot (chart slot)).dir :=
    sound.distinguished.wipe rfl (NameField.text_clear _)
  refine ⟨sound.active, sound.superBlock, sound.charted.deleted slot,
    fun other notUsed => names.unused other (not_not.mp notUsed), ?_, ?_, names.nonempty,
    names.distinct, ?_, ?_⟩
  · intro other notUsed
    by_cases same : other = slot
    · subst same
      rw [entry]
      exact .inl rfl
    · rw [otherEntry other same]
      exact sound.unusedHead other (mt (usedOther other same).mpr notUsed)
  · intro other notUsed
    by_cases same : other = slot
    · subst same
      rw [entry]
      change (state.dir other).refCnt = 0
      rw [sound.counted other used, unreferenced]
      rfl
    · rw [otherEntry other same]
      exact sound.unusedCount other (mt (usedOther other same).mpr notUsed)
  · intro other isUsed
    have distinct := ne_slot other isUsed
    have count : ∀ head, (state.deleted slot (chart slot)).openCount head = state.openCount head :=
      openCount_congr fun _ => ⟨rfl, rfl⟩
    rw [count, otherEntry other distinct]
    exact sound.counted other ((usedOther other distinct).mp isUsed)
  · intro descriptor isOpen
    obtain ⟨owner, isUsed, head⟩ := sound.owned descriptor isOpen
    have distinct : owner ≠ slot := by
      rintro rfl
      have positive : 0 < state.openCount (state.dir owner).head :=
        openCount_pos_iff.mpr ⟨descriptor, isOpen, head.symm⟩
      omega
    refine ⟨owner, (usedOther owner distinct).mpr isUsed, ?_⟩
    rw [otherEntry owner distinct]
    exact head

end EC440.FileSystem
