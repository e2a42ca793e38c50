import EC440.FileSystem.Formatting

/-!
# Isolation between files

A call acts on at most one used entry: `fs_delete` on the entry with the given
name, `fs_write` and `fs_truncate` on the entry that the descriptor denotes.
All other used entries keep their name, size, head, chain and content, and the
metadata blocks of the disk are never written.
-/

namespace EC440.FileSystem

open Linked Outcome

variable {tolerance : Tolerance} {state after : State} {chart chart' : Slot → List BlockIndex}
  {call : Call} {code : Int32}

/-- The used entry whose file a call changes. -/
def ActsOn (state : State) : Call → Slot → Prop
  | .delete name, slot => (state.dir slot).name.Matches name
  | .write fildesI _ _, slot | .truncate fildesI _, slot =>
      ∃ descriptor : Descriptor, fildesI = descriptor.val ∧ Denotes state descriptor slot
  | _, _ => False

/-- An entry and its file are the same in two states. -/
structure Kept (before after : State) (slot : Slot) : Prop where
  used : (after.dir slot).used = (before.dir slot).used
  name : (after.dir slot).name = (before.dir slot).name
  size : (after.dir slot).size = (before.dir slot).size
  head : (after.dir slot).head = (before.dir slot).head
  chain : after.chain? slot = before.chain? slot
  content : ∀ block ∈ before.chain slot, after.device.image block = before.device.image block

namespace Kept

theorem refl (state : State) (slot : Slot) : Kept state state slot :=
  ⟨rfl, rfl, rfl, rfl, rfl, fun _ _ => rfl⟩

theorem chain_eq {before after : State} {slot : Slot} (kept : Kept before after slot) :
    after.chain slot = before.chain slot := by
  rw [State.chain, State.chain, kept.chain]

theorem isUsed {before after : State} {slot : Slot} (kept : Kept before after slot)
    (used : before.Used slot) : after.Used slot := by
  rwa [State.Used, kept.used]

theorem trans {first second third : State} {slot : Slot} (kept : Kept first second slot)
    (kept' : Kept second third slot) : Kept first third slot where
  used := kept'.used.trans kept.used
  name := kept'.name.trans kept.name
  size := kept'.size.trans kept.size
  head := kept'.head.trans kept.head
  chain := kept'.chain.trans kept.chain
  content block membership :=
    (kept'.content block (kept.chain_eq ▸ membership)).trans (kept.content block membership)

theorem of_chart (sound : Sound state chart) (sound' : Sound after chart') {slot : Slot}
    (used : state.Used slot) (entry : (after.dir slot).used = (state.dir slot).used ∧
      (after.dir slot).name = (state.dir slot).name ∧
      (after.dir slot).size = (state.dir slot).size ∧
      (after.dir slot).head = (state.dir slot).head)
    (same : chart' slot = chart slot)
    (content : ∀ block ∈ chart slot, after.device.image block = state.device.image block) :
    Kept state after slot where
  used := entry.1
  name := entry.2.1
  size := entry.2.2.1
  head := entry.2.2.2
  chain := by
    have used' : after.Used slot := by rwa [State.Used, entry.1]
    rw [chain?_eq_some_iff.mpr (sound.charted.chain slot used),
      chain?_eq_some_iff.mpr (sound'.charted.chain slot used'), same]
  content block membership := content block (sound.charted.chain_eq used ▸ membership)

end Kept

theorem storeBlocks_of_notMem {buffer : Buffer} {blocks : List BlockIndex} {index : Nat}
    {image : BlockIndex → Block} {block : BlockIndex} (absent : block ∉ blocks) :
    storeBlocks buffer blocks index image block = image block := by
  induction blocks generalizing index image with
  | nil => rfl
  | cons first rest inductionHypothesis =>
      rw [List.mem_cons, not_or] at absent
      rw [storeBlocks, inductionHypothesis absent.2, Function.update_of_ne absent.1]

theorem Effect.image_eq (effect : Effect state chart call code after chart') {block : BlockIndex}
    (outside : ∀ slot, ActsOn state call slot → block ∉ chart slot)
    (used : block ∉ freeBlocks state.fat) :
    after.device.image block = state.device.image block := by
  cases effect with
  | idle | created | opened | closed | deleted | sought | read => rfl
  | written garbage denotes extended length =>
      refine storeBlocks_of_notMem fun membership => ?_
      rcases List.mem_append.mp membership with own | inAdded
      · exact outside _ ⟨_, rfl, denotes⟩ own
      · exact used (extended.free block inAdded)
  | @truncated slot descriptor length kept tail last junk content offset denotes split =>
      have absent := outside slot ⟨descriptor, rfl, denotes⟩
      rw [split] at absent
      simp only [List.mem_append, List.mem_cons, not_or] at absent
      simp [State.truncated, absent.2.1, absent.2.2]

theorem Effect.entry_eq (effect : Effect state chart call code after chart') {slot : Slot}
    (used : state.Used slot)
    (distinct : ¬ActsOn state call slot) :
    ((after.dir slot).used = (state.dir slot).used ∧
      (after.dir slot).name = (state.dir slot).name ∧
      (after.dir slot).size = (state.dir slot).size ∧
      (after.dir slot).head = (state.dir slot).head) ∧ chart' slot = chart slot := by
  cases effect with
  | idle | sought | read => exact ⟨⟨rfl, rfl, rfl, rfl⟩, rfl⟩
  | @created target _ _ unused =>
      have other : slot ≠ target := fun same => unused (same ▸ used)
      simp [State.created, other]
  | @opened target descriptor =>
      by_cases same : slot = target
      · subst same
        simp [State.opened, State.relink]
      · simp [State.opened, State.relink, same]
  | @closed target descriptor =>
      by_cases same : slot = target
      · subst same
        simp [State.closed, State.relink]
      · simp [State.closed, State.relink, same]
  | @deleted target _ _ named =>
      have other : slot ≠ target := fun same => distinct (same ▸ named)
      simp [State.deleted, other]
  | @written target descriptor _ _ _ _ _ denotes =>
      have other : slot ≠ target := fun same => distinct ⟨descriptor, rfl, same ▸ denotes⟩
      simp [State.written, State.stored, other]
  | @truncated target descriptor _ _ _ _ _ _ _ denotes =>
      have other : slot ≠ target := fun same => distinct ⟨descriptor, rfl, same ▸ denotes⟩
      simp [State.truncated, other]

theorem Effect.kept (sound : Sound state chart)
    (effect : Effect state chart call code after chart') {slot : Slot} (used : state.Used slot)
    (distinct : ¬ActsOn state call slot) : Kept state after slot := by
  obtain ⟨entry, same⟩ := effect.entry_eq used distinct
  refine .of_chart sound (effect.sound sound) used entry same fun block membership => ?_
  refine effect.image_eq ?_ fun free => ?_
  · intro acted acts own
    exact distinct (sound.charted.exclusive.unique own membership ▸ acts)
  · exact sound.charted.ne_zero membership (mem_freeBlocks.mp free).2

/-- No call writes to the super block, the directory or the FAT on the disk. -/
theorem Effect.metadata (sound : Sound state chart)
    (effect : Effect state chart call code after chart') {block : BlockIndex}
    (reserved : block.val < dataStart) :
    after.device.image block = state.device.image block := by
  refine effect.image_eq (fun slot _ own => ?_) fun free => ?_
  · exact absurd (sound.charted.data slot block own) (not_le.mpr reserved)
  · exact absurd (mem_freeBlocks.mp free).1 (not_le.mpr reserved)

/-- A run of calls that do not act on an entry keeps it. -/
theorem Session.kept {slot : Slot}
    (session : Session tolerance (fun state call => ¬ActsOn state call slot) state after)
    (sound : ∃ chart, Sound state chart) (used : state.Used slot) : Kept state after slot := by
  induction session with
  | refl => exact .refl state slot
  | @tail middle last run step inductionHypothesis =>
      obtain ⟨chart, sound⟩ := Session.sound run sound
      obtain ⟨garbage, call, code, distinct, done⟩ := step
      obtain ⟨chart', effect⟩ := exec_effect sound done
      exact inductionHypothesis.trans (effect.kept sound (inductionHypothesis.isUsed used) distinct)

theorem ActsOn.unique (sound : Sound state chart) {first second : Slot}
    (usedFirst : state.Used first) (usedSecond : state.Used second)
    (actsFirst : ActsOn state call first) (actsSecond : ActsOn state call second) :
    first = second := by
  cases call with
  | create | opens | close | read | lseek => exact actsFirst.elim
  | delete name =>
      exact sound.distinctNames first second usedFirst usedSecond (actsFirst.trans actsSecond.symm)
  | write | truncate =>
      obtain ⟨descriptor, rfl, denotesFirst⟩ := actsFirst
      obtain ⟨other, same, denotesSecond⟩ := actsSecond
      obtain rfl : descriptor = other := Fin.ext (by exact_mod_cast same)
      exact denotesFirst.unique sound denotesSecond

/-! ## The isolation theorem -/

/-- In every state of a session on a fresh file system, a call acts on one used entry at most,
keeps all others and writes no metadata block. -/
theorem isolation {start : State} {allowed : State → Call → Prop} (garbage : Nat → Buffer)
    (call : Call) (fresh : FreshMount tolerance start)
    (session : Session tolerance allowed start state)
    (done : exec tolerance garbage state call = .ok (code, after)) :
    (∀ first second, state.Used first → state.Used second → ActsOn state call first →
      ActsOn state call second → first = second) ∧
    (∀ slot, state.Used slot → ¬ActsOn state call slot → Kept state after slot) ∧
    ∀ block : BlockIndex, block.val < dataStart →
      after.device.image block = state.device.image block := by
  obtain ⟨chart, sound⟩ := session.sound fresh.start.sound
  obtain ⟨chart', effect⟩ := exec_effect sound done
  exact ⟨fun _ _ => ActsOn.unique sound, fun _ used distinct => effect.kept sound used distinct,
    fun _ reserved => effect.metadata sound reserved⟩

/-- Creating a second file keeps the first one. -/
theorem isolation_secondFile : ∃ start created after, FreshMount mountOnly start ∧
    fsCreate start fileName = .ok (0, created) ∧ created.Used 63 ∧
    fsCreate created ⟨[103], by decide⟩ = .ok (0, after) ∧ Kept created after 63 := by
  obtain ⟨start, fresh, dir, fat, fildes⟩ := exists_freshMount (by decide : mountOnly .fildesReset)
  obtain ⟨creates, -⟩ := firstFile mountOnly fresh.start.superBlock dir fat fildes
  have used : (start.created 63 10 fileName).Used 63 := by
    simp [State.Used, State.created]
  have session : Session mountOnly (fun _ _ => True) start (start.created 63 10 fileName) :=
    .single ⟨fun _ _ => 0, .create fileName, 0, trivial, creates⟩
  have second : fsCreate (start.created 63 10 fileName) ⟨[103], by decide⟩ =
      .ok (0, (start.created 63 10 fileName).created 62 11 ⟨[103], by decide⟩) := by
    have superBlock : (start.created 63 10 fileName).superBlock = .ok layout := by
      rw [State.superBlock]
      simp only [State.created, fresh.start.superBlock]
    have scanned : createScan (start.created 63 10 fileName).dir ⟨[103], by decide⟩
        (List.finRange maxFNum) none = some (some 62) := by
      simp only [State.created, dir]
      rfl
    have free : firstFree (start.created 63 10 fileName).fat layout =
        .ok ((11 : BlockIndex).val : Nat) := by
      simp only [State.created, fat]
      rfl
    unfold fsCreate
    rw [if_neg (by decide)]
    simp only [scanned, superBlock, bind, Except.bind, free, writeFat_val]
    rfl
  exact ⟨start, _, _, fresh, creates, used, second,
    (isolation (fun _ _ => 0) (.create _) fresh session second).2.1 63 used id⟩

end EC440.FileSystem
