import EC440.FileSystem.Refinement
import Mathlib.Algebra.BigOperators.Finprod

/-!
# Blocks counted on the store

A file never takes more blocks than its length asks for, so that a program can
be judged on the store alone: if there its requests stay within a quota of
blocks, the code provides for all of them.
-/

namespace EC440.FileSystem

open Linked Outcome Ranges

variable {tolerance : Tolerance} {state start : State} {chart : Slot → List BlockIndex}
  {store : Store} {slot : Slot} {descriptor : Descriptor}

def blocksOf (content : List UInt8) : Nat := content.length / blockSize + 1

def dataBlocks : Nat := diskBlocks - dataStart

namespace Store

noncomputable def blocks (store : Store) : Nat :=
  ∑ᶠ name, (store.files name).elim 0 blocksOf

/-- A request that the code provides for in every state that stands for the store. -/
def Affords (store : Store) : Request → Prop
  | .create name => store.Admits name.bytes → store.blocks < dataBlocks
  | .opens _ => True
  | .close fildesI | .lseek fildesI _ | .getFilesize fildesI =>
      ∃ descriptor : Descriptor, fildesI = descriptor.val
  | .delete name => name.bytes ≠ []
  | .read fildesI nbyte => ∃ descriptor : Descriptor, fildesI = descriptor.val ∧
      ∀ held : store.Held, held.descriptor = descriptor →
        held.handle.position + nbyte.toNat ≤ blockSize * blocksOf held.content
  | .write fildesI _ nbyte => ∃ descriptor : Descriptor, fildesI = descriptor.val ∧
      ∀ held : store.Held, held.descriptor = descriptor →
        held.handle.position + nbyte.toNat < 2 ^ 64 ∧
        (min (held.handle.position + nbyte.toNat) maxFSize ≤ held.content.length ∨
          held.content.length < blockSize ∧
          store.blocks + min (held.handle.position + nbyte.toNat) maxFSize / blockSize ≤ dataBlocks)

def AffordsAll : Store → List Request → Prop
  | _, [] => True
  | store, request :: rest => store.Affords request ∧ (store.respond request).2.AffordsAll rest

end Store

theorem StandsFor.blocks_eq (stands : StandsFor state store) (sound : Sound state chart) :
    store.blocks = ∑ slot with state.Used slot, blocksOf (state.content slot) := by
  have support : Function.support (fun name => (store.files name).elim 0 blocksOf) ⊆
      ((Finset.univ.filter state.Used).image fun slot => (state.dir slot).name.text) := by
    intro name counted
    cases found : store.files name with
    | none =>
        rw [Function.mem_support, found] at counted
        exact absurd rfl counted
    | some content =>
        obtain ⟨slot, used, named, -⟩ := (stands.files name content).mp found
        rw [Finset.mem_coe, Finset.mem_image]
        exact ⟨slot, Finset.mem_filter.mpr ⟨Finset.mem_univ slot, used⟩, named⟩
  rw [Store.blocks, finsum_eq_sum_of_support_subset _ support, Finset.sum_image]
  · refine Finset.sum_congr rfl fun slot membership => ?_
    rw [stands.files_eq (Finset.mem_filter.mp membership).2]
    rfl
  · intro first usedFirst second usedSecond same
    exact sound.distinctNames first second (Finset.mem_filter.mp usedFirst).2
      (Finset.mem_filter.mp usedSecond).2 same

theorem Intact.blocksOf_eq (intact : Intact state chart) (used : state.Used slot) :
    (blocksOf (state.content slot) : Int) = (state.dir slot).size.toInt / blockSize + 1 := by
  rw [← intact.length_content used, blocksOf]
  push_cast
  rfl

/-- The blocks that the store does not count are free. -/
theorem StandsFor.dataBlocks_le (stands : StandsFor state store) (intact : Intact state chart) :
    dataBlocks ≤ state.freeCount + store.blocks := by
  rw [dataBlocks, ← intact.sound.charted.freeCount_add intact.tight, stands.blocks_eq intact.sound,
    Finset.sum_filter]
  refine Nat.add_le_add_left (Finset.sum_le_sum fun slot _ => ?_) _
  by_cases used : state.Used slot
  · rw [if_pos used]
    have short := intact.short slot used
    rw [← intact.blocksOf_eq used] at short
    exact_mod_cast short
  · rw [if_neg used, intact.sound.charted.unused slot (not_not.mp used), List.length_nil]

/-- What the store affords the code provides for. -/
theorem StandsFor.provides (stands : StandsFor state store) (intact : Intact state chart)
    {request : Store.Request} (affords : store.Affords request) : state.Provides request := by
  have free := stands.dataBlocks_le intact
  cases request with
  | create name =>
      intro admits
      have few := affords ((stands.admits_iff intact.sound).mp admits)
      omega
  | opens name => trivial
  | close | lseek | getFilesize | delete => exact affords
  | read fildesI nbyte =>
      obtain ⟨descriptor, rfl, staging⟩ := affords
      refine ⟨descriptor, rfl, fun slot denotes => ?_⟩
      have bound := staging (stands.held denotes) rfl
      rw [stands.content_eq denotes] at bound
      rw [numBlocks_eq (intact.within.size slot denotes.used).1, ← intact.blocksOf_eq denotes.used]
      exact_mod_cast bound
  | write fildesI buf nbyte =>
      obtain ⟨descriptor, rfl, fits⟩ := affords
      refine ⟨descriptor, rfl, fun slot denotes => ?_⟩
      obtain ⟨small, room⟩ := fits (stands.held denotes) rfl
      rw [stands.content_eq denotes] at room
      have length := length_content state slot
      have short := intact.short slot denotes.used
      have covered := intact.covered slot denotes.used
      have nonneg := (intact.within.size slot denotes.used).1
      have nonempty := List.length_pos_iff.mpr (intact.sound.charted.nonempty slot denotes.used)
      change state.stop descriptor nbyte ≤ _ ∨ _ ∧
        store.blocks + state.stop descriptor nbyte / blockSize ≤ dataBlocks at room
      rw [State.Extensible, State.Room, State.newSize, blocksFor,
        intact.sound.charted.chain_eq denotes.used]
      simp only [blockSize] at *
      refine ⟨small, ?_, ?_⟩
      · rcases room with inside | ⟨single, -⟩
        · right
          omega
        · left
          omega
      · rcases room with inside | ⟨single, quota⟩
        · omega
        · omega

theorem StandsFor.providesAll (peeks : Peeks tolerance) (stands : StandsFor state store)
    (intact : Intact state chart) {turns : List Turn}
    (affords : store.AffordsAll (turns.map Turn.request)) : state.ProvidesAll tolerance turns := by
  induction turns generalizing state chart store with
  | nil => trivial
  | cons turn rest inductionHypothesis =>
      have provided := stands.provides intact affords.1
      obtain ⟨after, chart', done, intact', stands'⟩ :=
        answer_agrees turn.garbage peeks intact stands provided
      refine ⟨provided, fun reply after' done' => ?_⟩
      rw [done] at done'
      cases done'
      exact inductionHypothesis stands' intact' affords.2

/-! ## A first program -/

/-- A run survives the reads one element behind an array. -/
def peeking : Tolerance := fun access => access ≠ .heap

theorem peeks_peeking : Peeks peeking := ⟨rfl, rfl⟩

namespace Store

def firstSteps : List Request := [.create fileName, .opens fileName, .write 0 (fun _ => 7) 3]

def first : Store :=
  (empty.create fileName.bytes (files_empty _)).place 0 ⟨fileName.bytes, 0⟩ ⟨[], by simp, le_rfl⟩

theorem first_files : first.files fileName.bytes = some [] := by simp [first]

theorem first_handles : first.handles 0 = some ⟨fileName.bytes, 0⟩ := by simp [first]

def firstHeld : first.Held := ⟨0, ⟨fileName.bytes, 0⟩, first_handles⟩

theorem firstHeld_unique (held : first.Held) (same : held.descriptor = 0) : held = firstHeld := by
  obtain ⟨descriptor, handle, isOpen⟩ := held
  obtain rfl : descriptor = 0 := same
  obtain rfl : handle = ⟨fileName.bytes, 0⟩ := Option.some.inj (isOpen.symm.trans first_handles)
  rfl

theorem firstHeld_content : firstHeld.content = [] :=
  Option.some.inj (firstHeld.files_eq.symm.trans first_files)

theorem blocks_empty : empty.blocks = 0 := by
  rw [blocks]
  exact finsum_zero

theorem blocks_first : first.blocks = 1 := by
  rw [blocks, finsum_eq_single _ fileName.bytes]
  · rw [first_files]
    rfl
  · intro name distinct
    have absent : first.files name = none := by simp [first, distinct]
    rw [absent]
    rfl

theorem empty_admits : empty.Admits fileName.bytes := by
  refine ⟨by decide, by decide, rfl, ?_⟩
  have none : {name | empty.files name ≠ none} = ∅ := by
    ext name
    simp
  rw [none, Set.ncard_empty]
  decide

theorem respond_create : empty.respond (.create fileName) =
    (.only 0, empty.create fileName.bytes (files_empty _)) :=
  dif_pos empty_admits

theorem respond_open :
    (empty.create fileName.bytes (files_empty _)).respond (.opens fileName) = (.only 0, first) := by
  have next : (empty.create fileName.bytes (files_empty _)).nextHandle = some 0 := rfl
  have stored : (empty.create fileName.bytes (files_empty _)).files fileName.bytes = some [] := by simp
  exact respond_opens stored next

theorem accepted_first : firstHeld.accepted ((List.range 3).map fun _ => 7) = [7, 7, 7] := by
  rw [Held.accepted, List.take_of_length_le]
  · rfl
  · decide

theorem respond_write : first.respond (.write 0 (fun _ => 7) 3) =
    (.only 3, firstHeld.write ((List.range 3).map fun _ => 7)) := by
  have held : first.held? 0 = some firstHeld := held?_of_open first_handles
  have count : (3 : UInt64).toNat = 3 := rfl
  simp only [respond, held, count, accepted_first]
  rfl

theorem firstSteps_affordable : empty.AffordsAll firstSteps := by
  refine ⟨fun _ => ?_, ?_⟩
  · rw [blocks_empty]
    decide
  rw [respond_create]
  refine ⟨trivial, ?_⟩
  rw [respond_open]
  refine ⟨⟨0, rfl, fun held same => ?_⟩, trivial⟩
  obtain rfl := firstHeld_unique held same
  rw [firstHeld_content, blocks_first]
  exact ⟨by decide, .inr ⟨by decide, by decide⟩⟩

theorem firstSteps_played : empty.play firstSteps =
    ([.only 0, .only 0, .only 3], firstHeld.write ((List.range 3).map fun _ => 7)) := by
  simp only [firstSteps, play, respond_create, respond_open, respond_write]

end Store

def firstTurns : List Turn := Store.firstSteps.map fun request => ⟨request, fun _ _ => 0⟩

theorem firstTurns_requests : firstTurns.map Turn.request = Store.firstSteps := rfl

theorem fileSystem_refines_firstTurns : ∃ start final, FreshMount peeking start ∧
    start.play peeking firstTurns = .ok ([.only 0, .only 0, .only 3], final) ∧
    StandsFor final (Store.firstHeld.write ((List.range 3).map fun _ => 7)) := by
  obtain ⟨start, fresh, -⟩ := exists_freshMount (by decide : peeking .fildesReset = true)
  obtain ⟨chart, intact⟩ := fresh.intact
  have provided : start.ProvidesAll peeking firstTurns :=
    fresh.standsFor.providesAll peeks_peeking intact Store.firstSteps_affordable
  obtain ⟨final, run, stands⟩ := fileSystem_refines peeks_peeking fresh firstTurns provided
  rw [firstTurns_requests, Store.firstSteps_played] at run stands
  exact ⟨start, final, fresh, run, stands⟩

/-- A program whose requests are affordable on the store alone is served as by that store. -/
theorem fileSystem_serves (peeks : Peeks tolerance) (fresh : FreshMount tolerance start)
    (turns : List Turn) (affords : Store.empty.AffordsAll (turns.map Turn.request)) :
    ∃ final, start.play tolerance turns =
        .ok ((Store.empty.play (turns.map Turn.request)).1, final) ∧
      StandsFor final (Store.empty.play (turns.map Turn.request)).2 := by
  obtain ⟨chart, intact⟩ := fresh.intact
  obtain ⟨final, -, run, -, stands⟩ := fresh.standsFor.play peeks intact
    (fresh.standsFor.providesAll peeks intact affords)
  exact ⟨final, run, stands⟩

theorem fileSystem_serves_firstTurns : ∃ start final, FreshMount peeking start ∧
    start.play peeking firstTurns = .ok ([.only 0, .only 0, .only 3], final) ∧
    final.HasFile fileName := by
  obtain ⟨start, fresh, -⟩ := exists_freshMount (by decide : peeking .fildesReset = true)
  obtain ⟨final, run, stands⟩ :=
    fileSystem_serves peeks_peeking fresh firstTurns Store.firstSteps_affordable
  rw [firstTurns_requests, Store.firstSteps_played] at run stands
  have stored := (stands.files fileName.bytes _).mp Store.firstHeld.files_write
  obtain ⟨slot, used, named, -⟩ := stored
  exact ⟨start, final, fresh, run, slot, used, named⟩

end EC440.FileSystem
