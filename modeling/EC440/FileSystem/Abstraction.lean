import EC440.FileSystem.Arguments
import EC440.FileSystem.Store

/-!
# The store that a state stands for

The content of a file is read off the blocks of its chain, and an open
descriptor is a handle on the file of its entry.  For each kind of change of a
state there is a lemma on the store it stands for afterwards.
-/

namespace EC440.FileSystem

open Linked Outcome Ranges

variable {tolerance : Tolerance} {state after : State} {chart chart' : Slot → List BlockIndex}
  {store : Store} {slot : Slot} {descriptor : Descriptor} {name : CString}

def State.content (state : State) (slot : Slot) : List UInt8 :=
  (List.range (state.dir slot).size.toInt.toNat).map fun position =>
    (state.byte? slot position).getD 0

def State.handle (state : State) (slot : Slot) (descriptor : Descriptor) : Handle :=
  ⟨(state.dir slot).name.text, state.position descriptor⟩

def HoldsFiles (state : State) (files : List UInt8 → Option (List UInt8)) : Prop :=
  ∀ name content, files name = some content ↔
    ∃ slot, state.Used slot ∧ (state.dir slot).name.text = name ∧ state.content slot = content

def HoldsHandles (state : State) (handles : Descriptor → Option Handle) : Prop :=
  ∀ descriptor handle, handles descriptor = some handle ↔
    ∃ slot, Denotes state descriptor slot ∧
      handle = state.handle slot descriptor

structure StandsFor (state : State) (store : Store) : Prop where
  files : HoldsFiles state store.files
  handles : HoldsHandles state store.handles

/-- What every call keeps: the chains, the bounds of sizes and offsets, and chains that are as
long as the sizes ask for. -/
structure Intact (state : State) (chart : Slot → List BlockIndex) : Prop where
  sound : Sound state chart
  within : Within 0 state
  short : ∀ slot, state.Used slot →
    ((chart slot).length : Int) ≤ (state.dir slot).size.toInt / blockSize + 1
  covered : AllCovered state chart
  tight : Tight state.fat chart

theorem Intact.fitting (intact : Intact state chart) : Fitting state chart where
  size := intact.within.size
  offset := intact.within.offset
  length := intact.short
  full slot used single := by
    have covered := intact.covered slot used
    rw [single] at covered
    exact .inl (by simpa using covered)
  tight := intact.tight

theorem Intact.of_fitting (sound : Sound state chart) (fitting : Fitting state chart)
    (covered : AllCovered state chart) : Intact state chart :=
  ⟨sound, fitting.within, fitting.length, covered, fitting.tight⟩

theorem length_content (state : State) (slot : Slot) :
    (state.content slot).length = (state.dir slot).size.toInt.toNat := by
  rw [State.content, List.length_map, List.length_range]

theorem Intact.getElem?_content (intact : Intact state chart) (used : state.Used slot)
    (position : Nat) :
    (state.content slot)[position]? =
      if position < (state.dir slot).size.toInt.toNat then
        fileByte state.device.image (chart slot) position
      else none := by
  have covered := intact.covered slot used
  rw [State.content, List.getElem?_map]
  by_cases inside : position < (state.dir slot).size.toInt.toNat
  · have reached : position < blockSize * (chart slot).length := by omega
    obtain ⟨byte, found⟩ := fileByte_eq_some state.device.image reached
    rw [List.getElem?_range inside, if_pos inside, Option.map_some, State.byte?,
      intact.sound.charted.chain_eq used, found, Option.getD_some]
  · rw [List.getElem?_eq_none (by simpa using inside), if_neg inside, Option.map_none]

theorem Kept.content_eq (kept : Kept state after slot) : after.content slot = state.content slot := by
  rw [State.content, State.content, kept.size]
  refine List.map_congr_left fun position _ => ?_
  rw [State.byte?, State.byte?, kept.chain_eq, fileByte_congr kept.content]

/-! ### Files -/

/-- An entry stands for the same file in both states. -/
structure SameFile (state after : State) (slot : Slot) : Prop where
  used : after.Used slot ↔ state.Used slot
  name : state.Used slot → (after.dir slot).name.text = (state.dir slot).name.text
  content : state.Used slot → after.content slot = state.content slot

theorem SameFile.of_kept (used : state.Used slot) (kept : Kept state after slot) :
    SameFile state after slot where
  used := ⟨fun _ => used, kept.isUsed⟩
  name _ := by rw [kept.name]
  content _ := kept.content_eq

theorem SameFile.iff {content : List UInt8} {name : List UInt8} (same : SameFile state after slot) :
    (after.Used slot ∧ (after.dir slot).name.text = name ∧ after.content slot = content) ↔
      state.Used slot ∧ (state.dir slot).name.text = name ∧ state.content slot = content := by
  rw [same.used]
  refine and_congr_right fun used => ?_
  rw [same.name used, same.content used]

theorem SameFile.of_effect {call : Call} {code : Int32} (sound : Sound state chart)
    (effect : Effect state chart call code after chart') (spared : ¬ActsOn state call slot)
    (old : after.Used slot → state.Used slot) : SameFile state after slot := by
  by_cases used : state.Used slot
  · exact .of_kept used (effect.kept sound used spared)
  · exact ⟨⟨old, fun before => absurd before used⟩, fun before => absurd before used,
      fun before => absurd before used⟩

namespace HoldsFiles

variable {files : List UInt8 → Option (List UInt8)}

theorem congr (holds : HoldsFiles state files) (same : ∀ slot, SameFile state after slot) :
    HoldsFiles after files := by
  intro name content
  rw [holds name content]
  exact exists_congr fun slot => (same slot).iff.symm

theorem set (holds : HoldsFiles state files)
    (others : ∀ other, other ≠ slot → SameFile state after other) (used : after.Used slot)
    (own : state.Used slot → (state.dir slot).name.text = (after.dir slot).name.text)
    (apart : ∀ other, other ≠ slot → state.Used other →
      (state.dir other).name.text ≠ (after.dir slot).name.text) :
    HoldsFiles after
      (Function.update files (after.dir slot).name.text (some (after.content slot))) := by
  intro name content
  by_cases same : name = (after.dir slot).name.text
  · subst same
    rw [Function.update_self, Option.some.injEq]
    constructor
    · rintro rfl
      exact ⟨slot, used, rfl, rfl⟩
    · rintro ⟨other, stands⟩
      by_cases here : other = slot
      · rw [← stands.2.2, here]
      · obtain ⟨before, named, -⟩ := (others other here).iff.mp stands
        exact absurd named (apart other here before)
  · rw [Function.update_of_ne same, holds name content]
    constructor
    · rintro ⟨other, stands⟩
      have here : other ≠ slot := by
        rintro rfl
        exact same (stands.2.1.symm.trans (own stands.1))
      exact ⟨other, (others other here).iff.mpr stands⟩
    · rintro ⟨other, stands⟩
      have here : other ≠ slot := by
        rintro rfl
        exact same stands.2.1.symm
      exact ⟨other, (others other here).iff.mp stands⟩

theorem remove (holds : HoldsFiles state files)
    (others : ∀ other, other ≠ slot → SameFile state after other) (unused : ¬after.Used slot)
    (apart : ∀ other, other ≠ slot → state.Used other →
      (state.dir other).name.text ≠ (state.dir slot).name.text) :
    HoldsFiles after (Function.update files (state.dir slot).name.text none) := by
  intro name content
  have here : ∀ other, after.Used other → other ≠ slot := by
    rintro other usedOther rfl
    exact unused usedOther
  by_cases same : name = (state.dir slot).name.text
  · subst same
    rw [Function.update_self]
    constructor
    · intro found
      cases found
    · rintro ⟨other, stands⟩
      have distinct := here other stands.1
      obtain ⟨before, named, -⟩ := (others other distinct).iff.mp stands
      exact absurd named (apart other distinct before)
  · rw [Function.update_of_ne same, holds name content]
    constructor
    · rintro ⟨other, stands⟩
      have distinct : other ≠ slot := by
        rintro rfl
        exact same stands.2.1.symm
      exact ⟨other, (others other distinct).iff.mpr stands⟩
    · rintro ⟨other, stands⟩
      exact ⟨other, (others other (here other stands.1)).iff.mp stands⟩

end HoldsFiles

/-! ### Handles -/

/-- A descriptor denotes the same entry in both states, and stands at the same position. -/
structure SameHandle (state after : State) (descriptor : Descriptor) : Prop where
  denotes : ∀ slot, Denotes after descriptor slot ↔ Denotes state descriptor slot
  handle : ∀ slot, Denotes state descriptor slot →
    after.handle slot descriptor = state.handle slot descriptor

theorem SameHandle.of_effect {call : Call} {code : Int32} (sound : Sound state chart)
    (effect : Effect state chart call code after chart')
    (notClosed : call ≠ .close descriptor.val)
    (fd : after.fildes descriptor = state.fildes descriptor) : SameHandle state after descriptor := by
  constructor
  · intro slot
    constructor
    · intro denotes
      have isOpen : state.Open descriptor := by
        rw [State.Open, ← fd]
        exact denotes.isOpen
      obtain ⟨other, before⟩ := sound.denoted isOpen
      have attached := effect.attached before notClosed
      rwa [denotes.unique (effect.sound sound) attached.denotes]
    · intro denotes
      exact (effect.attached denotes notClosed).denotes
  · intro slot denotes
    rw [State.handle, State.handle, (effect.attached denotes notClosed).name, State.position,
      State.position, fd]

theorem HoldsHandles.update {handles : Descriptor → Option Handle} {value : Option Handle}
    (holds : HoldsHandles state handles)
    (others : ∀ other, other ≠ descriptor → SameHandle state after other)
    (own : ∀ handle, value = some handle ↔
      ∃ slot, Denotes after descriptor slot ∧ handle = after.handle slot descriptor) :
    HoldsHandles after (Function.update handles descriptor value) := by
  intro other handle
  by_cases same : other = descriptor
  · subst same
    rw [Function.update_self]
    exact own handle
  · rw [Function.update_of_ne same, holds other handle]
    apply exists_congr
    intro slot
    rw [(others other same).denotes slot]
    refine and_congr_right fun denotes => ?_
    rw [(others other same).handle slot denotes]

theorem HoldsHandles.place {handles : Descriptor → Option Handle}
    (holds : HoldsHandles state handles) (sound : Sound after chart')
    (others : ∀ other, other ≠ descriptor → SameHandle state after other)
    (denotes : Denotes after descriptor slot) :
    HoldsHandles after
      (Function.update handles descriptor (some (after.handle slot descriptor))) := by
  refine holds.update others fun handle => ?_
  rw [Option.some.injEq]
  constructor
  · intro same
    exact ⟨slot, denotes, same.symm⟩
  · rintro ⟨other, denotes', rfl⟩
    rw [denotes'.unique sound denotes]

theorem HoldsHandles.congr {handles : Descriptor → Option Handle}
    (holds : HoldsHandles state handles) (same : ∀ descriptor, SameHandle state after descriptor) :
    HoldsHandles after handles := by
  intro descriptor handle
  rw [holds descriptor handle]
  apply exists_congr
  intro slot
  rw [(same descriptor).denotes slot]
  refine and_congr_right fun denotes => ?_
  rw [(same descriptor).handle slot denotes]

namespace StandsFor

theorem handles_eq (stands : StandsFor state store) (denotes : Denotes state descriptor slot) :
    store.handles descriptor = some (state.handle slot descriptor) :=
  (stands.handles descriptor _).mpr ⟨slot, denotes, rfl⟩

theorem handles_eq_none (stands : StandsFor state store) (closed : ¬state.Open descriptor) :
    store.handles descriptor = none := by
  rw [Option.eq_none_iff_forall_not_mem]
  intro handle found
  obtain ⟨slot, denotes, -⟩ := (stands.handles descriptor handle).mp found
  exact closed denotes.isOpen

theorem files_eq (stands : StandsFor state store) (used : state.Used slot) :
    store.files (state.dir slot).name.text = some (state.content slot) :=
  (stands.files _ _).mpr ⟨slot, used, rfl, rfl⟩

theorem files_eq_none_iff (stands : StandsFor state store) (name : List UInt8) :
    store.files name = none ↔ ∀ slot, state.Used slot → (state.dir slot).name.text ≠ name := by
  rw [Option.eq_none_iff_forall_not_mem]
  constructor
  · intro absent slot used named
    exact absent _ ((stands.files name _).mpr ⟨slot, used, named, rfl⟩)
  · intro absent content found
    obtain ⟨slot, used, named, -⟩ := (stands.files name content).mp found
    exact absent slot used named

end StandsFor

end EC440.FileSystem
