import EC440.LocalStorage.Readers
import EC440.LocalStorage.Repairs

/-!
# Copies in runs

In every state that a run reaches, a `tls_write` copies the shared pages of
its range once and leaves all other pages, unless the end of the range wraps
around: then it returns 0 and copies nothing.
-/

namespace EC440.LocalStorage

open Outcome

variable {machine : Machine} {state after : State} {tid : Tid} {tls : Tls}
  {table : Bucket → Option ElementPtr} {memory : PageMemory} {events : List Event}
  {replies : List Reply} {kernel : Kernel} {offset length : UInt32} {buffer : Buffer}

/-- The slots of the thread that meet the range and had a shared page have moved to one fresh page
each; its other slots, and the arrays of the other threads, are unchanged. -/
structure CopiesNeeded (machine : Machine) (state : State) (tid : Tid) (tls : Tls)
    (offset length : UInt32) (after : State) : Prop where
  own : ∃ pages, after.area tid = some { tls with pages } ∧ pages.Nodup ∧
    Copies state after tls.pages pages (Intersects machine offset length)
  others : ∀ other, other ≠ tid → after.area other = state.area other

theorem area_live (same : table (bucketOf tid) = state.hashTable (bucketOf tid)) :
    (state.withTable table).area tid = state.area tid := by
  rw [State.area, State.area, hashSearch_live same]
  rfl

theorem area_dead {pointer : ElementPtr} (head : table (bucketOf tid) = some pointer)
    (absent : state.elements pointer = none) : (state.withTable table).area tid = none := by
  rw [State.area, hashSearch_dead head absent]

theorem Rewrites.areas {buckets : Bucket → List ElementPtr} {place : Tid → Option ElementPtr}
    {pointer : ElementPtr} {element : HashElement} {pages : List PagePtr} {touched : Nat → Prop}
    (rewrites : Rewrites state after pointer element pages touched)
    (repaired : Repaired machine state buckets place table)
    (sound : Sound machine after buckets place) (placed : place tid = some pointer)
    (found : state.elements pointer = some element)
    (area : (state.withTable table).area tid = some tls) :
    element.tls = tls ∧ (after.withTable table).area tid = some { tls with pages } ∧
      ∀ other, other ≠ tid →
        (after.withTable table).area other = (state.withTable table).area other := by
  have live : table (bucketOf tid) = state.hashTable (bucketOf tid) := by
    rcases repaired.freed (bucketOf tid) with same | ⟨dead, head, absent, -⟩
    · exact same
    · rw [area_dead head absent] at area
      cases area
  have here : state.areaAt place tid = some element.tls := by
    simp [State.areaAt, placed, found]
  have areas := repaired.sound.table.areaAt_update placed rewrites.elements
  rw [area_live live, repaired.sound.area_eq, here, Option.some.injEq] at area
  subst area
  refine ⟨rfl, ?_, ?_⟩
  · rw [area_live (by rw [rewrites.hashTable, live]), sound.area_eq, areas, Function.update_self]
    rfl
  · intro other distinct
    rcases repaired.freed (bucketOf other) with same | ⟨dead, head, absent, -⟩
    · rw [area_live same, area_live (by rw [rewrites.hashTable, same]), sound.area_eq,
        repaired.sound.area_eq, areas, Function.update_of_ne distinct]
    · have away : dead ≠ pointer := by
        rintro rfl
        rw [found] at absent
        cases absent
      rw [area_dead head absent, area_dead head]
      rw [rewrites.elements, Function.update_of_ne away, absent]

/-- Exactly the shared pages of the range are copied, unless the end of the range wraps around and
a page would have to be copied. -/
theorem copiesNeeded_iff (indexable : ∀ event ∈ events, event.call.Indexable)
    (played : play machine (.initial memory) events = .ok (replies, state))
    (area : state.area tid = some tls)
    (done : tlsWrite kernel state tid offset length buffer = .ok (0, after)) :
    CopiesNeeded machine state tid tls offset length after ↔
      (offset.toNat + length.toNat < 2 ^ 32 ∨
        ∀ (slot : Nat) (p : PagePtr) (page : Page), tls.pages[slot]? = some p →
          Intersects machine offset length slot → state.pages p = some page →
          page.refCount ≤ 1) := by
  rcases (Repairable.initial machine memory).play indexable played with
    ⟨state, table, buckets, place, rfl, repaired⟩
  rcases repaired.tlsWrite_ok done with ⟨after, done', rfl⟩
  rcases repaired.sound.write_cases repaired.small done' with ⟨failed, -⟩ |
    ⟨pointer, element, pages, -, placed, found, sound, ⟨short, rewrites⟩ | ⟨long, rewrites⟩⟩
  · cases failed
  · rcases rewrites.areas repaired sound placed found area with ⟨rfl, own, others⟩
    have copies := rewrites.copies
    refine ⟨fun _ => .inl short, fun _ => ⟨⟨pages, own, rewrites.distinct, ?_⟩, others⟩⟩
    exact ⟨copies.length, copies.untouched, copies.single, copies.copied, copies.fresh,
      copies.kept⟩
  · rcases rewrites.areas repaired sound placed found area with ⟨rfl, own, others⟩
    have copies := rewrites.copies
    constructor
    · rintro ⟨⟨pages', -, -, needed⟩, -⟩
      right
      intro slot p page held inside here
      by_contra shared
      rcases needed.copied slot p page held inside here (not_le.mp shared) with
        ⟨copy, address, -, -, -, left⟩
      have same := copies.kept p page here fun _ impossible => absurd impossible id
      have left' : after.pages p = some { page with refCount := page.refCount - 1 } := left
      rw [same, Option.some.injEq] at left'
      have counts := congrArg Page.refCount left'
      simp only at counts
      omega
    · rintro (short | alone)
      · exact absurd short long
      · refine ⟨⟨pages, own, rewrites.distinct, copies.length, ?_, copies.single, ?_, ?_, ?_⟩,
          others⟩
        · intro slot p held _
          exact copies.untouched slot p held id
        · intro slot p page held inside here shared
          exact absurd (alone slot p page held inside here) (not_le.mpr shared)
        · intro q absent present
          rcases copies.fresh q absent present with ⟨slot, p, page, impossible, -⟩
          exact absurd impossible id
        · intro q page here _
          exact copies.kept q page here fun _ impossible => absurd impossible id

theorem shareOnePage_indexable : ∀ event ∈ shareOnePage, event.call.Indexable := by
  simp [shareOnePage, Call.Indexable]

/-- The second thread that shares a page writes to it. -/
theorem copiesNeeded_shared :
    ∃ tls after, onePageShared.area 2 = some tls ∧
      tlsWrite twoPages onePageShared 2 0 1 (fun _ => 7) = .ok (0, after) ∧
      CopiesNeeded page4096 onePageShared 2 tls 0 1 after := by
  rcases shareOnePage_played with ⟨replies, played⟩
  have written : ∃ after,
      tlsWrite twoPages onePageShared 2 0 1 (fun _ => 7) = .ok (0, after) := ⟨_, rfl⟩
  rcases written with ⟨after, done⟩
  refine ⟨_, after, rfl, done, ?_⟩
  exact (copiesNeeded_iff shareOnePage_indexable played rfl done).mpr (.inl (by decide))

/-- The range of all positions from 1 on wraps around to 0, and the shared page is not copied. -/
theorem copiesNeeded_broken :
    ¬∀ (machine : Machine) (memory : PageMemory) (events : List Event) (replies : List Reply)
      (state after : State) (kernel : Kernel) (tid : Tid) (offset length : UInt32)
      (buffer : Buffer) (tls : Tls), (∀ event ∈ events, event.call.Indexable) →
      play machine (.initial memory) events = .ok (replies, state) →
      state.area tid = some tls →
      tlsWrite kernel state tid offset length buffer = .ok (0, after) →
      CopiesNeeded machine state tid tls offset length after := by
  intro always
  rcases shareOnePage_played with ⟨replies, played⟩
  have written : ∃ after,
      tlsWrite twoPages onePageShared 2 1 4294967295 (fun _ => 7) = .ok (0, after) ∧
        after.pages 0 = some { address := 4096, refCount := 2 } := ⟨_, rfl, rfl⟩
  rcases written with ⟨after, done, kept⟩
  have needed := always page4096 _ shareOnePage replies onePageShared after twoPages 2 1
    4294967295 (fun _ => 7) _ shareOnePage_indexable played rfl done
  rcases needed.own with ⟨pages, -, -, copies⟩
  have inside : Intersects page4096 1 4294967295 0 := ⟨1, by decide, by decide, by decide⟩
  rcases copies.copied 0 0 { address := 4096, refCount := 2 } rfl inside rfl (by decide) with
    ⟨copy, address, -, -, -, left⟩
  rw [kept] at left
  cases left

end EC440.LocalStorage
