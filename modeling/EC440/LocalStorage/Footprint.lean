import EC440.LocalStorage.Stability

/-!
# The memory that the library touches

The pages of the library lie at addresses of their own that were free when the
program started.  No call, whatever it does to the table, changes the memory
of the program anywhere else.
-/

namespace EC440.LocalStorage

open Outcome

variable {machine : Machine} {kernel : Kernel} {base : PageMemory} {state : State} {tid : Tid}
  {p : PagePtr} {page : Page}

/-- The pages are mapped at different addresses that were free at the start, and at all other
addresses the memory is what it was. -/
structure Housed (base : PageMemory) (state : State) : Prop where
  below : ∀ p page, state.pages p = some page → p < state.nextPage
  mapped : ∀ p page, state.pages p = some page → state.memory page.address ≠ none
  apart : ∀ p q page other, state.pages p = some page → state.pages q = some other →
    page.address = other.address → p = q
  vacant : ∀ p page, state.pages p = some page → base page.address = none
  outside : ∀ address, (∀ p page, state.pages p = some page → page.address ≠ address) →
    state.memory address = base address

theorem Housed.initial (memory : PageMemory) : Housed memory (.initial memory) where
  below := by simp [State.initial]
  mapped := by simp [State.initial]
  apart := by simp [State.initial]
  vacant := by simp [State.initial]
  outside := by simp [State.initial]

namespace Housed

theorem congr {after : State} (housed : Housed base state) (pages : after.pages = state.pages)
    (memory : after.memory = state.memory) (nextPage : after.nextPage = state.nextPage) :
    Housed base after := by
  obtain ⟨below, mapped, apart, vacant, outside⟩ := housed
  refine ⟨?_, ?_, ?_, ?_, ?_⟩
  · rwa [pages, nextPage]
  · rwa [pages, memory]
  · rwa [pages]
  · rwa [pages]
  · rwa [pages, memory]

theorem setFrame (housed : Housed base state) (allocated : state.pages p = some page)
    (frame : Frame) :
    Housed base { state with memory := Function.update state.memory page.address (some frame) } := by
  refine ⟨housed.below, fun q other here => ?_, housed.apart, housed.vacant, fun address away => ?_⟩
  · by_cases same : other.address = page.address
    · simp [same]
    · simpa [same] using housed.mapped q other here
  · have elsewhere : address ≠ page.address := (away p page allocated).symm
    simpa [elsewhere] using housed.outside address away

theorem setPage (housed : Housed base state) (allocated : state.pages p = some page) {page' : Page}
    (address : page'.address = page.address) :
    Housed base { state with pages := Function.update state.pages p (some page') } := by
  have former : ∀ q other, Function.update state.pages p (some page') q = some other →
      ∃ earlier, state.pages q = some earlier ∧ earlier.address = other.address := by
    intro q other here
    by_cases same : q = p
    · subst same
      rw [Function.update_self, Option.some.injEq] at here
      exact ⟨page, allocated, by rw [← here, address]⟩
    · rw [Function.update_of_ne same] at here
      exact ⟨other, here, rfl⟩
  refine ⟨?_, ?_, ?_, ?_, ?_⟩
  · intro q other here
    obtain ⟨earlier, before, -⟩ := former q other here
    exact housed.below q earlier before
  · intro q other here
    obtain ⟨earlier, before, same⟩ := former q other here
    rw [← same]
    exact housed.mapped q earlier before
  · intro q r first second here there equal
    obtain ⟨earlier, before, same⟩ := former q first here
    obtain ⟨earlier', before', same'⟩ := former r second there
    exact housed.apart q r earlier earlier' before before' (same.trans (equal.trans same'.symm))
  · intro q other here
    obtain ⟨earlier, before, same⟩ := former q other here
    rw [← same]
    exact housed.vacant q earlier before
  · intro other away
    apply housed.outside
    intro q earlier before
    by_cases same : q = p
    · subst same
      rw [allocated, Option.some.injEq] at before
      rw [← before, ← address]
      exact away q page' (Function.update_self _ _ _)
    · exact away q earlier ((Function.update_of_ne same _ _).trans before)

theorem addPage (housed : Housed base state) {address : Address}
    (unmapped : state.memory address = none) (frame : Frame) :
    Housed base (addPage state address
      (Function.update state.memory address (some frame))) := by
  have fresh : ∀ q other, state.pages q = some other → other.address ≠ address := by
    rintro q other here rfl
    exact housed.mapped q other here unmapped
  have vacant : base address = none := by
    rw [← housed.outside address fresh]
    exact unmapped
  have former : ∀ q other, (LocalStorage.addPage state address
      (Function.update state.memory address (some frame))).pages q = some other →
        q = state.nextPage ∧ other.address = address ∨
          q ≠ state.nextPage ∧ state.pages q = some other := by
    intro q other here
    by_cases same : q = state.nextPage
    · subst same
      simp only [LocalStorage.addPage, Function.update_self, Option.some.injEq] at here
      exact .inl ⟨rfl, by rw [← here]⟩
    · simp only [LocalStorage.addPage, Function.update_of_ne same] at here
      exact .inr ⟨same, here⟩
  refine ⟨?_, ?_, ?_, ?_, ?_⟩
  · intro q other here
    rcases former q other here with ⟨rfl, -⟩ | ⟨-, before⟩
    · exact Nat.lt_succ_self _
    · exact Nat.lt_succ_of_lt (housed.below q other before)
  · intro q other here
    rcases former q other here with ⟨-, new⟩ | ⟨-, before⟩
    · simp [LocalStorage.addPage, new]
    · simpa [LocalStorage.addPage, fresh q other before] using housed.mapped q other before
  · intro q r first second here there equal
    rcases former q first here with ⟨rfl, new⟩ | ⟨-, before⟩ <;>
      rcases former r second there with ⟨rfl, new'⟩ | ⟨-, before'⟩
    · rfl
    · exact absurd (equal.symm.trans new) (fresh r second before')
    · exact absurd (equal.trans new') (fresh q first before)
    · exact housed.apart q r first second before before' equal
  · intro q other here
    rcases former q other here with ⟨-, new⟩ | ⟨-, before⟩
    · rw [new]
      exact vacant
    · exact housed.vacant q other before
  · intro other away
    have notNew : other ≠ address := by
      have here := away state.nextPage { address, refCount := 1 }
        (by simp [LocalStorage.addPage])
      exact here.symm
    have old : ∀ q earlier, state.pages q = some earlier → earlier.address ≠ other := by
      intro q earlier before
      apply away q earlier
      have distinct : q ≠ state.nextPage := (housed.below q earlier before).ne
      simp [LocalStorage.addPage, distinct, before]
    simpa [LocalStorage.addPage, notNew] using housed.outside other old

theorem freePage (housed : Housed base state) (allocated : state.pages p = some page) :
    Housed base { state with
      memory := munmap state.memory page.address
      pages := Function.update state.pages p none } := by
  have former : ∀ q other, Function.update state.pages p none q = some other →
      q ≠ p ∧ state.pages q = some other := by
    intro q other here
    by_cases same : q = p
    · simp [same] at here
    · rw [Function.update_of_ne same] at here
      exact ⟨same, here⟩
  have elsewhere : ∀ q other, q ≠ p → state.pages q = some other → other.address ≠ page.address :=
    fun q other distinct before equal => distinct (housed.apart q p other page before allocated equal)
  refine ⟨?_, ?_, ?_, ?_, ?_⟩
  · intro q other here
    exact housed.below q other (former q other here).2
  · intro q other here
    obtain ⟨distinct, before⟩ := former q other here
    simpa [munmap, elsewhere q other distinct before] using housed.mapped q other before
  · intro q r first second here there
    exact housed.apart q r first second (former q first here).2 (former r second there).2
  · intro q other here
    exact housed.vacant q other (former q other here).2
  · intro address away
    by_cases freed : address = page.address
    · subst freed
      simpa [munmap] using (housed.vacant p page allocated).symm
    · have old : ∀ q earlier, state.pages q = some earlier → earlier.address ≠ address := by
        intro q earlier before
        by_cases same : q = p
        · subst same
          rw [allocated, Option.some.injEq] at before
          rw [← before]
          exact fun equal => freed equal.symm
        · exact away q earlier ((Function.update_of_ne same _ _).trans before)
      simpa [munmap, freed] using housed.outside address old

end Housed

/-! ## Operations on pages -/

theorem Housed.changeProt (housed : Housed base state) (prot : Prot) (p : PagePtr) :
    Ensures (changeProt prot state p) (Housed base) := by
  unfold LocalStorage.changeProt
  refine .bind_of fun page here => ?_
  have allocated := state.page_eq_ok_iff.mp here
  cases mapped : state.memory page.address with
  | none =>
      simp only [mprotect, mapped, Option.map_none]
      exact .error _
  | some frame =>
      simp only [mprotect, mapped, Option.map_some]
      exact .ok (housed.setFrame allocated _)

theorem Housed.store (housed : Housed base state) (allocated : state.pages p = some page)
    (change : (Nat → UInt8) → Nat → UInt8) :
    Ensures (store state.memory page.address change) fun memory =>
      Housed base { state with memory } := by
  unfold LocalStorage.store
  split
  next => exact .error _
  next frame mapped =>
    refine .ite (fun _ => .ok (housed.setFrame allocated _)) fun _ => .error _

theorem Housed.storeByte (housed : Housed base state) (p : PagePtr) (pageOffset : Nat)
    (byte : UInt8) : Ensures (storeByte state p pageOffset byte) (Housed base) := by
  unfold LocalStorage.storeByte
  refine .bind_of fun page here => ?_
  have allocated := state.page_eq_ok_iff.mp here
  refine .ite (fun _ => ?_) fun _ => .error _
  exact .bind (housed.store allocated _) fun memory stored => .ok stored

theorem Housed.sharePage (housed : Housed base state) (p : PagePtr) :
    Ensures (sharePage state p) (Housed base) := by
  unfold LocalStorage.sharePage
  refine .bind_of fun page here => ?_
  exact .ok (housed.setPage (state.page_eq_ok_iff.mp here) rfl)

theorem Housed.releasePage (housed : Housed base state) (p : PagePtr) :
    Ensures (releasePage state p) (Housed base) := by
  unfold LocalStorage.releasePage
  refine .bind_of fun page here => ?_
  have allocated := state.page_eq_ok_iff.mp here
  refine .ite (fun _ => .ok (housed.freePage allocated)) fun _ => ?_
  refine .ite (fun _ => .ok (housed.setPage allocated rfl)) fun _ => .ok housed

/-! ## Copies and new pages -/

theorem Housed.replaceSlot (housed : Housed base state) (pointer : ElementPtr)
    (element : HashElement) (workingPage : Nat) (allocated : state.pages p = some page)
    (copy : PagePtr) :
    Housed base (replaceSlot state pointer element workingPage p page copy) := by
  have recounted : Housed base { state with
      pages := Function.update state.pages p
        (some { page with refCount := page.refCount - 1 }) } := housed.setPage allocated rfl
  exact recounted.congr rfl rfl rfl

theorem Housed.copyOnWrite (housed : Housed base state) (kernel : Kernel) (pointer : ElementPtr)
    (element : HashElement) (workingPage : Nat) (allocated : state.pages p = some page) :
    Ensures (copyOnWrite kernel state pointer element workingPage p page)
      fun result => Housed base result.2 := by
  unfold LocalStorage.copyOnWrite
  rcases kernel.mmap_cases state.memory .writeOnly with failed | ⟨address, unmapped, mapped⟩
  · rw [failed]
    exact .error _
  rw [mapped]
  refine .bind_of fun source _ => ?_
  have added := housed.addPage unmapped { bytes := fun _ => 0, prot := .writeOnly }
  have new : (LocalStorage.addPage state address (Function.update state.memory address
      (some { bytes := fun _ => 0, prot := .writeOnly }))).pages state.nextPage =
        some { address, refCount := 1 } := Function.update_self _ _ _
  have old : (LocalStorage.addPage state address (Function.update state.memory address
      (some { bytes := fun _ => 0, prot := .writeOnly }))).pages p = some page := by
    have distinct : p ≠ state.nextPage := (housed.below p page allocated).ne
    exact (Function.update_of_ne distinct _ _).trans allocated
  refine .bind (added.store new _) fun memory stored => ?_
  refine .bind ((stored.replaceSlot pointer element workingPage old _).changeProt _ p) ?_
  exact fun after protect => .ok protect

theorem Housed.createPages (housed : Housed base state) (kernel : Kernel) (count : Nat) :
    Housed base (createPages kernel count state).2 := by
  induction count generalizing state with
  | zero => exact housed
  | succ count inductionHypothesis =>
      unfold LocalStorage.createPages
      rcases kernel.mmap_cases state.memory .none with failed | ⟨address, unmapped, mapped⟩
      · rw [failed]
        exact housed
      · rw [mapped]
        have later := inductionHypothesis
          (housed.addPage unmapped { bytes := fun _ => 0, prot := .none })
        simp only
        split
        next after tail =>
          rw [tail] at later
          exact later
        next pages after tail =>
          rw [tail] at later
          exact later

theorem Housed.unlinkElement (housed : Housed base state) (element : HashElement) (tid : Tid) :
    Ensures (unlinkElement state element tid) (Housed base) := by
  unfold LocalStorage.unlinkElement
  split
  next => exact .error _
  next temp _ =>
    refine .bind_of fun head _ => ?_
    refine .ite (fun _ => ?_) fun _ => .ok housed
    refine .bind_of fun previous _ => ?_
    exact .bind_of fun before _ => .ok (housed.congr rfl rfl rfl)

/-- Every building block keeps the library to its pages. -/
theorem Housed.stable (base : PageMemory) : Stable (Housed base) where
  init _ _ housed := housed.congr rfl rfl rfl
  changeProt prot _ p housed := housed.changeProt prot p
  storeByte _ p pageOffset byte housed := housed.storeByte p pageOffset byte
  sharePage _ p housed := housed.sharePage p
  releasePage _ p housed := housed.releasePage p
  copyOnWrite kernel _ pointer element workingPage _ _ housed _ allocated :=
    housed.copyOnWrite kernel pointer element workingPage allocated
  createPages kernel count _ housed := housed.createPages kernel count
  create kernel count state _ _ _ _ housed created _ := by
    have later := housed.createPages kernel count
    rw [created] at later
    exact later.congr rfl rfl rfl
  clone _ _ _ _ _ _ _ _ middle _ _ _ := middle.congr rfl rfl rfl
  unlinkElement _ element tid housed := housed.unlinkElement element tid
  remove _ _ housed := housed.congr rfl rfl rfl

/-! ## Runs -/

/-- Whatever calls return, with whatever kernel, each page of the library is mapped at an address
of its own that was free at the start, and the memory at all other addresses is unchanged. -/
theorem footprint (machine : Machine) (memory : PageMemory) (events : List Event)
    {replies : List Reply} {final : State}
    (run : LocalStorage.play machine (.initial memory) events = .ok (replies, final)) :
    Housed memory final :=
  (Housed.stable memory).play (.initial memory) machine events _ run

theorem footprint_cloneAndWrite :
    ∃ replies final, LocalStorage.play page4096 (.initial fun _ => none) cloneAndWrite =
      .ok (replies, final) ∧ Housed (fun _ => none) final := by
  have regular : ∀ event ∈ cloneAndWrite, event.call.Regular := by
    simp [cloneAndWrite, Call.Regular]
  obtain ⟨final, run, -⟩ :=
    play_eq (.initial page4096 fun _ => none) regular cloneAndWrite_served
  exact ⟨_, final, run, footprint page4096 (fun _ => none) cloneAndWrite run⟩

end EC440.LocalStorage
