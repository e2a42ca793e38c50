import EC440.LocalStorage.Stability

/-!
# The slot of a page

`tls_clone` shares every page at the slot where it was, and `tls_write` puts
a copy where the page was that it copies.  So each page has one slot, the same
in all areas that have it.
-/

namespace EC440.LocalStorage

open Outcome References

variable {state after : State} {pointer : ElementPtr} {element : HashElement} {i j slot : Nat}
  {p : PagePtr} {page : Page} {pages : List PagePtr} {kernel : Kernel} {count : Nat}

def State.Holds (state : State) (i : Nat) (p : PagePtr) : Prop :=
  ∃ pointer element, state.elements pointer = some element ∧ element.tls.pages[i]? = some p

/-- Every page is in one slot. -/
structure Leveled (state : State) : Prop where
  below : ∀ i p, state.Holds i p → p < state.nextPage
  level : ∀ i j p, state.Holds i p → state.Holds j p → i = j

namespace Leveled

theorem initial (memory : PageMemory) : Leveled (.initial memory) where
  below := by simp [State.Holds, State.initial]
  level := by simp [State.Holds, State.initial]

theorem of_holds (leveled : Leveled state) (holds : ∀ i p, after.Holds i p → state.Holds i p)
    (nextPage : state.nextPage ≤ after.nextPage) : Leveled after where
  below i p held := (leveled.below i p (holds i p held)).trans_le nextPage
  level i j p first second := leveled.level i j p (holds i p first) (holds j p second)

theorem of_elements (leveled : Leveled state) (elements : after.elements = state.elements)
    (nextPage : state.nextPage ≤ after.nextPage) : Leveled after := by
  apply leveled.of_holds _ nextPage
  rintro i p ⟨pointer, element, found, held⟩
  exact ⟨pointer, element, elements ▸ found, held⟩

theorem of_unmoved (leveled : Leveled state) (unmoved : Unmoved state after) : Leveled after :=
  leveled.of_elements unmoved.elements unmoved.nextPage.ge

theorem extend (leveled : Leveled state) (nextPage : state.nextPage ≤ after.nextPage)
    (holds : ∀ i p, after.Holds i p → state.Holds i p ∨
      state.nextPage ≤ p ∧ p < after.nextPage ∧ ∀ j, after.Holds j p → j = i) :
    Leveled after where
  below i p held := by
    rcases holds i p held with old | ⟨-, new, -⟩
    · exact (leveled.below i p old).trans_le nextPage
    · exact new
  level i j p first second := by
    rcases holds i p first with old | ⟨new, -, only⟩
    · rcases holds j p second with old' | ⟨new', -, only'⟩
      · exact leveled.level i j p old old'
      · exact only' i first
    · exact (only j second).symm

end Leveled

theorem holds_update {new : HashElement}
    (elements : after.elements = Function.update state.elements pointer (some new))
    (held : after.Holds i p) : new.tls.pages[i]? = some p ∨ state.Holds i p := by
  rcases held with ⟨other, element, found, held⟩
  rw [elements] at found
  by_cases same : other = pointer
  · rw [same, Function.update_self, Option.some.injEq] at found
    exact .inl (found ▸ held)
  · rw [Function.update_of_ne same] at found
    exact .inr ⟨other, element, found, held⟩

/-! ## Building blocks -/

theorem Leveled.setSlot (leveled : Leveled state) (found : state.elements pointer = some element)
    (elements : after.elements =
      Function.update state.elements pointer (some (setSlot element slot state.nextPage)))
    (nextPage : after.nextPage = state.nextPage + 1) : Leveled after := by
  have holds : ∀ i p, after.Holds i p → i = slot ∧ p = state.nextPage ∨ state.Holds i p := by
    intro i p held
    rcases holds_update elements held with here | old
    · by_cases same : slot = i
      · subst same
        have inside := (List.getElem?_eq_some_iff.mp here).1
        simp only [LocalStorage.setSlot, List.length_set] at inside
        simp only [LocalStorage.setSlot, List.getElem?_set_self inside, Option.some.injEq] at here
        exact .inl ⟨rfl, here.symm⟩
      · simp only [LocalStorage.setSlot, List.getElem?_set_ne same] at here
        exact .inr ⟨pointer, element, found, here⟩
    · exact .inr old
  have new : ∀ i, after.Holds i state.nextPage → i = slot := by
    intro i held
    rcases holds i _ held with ⟨here, -⟩ | old
    · exact here
    · exact absurd (leveled.below i _ old) (lt_irrefl _)
  have more : state.nextPage < after.nextPage := by
    rw [nextPage]
    exact Nat.lt_succ_self _
  apply leveled.extend more.le
  intro i p held
  rcases holds i p held with ⟨-, rfl⟩ | old
  · exact .inr ⟨le_rfl, more, fun j held' => (new j held').trans (new i held).symm⟩
  · exact .inl old

theorem Leveled.copyOnWrite (leveled : Leveled state)
    (found : state.elements pointer = some element) (workingPage : Nat) :
    Ensures (copyOnWrite kernel state pointer element workingPage p page) fun result =>
      Leveled result.2 := by
  unfold LocalStorage.copyOnWrite
  split
  next => exact .error _
  next address memory _ =>
    refine .bind_of fun source _ => ?_
    refine .bind_of fun filled _ => ?_
    have moved : Leveled (replaceSlot (addPage state address filled) pointer element workingPage p
        page state.nextPage) := leveled.setSlot found rfl rfl
    exact .bind_of fun closed protect => .ok (moved.of_unmoved (changeProt_unmoved protect))

theorem createPages_range (created : createPages kernel count state = (some pages, after)) :
    after.elements = state.elements ∧ after.nextPage = state.nextPage + count ∧
      pages = List.range' state.nextPage count := by
  induction count generalizing state pages with
  | zero =>
      cases created
      exact ⟨rfl, rfl, rfl⟩
  | succ count inductionHypothesis =>
      rw [createPages] at created
      split at created
      next => cases created
      next address memory _ =>
        split at created
        next => cases created
        next rest later tail =>
          cases created
          rcases inductionHypothesis tail with ⟨elements, nextPage, range⟩
          refine ⟨elements, ?_, ?_⟩
          · rw [nextPage]
            exact Nat.add_right_comm ..
          · rw [range, List.range'_succ]
            rfl

theorem createPages_elements (kernel : Kernel) (count : Nat) (state : State) :
    (createPages kernel count state).2.elements = state.elements ∧
      state.nextPage ≤ (createPages kernel count state).2.nextPage := by
  induction count generalizing state with
  | zero => exact ⟨rfl, le_rfl⟩
  | succ count inductionHypothesis =>
      unfold createPages
      split
      next => exact ⟨rfl, le_rfl⟩
      next address memory _ =>
        have later := inductionHypothesis (addPage state address memory)
        have more : state.nextPage ≤ (addPage state address memory).nextPage := Nat.le_succ _
        split
        next after tail =>
          rw [tail] at later
          exact ⟨later.1, more.trans later.2⟩
        next pages after tail =>
          rw [tail] at later
          exact ⟨later.1, more.trans later.2⟩

theorem Leveled.create (leveled : Leveled state)
    (created : createPages kernel count state = (some pages, after)) (tid : Tid) {tls : Tls}
    (same : tls.pages = pages) : Leveled (insertElement after tid tls) := by
  rcases createPages_range created with ⟨elements, nextPage, range⟩
  have own : ∀ i p, tls.pages[i]? = some p → i < count ∧ p = state.nextPage + i := by
    intro i p held
    rw [same, range] at held
    rcases List.getElem?_eq_some_iff.mp held with ⟨inside, value⟩
    rw [List.length_range'] at inside
    rw [List.getElem_range'_1] at value
    exact ⟨inside, value.symm⟩
  have holds : ∀ i p, (insertElement after tid tls).Holds i p →
      tls.pages[i]? = some p ∨ state.Holds i p := by
    intro i p held
    have inserted : (insertElement after tid tls).elements =
        Function.update after.elements after.nextElement (some
          { tid, tls, next := after.hashTable (bucketOf tid) }) := rfl
    rcases holds_update inserted held with here | ⟨pointer, element, found, held⟩
    · exact .inl here
    · exact .inr ⟨pointer, element, elements ▸ found, held⟩
  have more : state.nextPage ≤ (insertElement after tid tls).nextPage := by
    exact nextPage.symm ▸ Nat.le_add_right ..
  apply leveled.extend more
  intro i p held
  rcases holds i p held with here | old
  · rcases own i p here with ⟨inside, rfl⟩
    refine .inr ⟨Nat.le_add_right .., nextPage.symm ▸ Nat.add_lt_add_left inside _, ?_⟩
    intro j held'
    rcases holds j _ held' with there | old
    · exact (Nat.add_left_cancel (own j _ there).2).symm
    · exact absurd (leveled.below j _ old) (Nat.not_lt.mpr (Nat.le_add_right ..))
  · exact .inl old

theorem Leveled.clone (leveled : Leveled state)
    (found : state.elements pointer = some element) (tid : Tid) {tls : Tls}
    (same : tls.pages = element.tls.pages.take count) : Leveled (insertElement state tid tls) := by
  have holds : ∀ i p, (insertElement state tid tls).Holds i p → state.Holds i p := by
    intro i p held
    have inserted : (insertElement state tid tls).elements =
        Function.update state.elements state.nextElement (some
          { tid, tls, next := state.hashTable (bucketOf tid) }) := rfl
    rcases holds_update inserted held with here | old
    · rw [same, List.getElem?_take] at here
      split at here
      next => exact ⟨pointer, element, found, here⟩
      next => cases here
    · exact old
  exact leveled.of_holds holds le_rfl

theorem Leveled.unlinkElement (leveled : Leveled state) (element : HashElement) (tid : Tid) :
    Ensures (unlinkElement state element tid) Leveled := by
  unfold LocalStorage.unlinkElement
  split
  next => exact .error _
  next temp _ =>
    refine .bind_of fun head _ => ?_
    refine .ite (fun _ => ?_) fun _ => .ok leveled
    refine .bind_of fun previous _ => ?_
    refine .bind_of fun before reached => .ok ?_
    have found := (state.element_eq_ok_iff).mp reached
    refine leveled.of_holds (fun i p held => ?_) le_rfl
    rcases holds_update rfl held with here | old
    · exact ⟨previous, before, found, here⟩
    · exact old

theorem Leveled.stable : Stable Leveled where
  init _ _ leveled := leveled.of_elements rfl le_rfl
  changeProt _ _ _ leveled _ changed := leveled.of_unmoved (changeProt_unmoved changed)
  storeByte _ _ _ _ leveled _ stored := leveled.of_unmoved (storeByte_unmoved stored)
  sharePage state p leveled := by
    unfold sharePage
    exact .bind_of fun page _ => .ok (leveled.of_elements rfl le_rfl)
  releasePage state p leveled := by
    unfold releasePage
    refine .bind_of fun page _ => ?_
    refine .ite (fun _ => .ok (leveled.of_elements rfl le_rfl)) fun _ => ?_
    exact .ite (fun _ => .ok (leveled.of_elements rfl le_rfl)) fun _ => .ok leveled
  copyOnWrite _ _ _ _ workingPage _ _ leveled found _ := leveled.copyOnWrite found workingPage
  createPages kernel count state leveled := by
    rcases createPages_elements kernel count state with ⟨elements, nextPage⟩
    exact leveled.of_elements elements nextPage
  create _ _ _ _ _ tid _ leveled created same := leveled.create created tid same
  clone _ _ _ _ _ tid _ _ middle elements found same := by
    exact middle.clone (elements ▸ found) tid same
  unlinkElement _ element tid leveled := leveled.unlinkElement element tid
  remove _ pointer leveled := by
    refine leveled.of_holds ?_ le_rfl
    rintro i p ⟨other, element, found, held⟩
    by_cases gone : other = pointer
    · subst gone
      simp only [Function.update_self] at found
      cases found
    · simp only [Function.update_of_ne gone] at found
      exact ⟨other, element, found, held⟩

end EC440.LocalStorage
