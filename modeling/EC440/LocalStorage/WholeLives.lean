import EC440.LocalStorage.Destruction
import EC440.LocalStorage.Detached
import EC440.LocalStorage.Footprint

/-!
# Programs that destroy areas

A run of calls of all kinds returns what the private arrays return, up to the
first call that searches a bucket whose first element was freed.  No element
and no page is kept for an area that has been destroyed.
-/

namespace EC440.LocalStorage

open Linked References Outcome

variable {machine : Machine} {kernel : Kernel} {state after : State}
  {buckets : Bucket → List ElementPtr} {place : Tid → Option ElementPtr} {tid : Tid} {call : Call}
  {table : Bucket → Option ElementPtr} {life : Life} {offset length : UInt32} {pointer : ElementPtr}

/-- Areas that an `int` can index, and ranges that do not wrap around. -/
def Call.Ranged : Call → Prop
  | .create size => size.toNat < 2 ^ 31
  | .write offset length _ | .read offset length _ => offset.toNat + length.toNat < 2 ^ 32
  | .destroy | .clone _ => True

/-! ## Calls on settled states -/

theorem checked_iff {size : UInt32} (unwrapped : offset.toNat + length.toNat < 2 ^ 32) :
    offset + length > size ↔ ¬offset.toNat + length.toNat ≤ size.toNat := by
  rw [gt_iff_lt, UInt32.lt_iff_toNat_lt, UInt32.toNat_add, Nat.mod_eq_of_lt unwrapped, not_le]

theorem Settled.refused (settled : Settled machine state buckets place)
    (unwrapped : offset.toNat + length.toNat < 2 ^ 32)
    (far : 2 ^ 31 ≤ offset.toNat + length.toNat) (tid : Tid) :
    ∀ tls, state.area tid = some tls → offset + length > tls.size := by
  intro tls area
  rw [settled.sound.area_eq] at area
  have small := settled.small tid tls area
  rw [checked_iff unwrapped]
  omega

theorem Settled.array_short (settled : Settled machine state buckets place) {array : List UInt8}
    (here : state.array machine tid = some array) : array.length < 2 ^ 31 := by
  rw [settled.sound.array_eq, arrayOf, Option.map_eq_some_iff] at here
  obtain ⟨tls, area, rfl⟩ := here
  rw [List.length_map, List.length_range]
  exact settled.small tid tls area

def Answers (machine : Machine) (kernel : Kernel) (state : State) (tid : Tid) (call : Call) : Prop :=
  ∃ after, exec machine kernel state tid call =
      .ok ((Private.respond (state.array machine) tid call).1, after) ∧
    Quiet machine after ∧ after.array machine = (Private.respond (state.array machine) tid call).2

theorem Settled.answers_regular (settled : Settled machine state buckets place)
    (regular : call.Regular) (sharing : call.Sharing)
    (served : Served machine kernel state tid call) : Answers machine kernel state tid call := by
  rcases exec_cases ⟨_, _, settled.sound⟩ kernel tid regular with ⟨unserved, -⟩ |
    ⟨after, done, -, arrays⟩
  · exact absurd served unserved
  · obtain ⟨reply, after', done', quiet⟩ := Quiet.exec ⟨_, _, settled⟩ sharing served
    rw [done, Except.ok.injEq, Prod.mk.injEq] at done'
    exact ⟨after, done, done'.2 ▸ quiet, arrays⟩

theorem Settled.answers (settled : Settled machine state buckets place) (ranged : call.Ranged)
    (lasting : call ≠ .destroy) (served : Served machine kernel state tid call) :
    Answers machine kernel state tid call := by
  cases call with
  | create size => exact settled.answers_regular trivial ranged served
  | clone source => exact settled.answers_regular trivial trivial served
  | destroy => exact absurd rfl lasting
  | write offset length buffer =>
      by_cases regular : offset.toNat + length.toNat < 2 ^ 31
      · exact settled.answers_regular regular trivial served
      · have failed : tlsWrite kernel state tid offset length buffer = .ok (-1, state) :=
          tlsWrite_refused settled.sound (settled.refused ranged (not_lt.mp regular) tid)
        have unanswered : Private.respond (state.array machine) tid (.write offset length buffer) =
            ({ code := -1, buffer := none }, state.array machine) := by
          cases here : state.array machine tid with
          | none => simp only [Private.respond, here]
          | some array =>
              have short := settled.array_short here
              have outside : ¬offset.toNat + length.toNat ≤ array.length := by omega
              simp only [Private.respond, here, if_neg outside]
        refine ⟨state, ?_, ⟨_, _, settled⟩, by rw [unanswered]⟩
        simp only [exec, failed, unanswered, bind, Except.bind]
  | read offset length buffer =>
      by_cases regular : offset.toNat + length.toNat < 2 ^ 31
      · exact settled.answers_regular regular trivial served
      · have failed : tlsRead state tid offset length buffer = .ok (-1, buffer, state) :=
          tlsRead_refused settled.sound (settled.refused ranged (not_lt.mp regular) tid)
        have unanswered : Private.respond (state.array machine) tid (.read offset length buffer) =
            ({ code := -1, buffer := some buffer }, state.array machine) := by
          cases here : state.array machine tid with
          | none => simp only [Private.respond, here]
          | some array =>
              have short := settled.array_short here
              have outside : ¬offset.toNat + length.toNat ≤ array.length := by omega
              simp only [Private.respond, here, if_neg outside]
        refine ⟨state, ?_, ⟨_, _, settled⟩, by rw [unanswered]⟩
        simp only [exec, failed, unanswered, bind, Except.bind]

/-! ## The state of a run -/

/-- A settled state with an element for each area of the life and no other element.  The heads of
its whole buckets are those of the run; in the run the broken ones have freed heads. -/
structure Living (machine : Machine) (state : State) (buckets : Bucket → List ElementPtr)
    (place : Tid → Option ElementPtr) (table : Bucket → Option ElementPtr) (life : Life) : Prop where
  settled : Settled machine state buckets place
  listed : ∀ pointer element, state.elements pointer = some element →
    place element.tid = some pointer
  arrays : state.array machine = life.arrays
  order : ∀ index, (life.bucket index).map place = (buckets index).map some
  whole : ∀ index, life.broken index = false → table index = state.hashTable index
  broken : ∀ index, life.broken index = true → ∃ pointer, table index = some pointer ∧
    state.elements pointer = none ∧ pointer < state.nextElement

def Lives (machine : Machine) (state : State) (life : Life) : Prop :=
  ∃ mended table buckets place, state = mended.withTable table ∧
    Living machine mended buckets place table life

theorem Lives.initial (machine : Machine) (memory : PageMemory) :
    Lives machine (.initial memory) .start := by
  refine ⟨.initial memory, (State.initial memory).hashTable, _, _, rfl, .initial machine memory,
    ?_, array_initial machine memory, fun _ => rfl, fun _ _ => rfl, ?_⟩
  · simp [State.initial]
  · simp [Life.start]

namespace Living

/-- A call that searches a broken bucket stops the run. -/
theorem stops (living : Living machine state buckets place table life) (kernel : Kernel)
    (dead : ∃ index ∈ Life.searched tid call, life.broken index = true) :
    exec machine kernel (state.withTable table) tid call = .error .useAfterFree := by
  have search : ∀ other, life.broken (bucketOf other) = true →
      hashSearch (state.withTable table) other = .error .useAfterFree := by
    intro other broken
    obtain ⟨pointer, head, absent, -⟩ := living.broken _ broken
    exact hashSearch_dead head absent
  obtain ⟨index, searched, broken⟩ := dead
  cases call with
  | create size =>
      simp only [Life.searched] at searched
      split at searched
      next => simp at searched
      next positive =>
        have own : index = bucketOf tid := by simpa using searched
        subst own
        have nonempty : ¬size ≤ 0 := fun empty => positive (UInt32.le_zero_iff.mp empty)
        have ready := ensureInit_withTable machine state table
        have search' : hashSearch ((ensureInit machine state).withTable table) tid =
            .error .useAfterFree := by
          obtain ⟨pointer, head, absent, -⟩ := living.broken _ broken
          exact hashSearch_dead head
            ((ensureInit_sameTable machine state).elements_eq_none_iff.mpr absent)
        simp only [exec, tlsCreate, ready, if_neg nonempty, search', bind, Except.bind]
  | write offset length buffer =>
      have own : index = bucketOf tid := by simpa [Life.searched] using searched
      subst own
      simp only [exec, tlsWrite, search tid broken, bind, Except.bind]
  | read offset length buffer =>
      have own : index = bucketOf tid := by simpa [Life.searched] using searched
      subst own
      simp only [exec, tlsRead, search tid broken, bind, Except.bind]
  | destroy =>
      have own : index = bucketOf tid := by simpa [Life.searched] using searched
      subst own
      simp only [exec, LocalStorage.tlsDestroy, search tid broken, bind, Except.bind]
  | clone source =>
      have either : index = bucketOf tid ∨ index = bucketOf source := by
        simpa [Life.searched] using searched
      cases dst : life.broken (bucketOf tid) with
      | true => simp only [exec, tlsClone, search tid dst, bind, Except.bind]
      | false =>
          have src : index = bucketOf source := by
            refine either.resolve_left ?_
            rintro rfl
            rw [dst] at broken
            cases broken
          subst src
          simp only [exec, tlsClone, hashSearch_live (living.whole _ dst),
            living.settled.sound.table.hashSearch_eq, search source broken, bind, Except.bind]

end Living

theorem Served.mended (served : Served machine kernel (state.withTable table) tid call)
    (whole : ∀ index ∈ Life.searched tid call, table index = state.hashTable index) :
    Served machine kernel state tid call := by
  cases call with
  | create size =>
      intro positive absent
      have own := whole (bucketOf tid) (by simp [Life.searched, positive])
      have pages := served positive (by rw [hashSearch_live own, absent])
      have ready : (state.withTable table).ready machine = (state.ready machine).withTable table :=
        rfl
      rw [createdPages, ready, createPages_withTable] at pages
      exact pages
  | write offset length buffer =>
      have own := whole (bucketOf tid) (by simp [Life.searched])
      intro failed
      apply served
      rw [tlsWrite_withTable kernel offset length buffer own, failed]
      rfl
  | read => trivial
  | destroy => trivial
  | clone source => trivial

theorem Private.respond_created {arrays : Private.Arrays} (creates : call.Creates)
    (created : (Private.respond arrays tid call).1.code = 0) :
    arrays tid = none ∧ bucketOf tid ∈ Life.searched tid call := by
  cases call with
  | create size =>
      by_cases failing : size = 0 ∨ arrays tid ≠ none
      · simp [Private.respond, failing] at created
      · obtain ⟨positive, absent⟩ := not_or.mp failing
        exact ⟨not_not.mp absent, by simp [Life.searched, positive]⟩
  | clone source =>
      cases own : arrays tid with
      | none => exact ⟨rfl, by simp [Life.searched]⟩
      | some array => simp [Private.respond, own] at created
  | write => exact creates.elim
  | read => exact creates.elim
  | destroy => exact creates.elim

namespace Living

theorem same (living : Living machine state buckets place table life) (kept : SameTable state after)
    (quiet : Quiet machine after) {arrays : Private.Arrays} (answered : after.array machine = arrays) :
    Living machine after buckets place table { life with arrays } := by
  obtain ⟨buckets', place', settled⟩ := quiet
  obtain ⟨rfl, rfl⟩ := (kept.tabled living.settled.sound.table).unique settled.sound.table
  refine ⟨settled, ?_, answered, living.order, ?_, ?_⟩
  · intro pointer element here
    obtain ⟨element', found, sameTid, -⟩ := kept.symm.element_of here
    rw [← sameTid]
    exact living.listed pointer element' found
  · intro index whole
    rw [kept.hashTable]
    exact living.whole index whole
  · intro index broken
    obtain ⟨pointer, head, absent, old⟩ := living.broken index broken
    exact ⟨pointer, head, kept.elements_eq_none_iff.mpr absent, kept.nextElement ▸ old⟩

theorem inserted (living : Living machine state buckets place table life)
    (kept : SameTable state after) (tls : Tls) (absent : place tid = none)
    (own : life.broken (bucketOf tid) = false)
    (quiet : Quiet machine (insertElement after tid tls)) {arrays : Private.Arrays}
    (answered : (insertElement after tid tls).array machine = arrays) :
    Living machine (insertElement after tid tls)
      (Function.update buckets (bucketOf tid) (after.nextElement :: buckets (bucketOf tid)))
      (Function.update place tid (some after.nextElement))
      (relinked table tid 0 (insertElement after tid tls))
      { life with
        arrays
        bucket := Function.update life.bucket (bucketOf tid)
          (tid :: life.bucket (bucketOf tid)) } := by
  obtain ⟨buckets', place', settled⟩ := quiet
  have tabled := kept.tabled living.settled.sound.table
  obtain ⟨rfl, rfl⟩ := (tabled.insert absent tls).unique settled.sound.table
  have elsewhere : ∀ index, index ≠ bucketOf tid →
      (insertElement after tid tls).hashTable index = state.hashTable index := by
    intro index other
    rw [← kept.hashTable]
    exact Function.update_of_ne other _ _
  have others : ∀ pointer, pointer ≠ after.nextElement →
      (insertElement after tid tls).elements pointer = after.elements pointer :=
    fun pointer other => Function.update_of_ne other _ _
  have former : ∀ index, (life.bucket index).map
      (Function.update place tid (some after.nextElement)) = (buckets index).map some := by
    intro index
    apply map_update_place (living.order index)
    simp [absent]
  refine ⟨settled, ?_, answered, ?_, ?_, ?_⟩
  · intro pointer element here
    by_cases new : pointer = after.nextElement
    · subst new
      have element_eq : element = { tid, tls, next := after.hashTable (bucketOf tid) } := by
        simpa [insertElement] using here.symm
      simp [element_eq]
    · rw [others pointer new] at here
      obtain ⟨element', found, sameTid, -⟩ := kept.symm.element_of here
      have placed := living.listed pointer element' found
      rw [sameTid] at placed
      rw [Function.update_of_ne, placed]
      intro caller
      rw [caller, absent] at placed
      cases placed
  · intro index
    by_cases here : index = bucketOf tid
    · subst here
      simp only [Function.update_self, List.map_cons, former (bucketOf tid)]
    · simp only [Function.update_of_ne here, former index]
  · intro index whole
    unfold relinked
    rw [if_pos rfl]
    by_cases here : index = bucketOf tid
    · subst here
      exact Function.update_self _ _ _
    · rw [Function.update_of_ne here, elsewhere index here]
      exact living.whole index whole
  · intro index broken
    have here : index ≠ bucketOf tid := by
      rintro rfl
      rw [own] at broken
      cases broken
    obtain ⟨pointer, head, freed, old⟩ := living.broken index broken
    rw [← kept.nextElement] at old
    refine ⟨pointer, ?_, ?_, Nat.lt_succ_of_lt old⟩
    · rw [relinked, if_pos rfl, Function.update_of_ne here, head]
    · rw [others pointer (Nat.ne_of_lt old)]
      exact kept.elements_eq_none_iff.mpr freed

theorem lasting (living : Living machine state buckets place table life) (ranged : call.Ranged)
    (lasting : call ≠ .destroy) (alive : ∀ index ∈ Life.searched tid call, life.broken index = false)
    (served : Served machine kernel (state.withTable table) tid call) :
    ∃ after, exec machine kernel (state.withTable table) tid call =
        .ok ((Private.respond life.arrays tid call).1, after) ∧
      Lives machine after
        { life.moved tid call (Private.respond life.arrays tid call).1.code with
          arrays := (Private.respond life.arrays tid call).2 } := by
  have whole : ∀ index ∈ Life.searched tid call, table index = state.hashTable index :=
    fun index searched => living.whole index (alive index searched)
  obtain ⟨after, done, quiet, answered⟩ :=
    living.settled.answers ranged lasting (served.mended whole)
  have done' := exec_withTable machine kernel lasting whole
  have relinks := exec_relinks machine kernel state tid lasting _ done
  rw [done] at done'
  rw [living.arrays] at done' answered relinks
  refine ⟨_, done', ?_⟩
  simp only at relinks ⊢
  generalize reply_eq : (Private.respond life.arrays tid call).1 = reply at *
  generalize code_eq : reply.code = code at relinks
  cases relinks with
  | same kept failed =>
      have unmoved : life.moved tid call code = life := by
        by_cases creates : call.Creates
        · rw [failed creates]
          exact Life.moved_failed (by decide)
        · exact Life.moved_lasting lasting creates
      have unlinked : relinked table tid code after = table := by
        by_cases creates : call.Creates
        · rw [failed creates]
          exact relinked_failed (by decide) after
        · refine relinked_same ?_ _
          rw [kept.hashTable]
          apply whole
          cases call with
          | create => exact absurd trivial creates
          | clone => exact absurd trivial creates
          | destroy => exact absurd rfl lasting
          | write => simp [Life.searched]
          | read => simp [Life.searched]
      rw [unmoved, unlinked]
      exact ⟨after, table, buckets, place, rfl, living.same kept quiet answered⟩
  | inserted tls creates kept =>
      rename_i middle
      have created : (Private.respond life.arrays tid call).1.code = 0 := by
        rw [reply_eq, code_eq]
      obtain ⟨unowned, searched⟩ := Private.respond_created creates created
      have absent : place tid = none := by
        rw [← living.settled.sound.array_eq_none_iff, living.arrays, unowned]
      rw [Life.moved_creates creates]
      exact ⟨_, _, _, _, rfl, living.inserted kept tls absent (alive _ searched) quiet answered⟩

theorem head_iff (living : Living machine state buckets place table life)
    (placed : place tid = some pointer) :
    (life.bucket (bucketOf tid)).head? = some tid ↔
      (buckets (bucketOf tid)).head? = some pointer := by
  have heads := congrArg List.head? (living.order (bucketOf tid))
  rw [List.head?_map, List.head?_map] at heads
  constructor
  · intro newest
    rw [newest, Option.map_some, placed, eq_comm, Option.map_eq_some_iff] at heads
    obtain ⟨head, first, same⟩ := heads
    rw [first, same]
  · intro first
    rw [first, Option.map_some, Option.map_eq_some_iff] at heads
    obtain ⟨newest, first', owned⟩ := heads
    rw [first', living.settled.sound.table.place_injective owned placed]

theorem destroyed (living : Living machine state buckets place table life)
    (alive : life.broken (bucketOf tid) = false) :
    ∃ after, exec machine kernel (state.withTable table) tid .destroy =
        .ok ((Private.respond life.arrays tid .destroy).1, after) ∧
      Lives machine after
        { life.moved tid .destroy (Private.respond life.arrays tid .destroy).1.code with
          arrays := (Private.respond life.arrays tid .destroy).2 } := by
  have whole := living.whole _ alive
  have sound := living.settled.sound
  cases placed : place tid with
  | none =>
      have unowned : life.arrays tid = none := by
        rw [← living.arrays, sound.array_eq_none_iff, placed]
      have respond : Private.respond life.arrays tid .destroy =
          ({ code := -1, buffer := none }, life.arrays) := by
        simp only [Private.respond, unowned]
      have searched := hashSearch_live whole
      rw [sound.table.hashSearch_eq, placed] at searched
      refine ⟨state.withTable table, ?_, ?_⟩
      · simp only [exec, LocalStorage.tlsDestroy, searched, respond, bind, Except.bind]
      · have failed : (-1 : Int32) ≠ 0 := by decide
        rw [respond, Life.moved_failed failed]
        exact ⟨state, table, buckets, place, rfl, living⟩
  | some pointer =>
      obtain ⟨array, owned⟩ : ∃ array, life.arrays tid = some array := by
        rw [← Option.ne_none_iff_exists', ← living.arrays, Ne, sound.array_eq_none_iff, placed]
        simp
      have respond : Private.respond life.arrays tid .destroy =
          ({ code := 0, buffer := none }, Function.update life.arrays tid none) := by
        simp only [Private.respond, owned]
      obtain ⟨after, done, destroyed⟩ := living.settled.tlsDestroy_withTable placed whole
      refine ⟨after.withTable table, ?_, after, table, _, _, rfl, destroyed.settled, ?_, ?_, ?_, ?_, ?_⟩
      · simp only [exec, done, respond, bind, Except.bind]
      · intro other element here
        obtain ⟨away, element', found, sameTid⟩ := destroyed.others other element here
        have still := living.listed other element' found
        rw [sameTid] at still
        rw [Function.update_of_ne, still]
        intro caller
        rw [caller, placed, Option.some.injEq] at still
        exact away still.symm
      · rw [respond, destroyed.arrays, living.arrays]
      · intro index
        rw [respond, Life.moved_destroyed]
        by_cases here : index = bucketOf tid
        · subst here
          simp only [Function.update_self]
          exact map_erase (living.order _) (sound.table.chain _).nodup
            (fun _ _ _ => sound.table.place_injective) placed
        · simp only [Function.update_of_ne here]
          refine map_update_placed (living.order index) placed ?_ none
          intro membership
          exact here (sound.table.bucket_unique membership (sound.table.mem placed))
      · intro index
        rw [respond, Life.moved_destroyed]
        by_cases here : index = bucketOf tid
        · subst here
          by_cases newest : (life.bucket (bucketOf tid)).head? = some tid
          · simp [newest]
          · intro _
            rw [destroyed.behind (mt (living.head_iff placed).mpr newest), whole]
        · intro unbroken
          rw [destroyed.elsewhere index here]
          apply living.whole
          by_cases newest : (life.bucket (bucketOf tid)).head? = some tid
          · simpa [newest, here] using unbroken
          · simpa [newest] using unbroken
      · intro index
        rw [respond, Life.moved_destroyed, destroyed.nextElement]
        intro broken
        by_cases here : index = bucketOf tid
        · subst here
          have newest : (life.bucket (bucketOf tid)).head? = some tid := by
            by_contra older
            simp [older, alive] at broken
          have first := (living.head_iff placed).mp newest
          obtain ⟨rest, bucket⟩ := List.head?_eq_some_iff.mp first
          exact ⟨pointer, whole.trans (sound.table.hashTable_eq bucket), destroyed.freed,
            sound.table.below _ _ placed⟩
        · have former : life.broken index = true := by
            by_cases newest : (life.bucket (bucketOf tid)).head? = some tid
            · simpa [newest, here] using broken
            · simpa [newest] using broken
          obtain ⟨other, head, absent, old⟩ := living.broken index former
          exact ⟨other, head, destroyed.former other absent, old⟩

end Living

/-! ## Runs -/

theorem Lives.exec (lives : Lives machine state life) (ranged : call.Ranged)
    (served : Served machine kernel state tid call) :
    life.respond tid call = none ∧ exec machine kernel state tid call = .error .useAfterFree ∨
      ∃ reply life' after, life.respond tid call = some (reply, life') ∧
        exec machine kernel state tid call = .ok (reply, after) ∧ Lives machine after life' := by
  obtain ⟨mended, table, buckets, place, rfl, living⟩ := lives
  by_cases dead : (Life.searched tid call).any life.broken = true
  · left
    refine ⟨if_pos dead, living.stops kernel ?_⟩
    simpa only [List.any_eq_true] using dead
  · right
    have alive : ∀ index ∈ Life.searched tid call, life.broken index = false := by
      intro index searched
      by_contra broken
      exact dead (List.any_eq_true.mpr ⟨index, searched, by simpa using broken⟩)
    refine ⟨(Private.respond life.arrays tid call).1,
      { life.moved tid call (Private.respond life.arrays tid call).1.code with
        arrays := (Private.respond life.arrays tid call).2 }, ?_⟩
    by_cases lasting : call = .destroy
    · subst lasting
      obtain ⟨after, done, lives⟩ := living.destroyed (alive (bucketOf tid) (by simp [Life.searched]))
      exact ⟨after, if_neg dead, done, lives⟩
    · obtain ⟨after, done, lives⟩ := living.lasting ranged lasting alive served
      exact ⟨after, if_neg dead, done, lives⟩

theorem Lives.play (lives : Lives machine state life) {events : List Event}
    (ranged : ∀ event ∈ events, event.call.Ranged) (served : AllServed machine state events) :
    life.play events = none ∧ play machine state events = .error .useAfterFree ∨
      ∃ replies life' final, life.play events = some (replies, life') ∧
        play machine state events = .ok (replies, final) ∧ Lives machine final life' := by
  induction events generalizing state life with
  | nil => exact .inr ⟨[], life, state, rfl, rfl, lives⟩
  | cons event rest inductionHypothesis =>
      rcases lives.exec (ranged event List.mem_cons_self) served.1 with ⟨stopped, stops⟩ |
        ⟨reply, life', after, answered, done, lives'⟩
      · left
        constructor
        · simp only [Life.play, stopped, bind, Option.bind]
        · simp only [LocalStorage.play, stops, bind, Except.bind]
      · have later := inductionHypothesis lives'
          (fun other membership => ranged other (List.mem_cons_of_mem _ membership))
          (served.2 _ _ done)
        rcases later with ⟨stopped, stops⟩ | ⟨replies, life'', final, answers, run, lives''⟩
        · left
          constructor
          · simp only [Life.play, answered, stopped, bind, Option.bind]
          · simp only [LocalStorage.play, done, stops, bind, Except.bind]
        · right
          refine ⟨reply :: replies, life'', final, ?_, ?_, lives''⟩
          · simp only [Life.play, answered, answers, bind, Option.bind]
          · simp only [LocalStorage.play, done, run, bind, Except.bind]

theorem Lives.array_eq (lives : Lives machine state life)
    (alive : life.broken (bucketOf tid) = false) : state.array machine tid = life.arrays tid := by
  obtain ⟨mended, table, buckets, place, rfl, living⟩ := lives
  rw [← living.arrays]
  unfold State.array
  rw [hashSearch_live (living.whole _ alive)]
  rfl

/-- Any sequence of calls, `tls_destroy` included, returns what the private arrays return and
leaves the same arrays in the whole buckets, or it stops with the use of a freed element, at the
first call that searches a bucket whose newest area had been destroyed. -/
theorem wholeLives (machine : Machine) (memory : PageMemory) (events : List Event)
    (ranged : ∀ event ∈ events, event.call.Ranged)
    (served : AllServed machine (.initial memory) events) :
    Life.start.play events = none ∧
        play machine (.initial memory) events = .error .useAfterFree ∨
      ∃ replies life final, Life.start.play events = some (replies, life) ∧
        play machine (.initial memory) events = .ok (replies, final) ∧
        ∀ tid, life.broken (bucketOf tid) = false →
          final.array machine tid = life.arrays tid := by
  rcases (Lives.initial machine memory).play ranged served with stopped |
    ⟨replies, life, final, answers, run, lives⟩
  · exact .inl stopped
  · exact .inr ⟨replies, life, final, answers, run, fun tid alive => lives.array_eq alive⟩

def searchBroken : List Event :=
  [{ tid := 1, call := .create 1, kernel := twoPages },
    { tid := 1, call := .destroy, kernel := twoPages },
    { tid := 2, call := .create 1, kernel := twoPages },
    { tid := 32, call := .create 1, kernel := twoPages }]

theorem wholeLives_searchBroken :
    play page4096 (.initial fun _ => none) searchBroken = .error .useAfterFree := by
  have ranged : ∀ event ∈ searchBroken, event.call.Ranged := by
    simp [searchBroken, Call.Ranged]
  have served : AllServed page4096 (.initial fun _ => none) searchBroken := by
    refine ⟨fun _ _ => by decide, ?_⟩
    intro reply created done
    cases done
    refine ⟨trivial, ?_⟩
    intro reply destroyed done
    cases done
    refine ⟨fun _ _ => by decide, ?_⟩
    intro reply created done
    cases done
    constructor
    · intro _ absent
      cases absent
    · intro reply created done
      cases done
  rcases wholeLives page4096 (fun _ => none) searchBroken ranged served with ⟨-, stopped⟩ |
    ⟨replies, life, final, answers, -⟩
  · exact stopped
  · cases answers

/-! ## What is given back -/

/-- Only areas that exist take space: each element belongs to a thread with an array, each page to
the area of an element, and the rest of the memory is what it was at the start. -/
structure Frugal (memory : PageMemory) (life : Life) (state : State) : Prop where
  owner : ∀ pointer element, state.elements pointer = some element → life.arrays element.tid ≠ none
  single : ∀ pointer other element element', state.elements pointer = some element →
    state.elements other = some element' → element.tid = element'.tid → pointer = other
  used : ∀ p page, state.pages p = some page →
    ∃ pointer element, state.elements pointer = some element ∧ p ∈ element.tls.pages
  outside : ∀ address, (∀ p page, state.pages p = some page → page.address ≠ address) →
    state.memory address = memory address

theorem Lives.frugal {memory : PageMemory} (lives : Lives machine state life)
    (housed : Housed memory state) : Frugal memory life state := by
  obtain ⟨mended, table, buckets, place, rfl, living⟩ := lives
  refine ⟨?_, ?_, ?_, housed.outside⟩
  · intro pointer element here
    have placed := living.listed pointer element here
    rw [← living.arrays, Ne, living.settled.sound.array_eq_none_iff, placed]
    simp
  · intro pointer other element element' here there same
    have placed := living.listed pointer element here
    rw [same, living.listed other element' there, Option.some.injEq] at placed
    exact placed.symm
  · intro p page allocated
    obtain ⟨frame, mapped⟩ := living.settled.sound.backed.mapped p page allocated
    have frame_eq : mended.frameOf p = some frame := by
      have allocated' : mended.pages p = some page := allocated
      simp [State.frameOf, allocated', mapped]
    obtain ⟨⟨tid, slot⟩, pointing⟩ := living.settled.covered p frame frame_eq
    obtain ⟨tls, area, held⟩ := Option.bind_eq_some_iff.mp pointing
    obtain ⟨pointer, element, -, reached, rfl⟩ := living.settled.sound.element_of_areaAt area
    exact ⟨pointer, element, (mended.element_eq_ok_iff).mp reached, List.mem_of_getElem? held⟩

/-- Without any area there is no element and no page, and the memory is what it was. -/
theorem Frugal.empty {memory : PageMemory} (frugal : Frugal memory life state)
    (none_ : ∀ tid, life.arrays tid = none) :
    (∀ pointer, state.elements pointer = none) ∧ (∀ p, state.pages p = none) ∧
      state.memory = memory := by
  have elements : ∀ pointer, state.elements pointer = none := by
    intro pointer
    by_contra allocated
    obtain ⟨element, here⟩ := Option.ne_none_iff_exists'.mp allocated
    exact frugal.owner pointer element here (none_ _)
  have pages : ∀ p, state.pages p = none := by
    intro p
    by_contra allocated
    obtain ⟨page, here⟩ := Option.ne_none_iff_exists'.mp allocated
    obtain ⟨pointer, element, found, -⟩ := frugal.used p page here
    rw [elements pointer] at found
    cases found
  refine ⟨elements, pages, ?_⟩
  funext address
  apply frugal.outside
  intro p page here
  rw [pages p] at here
  cases here

/-- After every run that returns, elements and pages exist for the areas that exist and for no
others, and once all areas are destroyed the memory is what it was at the start. -/
theorem givesBack (machine : Machine) (memory : PageMemory) (events : List Event)
    (ranged : ∀ event ∈ events, event.call.Ranged)
    (served : AllServed machine (.initial memory) events) {replies : List Reply} {final : State}
    (run : play machine (.initial memory) events = .ok (replies, final)) :
    ∃ life, Life.start.play events = some (replies, life) ∧ Frugal memory life final ∧
      ((∀ tid, life.arrays tid = none) → (∀ pointer, final.elements pointer = none) ∧
        (∀ p, final.pages p = none) ∧ final.memory = memory) := by
  rcases (Lives.initial machine memory).play ranged served with ⟨-, stopped⟩ |
    ⟨replies', life, final', answers, run', lives⟩
  · rw [stopped] at run
    cases run
  · rw [run, Except.ok.injEq, Prod.mk.injEq] at run'
    obtain ⟨rfl, rfl⟩ := run'
    have frugal := lives.frugal ((Housed.stable memory).play (.initial memory) machine events _ run)
    exact ⟨life, answers, frugal, frugal.empty⟩

def destroyBoth : List Event :=
  [{ tid := 1, call := .create 1, kernel := twoPages },
    { tid := 2, call := .clone 1, kernel := twoPages },
    { tid := 1, call := .destroy, kernel := twoPages },
    { tid := 2, call := .destroy, kernel := twoPages }]

theorem givesBack_destroyBoth :
    ∃ replies final, play page4096 (.initial fun _ => none) destroyBoth = .ok (replies, final) ∧
      (∀ pointer, final.elements pointer = none) ∧ final.memory = fun _ => none := by
  have ranged : ∀ event ∈ destroyBoth, event.call.Ranged := by
    simp [destroyBoth, Call.Ranged]
  have served : AllServed page4096 (.initial fun _ => none) destroyBoth := by
    refine ⟨fun _ _ => by decide, ?_⟩
    intro reply created done
    cases done
    exact ⟨trivial, fun _ _ _ => ⟨trivial, fun _ _ _ => ⟨trivial, fun _ _ _ => trivial⟩⟩⟩
  have all : ∀ replies life, Life.start.play destroyBoth = some (replies, life) →
      ∀ tid, life.arrays tid = none := by
    intro replies life answers tid
    cases answers
    by_cases second : tid = 2
    · simp [second]
    · by_cases first : tid = 1
      · simp [first]
      · simp [first, second, Life.start]
  rcases (Lives.initial page4096 fun _ => none).play ranged served with ⟨stopped, -⟩ |
    ⟨replies, life, final, answers, run, -⟩
  · cases stopped
  · obtain ⟨life', answers', -, given⟩ :=
      givesBack page4096 (fun _ => none) destroyBoth ranged served run
    obtain ⟨elements, -, memory⟩ := given (all _ _ answers')
    exact ⟨replies, final, run, elements, memory⟩

end EC440.LocalStorage
