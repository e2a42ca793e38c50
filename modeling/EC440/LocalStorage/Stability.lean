import EC440.Library.Triples
import EC440.LocalStorage.Refinement

/-!
# What every call keeps

A property of the state that the building blocks of `tls.c` keep (protecting a
page, storing a byte, counting references, adding and removing blocks) is kept
by every call, whether it succeeds or fails on the way.
-/

namespace EC440.LocalStorage

open Outcome

variable {holds : State → Prop} {state after : State} {machine : Machine} {kernel : Kernel}
  {tid : Tid} {p : PagePtr}

/-- The building blocks keep a property. -/
structure Stable (holds : State → Prop) : Prop where
  init : ∀ machine state, holds state → holds (tlsInit machine state)
  changeProt : ∀ prot state p, holds state → Ensures (changeProt prot state p) holds
  storeByte : ∀ state p pageOffset byte, holds state →
    Ensures (storeByte state p pageOffset byte) holds
  sharePage : ∀ state p, holds state → Ensures (sharePage state p) holds
  releasePage : ∀ state p, holds state → Ensures (releasePage state p) holds
  /-- The copy of a shared page. -/
  copyOnWrite : ∀ kernel state pointer element workingPage p page, holds state →
    state.elements pointer = some element → state.pages p = some page →
    Ensures (copyOnWrite kernel state pointer element workingPage p page) fun result =>
      holds result.2
  /-- A loop of `tls_create` that fails. -/
  createPages : ∀ kernel count state, holds state → holds (createPages kernel count state).2
  /-- The area that `tls_create` sets up. -/
  create : ∀ kernel count state pages after tid (tls : Tls), holds state →
    LocalStorage.createPages kernel count state = (some pages, after) → tls.pages = pages →
    holds (insertElement after tid tls)
  /-- The area that `tls_clone` sets up. -/
  clone : ∀ state middle pointer element count tid (tls : Tls), holds state → holds middle →
    middle.elements = state.elements → state.elements pointer = some element →
    tls.pages = element.tls.pages.take count → holds (insertElement middle tid tls)
  unlinkElement : ∀ state element tid, holds state →
    Ensures (unlinkElement state element tid) holds
  /-- `free` of an element. -/
  remove : ∀ state pointer, holds state →
    holds { state with elements := Function.update state.elements pointer none }

/-! ## Memory alone -/

/-- Only memory changes. -/
structure Unmoved (state after : State) : Prop where
  elements : after.elements = state.elements
  pages : after.pages = state.pages
  nextPage : after.nextPage = state.nextPage

theorem Unmoved.refl (state : State) : Unmoved state state :=
  ⟨rfl, rfl, rfl⟩

theorem changeProt_unmoved {prot : Prot} (changed : changeProt prot state p = .ok after) :
    Unmoved state after := by
  rcases bind_eq_ok_iff.mp changed with ⟨page, -, rest⟩
  split at rest
  next => cases rest
  next memory _ =>
    cases rest
    exact ⟨rfl, rfl, rfl⟩

theorem storeByte_unmoved {pageOffset : Nat} {byte : UInt8}
    (stored : storeByte state p pageOffset byte = .ok after) : Unmoved state after := by
  rcases bind_eq_ok_iff.mp stored with ⟨page, -, rest⟩
  split at rest
  next =>
    rcases bind_eq_ok_iff.mp rest with ⟨memory, -, rest⟩
    cases rest
    exact ⟨rfl, rfl, rfl⟩
  next => cases rest

/-! ## Calls -/

theorem sharePage_elements (state : State) (p : PagePtr) :
    Ensures (sharePage state p) fun after => after.elements = state.elements := by
  unfold sharePage
  exact .bind_of fun page _ => .ok rfl

namespace Stable

theorem forSlots {body : State → PagePtr → Outcome State}
    (round : ∀ state p, holds state → Ensures (body state p) holds) (satisfied : holds state)
    (pages : List PagePtr) (count : Nat) : Ensures (forSlots pages body count state) holds := by
  unfold LocalStorage.forSlots
  refine .foldlM (fun middle i kept => ?_) _ satisfied
  exact .bind_of fun p _ => round middle p kept

variable (stable : Stable holds)

include stable

theorem writeByte (satisfied : holds state) (kernel : Kernel) (pointer : ElementPtr)
    (indx : Int32) (byte : UInt8) :
    Ensures (writeByte kernel pointer state indx byte) holds := by
  unfold LocalStorage.writeByte
  refine .bind_of fun element reached => ?_
  refine .bind_of fun mainPage _ => ?_
  refine .bind_of fun main here => ?_
  have found := (state.element_eq_ok_iff).mp reached
  have allocated := (state.page_eq_ok_iff).mp here
  refine .ite (fun _ => ?_) fun _ => stable.storeByte _ _ _ _ satisfied
  refine .bind (stable.copyOnWrite _ _ _ _ _ _ _ satisfied found allocated) ?_
  exact fun result copied => stable.storeByte _ _ _ _ copied

theorem writeLoop (satisfied : holds state) (kernel : Kernel) (pointer : ElementPtr)
    (limit : UInt32) (buffer : Buffer) (fuel i : Nat) (indx : Int32) :
    Ensures (writeLoop kernel pointer limit buffer fuel state i indx) holds := by
  induction fuel generalizing state i indx with
  | zero => exact .error _
  | succ fuel inductionHypothesis =>
      unfold LocalStorage.writeLoop
      refine .ite (fun _ => ?_) fun _ => .ok satisfied
      refine .bind (stable.writeByte satisfied kernel pointer indx _) fun after written => ?_
      exact .bind_of fun next _ => inductionHypothesis written _ _

theorem tlsCreate (satisfied : holds state) (machine : Machine) (kernel : Kernel) (tid : Tid)
    (size : UInt32) :
    Ensures (tlsCreate machine kernel state tid size) fun result => holds result.2 := by
  have ready : holds (ensureInit machine state) := by
    unfold ensureInit
    split
    · exact satisfied
    · exact stable.init machine state satisfied
  unfold LocalStorage.tlsCreate
  refine .ite (fun _ => .ok ready) fun _ => ?_
  refine .bind_of fun found _ => ?_
  cases found with
  | some pointer => exact .ok ready
  | none =>
      have failed := stable.createPages kernel
        (pagesFor (ensureInit machine state).pageSize size).toNat _ ready
      simp only
      split
      next after created =>
        rw [created] at failed
        exact .ok failed
      next pages after created =>
        exact .ok (stable.create _ _ _ _ _ _ _ ready created rfl)

theorem tlsWrite (satisfied : holds state) (kernel : Kernel) (tid : Tid)
    (offset length : UInt32) (buffer : Buffer) :
    Ensures (tlsWrite kernel state tid offset length buffer) fun result => holds result.2 := by
  unfold LocalStorage.tlsWrite
  refine .bind_of fun found _ => ?_
  cases found with
  | none => exact .ok satisfied
  | some pointer =>
      refine .bind_of fun element _ => ?_
      refine .ite (fun _ => .ok satisfied) fun _ => ?_
      refine .bind (forSlots (stable.changeProt _) satisfied _ _) fun opened open_ => ?_
      refine .bind (stable.writeLoop open_ kernel pointer _ buffer _ _ _) fun written after => ?_
      refine .bind_of fun element' _ => ?_
      refine .bind (forSlots (stable.changeProt _) after _ _) fun closed last => ?_
      exact .ok last

theorem tlsRead (satisfied : holds state) (tid : Tid) (offset length : UInt32)
    (buffer : Buffer) :
    Ensures (tlsRead state tid offset length buffer) fun result => holds result.2.2 := by
  unfold LocalStorage.tlsRead
  refine .bind_of fun found _ => ?_
  cases found with
  | none => exact .ok satisfied
  | some pointer =>
      refine .bind_of fun element _ => ?_
      refine .ite (fun _ => .ok satisfied) fun _ => ?_
      refine .bind (forSlots (stable.changeProt _) satisfied _ _) fun opened open_ => ?_
      refine .bind_of fun filled _ => ?_
      refine .bind (forSlots (stable.changeProt _) open_ _ _) fun closed last => ?_
      exact .ok last

theorem tlsDestroy (satisfied : holds state) (tid : Tid) :
    Ensures (tlsDestroy state tid) fun result => holds result.2 := by
  unfold LocalStorage.tlsDestroy
  refine .bind_of fun found _ => ?_
  cases found with
  | none => exact .ok satisfied
  | some pointer =>
      refine .bind_of fun element _ => ?_
      refine .bind (forSlots stable.releasePage satisfied _ _) fun released after => ?_
      refine .bind (stable.unlinkElement _ element tid after) fun unlinked last => ?_
      exact .ok (stable.remove _ _ last)

theorem tlsClone (satisfied : holds state) (dstTid tid : Tid) :
    Ensures (tlsClone state dstTid tid) fun result => holds result.2 := by
  unfold LocalStorage.tlsClone
  refine .bind_of fun dstElement _ => ?_
  refine .bind_of fun srcElement _ => ?_
  split
  next pointer =>
    refine .bind_of fun element reached => ?_
    have found := (state.element_eq_ok_iff).mp reached
    have shared : Ensures
        (LocalStorage.forSlots element.tls.pages LocalStorage.sharePage element.tls.pageNum.toNat
          state) fun middle => holds middle ∧ middle.elements = state.elements := by
      refine forSlots (fun middle p both => ?_) ⟨satisfied, rfl⟩ _ _
      intro after done
      exact ⟨stable.sharePage middle p both.1 after done,
        (sharePage_elements middle p after done).trans both.2⟩
    refine .bind shared fun middle both => ?_
    exact .ok (stable.clone _ _ _ _ _ _ _ satisfied both.1 both.2 found rfl)
  next => exact .ok satisfied

theorem exec (satisfied : holds state) (machine : Machine) (kernel : Kernel) (tid : Tid)
    (call : Call) : Ensures (exec machine kernel state tid call) fun result => holds result.2 := by
  cases call with
  | create size =>
      exact .bind (stable.tlsCreate satisfied machine kernel tid size) fun result after => .ok after
  | write offset length buffer =>
      exact .bind (stable.tlsWrite satisfied kernel tid offset length buffer) fun result after =>
        .ok after
  | read offset length buffer =>
      exact .bind (stable.tlsRead satisfied tid offset length buffer) fun result after => .ok after
  | destroy => exact .bind (stable.tlsDestroy satisfied tid) fun result after => .ok after
  | clone source => exact .bind (stable.tlsClone satisfied tid source) fun result after => .ok after

theorem play (satisfied : holds state) (machine : Machine) (events : List Event) :
    Ensures (play machine state events) fun result => holds result.2 := by
  induction events generalizing state with
  | nil => exact .ok satisfied
  | cons event rest inductionHypothesis =>
      unfold LocalStorage.play
      refine .bind (stable.exec satisfied machine event.kernel event.tid event.call) ?_
      intro result after
      exact .bind (inductionHypothesis after) fun final last => .ok last

end Stable

end EC440.LocalStorage
