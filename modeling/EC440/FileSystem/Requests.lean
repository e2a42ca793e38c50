import EC440.FileSystem.Abstraction

/-!
# Requests on names and handles

What the code provides for, and the calls that create, open, close, delete,
measure and seek: within these bounds they reply as a store does, and the
state keeps standing for that store.
-/

namespace EC440.FileSystem

open Linked Outcome Ranges

variable {tolerance : Tolerance} {garbage : Nat → Buffer} {state after start : State}
  {chart chart' : Slot → List BlockIndex} {store : Store} {slot : Slot} {descriptor : Descriptor}
  {name : CString}

/-! ## Requests on a state -/

/-- The reply of a call that delivers no bytes. -/
def coded (outcome : Outcome (Int32 × State)) : Outcome (Store.Reply × State) := do
  let (code, after) ← outcome
  .ok (.only code.toInt, after)

/-- Execute a request.  Of the bytes that `fs_read` stores to the array of its caller, as many are
delivered as it returns. -/
def State.answer (tolerance : Tolerance) (garbage : Nat → Buffer) (state : State) :
    Store.Request → Outcome (Store.Reply × State)
  | .create name => coded (fsCreate state name)
  | .opens name => coded (fsOpen tolerance state name)
  | .close fildesI => coded (fsClose tolerance state fildesI)
  | .delete name => coded (fsDelete tolerance state name)
  | .read fildesI nbyte => do
      let (code, data, after) ← fsRead tolerance garbage state fildesI nbyte
      .ok (⟨code.toInt, (List.range code.toInt.toNat).map data⟩, after)
  | .write fildesI buf nbyte => coded (fsWrite tolerance garbage state fildesI buf nbyte)
  | .lseek fildesI offset => coded (fsLseek state fildesI offset)
  | .getFilesize fildesI => do
      let size ← fsGetFilesize state fildesI
      .ok (.only size.toInt, state)

/-- Where a write ends that the size limit may cut short. -/
def State.stop (state : State) (descriptor : Descriptor) (nbyte : UInt64) : Nat :=
  min (state.position descriptor + nbyte.toNat) maxFSize

/-- What the code provides for: descriptors inside the table, a free block for a new file, names
to delete that are not empty, reads within the staging buffer of the file, and writes to files
that can be extended as far as needed. -/
def State.Provides (state : State) : Store.Request → Prop
  | .create name => state.Admits name → 0 < state.freeCount
  | .opens _ => True
  | .close fildesI | .lseek fildesI _ | .getFilesize fildesI =>
      ∃ descriptor : Descriptor, fildesI = descriptor.val
  | .delete name => name.bytes ≠ []
  | .read fildesI nbyte => ∃ descriptor : Descriptor, fildesI = descriptor.val ∧
      ∀ slot, Denotes state descriptor slot →
        (state.position descriptor + nbyte.toNat : Int) ≤
          blockSize * numBlocks (state.dir slot).size
  | .write fildesI _ nbyte => ∃ descriptor : Descriptor, fildesI = descriptor.val ∧
      ∀ slot, Denotes state descriptor slot →
        state.position descriptor + nbyte.toNat < 2 ^ 64 ∧
        state.Extensible slot (state.stop descriptor nbyte) ∧
        state.Room slot (state.newSize slot (state.stop descriptor nbyte))

/-- A search that reads one element behind an array survives it. -/
structure Peeks (tolerance : Tolerance) : Prop where
  dir : tolerance .dirPeek = true
  fildes : tolerance .fildesPeek = true

/-- The request is answered as by the store, and leaves what the store leaves. -/
def Agrees (tolerance : Tolerance) (garbage : Nat → Buffer) (state : State) (store : Store)
    (request : Store.Request) : Prop :=
  ∃ after chart', state.answer tolerance garbage request = .ok ((store.respond request).1, after) ∧
    Intact after chart' ∧ StandsFor after (store.respond request).2

theorem Agrees.of_eq {request : Store.Request} {reply : Store.Reply} {store' : Store}
    (responds : store.respond request = (reply, store'))
    (done : state.answer tolerance garbage request = .ok (reply, after))
    (intact : Intact after chart') (stands : StandsFor after store') :
    Agrees tolerance garbage state store request := by
  refine ⟨after, chart', ?_, intact, ?_⟩
  · rw [responds]
    exact done
  · rw [responds]
    exact stands

theorem coded_ok {outcome : Outcome (Int32 × State)} {code : Int32}
    (done : outcome = .ok (code, after)) : coded outcome = .ok (.only code.toInt, after) := by
  rw [done]
  rfl

theorem coded_done {outcome : Outcome (Int32 × State)} (done : outcome = .ok (0, after)) :
    coded outcome = .ok (.only 0, after) :=
  coded_ok done

theorem coded_refused {outcome : Outcome (Int32 × State)} (refused : outcome = .ok (-1, state)) :
    coded outcome = .ok (.only (-1), state) :=
  coded_ok refused

theorem Intact.grow {call : Call} {code : Int32} (intact : Intact state chart)
    (effect : Effect state chart call code after chart') (extending : Extending state call) :
    Intact after chart' :=
  .of_fitting (effect.sound intact.sound)
    (effect.fitting intact.sound intact.fitting extending.1)
    (effect.covered intact.sound intact.fitting intact.covered extending)

/-! ## fs_create -/

theorem StandsFor.ncard_names (stands : StandsFor state store) (sound : Sound state chart) :
    {name | store.files name ≠ none}.ncard = {slot | state.Used slot}.ncard := by
  have image : {name | store.files name ≠ none} =
      (fun slot => (state.dir slot).name.text) '' {slot | state.Used slot} := by
    ext name
    rw [Set.mem_ofPred_eq, ne_eq, stands.files_eq_none_iff, Set.mem_image]
    simp only [Set.mem_ofPred_eq]
    push Not
    exact Iff.rfl
  rw [image]
  apply Set.InjOn.ncard_image
  intro first usedFirst second usedSecond same
  exact sound.distinctNames first second usedFirst usedSecond same

theorem ncard_used_lt_iff : {slot | state.Used slot}.ncard < maxFNum ↔ ∃ slot, ¬state.Used slot := by
  have all : (Set.univ : Set Slot).ncard = maxFNum := by
    rw [Set.ncard_univ, Nat.card_eq_fintype_card, Fintype.card_fin]
  constructor
  · intro fewer
    by_contra full
    simp only [not_exists, not_not] at full
    have every : {slot | state.Used slot} = Set.univ := Set.eq_univ_of_forall full
    rw [every, all] at fewer
    exact lt_irrefl _ fewer
  · rintro ⟨slot, unused⟩
    rw [← all]
    refine Set.ncard_lt_ncard ?_
    rw [Set.ssubset_univ_iff, Set.ne_univ_iff_exists_notMem]
    exact ⟨slot, unused⟩

theorem StandsFor.admits_iff (stands : StandsFor state store) (sound : Sound state chart) :
    state.Admits name ↔ store.Admits name.bytes := by
  constructor
  · intro admits
    refine ⟨admits.nonempty, admits.short, (stands.files_eq_none_iff _).mpr admits.new, ?_⟩
    rw [stands.ncard_names sound]
    exact ncard_used_lt_iff.mpr admits.room
  · intro admits
    refine ⟨admits.nonempty, admits.short, (stands.files_eq_none_iff _).mp admits.new, ?_⟩
    have room := admits.room
    rw [stands.ncard_names sound] at room
    exact ncard_used_lt_iff.mp room

theorem create_agrees (intact : Intact state chart) (stands : StandsFor state store)
    (provided : state.Provides (.create name)) :
    Agrees tolerance garbage state store (.create name) := by
  have sound := intact.sound
  by_cases admitted : store.Admits name.bytes
  · have admits := (stands.admits_iff sound).mpr admitted
    obtain ⟨slot, fresh, unused, free, firstFit, done⟩ :=
      fsCreate_ok sound.superBlock sound.distinguished admits (provided admits)
    have new := admits.unmatched sound.distinguished
    have effect : Effect state chart (.create name) 0 (state.created slot fresh name) _ :=
      .created unused admits.short new free firstFit
    have intact' := intact.grow effect ⟨trivial, fun _ _ _ _ same => by cases same⟩
    have used : (state.created slot fresh name).Used slot := by
      simp [State.Used, State.created]
    have named : ((state.created slot fresh name).dir slot).name.text = name.bytes := by
      simpa [State.created] using NameField.text_strcpy (state.dir slot).name name admits.short
    have filled : (state.created slot fresh name).content slot = [] := by
      apply List.eq_nil_of_length_eq_zero
      rw [length_content, created_size]
      rfl
    have others : ∀ other, other ≠ slot →
        SameFile state (state.created slot fresh name) other := by
      intro other distinct
      refine .of_effect sound effect id fun isUsed => ?_
      rwa [State.Used, created_entry_of_ne distinct] at isUsed
    refine .of_eq (dif_pos admitted) (coded_done done) intact' ⟨?_, ?_⟩
    · have holds := stands.files.set others used (fun before => absurd before unused)
        fun other _ _ same => new other (same.trans named)
      rwa [named, filled] at holds
    · exact stands.handles.congr fun _ => .of_effect sound effect (by simp) rfl
  · have refused : ¬state.Admits name := mt (stands.admits_iff sound).mp admitted
    exact .of_eq (dif_neg admitted) (coded_refused (fsCreate_refused sound.distinguished refused))
      intact stands

/-! ## fs_open and fs_close -/

theorem StandsFor.nextHandle_eq (stands : StandsFor state store) (sound : Sound state chart) :
    store.nextHandle = search fun descriptor => decide ((state.fildes descriptor).used = 0) := by
  apply congrArg search
  funext descriptor
  by_cases isOpen : state.Open descriptor
  · obtain ⟨slot, denotes⟩ := sound.denoted isOpen
    rw [stands.handles_eq denotes, decide_eq_false isOpen]
    rfl
  · rw [stands.handles_eq_none isOpen, decide_eq_true (not_not.mp isOpen)]
    rfl

theorem opens_agrees (peeks : Peeks tolerance) (intact : Intact state chart)
    (stands : StandsFor state store) : Agrees tolerance garbage state store (.opens name) := by
  have sound := intact.sound
  by_cases known : state.HasFile name
  · obtain ⟨slot, used, named⟩ := known
    have unused : ¬(state.dir slot).used = 0 := used
    have stored : store.files name.bytes = some (state.content slot) := by
      rw [← named]
      exact stands.files_eq used
    have next := stands.nextHandle_eq sound
    cases found : search fun descriptor => decide ((state.fildes descriptor).used = 0) with
    | none =>
        refine .of_eq (Store.respond_opens_refused (.inr (next.trans found))) (coded_refused ?_)
          intact stands
        unfold fsOpen
        simp only [sound.distinguished.search_used used named, if_neg unused, found,
          tolerate_bind, peeks.fildes, if_true]
    | some descriptor =>
        have closed : ¬state.Open descriptor := by
          simpa [State.Open] using (search_eq_some found).1
        have effect : Effect state chart (.opens name) (Int32.ofNat descriptor.val)
            (state.opened slot descriptor) chart := .opened used named closed
        have denotes : Denotes (state.opened slot descriptor) descriptor slot :=
          opened_denotes state used
        have done : state.answer tolerance garbage (.opens name) =
            .ok (.only descriptor.val, state.opened slot descriptor) := by
          rw [← toInt_ofNat_descriptor]
          apply coded_ok
          unfold fsOpen
          simp only [sound.distinguished.search_used used named, if_neg unused, found]
          rfl
        refine .of_eq (Store.respond_opens stored (next.trans found)) done
          (intact.grow effect ⟨trivial, fun _ _ _ _ same => by cases same⟩) ⟨?_, ?_⟩
        · exact stands.files.congr fun _ => .of_effect sound effect id relink_used.mp
        · have holds := stands.handles.place (effect.sound sound)
            (fun other distinct => .of_effect sound effect (by simp) (relink_fildes_of_ne distinct))
            denotes
          have handle : (state.opened slot descriptor).handle slot descriptor = ⟨name.bytes, 0⟩ := by
            rw [State.handle, State.position, State.opened, relink_fildes,
              (relink_entry _ _ _ _ _ _).2.1, named]
            rfl
          rwa [handle] at holds
  · refine .of_eq (Store.respond_opens_refused (.inl ?_))
      (coded_refused (fsOpen_unknown tolerance known)) intact stands
    rw [stands.files_eq_none_iff]
    intro slot used named
    exact known ⟨slot, used, named⟩

theorem close_agrees (intact : Intact state chart) (stands : StandsFor state store)
    (descriptor : Descriptor) :
    Agrees tolerance garbage state store (.close descriptor.val) := by
  have sound := intact.sound
  by_cases isOpen : state.Open descriptor
  · obtain ⟨slot, denotes⟩ := sound.denoted isOpen
    have effect : Effect state chart (.close descriptor.val) 0 (state.closed slot descriptor) chart :=
      .closed denotes
    have closed : ¬(state.closed slot descriptor).Open descriptor := by
      rw [State.Open, State.closed, relink_fildes]
      exact not_not.mpr rfl
    have responds : store.respond (.close descriptor.val) = (.only 0, store.close descriptor) := by
      simp only [Store.respond, Store.held?_of_open (stands.handles_eq denotes)]
    refine .of_eq responds (coded_done (fsClose_open sound denotes))
      (intact.grow effect ⟨trivial, fun _ _ _ _ same => by cases same⟩) ⟨?_, ?_⟩
    · exact stands.files.congr fun _ => .of_effect sound effect id relink_used.mp
    · apply stands.handles.update
      · intro other distinct
        refine .of_effect sound effect ?_ (relink_fildes_of_ne distinct)
        rintro same
        injection same with same
        exact distinct (Fin.ext (by exact_mod_cast same.symm))
      · intro handle
        constructor
        · intro none
          cases none
        · rintro ⟨other, denotes', -⟩
          exact absurd denotes'.isOpen closed
  · refine .of_eq ?_ (coded_refused (fsClose_closed isOpen)) intact stands
    simp only [Store.respond, Store.held?_of_closed (stands.handles_eq_none isOpen)]

/-! ## fs_delete -/

theorem StandsFor.unopened_iff (stands : StandsFor state store) (sound : Sound state chart)
    (used : state.Used slot) :
    store.Unopened (state.dir slot).name.text ↔ state.openCount (state.dir slot).head = 0 := by
  constructor
  · intro unopened
    by_contra nonzero
    obtain ⟨descriptor, isOpen, file⟩ := openCount_pos_iff.mp (Nat.pos_of_ne_zero nonzero)
    exact unopened descriptor _ (stands.handles_eq ⟨isOpen, used, file.symm⟩) rfl
  · intro none descriptor handle found named
    obtain ⟨other, denotes, rfl⟩ := (stands.handles descriptor handle).mp found
    obtain rfl := sound.distinctNames other slot denotes.used used named
    have positive : 0 < state.openCount (state.dir other).head :=
      openCount_pos_iff.mpr ⟨descriptor, denotes.isOpen, denotes.head.symm⟩
    omega

theorem Intact.deleted (intact : Intact state chart) (used : state.Used slot)
    (unreferenced : state.openCount (state.dir slot).head = 0) :
    Intact (state.deleted slot (chart slot)) (Function.update chart slot []) := by
  refine ⟨intact.sound.deleted used unreferenced, intact.within.deleted, fun other isUsed => ?_,
    fun other isUsed => ?_, intact.tight.deleted slot⟩
  · obtain ⟨distinct, before⟩ := deleted_used isUsed
    rw [Function.update_of_ne distinct, deleted_entry_of_ne distinct]
    exact intact.short other before
  · obtain ⟨distinct, before⟩ := deleted_used isUsed
    rw [Function.update_of_ne distinct, deleted_entry_of_ne distinct]
    exact intact.covered other before

theorem delete_agrees (peeks : Peeks tolerance) (intact : Intact state chart)
    (stands : StandsFor state store) (nonempty : name.bytes ≠ []) :
    Agrees tolerance garbage state store (.delete name) := by
  have sound := intact.sound
  cases found : search fun slot => decide ((state.dir slot).name.Matches name) with
  | none =>
      have absent := (sound.distinguished.search_eq_none_iff nonempty).mp found
      have unknown : store.files name.bytes = none := (stands.files_eq_none_iff _).mpr absent
      refine .of_eq (dif_neg fun both => both.1 unknown) (coded_refused ?_) intact stands
      unfold fsDelete
      simp only [found, tolerate_bind, peeks.dir, if_true]
  | some slot =>
      obtain ⟨used, named⟩ := (sound.distinguished.search_eq_some_iff nonempty).mp found
      have present : store.files name.bytes ≠ none := by
        rw [← named, stands.files_eq used]
        exact Option.some_ne_none _
      have unopened_iff := stands.unopened_iff sound used
      rw [named] at unopened_iff
      by_cases unreferenced : state.openCount (state.dir slot).head = 0
      · have count : ¬(state.dir slot).refCnt > 0 := by
          rw [sound.counted slot used, unreferenced]
          decide
        have done := fsDelete_used tolerance sound found used count
        have effect : Effect state chart (.delete name) 0 (state.deleted slot (chart slot)) _ :=
          .deleted used named unreferenced
        refine .of_eq (dif_pos ⟨present, unopened_iff.mpr unreferenced⟩) (coded_done done)
          (intact.deleted used unreferenced) ⟨?_, ?_⟩
        · have others : ∀ other, other ≠ slot →
              SameFile state (state.deleted slot (chart slot)) other := by
            intro other distinct
            by_cases before : state.Used other
            · refine .of_effect sound effect (fun acts => distinct ?_) fun _ => before
              exact sound.distinctNames other slot before used (acts.trans named.symm)
            · have stays : ¬(state.deleted slot (chart slot)).Used other := fun isUsed =>
                before (deleted_used isUsed).2
              exact ⟨⟨fun isUsed => absurd isUsed stays, fun isUsed => absurd isUsed before⟩,
                fun isUsed => absurd isUsed before, fun isUsed => absurd isUsed before⟩
          have holds := stands.files.remove others (fun isUsed => (deleted_used isUsed).1 rfl)
            fun other distinct isUsed same => distinct (sound.distinctNames other slot isUsed used same)
          rwa [named] at holds
        · exact stands.handles.congr fun _ => .of_effect sound effect (by simp) rfl
      · obtain ⟨descriptor, isOpen, file⟩ := openCount_pos_iff.mp (Nat.pos_of_ne_zero unreferenced)
        have count := sound.refCnt_pos used isOpen file
        refine .of_eq (dif_neg fun both => unreferenced (unopened_iff.mp both.2)) (coded_refused ?_)
          intact stands
        unfold fsDelete
        simp only [found, if_pos count]

/-! ## fs_get_filesize and fs_lseek -/

def StandsFor.held (stands : StandsFor state store) (denotes : Denotes state descriptor slot) :
    store.Held :=
  ⟨descriptor, state.handle slot descriptor, stands.handles_eq denotes⟩

theorem StandsFor.held?_eq (stands : StandsFor state store) (denotes : Denotes state descriptor slot) :
    store.held? descriptor.val = some (stands.held denotes) :=
  Store.held?_of_open _

theorem StandsFor.held?_eq_none (stands : StandsFor state store) (closed : ¬state.Open descriptor) :
    store.held? descriptor.val = none :=
  Store.held?_of_closed (stands.handles_eq_none closed)

theorem StandsFor.content_eq (stands : StandsFor state store)
    (denotes : Denotes state descriptor slot) :
    (stands.held denotes).content = state.content slot := by
  have stored : store.files (state.dir slot).name.text = some (stands.held denotes).content :=
    (stands.held denotes).files_eq
  rw [stands.files_eq denotes.used] at stored
  exact (Option.some.inj stored).symm

theorem Intact.length_content (intact : Intact state chart) (used : state.Used slot) :
    ((state.content slot).length : Int) = (state.dir slot).size.toInt := by
  rw [FileSystem.length_content, Int.toNat_of_nonneg (intact.within.size slot used).1]

theorem Intact.position_eq (intact : Intact state chart) (denotes : Denotes state descriptor slot) :
    (state.position descriptor : Int) = (state.fildes descriptor).offset.toInt :=
  Int.toNat_of_nonneg (intact.within.offset descriptor slot denotes).1

theorem getFilesize_agrees (intact : Intact state chart) (stands : StandsFor state store)
    (descriptor : Descriptor) :
    Agrees tolerance garbage state store (.getFilesize descriptor.val) := by
  by_cases isOpen : state.Open descriptor
  · obtain ⟨slot, denotes⟩ := intact.sound.denoted isOpen
    have responds : store.respond (.getFilesize descriptor.val) =
        (.only (state.dir slot).size.toInt, store) := by
      simp only [Store.respond, stands.held?_eq denotes, stands.content_eq denotes,
        intact.length_content denotes.used]
    refine .of_eq responds ?_ intact stands
    simp only [State.answer, fsGetFilesize_open intact.sound denotes, bind, Except.bind]
  · have responds : store.respond (.getFilesize descriptor.val) = (.only (-1), store) := by
      simp only [Store.respond, stands.held?_eq_none isOpen]
    refine .of_eq responds ?_ intact stands
    simp only [State.answer, fsGetFilesize_closed isOpen, bind, Except.bind]
    rfl

theorem StandsFor.moved {call : Call} {code offset : Int32} {position : Nat}
    (stands : StandsFor state store) (sound : Sound state chart)
    (denotes : Denotes state descriptor slot)
    (effect : Effect state chart call code (state.moved descriptor offset) chart)
    (spared : ∀ other, ¬ActsOn state call other) (notClosed : ∀ fildesI, call ≠ .close fildesI)
    (value : offset.toInt.toNat = position)
    (inside : position ≤ (stands.held denotes).content.length) :
    StandsFor (state.moved descriptor offset) ((stands.held denotes).move position inside) := by
  constructor
  · exact stands.files.congr fun other => .of_effect sound effect (spared other) id
  · have holds := stands.handles.place (effect.sound sound)
      (fun other distinct => .of_effect sound effect (notClosed _) (moved_fildes_of_ne distinct))
      (denotes.moved descriptor offset)
    have handle : (state.moved descriptor offset).handle slot descriptor =
        ⟨(state.dir slot).name.text, position⟩ := by
      rw [State.handle, State.position, moved_fildes_self, value]
      rfl
    rwa [handle] at holds

theorem lseek_agrees (intact : Intact state chart) (stands : StandsFor state store)
    (descriptor : Descriptor) (offset : Int64) :
    Agrees tolerance garbage state store (.lseek descriptor.val offset) := by
  have sound := intact.sound
  by_cases isOpen : state.Open descriptor
  · obtain ⟨slot, denotes⟩ := sound.denoted isOpen
    have done := fsLseek_open sound denotes offset
    have length : ((stands.held denotes).content.length : Int) = (state.dir slot).size.toInt := by
      rw [stands.content_eq denotes, intact.length_content denotes.used]
    by_cases inside : 0 ≤ offset.toInt ∧ offset.toInt ≤ (state.dir slot).size.toInt
    · rw [if_pos inside] at done
      have within := inside.2.trans (intact.within.size slot denotes.used).2
      have inside' : 0 ≤ offset.toInt ∧ offset.toInt ≤ (stands.held denotes).content.length := by
        rwa [length]
      have effect : Effect state chart (.lseek descriptor.val offset) 0
          (state.moved descriptor (Int32.ofInt offset.toInt)) chart :=
        .sought denotes inside.1 inside.2
      have responds : store.respond (.lseek descriptor.val offset) =
          (.only 0, (stands.held denotes).move offset.toInt.toNat (by omega)) := by
        simp only [Store.respond, stands.held?_eq denotes, dif_pos inside']
      refine .of_eq responds (coded_done done)
        (intact.grow effect ⟨trivial, fun _ _ _ _ same => by cases same⟩) ?_
      apply stands.moved sound denotes effect (fun _ => id) (fun _ => by simp)
      rw [toInt_ofInt_of_within inside.1 within]
    · rw [if_neg inside] at done
      refine .of_eq ?_ (coded_refused done) intact stands
      rw [← length] at inside
      simp only [Store.respond, stands.held?_eq denotes, dif_neg inside]
  · refine .of_eq ?_ (coded_refused (fsLseek_closed isOpen offset)) intact stands
    simp only [Store.respond, stands.held?_eq_none isOpen]

end EC440.FileSystem
