import EC440.FileSystem.Frames

/-!
# Accounting of blocks and descriptors

The blocks of the data area are always accounted for, the walks over chains
always end, and the reference counts agree with the open descriptors.
-/

namespace EC440.FileSystem

open Linked Outcome

variable {tolerance : Tolerance} {state after : State} {chart chart' : Slot → List BlockIndex}
  {call : Call} {code : Int32}

/-! ## Blocks -/

theorem Sound.sum_chain (sound : Sound state chart) :
    ∑ slot with state.Used slot, (state.chain slot).length = ∑ slot, (chart slot).length := by
  rw [Finset.sum_filter]
  refine Finset.sum_congr rfl fun slot _ => ?_
  by_cases used : state.Used slot
  · rw [if_pos used, sound.charted.chain_eq used]
  · rw [if_neg used, sound.charted.unused slot (not_not.mp used), List.length_nil]

/-- Every state of a session on a fresh file system is well formed, all blocks of its data area
are accounted for, and no call runs in a cycle of `FAT`. -/
theorem session_wellFormed {start : State} {allowed : State → Call → Prop}
    (fresh : FreshMount tolerance start) (session : Session tolerance allowed start state) :
    WellFormed state ∧
      state.freeCount + ∑ slot with state.Used slot, (state.chain slot).length =
        diskBlocks - dataStart ∧
      ∀ garbage call, exec tolerance garbage state call ≠ .error .diverges := by
  obtain ⟨chart, sound⟩ := session.sound fresh.start.sound
  have tight := session.tight fresh.start sound
  refine ⟨sound.charted.wellFormed tight, ?_, ?_⟩
  · rw [sound.sum_chain]
    exact sound.charted.freeCount_add tight
  · intro garbage call diverges
    rcases exec_cases tolerance sound garbage call with ⟨_, _, _, done, -⟩ | ⟨stop, stopped, expected⟩
    · rw [done] at diverges
      cases diverges
    · rw [stopped] at diverges
      cases diverges
      cases expected

theorem FreshMount.chart_eq (fresh : FreshMount tolerance state) (sound : Sound state chart)
    (slot : Slot) : chart slot = [] :=
  sound.charted.unused slot (not_not.mp (fresh.unused slot))

theorem Session.weaken {allowed allowed' : State → Call → Prop} {start : State}
    (session : Session tolerance allowed start state)
    (weaker : ∀ state call, allowed state call → allowed' state call) :
    Session tolerance allowed' start state := by
  refine Relation.ReflTransGen.mono ?_ _ _ session
  rintro before after ⟨garbage, call, code, permitted, done⟩
  exact ⟨garbage, call, code, weaker before call permitted, done⟩

def Call.First (call : Call) : Prop := call = .create fileName ∨ call = .opens fileName

/-- After a first file has been created and opened, it has one block and nothing else is used. -/
theorem exists_firstFile (tolerates : tolerance .fildesReset = true) :
    ∃ start opened chart, FreshMount tolerance start ∧
      Session tolerance (fun _ call => call.First) start opened ∧ Sound opened chart ∧
      chart = Function.update (fun _ => []) 63 [10] ∧ Denotes opened 0 63 ∧
      (opened.dir 63).size = 0 ∧ (opened.fildes 0).offset = 0 := by
  obtain ⟨start, fresh, dir, fat, fildes⟩ := exists_freshMount tolerates
  obtain ⟨creates, opens⟩ := firstFile tolerance fresh.start.superBlock dir fat fildes
  obtain ⟨chart, sound⟩ := fresh.start.sound
  obtain rfl : chart = fun _ => [] := funext (fresh.chart_eq sound)
  have new : ∀ other, ¬(start.dir other).name.Matches fileName := by
    intro other named
    rw [NameField.Matches, sound.unusedName other (fresh.unused other)] at named
    cases named
  have free : (10 : BlockIndex) ∈ freeBlocks start.fat := by
    rw [mem_freeBlocks, fat]
    exact ⟨by decide, rfl⟩
  have soundCreated := sound.created (fresh.unused 63) (by decide) new free
  have used : (start.created 63 10 fileName).Used 63 := by
    simp [State.Used, State.created]
  have closed : ¬(start.created 63 10 fileName).Open 0 := by
    simp [State.Open, State.created, fildes, State.initial]
  refine ⟨start, (start.created 63 10 fileName).opened 63 0, _, fresh, ?_,
    soundCreated.opened used closed, rfl, ⟨?_, relink_used.mpr used, ?_⟩, ?_, ?_⟩
  · exact (Relation.ReflTransGen.single
      ⟨fun _ _ => 0, .create fileName, 0, .inl rfl, creates⟩).tail
        ⟨fun _ _ => 0, .opens fileName, 0, .inr rfl, opens⟩
  · simp [State.Open, State.opened, State.relink]
  · simp [State.opened, State.relink]
  · simp [State.opened, State.relink, State.created]
  · simp [State.opened, State.relink]

theorem session_wellFormed_firstFile : ∃ start opened, FreshMount mountOnly start ∧
    Session mountOnly (fun _ _ => True) start opened ∧ opened.Used 63 ∧ WellFormed opened := by
  obtain ⟨start, opened, _, fresh, session, -, -, denotes, -⟩ :=
    exists_firstFile (by decide : mountOnly .fildesReset = true)
  exact ⟨start, opened, fresh, session.weaken fun _ _ _ => trivial, denotes.used,
    (session_wellFormed fresh session).1⟩

/-! ## Descriptors -/

/-- `descriptor` denotes the entry `slot`, which has the same name and head as before. -/
structure Attached (before after : State) (descriptor : Descriptor) (slot : Slot) : Prop where
  denotes : Denotes after descriptor slot
  name : (after.dir slot).name = (before.dir slot).name
  head : (after.dir slot).head = (before.dir slot).head

theorem Attached.trans {first second third : State} {descriptor : Descriptor} {slot : Slot}
    (attached : Attached first second descriptor slot)
    (attached' : Attached second third descriptor slot) : Attached first third descriptor slot :=
  ⟨attached'.denotes, attached'.name.trans attached.name, attached'.head.trans attached.head⟩

theorem Attached.of_eq {descriptor : Descriptor} {slot : Slot}
    (denotes : Denotes state descriptor slot)
    (entry : (after.dir slot).used = (state.dir slot).used ∧
      (after.dir slot).name = (state.dir slot).name ∧
      (after.dir slot).head = (state.dir slot).head)
    (fd : (after.fildes descriptor).used = (state.fildes descriptor).used ∧
      (after.fildes descriptor).file = (state.fildes descriptor).file) :
    Attached state after descriptor slot where
  denotes :=
    { isOpen := by rw [State.Open, fd.1]; exact denotes.isOpen
      used := by rw [State.Used, entry.1]; exact denotes.used
      head := by rw [entry.2.2, fd.2, denotes.head] }
  name := entry.2.1
  head := entry.2.2

theorem Effect.attached (effect : Effect state chart call code after chart')
    {descriptor : Descriptor} {slot : Slot} (denotes : Denotes state descriptor slot)
    (notClosed : call ≠ .close descriptor.val) : Attached state after descriptor slot := by
  cases effect with
  | idle => exact ⟨denotes, rfl, rfl⟩
  | @created target _ _ unused =>
      have other : slot ≠ target := fun same => unused (same ▸ denotes.used)
      exact .of_eq denotes (by simp [State.created, other]) ⟨rfl, rfl⟩
  | @opened target new _ _ _ closed =>
      have other : descriptor ≠ new := fun same => closed (same ▸ denotes.isOpen)
      exact .of_eq denotes (relink_entry _ _ _ _ _ _) (by simp [State.opened, State.relink, other])
  | @closed target old =>
      have other : descriptor ≠ old := fun same => notClosed (by rw [same])
      exact .of_eq denotes (relink_entry _ _ _ _ _ _) (by simp [State.closed, State.relink, other])
  | @deleted target _ _ _ unreferenced =>
      have other : slot ≠ target := by
        rintro rfl
        have positive : 0 < state.openCount (state.dir slot).head :=
          openCount_pos_iff.mpr ⟨descriptor, denotes.isOpen, denotes.head.symm⟩
        omega
      exact .of_eq denotes (by simp [State.deleted, other]) ⟨rfl, rfl⟩
  | sought | read => exact .of_eq denotes ⟨rfl, rfl, rfl⟩ (moved_fildes _ _ _ _)
  | @written target =>
      refine .of_eq denotes ?_ (moved_fildes _ _ _ _)
      by_cases same : slot = target
      · subst same
        simp [State.written, State.stored]
      · simp [State.written, State.stored, same]
  | truncated => exact .of_eq denotes ⟨rfl, rfl, rfl⟩ (moved_fildes _ _ _ _)

theorem Session.attached {descriptor : Descriptor} {slot : Slot}
    (session : Session tolerance (fun _ call => call ≠ .close descriptor.val) state after)
    (sound : ∃ chart, Sound state chart) (denotes : Denotes state descriptor slot) :
    Attached state after descriptor slot := by
  induction session with
  | refl => exact ⟨denotes, rfl, rfl⟩
  | tail run step inductionHypothesis =>
      obtain ⟨chart, sound⟩ := Session.sound run sound
      obtain ⟨garbage, call, code, notClosed, done⟩ := step
      obtain ⟨chart', effect⟩ := exec_effect sound done
      exact inductionHypothesis.trans (effect.attached inductionHypothesis.denotes notClosed)

theorem toInt_ofNat_descriptor (descriptor : Descriptor) :
    (Int32.ofNat descriptor.val).toInt = descriptor.val :=
  Int32.toInt_ofNat_of_lt (lt_trans descriptor.isLt (by decide))

theorem fsOpen_descriptor {name : CString} {descriptor : Descriptor}
    (done : fsOpen tolerance state name = .ok (Int32.ofNat descriptor.val, after)) :
    ∃ slot, state.Used slot ∧ (state.dir slot).name.Matches name ∧ ¬state.Open descriptor ∧
      after = state.opened slot descriptor := by
  rcases fsOpen_cases tolerance state name with failed | stopped |
    ⟨slot, other, used, named, closed, opened⟩
  · rw [failed, Except.ok.injEq, Prod.mk.injEq] at done
    have value := congrArg Int32.toInt done.1
    rw [toInt_ofNat_descriptor] at value
    exact absurd value (by simp)
  · rw [stopped] at done
    cases done
  · rw [opened, Except.ok.injEq, Prod.mk.injEq] at done
    have value := congrArg Int32.toInt done.1
    rw [toInt_ofNat_descriptor, toInt_ofNat_descriptor] at value
    obtain rfl : other = descriptor := Fin.ext (by exact_mod_cast value)
    exact ⟨slot, used, named, closed, done.2.symm⟩

theorem opened_denotes (state : State) {slot : Slot} {descriptor : Descriptor}
    (used : state.Used slot) : Denotes (state.opened slot descriptor) descriptor slot where
  isOpen := by
    rw [State.Open, State.opened, State.relink]
    simp
  used := by
    rw [State.Used, State.opened, (relink_entry _ _ _ _ _ _).1]
    exact used
  head := by
    rw [State.opened, (relink_entry _ _ _ _ _ _).2.2]
    simp [State.relink]

end EC440.FileSystem
