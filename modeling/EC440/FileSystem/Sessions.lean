import EC440.FileSystem.Transfers

/-!
# Sessions

`Effect` lists what a call that returns can do to a sound state and to the
chart of its files.  What holds along a session is proved by induction over
its steps, with one case for each effect.
-/

namespace EC440.FileSystem

open Linked Outcome

variable {tolerance : Tolerance} {state after : State} {chart chart' : Slot → List BlockIndex}
  {call : Call} {code : Int32}

/-- The return code and the state that a call leaves, with the chart of that state. -/
inductive Effect (state : State) (chart : Slot → List BlockIndex) :
    Call → Int32 → State → (Slot → List BlockIndex) → Prop
  /-- The call fails, or does nothing. -/
  | idle (call : Call) : Effect state chart call (-1) state chart
  | created {slot : Slot} {fresh : BlockIndex} {name : CString} (unused : ¬state.Used slot)
      (short : name.bytes.length ≤ maxFName) (new : ∀ other, ¬(state.dir other).name.Matches name)
      (free : fresh ∈ freeBlocks state.fat) (firstFit : FirstFit state.fat [fresh]) :
      Effect state chart (.create name) 0 (state.created slot fresh name)
        (Function.update chart slot [fresh])
  | opened {slot : Slot} {descriptor : Descriptor} {name : CString} (used : state.Used slot)
      (named : (state.dir slot).name.Matches name) (closed : ¬state.Open descriptor) :
      Effect state chart (.opens name) (Int32.ofNat descriptor.val)
        (state.opened slot descriptor) chart
  | closed {slot : Slot} {descriptor : Descriptor} (denotes : Denotes state descriptor slot) :
      Effect state chart (.close descriptor.val) 0 (state.closed slot descriptor) chart
  | deleted {slot : Slot} {name : CString} (used : state.Used slot)
      (named : (state.dir slot).name.Matches name)
      (unreferenced : state.openCount (state.dir slot).head = 0) :
      Effect state chart (.delete name) 0 (state.deleted slot (chart slot))
        (Function.update chart slot [])
  | sought {slot : Slot} {descriptor : Descriptor} {offset : Int64}
      (denotes : Denotes state descriptor slot) (lower : 0 ≤ offset.toInt)
      (upper : offset.toInt ≤ (state.dir slot).size.toInt) :
      Effect state chart (.lseek descriptor.val offset) 0
        (state.moved descriptor (Int32.ofInt offset.toInt)) chart
  | read {slot : Slot} {descriptor : Descriptor} {nbyte : UInt64}
      (denotes : Denotes state descriptor slot) :
      Effect state chart (.read descriptor.val nbyte)
        (readOutcome (state.dir slot).size (state.fildes descriptor).offset nbyte).1
        (state.moved descriptor
          (readOutcome (state.dir slot).size (state.fildes descriptor).offset nbyte).2) chart
  | written {slot : Slot} {descriptor : Descriptor} {buf : Nat → UInt8} {nbyte : UInt64}
      {added : List BlockIndex} {fat : Fat} (garbage : Nat → Buffer)
      (denotes : Denotes state descriptor slot) (extended : Extended state chart slot added fat)
      (length : added.length = appended state (chart slot).length
        (writeStop (state.fildes descriptor).offset nbyte / blockSize)) :
      Effect state chart (.write descriptor.val buf nbyte)
        (Int32.ofNat (clampCount (state.fildes descriptor).offset nbyte))
        (state.written garbage slot descriptor buf nbyte fat (chart slot ++ added))
        (Function.update chart slot (chart slot ++ added))
  | truncated {slot : Slot} {descriptor : Descriptor} {length : Int64}
      {kept tail : List BlockIndex} {last : BlockIndex} {junk content : Block} {offset : Int32}
      (denotes : Denotes state descriptor slot) (split : chart slot = kept ++ last :: tail) :
      Effect state chart (.truncate descriptor.val length) 0
        (state.truncated descriptor last tail junk content offset)
        (Function.update chart slot (kept ++ [last]))

theorem Effect.sound (sound : Sound state chart) (effect : Effect state chart call code after chart') :
    Sound after chart' := by
  cases effect with
  | idle => exact sound
  | created unused short new free => exact sound.created unused short new free
  | opened used _ closed => exact sound.opened used closed
  | closed denotes => exact sound.closed denotes.used denotes.isOpen denotes.head
  | deleted used _ unreferenced => exact sound.deleted used unreferenced
  | sought => exact sound.moved _ _
  | read => exact sound.moved _ _
  | written _ denotes extended => exact sound.stored denotes.used extended _ _ _ _
  | truncated denotes split => exact sound.truncated denotes.used split _ _ _

/-- No call leaves a block behind. -/
theorem Effect.tight (effect : Effect state chart call code after chart')
    (sound : Sound state chart) (tight : Tight state.fat chart) : Tight after.fat chart' := by
  cases effect with
  | idle | opened | closed | sought | read => exact tight
  | @created slot fresh name unused =>
      have empty : chart slot = [] := sound.charted.unused slot (not_not.mp unused)
      refine tight.replace (fun block _ other => ?_) fun block own => ?_
      · exact Function.update_of_ne (by simpa using other) ..
      · rw [empty] at own
        cases own
  | deleted => exact tight.deleted _
  | @written slot _ _ _ added _ _ _ extended =>
      refine tight.replace (fun block notOwn notBlocks => ?_) fun block own notBlocks => ?_
      · exact extended.frame block notOwn fun inAdded =>
          notBlocks (List.mem_append_right _ inAdded)
      · exact absurd (List.mem_append_left _ own) notBlocks
  | @truncated slot _ _ kept tail last _ _ _ _ split =>
      refine tight.replace (fun block notOwn _ => ?_) fun block own notKept => ?_
      · rw [split] at notOwn
        simp only [List.mem_append, List.mem_cons, not_or] at notOwn
        exact (release_of_notMem notOwn.2.2).trans (Function.update_of_ne notOwn.2.1 _ _)
      · rw [split] at own
        simp only [List.mem_append, List.mem_cons, List.not_mem_nil, or_false, not_or] at own notKept
        exact release_of_mem (by tauto)

/-- How a call in a sound state can stop: at a descriptor that is not in the table, at a FAT
index outside the table, or at an access next to an array. -/
inductive Stop.Expected : Stop → Prop
  | fildes {index : Int} (outside : index < 0 ∨ maxFildes ≤ index) :
      Expected (.outOfRange .fildes index)
  | fat (index : Int) : Expected (.outOfRange .fat index)
  | stray (access : Stray) : Expected (.stray access)

def Accounted (state : State) (chart : Slot → List BlockIndex) (call : Call)
    (outcome : Outcome (Int32 × State)) : Prop :=
  (∃ code after chart', outcome = .ok (code, after) ∧ Effect state chart call code after chart') ∨
    ∃ stop, outcome = .error stop ∧ stop.Expected

namespace Accounted

variable {outcome : Outcome (Int32 × State)}

theorem ok (effect : Effect state chart call code after chart')
    (done : outcome = .ok (code, after)) : Accounted state chart call outcome :=
  .inl ⟨code, after, chart', done, effect⟩

theorem idle (done : outcome = .ok (-1, state)) : Accounted state chart call outcome :=
  ok (.idle call) done

theorem stop {stop : Stop} (expected : stop.Expected) (stopped : outcome = .error stop) :
    Accounted state chart call outcome :=
  .inr ⟨stop, stopped, expected⟩

theorem checked {check : Outcome Unit} (effect : Effect state chart call code after chart')
    (cases_ : check = .ok () ∨ check = .error (.stray .heap))
    (done : outcome = check >>= fun _ => .ok (code, after)) :
    Accounted state chart call outcome := by
  rcases cases_ with passed | stopped
  · exact ok effect (by rw [done, passed]; rfl)
  · exact stop (.stray .heap) (by rw [done, stopped]; rfl)

end Accounted

theorem checkCopy_cases (tolerance : Tolerance) (blocks offset : Int) (count : Nat) :
    checkCopy tolerance blocks offset count = .ok () ∨
      checkCopy tolerance blocks offset count = .error (.stray .heap) := by
  unfold checkCopy tolerate
  split_ifs <;> simp

/-- What a call does in a sound state: it returns with one of the effects, or stops. -/
theorem exec_cases (tolerance : Tolerance) (sound : Sound state chart) (garbage : Nat → Buffer)
    (call : Call) : Accounted state chart call (exec tolerance garbage state call) := by
  cases call with
  | create name =>
      rcases fsCreate_cases sound name with done | stopped |
        ⟨slot, fresh, unused, short, new, free, firstFit, done⟩
      · exact .idle done
      · exact .stop (.fat _) stopped
      · exact .ok (.created unused short new free firstFit) done
  | opens name =>
      rcases fsOpen_cases tolerance state name with done | stopped |
        ⟨slot, descriptor, used, named, closed, done⟩
      · exact .idle done
      · exact .stop (.stray _) stopped
      · exact .ok (.opened used named closed) done
  | close fildesI =>
      rcases sound.fildes_cases fildesI with ⟨descriptor, slot, rfl, denotes⟩ |
        ⟨descriptor, rfl, closed⟩ | stopped
      · exact .ok (.closed denotes) (fsClose_open sound denotes)
      · exact .idle (fsClose_closed closed)
      · refine .stop (.fildes (fildesAt_outside stopped)) ?_
        simp only [exec, fsClose, stopped, bind, Except.bind]
  | delete name =>
      rcases fsDelete_cases tolerance sound name with done | stopped | stopped |
        ⟨slot, used, named, unreferenced, done⟩
      · exact .idle done
      · exact .stop (.stray _) stopped
      · exact .stop (.fat _) stopped
      · exact .ok (.deleted used named unreferenced) done
  | read fildesI nbyte =>
      rcases sound.fildes_cases fildesI with ⟨descriptor, slot, rfl, denotes⟩ |
        ⟨descriptor, rfl, closed⟩ | stopped
      · by_cases positive : 0 < nbyte.toNat
        · have done := fsRead_open tolerance sound denotes garbage positive
          rcases checkTransfer_cases tolerance (numBlocks (state.dir slot).size)
            (chart slot).length (state.fildes descriptor).offset.toInt nbyte.toNat with
            passed | stopped
          · refine .ok (.read denotes) ?_
            simp only [exec, done, passed, bind, Except.bind]
          · refine .stop (.stray .heap) ?_
            simp only [exec, done, stopped, bind, Except.bind]
        · refine .idle ?_
          simp only [exec, fsRead_zero denotes garbage (not_lt.mp positive), bind, Except.bind]
      · refine .idle ?_
        simp only [exec, fsRead_closed closed, bind, Except.bind]
      · refine .stop (.fildes (fildesAt_outside stopped)) ?_
        simp only [exec, fsRead, stopped, bind, Except.bind]
  | write fildesI buf nbyte =>
      rcases sound.fildes_cases fildesI with ⟨descriptor, slot, rfl, denotes⟩ |
        ⟨descriptor, rfl, closed⟩ | stopped
      · obtain ⟨added, fat, extended, length, done⟩ :=
          fsWrite_open tolerance sound denotes garbage buf nbyte rfl rfl rfl
        exact .checked (.written garbage denotes extended length)
          (checkTransfer_cases _ _ _ _ _) done
      · exact .idle (fsWrite_closed closed garbage buf nbyte)
      · refine .stop (.fildes (fildesAt_outside stopped)) ?_
        simp only [exec, fsWrite, stopped, bind, Except.bind]
  | lseek fildesI offset =>
      rcases sound.fildes_cases fildesI with ⟨descriptor, slot, rfl, denotes⟩ |
        ⟨descriptor, rfl, closed⟩ | stopped
      · have done := fsLseek_open sound denotes offset
        split at done
        next within => exact .ok (.sought denotes within.1 within.2) done
        next => exact .idle done
      · exact .idle (fsLseek_closed closed offset)
      · refine .stop (.fildes (fildesAt_outside stopped)) ?_
        simp only [exec, fsLseek, stopped, bind, Except.bind]
  | truncate fildesI length =>
      rcases sound.fildes_cases fildesI with ⟨descriptor, slot, rfl, denotes⟩ |
        ⟨descriptor, rfl, closed⟩ | stopped
      · by_cases within : length.toInt ≤ (state.dir slot).size.toInt
        · rcases fsTruncate_open sound denotes garbage within with ⟨-, stopped⟩ |
            ⟨kept, last, tail, split, -, done⟩
          · exact .stop (.fat _) stopped
          · exact .checked (.truncated denotes split) (checkCopy_cases _ _ _ _) done
        · exact .idle (fsTruncate_long sound denotes garbage (not_le.mp within))
      · exact .idle (fsTruncate_closed closed garbage length)
      · refine .stop (.fildes (fildesAt_outside stopped)) ?_
        simp only [exec, fsTruncate, stopped, bind, Except.bind]

theorem exec_effect {garbage : Nat → Buffer} (sound : Sound state chart)
    (done : exec tolerance garbage state call = .ok (code, after)) :
    ∃ chart', Effect state chart call code after chart' := by
  rcases exec_cases tolerance sound garbage call with ⟨code', after', chart', done', effect⟩ |
    ⟨stop, stopped, -⟩
  · rw [done'] at done
    cases done
    exact ⟨chart', effect⟩
  · rw [stopped] at done
    cases done

/-! ## The start of a session -/

/-- A well-formed file system just mounted: no descriptor is open and no entry is referenced.
The entries of `FAT` in front of the data area are never used. -/
structure SessionStart (state : State) : Prop where
  active : state.device.active = true
  superBlock : state.fs = some layout
  wellFormed : WellFormed state
  reserved : ∀ block : BlockIndex, block.val < dataStart → state.fat block = 0
  unusedName : ∀ slot, ¬state.Used slot → (state.dir slot).name.text = []
  unusedHead : ∀ slot, ¬state.Used slot → (state.dir slot).head = 0 ∨ (state.dir slot).head = -1
  usedName : ∀ slot, state.Used slot → (state.dir slot).name.text ≠ []
  distinctNames : ∀ first second, state.Used first → state.Used second →
    (state.dir first).name.text = (state.dir second).name.text → first = second
  unreferenced : ∀ slot, (state.dir slot).refCnt = 0
  closed : ∀ descriptor, ¬state.Open descriptor

/-- The same, but there may be further blocks that are marked as used. -/
structure ChainedStart (state : State) : Prop where
  active : state.device.active = true
  superBlock : state.fs = some layout
  chained : Chained state
  reserved : ∀ block : BlockIndex, block.val < dataStart → state.fat block = 0
  unusedName : ∀ slot, ¬state.Used slot → (state.dir slot).name.text = []
  unusedHead : ∀ slot, ¬state.Used slot → (state.dir slot).head = 0 ∨ (state.dir slot).head = -1
  usedName : ∀ slot, state.Used slot → (state.dir slot).name.text ≠ []
  distinctNames : ∀ first second, state.Used first → state.Used second →
    (state.dir first).name.text = (state.dir second).name.text → first = second
  unreferenced : ∀ slot, (state.dir slot).refCnt = 0
  closed : ∀ descriptor, ¬state.Open descriptor

theorem ChainedStart.sound (start : ChainedStart state) : Sound state state.chains := by
  refine ⟨start.active, start.superBlock, start.chained.charted start.reserved,
    start.unusedName, start.unusedHead, fun slot _ => start.unreferenced slot, start.usedName,
    start.distinctNames, ?_, fun descriptor isOpen => absurd isOpen (start.closed descriptor)⟩
  intro slot _
  rw [start.unreferenced, openCount_closed start.closed]
  rfl

theorem SessionStart.chainedStart (start : SessionStart state) : ChainedStart state :=
  { start with chained := start.wellFormed.chained }

theorem SessionStart.sound (start : SessionStart state) : ∃ chart, Sound state chart :=
  ⟨_, start.chainedStart.sound⟩

theorem SessionStart.tight (start : SessionStart state) {chart : Slot → List BlockIndex}
    (sound : Sound state chart) : Tight state.fat chart := by
  rw [← sound.charted.unique start.chainedStart.sound.charted]
  exact start.wellFormed.tight start.reserved

theorem Session.sound {allowed : State → Call → Prop} {start : State}
    (session : Session tolerance allowed start state) (initial : ∃ chart, Sound start chart) :
    ∃ chart, Sound state chart := by
  refine invariant_of_reachable (fun state => ∃ chart, Sound state chart) ?_ initial session
  rintro before after ⟨chart, sound⟩ ⟨garbage, call, code, -, done⟩
  obtain ⟨chart', effect⟩ := exec_effect sound done
  exact ⟨chart', effect.sound sound⟩

/-- A session that starts in a well-formed state leaves no block behind. -/
theorem Session.tight {allowed : State → Call → Prop} {start : State}
    (session : Session tolerance allowed start state) (begin_ : SessionStart start)
    (sound : Sound state chart) : Tight state.fat chart := by
  obtain ⟨initial, soundStart⟩ := begin_.sound
  obtain ⟨chart', sound', tight⟩ : ∃ chart, Sound state chart ∧ Tight state.fat chart := by
    refine invariant_of_reachable
      (fun state => ∃ chart, Sound state chart ∧ Tight state.fat chart) ?_
      ⟨initial, soundStart, begin_.tight soundStart⟩ session
    rintro before after ⟨chart, sound, tight⟩ ⟨garbage, call, code, -, done⟩
    obtain ⟨chart', effect⟩ := exec_effect sound done
    exact ⟨chart', effect.sound sound, effect.tight sound tight⟩
  rw [← sound.charted.unique sound'.charted]
  exact tight

end EC440.FileSystem
