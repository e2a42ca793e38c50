import EC440.LocalStorage.Sharing

/-!
# The bounds of tls_read and tls_write

Both calls compare `offset + length` with the size of the area in `unsigned`
arithmetic, and then count through the range with an `int`.  The loops are
repeated here with a log of the places that they use.
-/

namespace EC440.LocalStorage

open Outcome

variable {machine : Machine} {state after : State} {buckets : Bucket → List ElementPtr}
  {place : Tid → Option ElementPtr} {tid : Tid} {pointer : ElementPtr} {element : HashElement}
  {kernel : Kernel} {offset length : UInt32} {buffer : Buffer}

/-! ## Logs -/

/-- A byte of an area, by the index in `pages` and the offset in the page. -/
structure Touch where
  workingPage : Nat
  pageOffset : Nat
  deriving DecidableEq, Repr

/-- `working_page` and `page_offset` -/
def touchAt (pageSize indx : Int32) : Touch where
  workingPage := (indx / pageSize).toUInt32.toNat
  pageOffset := (indx % pageSize).toUInt32.toNat

section Loop

variable {α : Type} {touch : α → Int32 → Touch} {round : α → Nat → Int32 → Outcome α}
  {limit : UInt32} {current last : α} {log : List Touch} {i : Nat}

/-- The loop of both calls, with what every round touches. -/
def loggedLoop (touch : α → Int32 → Touch) (round : α → Nat → Int32 → Outcome α)
    (limit : UInt32) : Nat → α → Nat → Int32 → Outcome (α × List Touch)
  | 0, _, _, _ => .error .diverges
  | fuel + 1, current, i, indx =>
      if indx.toUInt32 < limit then do
        let next ← round current i indx
        let (last, log) ← loggedLoop touch round limit fuel next (i + 1) (← increment indx)
        .ok (last, touch current indx :: log)
      else
        .ok (current, [])

theorem below_of_increment {n : Nat} {next : Int32} (small : n < 2 ^ 31)
    (incremented : increment (Int32.ofNat n) = .ok next) : n + 1 < 2 ^ 31 := by
  by_contra last
  have largest : n = 2 ^ 31 - 1 := by omega
  subst largest
  cases incremented

theorem loggedLoop_succ {fuel : Nat} {indx : Int32} (below : indx.toUInt32 < limit)
    (returned : loggedLoop touch round limit (fuel + 1) current i indx = .ok (last, log)) :
    ∃ next indx' rest, round current i indx = .ok next ∧ increment indx = .ok indx' ∧
      loggedLoop touch round limit fuel next (i + 1) indx' = .ok (last, rest) ∧
      log = touch current indx :: rest := by
  rw [loggedLoop, if_pos below] at returned
  rcases bind_eq_ok_iff.mp returned with ⟨next, done, returned⟩
  rcases bind_eq_ok_iff.mp returned with ⟨indx', incremented, returned⟩
  rcases bind_eq_ok_iff.mp returned with ⟨⟨last', rest⟩, inner, returned⟩
  cases returned
  exact ⟨next, indx', rest, done, incremented, inner, rfl⟩

theorem loggedLoop_counted (steady : ∀ current i indx next, round current i indx = .ok next →
      touch next = touch current)
    {start fuel : Nat} (small : start < 2 ^ 31) (ordered : start ≤ limit.toNat)
    (returned : loggedLoop touch round limit fuel current i (Int32.ofNat start) =
      .ok (last, log)) :
    (start = limit.toNat ∨ limit.toNat < 2 ^ 31) ∧
      log = (List.range' start (limit.toNat - start)).map fun n =>
        touch current (Int32.ofNat n) := by
  induction fuel generalizing current start i log with
  | zero => cases returned
  | succ fuel inductionHypothesis =>
      by_cases below : (Int32.ofNat start).toUInt32 < limit
      · rcases loggedLoop_succ below returned with
          ⟨next, indx, rest, done, incremented, inner, rfl⟩
        have room := below_of_increment small incremented
        rw [increment_ofNat room, Except.ok.injEq] at incremented
        subst incremented
        rw [UInt32.lt_iff_toNat_lt, toNat_ofNat small] at below
        rcases inductionHypothesis room below inner with ⟨bounded, counted⟩
        rw [steady _ _ _ _ done] at counted
        have split : limit.toNat - start = limit.toNat - (start + 1) + 1 := by omega
        constructor
        · right
          omega
        · rw [counted, split, List.range'_succ, List.map_cons]
      · have reached : start = limit.toNat := by
          rw [UInt32.lt_iff_toNat_lt, toNat_ofNat small] at below
          omega
        rw [loggedLoop, if_neg below] at returned
        cases returned
        constructor
        · exact .inl reached
        · rw [reached, Nat.sub_self, List.range'_zero, List.map_nil]

end Loop

/-- A position that `int` cannot hold is negative, and its place is outside every area. -/
theorem touchAt_negative {indx : Int32} (negative : 2 ^ 31 ≤ indx.toUInt32.toNat) :
    ¬((touchAt machine.pageSizeInt indx).workingPage < 2 ^ 31 ∧
      (touchAt machine.pageSizeInt indx).pageOffset < 2 ^ 31) := by
  rintro ⟨page, offset⟩
  have sign : ∀ x : Int32, x.toUInt32.toNat < 2 ^ 31 ↔ 0 ≤ x.toInt := by
    intro x
    have range := x.toUInt32.toNat_lt
    have value : x.toInt = x.toUInt32.toNat ∨ x.toInt = x.toUInt32.toNat - (2 ^ 32 : Int) := by
      change x.toBitVec.toInt = x.toBitVec.toNat ∨
        x.toBitVec.toInt = x.toBitVec.toNat - (2 ^ 32 : Int)
      rw [BitVec.toInt_eq_toNat_cond]
      split
      · exact .inl rfl
      · exact .inr rfl
    have lower := x.le_toInt
    have upper := x.toInt_lt
    omega
  have positive : (0 : Int) < machine.pageSize := by exact_mod_cast machine.pageSize_pos
  have pageSize := Int32.toInt_ofNat_of_lt machine.pageSize_lt
  have below : indx.toInt < 0 := by
    rw [← not_le, ← sign indx]
    omega
  have quotient := (sign _).mp page
  have remainder := (sign _).mp offset
  have notMinus : machine.pageSizeInt ≠ -1 := by
    intro (minus : Int32.ofNat machine.pageSize = -1)
    rw [minus] at pageSize
    have value : (-1 : Int32).toInt = -1 := by decide
    omega
  rw [Int32.toInt_div_of_ne_right _ _ notMinus, pageSize] at quotient
  rw [Int32.toInt_mod, pageSize] at remainder
  have whole := Int.mul_tdiv_add_tmod indx.toInt machine.pageSize
  have product := mul_nonneg positive.le quotient
  omega

/-! ## Rounds -/

/-- The body of the loop of `tls_write`. -/
def writeRound (kernel : Kernel) (pointer : ElementPtr) (buffer : Buffer) (state : State)
    (i : Nat) (indx : Int32) : Outcome State :=
  writeByte kernel pointer state indx (buffer i)

/-- The body of the loop of `tls_read`. -/
def readRound (pointer : ElementPtr) (state : State) (buffer : Buffer) (i : Nat)
    (indx : Int32) : Outcome Buffer := do
  let byte ← readByte pointer state indx
  .ok (Function.update buffer i byte)

theorem writeLoop_logged (kernel : Kernel) (pointer : ElementPtr) (limit : UInt32)
    (buffer : Buffer) (fuel : Nat) (state : State) (i : Nat) (indx : Int32) :
    writeLoop kernel pointer limit buffer fuel state i indx =
      Prod.fst <$> loggedLoop (touchAt ·.pageSize) (writeRound kernel pointer buffer) limit fuel
        state i indx := by
  induction fuel generalizing state i indx with
  | zero => rfl
  | succ fuel inductionHypothesis =>
      unfold writeLoop loggedLoop
      simp only [inductionHypothesis, writeRound]
      split
      · simp only [map_eq_pure_bind, bind_assoc]
        rfl
      · rfl

theorem readLoop_logged (pointer : ElementPtr) (limit : UInt32) (state : State) (fuel : Nat)
    (buffer : Buffer) (i : Nat) (indx : Int32) :
    readLoop pointer limit state fuel buffer i indx =
      Prod.fst <$> loggedLoop (fun _ => touchAt state.pageSize) (readRound pointer state) limit
        fuel buffer i indx := by
  induction fuel generalizing buffer i indx with
  | zero => rfl
  | succ fuel inductionHypothesis =>
      unfold readLoop loggedLoop
      simp only [inductionHypothesis, readRound]
      split
      · simp only [map_eq_pure_bind, bind_assoc]
        rfl
      · rfl

theorem changeProt_pageSize {prot : Prot} {p : PagePtr}
    (done : changeProt prot state p = .ok after) : after.pageSize = state.pageSize := by
  rcases bind_eq_ok_iff.mp done with ⟨page, -, changed⟩
  split at changed
  · cases changed
  · cases changed
    rfl

theorem copyOnWrite_pageSize {slot : Nat} {p copy : PagePtr} {page : Page}
    (done : copyOnWrite kernel state pointer element slot p page = .ok (copy, after)) :
    after.pageSize = state.pageSize := by
  unfold copyOnWrite at done
  split at done
  · cases done
  · rcases bind_eq_ok_iff.mp done with ⟨source, -, done⟩
    rcases bind_eq_ok_iff.mp done with ⟨memory, -, done⟩
    rcases bind_eq_ok_iff.mp done with ⟨closed, protect, done⟩
    cases done
    rw [changeProt_pageSize protect]
    rfl

theorem storeByte_inside {p : PagePtr} {pageOffset : Nat} {byte : UInt8}
    (done : storeByte state p pageOffset byte = .ok after) :
    pageOffset < state.pageSize.toInt.toNat ∧ after.pageSize = state.pageSize := by
  rcases bind_eq_ok_iff.mp done with ⟨page, -, stored⟩
  split at stored
  next inside =>
    rcases bind_eq_ok_iff.mp stored with ⟨memory, -, stored⟩
    cases stored
    exact ⟨inside, rfl⟩
  next => cases stored

theorem writeByte_inside {indx : Int32} {byte : UInt8} (found : state.elements pointer = some element)
    (done : writeByte kernel pointer state indx byte = .ok after) :
    (touchAt state.pageSize indx).workingPage < element.tls.pages.length ∧
      (touchAt state.pageSize indx).pageOffset < state.pageSize.toInt.toNat ∧
      after.pageSize = state.pageSize := by
  rcases bind_eq_ok_iff.mp done with ⟨element', reached, done⟩
  rw [State.element_eq_ok_iff, found, Option.some.injEq] at reached
  subst reached
  rcases bind_eq_ok_iff.mp done with ⟨p, held, done⟩
  rcases bind_eq_ok_iff.mp done with ⟨page, -, done⟩
  have inside := (List.getElem?_eq_some_iff.mp (State.slot_eq_ok_iff.mp held)).1
  refine ⟨inside, ?_⟩
  split at done
  · rcases bind_eq_ok_iff.mp done with ⟨⟨copy, middle⟩, copied, stored⟩
    have inside' := storeByte_inside stored
    rw [copyOnWrite_pageSize copied] at inside'
    exact inside'
  · exact storeByte_inside done

theorem writeByte_pageSize {indx : Int32} {byte : UInt8}
    (done : writeByte kernel pointer state indx byte = .ok after) :
    after.pageSize = state.pageSize := by
  rcases bind_eq_ok_iff.mp done with ⟨element, reached, -⟩
  rw [State.element_eq_ok_iff] at reached
  exact (writeByte_inside reached done).2.2

theorem readByte_inside {indx : Int32} {byte : UInt8} (found : state.elements pointer = some element)
    (done : readByte pointer state indx = .ok byte) :
    (touchAt state.pageSize indx).workingPage < element.tls.pages.length ∧
      (touchAt state.pageSize indx).pageOffset < state.pageSize.toInt.toNat := by
  rcases bind_eq_ok_iff.mp done with ⟨element', reached, done⟩
  rw [State.element_eq_ok_iff, found, Option.some.injEq] at reached
  subst reached
  rcases bind_eq_ok_iff.mp done with ⟨p, held, done⟩
  rcases bind_eq_ok_iff.mp done with ⟨page, -, done⟩
  refine ⟨(List.getElem?_eq_some_iff.mp (State.slot_eq_ok_iff.mp held)).1, ?_⟩
  split at done
  next inside => exact inside
  next => cases done

/-! ## Logged calls -/

/-- `tls_write` with a log. -/
def loggedWrite (kernel : Kernel) (state : State) (tid : Tid) (offset length : UInt32)
    (buffer : Buffer) : Outcome ((Int32 × State) × List Touch) := do
  match ← hashSearch state tid with
  | none => .ok ((-1, state), [])
  | some pointer =>
      let workingTls := (← state.element pointer).tls
      if offset + length > workingTls.size then
        .ok ((-1, state), [])
      else
        let state ← forSlots workingTls.pages tlsUnprotect workingTls.pageNum.toNat state
        let (state, log) ← loggedLoop (touchAt ·.pageSize) (writeRound kernel pointer buffer)
          (offset + length) (length.toNat + 1) state 0 offset.toInt32
        let workingTls := (← state.element pointer).tls
        let state ← forSlots workingTls.pages tlsProtect workingTls.pageNum.toNat state
        .ok ((0, state), log)

/-- `tls_read` with a log. -/
def loggedRead (state : State) (tid : Tid) (offset length : UInt32) (buffer : Buffer) :
    Outcome ((Int32 × Buffer × State) × List Touch) := do
  match ← hashSearch state tid with
  | none => .ok ((-1, buffer, state), [])
  | some pointer =>
      let workingTls := (← state.element pointer).tls
      if offset + length > workingTls.size then
        .ok ((-1, buffer, state), [])
      else
        let state ← forSlots workingTls.pages tlsUnprotect workingTls.pageNum.toNat state
        let (buffer, log) ← loggedLoop (fun _ => touchAt state.pageSize)
          (readRound pointer state) (offset + length) (length.toNat + 1) buffer 0 offset.toInt32
        let state ← forSlots workingTls.pages tlsProtect workingTls.pageNum.toNat state
        .ok ((0, buffer, state), log)

/-- The log is kept beside the call, and changes nothing. -/
theorem loggedWrite_erased (kernel : Kernel) (state : State) (tid : Tid)
    (offset length : UInt32) (buffer : Buffer) :
    tlsWrite kernel state tid offset length buffer =
      Prod.fst <$> loggedWrite kernel state tid offset length buffer := by
  unfold tlsWrite loggedWrite
  simp only [writeLoop_logged, map_eq_pure_bind, bind_assoc]
  congr 1
  funext found
  cases found with
  | none => rfl
  | some pointer =>
      simp only [bind_assoc]
      congr 1
      funext element
      split
      · rfl
      · simp only [bind_assoc]
        rfl

theorem loggedRead_erased (state : State) (tid : Tid) (offset length : UInt32)
    (buffer : Buffer) :
    tlsRead state tid offset length buffer =
      Prod.fst <$> loggedRead state tid offset length buffer := by
  unfold tlsRead loggedRead
  simp only [readLoop_logged, map_eq_pure_bind, bind_assoc]
  congr 1
  funext found
  cases found with
  | none => rfl
  | some pointer =>
      simp only [bind_assoc]
      congr 1
      funext element
      split
      · rfl
      · simp only [bind_assoc]
        rfl

/-! ## Bounds -/

/-- The thread has no area, or the range does not end inside it. -/
def Outside (area : Option Tls) (offset length : UInt32) : Prop :=
  ∀ tls, area = some tls → tls.size.toNat < offset.toNat + length.toNat

/-- The places of the bytes of a range, in order, all of them in the pages of the area. -/
structure Covers (machine : Machine) (tls : Tls) (offset length : UInt32) (log : List Touch) :
    Prop where
  length : log.length = length.toNat
  places : ∀ k touch, log[k]? = some touch →
    touch.workingPage < tls.pageNum.toNat ∧ touch.pageOffset < machine.pageSize ∧
      touch.workingPage * machine.pageSize + touch.pageOffset = offset.toNat + k

/-- The call fails exactly outside the area, and touches exactly the bytes of a range inside. -/
structure Bounded {σ : Type} (machine : Machine) (area : Option Tls) (offset length : UInt32)
    (call : Outcome (Int32 × σ)) (logged : Outcome ((Int32 × σ) × List Touch)) : Prop where
  refuses : (∃ rest, call = .ok (-1, rest)) ↔ Outside area offset length
  touches : ∀ tls, area = some tls → offset.toNat + length.toNat ≤ tls.size.toNat →
    ∃ rest log, call = .ok (0, rest) ∧ logged = .ok ((0, rest), log) ∧
      Covers machine tls offset length log

/-- A range inside the area has positions that an `int` can count through, and the end of a range
outside, as an `unsigned int`, is outside too. -/
def Countable (area : Option Tls) (offset length : UInt32) : Prop :=
  ∀ tls, area = some tls →
    if offset.toNat + length.toNat ≤ tls.size.toNat then
      length = 0 ∨ offset.toNat + length.toNat < 2 ^ 31
    else tls.size.toNat < (offset.toNat + length.toNat) % 2 ^ 32

section Covers

variable {tls : Tls}

theorem touchAt_ofNat {n : Nat} (small : n < 2 ^ 31) :
    touchAt machine.pageSizeInt (Int32.ofNat n) =
      { workingPage := n / machine.pageSize, pageOffset := n % machine.pageSize } := by
  simp only [touchAt, workingPage_eq machine small, pageOffset_eq machine small]

theorem covers_nothing : Covers machine tls offset 0 [] where
  length := rfl
  places k touch here := by simp at here

theorem covers_range (sized : Sized machine state tls)
    (small : offset.toNat + length.toNat < 2 ^ 31)
    (fits : offset.toNat + length.toNat ≤ tls.size.toNat) :
    Covers machine tls offset length ((List.range' offset.toNat length.toNat).map fun n =>
      touchAt machine.pageSizeInt (Int32.ofNat n)) := by
  constructor
  · rw [List.length_map, List.length_range']
  · intro k touch here
    rw [List.getElem?_map, Option.map_eq_some_iff] at here
    rcases here with ⟨n, there, rfl⟩
    rcases List.getElem?_eq_some_iff.mp there with ⟨inside, rfl⟩
    rw [List.length_range'] at inside
    rw [List.getElem_range', Nat.one_mul, touchAt_ofNat (by omega)]
    have room := sized.room
    rw [sized.length] at room
    refine ⟨?_, Nat.mod_lt _ machine.pageSize_pos, Nat.div_add_mod' ..⟩
    apply Nat.div_lt_of_lt_mul
    rw [Nat.mul_comm]
    omega

theorem loggedLoop_covers {α : Type} {touch : α → Int32 → Touch}
    {round : α → Nat → Int32 → Outcome α} {current last : α} {log : List Touch}
    {fuel : Nat} (sized : Sized machine state tls)
    (steady : ∀ current i indx next, round current i indx = .ok next →
      touch next = touch current)
    (start : touch current = touchAt machine.pageSizeInt)
    (inside : ∀ indx next, round current 0 indx = .ok next →
      (touch current indx).workingPage < 2 ^ 31 ∧ (touch current indx).pageOffset < 2 ^ 31)
    (fits : offset.toNat + length.toNat ≤ tls.size.toNat)
    (returned : loggedLoop touch round (offset + length) (fuel + 1) current 0 offset.toInt32 =
      .ok (last, log)) :
    (length = 0 ∨ offset.toNat + length.toNat < 2 ^ 31) ∧
      Covers machine tls offset length log := by
  by_cases empty : length = 0
  · subst empty
    have reached : ¬offset.toInt32.toUInt32 < offset + 0 := by
      rw [UInt32.toUInt32_toInt32, UInt32.add_zero]
      exact UInt32.lt_irrefl offset
    rw [loggedLoop, if_neg reached] at returned
    cases returned
    exact ⟨.inl rfl, covers_nothing⟩
  · have positive : 0 < length.toNat := by
      apply Nat.pos_of_ne_zero
      intro zero
      exact empty (UInt32.toNat_inj.mp zero)
    have limit : (offset + length).toNat = offset.toNat + length.toNat := by
      rw [UInt32.toNat_add]
      exact Nat.mod_eq_of_lt (lt_of_le_of_lt fits tls.size.toNat_lt)
    by_cases small : offset.toNat < 2 ^ 31
    · rw [toInt32_eq] at returned
      rcases loggedLoop_counted steady small (by omega) returned with ⟨bounded, rfl⟩
      have below : offset.toNat + length.toNat < 2 ^ 31 := by omega
      rw [limit, Nat.add_sub_cancel_left, start]
      exact ⟨.inr below, covers_range sized below fits⟩
    · have below : offset.toInt32.toUInt32 < offset + length := by
        rw [UInt32.toUInt32_toInt32, UInt32.lt_iff_toNat_lt, limit]
        omega
      rcases loggedLoop_succ below returned with ⟨next, -, -, done, -⟩
      have far := inside _ _ done
      rw [start] at far
      refine absurd far (touchAt_negative ?_)
      rw [UInt32.toUInt32_toInt32]
      omega

end Covers

/-! ## The calls -/

/-- The check in `unsigned int`, for a range inside the area. -/
theorem checked_of_fits {size : UInt32} (fits : offset.toNat + length.toNat ≤ size.toNat) :
    ¬offset + length > size := by
  rw [gt_iff_lt, UInt32.lt_iff_toNat_lt, UInt32.toNat_add,
    Nat.mod_eq_of_lt (lt_of_le_of_lt fits size.toNat_lt)]
  exact not_lt.mpr fits

theorem bounded_iff {σ : Type} {area : Option Tls} {call : Outcome (Int32 × σ)}
    {logged : Outcome ((Int32 × σ) × List Touch)} (erased : call = Prod.fst <$> logged)
    (refused : (∀ tls, area = some tls → offset + length > tls.size) →
      ∃ rest, call = .ok (-1, rest))
    (accepted : ∀ tls, area = some tls → ¬offset + length > tls.size →
      ∀ code rest log, logged = .ok ((code, rest), log) → code = 0 ∧
        (offset.toNat + length.toNat ≤ tls.size.toNat →
          (length = 0 ∨ offset.toNat + length.toNat < 2 ^ 31) ∧
            Covers machine tls offset length log))
    (returns : ∀ tls, area = some tls → offset.toNat + length.toNat ≤ tls.size.toNat →
      (length = 0 ∨ offset.toNat + length.toNat < 2 ^ 31) → ∃ rest, call = .ok (0, rest)) :
    Bounded machine area offset length call logged ↔ Countable area offset length := by
  have withLog : ∀ code rest, call = .ok (code, rest) →
      ∃ log, logged = .ok ((code, rest), log) := by
    intro code rest done
    rw [erased] at done
    cases here : logged with
    | error reason =>
        rw [here] at done
        cases done
    | ok result =>
        rw [here] at done
        rcases result with ⟨result, log⟩
        cases done
        exact ⟨log, rfl⟩
  have notRefused : ∀ tls, area = some tls → ¬offset + length > tls.size →
      ¬∃ rest, call = .ok (-1, rest) := by
    rintro tls here checked ⟨rest, done⟩
    rcases withLog _ _ done with ⟨log, done⟩
    have code := (accepted tls here checked _ _ _ done).1
    cases code
  constructor
  · rintro ⟨refuses, touches⟩ tls here
    split
    next fits =>
      rcases touches tls here fits with ⟨rest, log, -, done, -⟩
      exact ((accepted tls here (checked_of_fits fits) _ _ _ done).2 fits).1
    next long =>
      by_contra wrapped
      have checked : ¬offset + length > tls.size := by
        rw [gt_iff_lt, UInt32.lt_iff_toNat_lt, UInt32.toNat_add]
        exact wrapped
      refine notRefused tls here checked (refuses.mpr ?_)
      intro tls' here'
      rw [here, Option.some.injEq] at here'
      subst here'
      exact not_le.mp long
  · intro countable
    constructor
    · constructor
      · intro done tls here
        by_contra fits
        exact notRefused tls here (checked_of_fits (not_lt.mp fits)) done
      · intro outside
        apply refused
        intro tls here
        have range := countable tls here
        rw [if_neg (not_le.mpr (outside tls here))] at range
        rw [gt_iff_lt, UInt32.lt_iff_toNat_lt, UInt32.toNat_add]
        exact range
    · intro tls here fits
      have range := countable tls here
      rw [if_pos fits] at range
      rcases returns tls here fits range with ⟨rest, done⟩
      rcases withLog _ _ done with ⟨log, logged'⟩
      have covered := (accepted tls here (checked_of_fits fits) _ _ _ logged').2 fits
      exact ⟨rest, log, done, logged', covered.2⟩

theorem Sized.short {tls : Tls} (sized : Sized machine state tls) :
    tls.pages.length < 2 ^ 31 := by
  have large : 2 ^ 12 ≤ machine.pageSize := by
    rcases machine.power with ⟨shift, lower, -, equality⟩
    rw [equality]
    exact Nat.pow_le_pow_right (by decide) lower
  have few : tls.size.toNat / machine.pageSize ≤ tls.size.toNat / 2 ^ 12 :=
    Nat.div_le_div_left large (by decide)
  have range := tls.size.toNat_lt
  rw [sized.length, sized.pageNum, pagesFor_toNat]
  split
  · omega
  · omega

theorem Sound.element_of_area (sound : Sound machine state buckets place) {tls : Tls}
    (area : state.area tid = some tls) :
    ∃ pointer element, place tid = some pointer ∧ state.element pointer = .ok element ∧
      state.elements pointer = some element ∧ element.tls = tls := by
  rw [sound.area_eq] at area
  rcases sound.element_of_areaAt area with ⟨pointer, element, placed, reached, isArea⟩
  exact ⟨pointer, element, placed, reached, (state.element_eq_ok_iff).mp reached, isArea⟩

theorem tlsWrite_refused (sound : Sound machine state buckets place)
    (refused : ∀ tls, state.area tid = some tls → offset + length > tls.size) :
    tlsWrite kernel state tid offset length buffer = .ok (-1, state) := by
  simp only [tlsWrite, sound.table.hashSearch_eq, bind, Except.bind]
  cases placed : place tid with
  | none => rfl
  | some pointer =>
      rcases sound.table.element_eq placed with ⟨element, reached, -, area⟩
      rw [← sound.area_eq] at area
      simp only [reached, if_pos (refused _ area)]

theorem tlsRead_refused (sound : Sound machine state buckets place)
    (refused : ∀ tls, state.area tid = some tls → offset + length > tls.size) :
    tlsRead state tid offset length buffer = .ok (-1, buffer, state) := by
  simp only [tlsRead, sound.table.hashSearch_eq, bind, Except.bind]
  cases placed : place tid with
  | none => rfl
  | some pointer =>
      rcases sound.table.element_eq placed with ⟨element, reached, -, area⟩
      rw [← sound.area_eq] at area
      simp only [reached, if_pos (refused _ area)]

theorem touch_inside (pageSize : state.pageSize = machine.pageSizeInt) {touch : Touch}
    (short : element.tls.pages.length < 2 ^ 31)
    (page : touch.workingPage < element.tls.pages.length)
    (offset : touch.pageOffset < state.pageSize.toInt.toNat) :
    touch.workingPage < 2 ^ 31 ∧ touch.pageOffset < 2 ^ 31 := by
  rw [pageSize, Machine.toNat_pageSizeInt] at offset
  exact ⟨lt_trans page short, lt_trans offset machine.pageSize_lt⟩

theorem writeRound_inside (pageSize : state.pageSize = machine.pageSizeInt)
    (short : element.tls.pages.length < 2 ^ 31) (found : state.elements pointer = some element)
    {i : Nat} {indx : Int32} (done : writeRound kernel pointer buffer state i indx = .ok after) :
    (touchAt state.pageSize indx).workingPage < 2 ^ 31 ∧
      (touchAt state.pageSize indx).pageOffset < 2 ^ 31 := by
  rcases writeByte_inside found done with ⟨page, offset, -⟩
  exact touch_inside pageSize short page offset

theorem readRound_inside (pageSize : state.pageSize = machine.pageSizeInt)
    (short : element.tls.pages.length < 2 ^ 31) (found : state.elements pointer = some element)
    {i : Nat} {indx : Int32} {filled : Buffer}
    (done : readRound pointer state buffer i indx = .ok filled) :
    (touchAt state.pageSize indx).workingPage < 2 ^ 31 ∧
      (touchAt state.pageSize indx).pageOffset < 2 ^ 31 := by
  rcases bind_eq_ok_iff.mp done with ⟨byte, here, -⟩
  rcases readByte_inside found here with ⟨page, offset⟩
  exact touch_inside pageSize short page offset

theorem loggedWrite_accepted (sound : Sound machine state buckets place) {tls : Tls}
    (area : state.area tid = some tls) (checked : ¬offset + length > tls.size) {code : Int32}
    {log : List Touch}
    (returned : loggedWrite kernel state tid offset length buffer = .ok ((code, after), log)) :
    code = 0 ∧ (offset.toNat + length.toNat ≤ tls.size.toNat →
      (length = 0 ∨ offset.toNat + length.toNat < 2 ^ 31) ∧
        Covers machine tls offset length log) := by
  rcases sound.element_of_area area with ⟨pointer, element, placed, reached, found, rfl⟩
  rw [sound.area_eq] at area
  have sized := sound.sized tid element.tls area
  have unprotect : forSlots element.tls.pages tlsUnprotect element.tls.pageNum.toNat state =
      .ok (state.withProt element.tls.pages .readWrite) := (sound.changeProt area .readWrite).1
  have whole : loggedWrite kernel state tid offset length buffer =
      loggedLoop (touchAt ·.pageSize) (writeRound kernel pointer buffer) (offset + length)
        (length.toNat + 1) (state.withProt element.tls.pages .readWrite) 0 offset.toInt32 >>=
        (fun result => do
          let workingTls := (← result.1.element pointer).tls
          let state ← forSlots workingTls.pages tlsProtect workingTls.pageNum.toNat result.1
          .ok ((0, state), result.2)) := by
    simp only [loggedWrite, sound.table.hashSearch_eq, placed, reached, if_neg checked,
      unprotect, bind, Except.bind]
  rw [whole] at returned
  rcases bind_eq_ok_iff.mp returned with ⟨⟨middle, log'⟩, looped, returned⟩
  rcases bind_eq_ok_iff.mp returned with ⟨last, -, returned⟩
  rcases bind_eq_ok_iff.mp returned with ⟨closed, -, returned⟩
  cases returned
  refine ⟨rfl, fun fits => ?_⟩
  have pageSize : (state.withProt element.tls.pages .readWrite).pageSize = machine.pageSizeInt :=
    sound.pageSize sized.initialized
  apply loggedLoop_covers sized _ _ _ fits looped
  · intro current i indx next done
    simp only [writeByte_pageSize done]
  · exact congrArg touchAt pageSize
  · intro indx next done
    exact writeRound_inside pageSize sized.short found done

theorem loggedRead_accepted (sound : Sound machine state buckets place) {tls : Tls}
    (area : state.area tid = some tls) (checked : ¬offset + length > tls.size) {code : Int32}
    {filled : Buffer} {log : List Touch}
    (returned : loggedRead state tid offset length buffer =
      .ok ((code, filled, after), log)) :
    code = 0 ∧ (offset.toNat + length.toNat ≤ tls.size.toNat →
      (length = 0 ∨ offset.toNat + length.toNat < 2 ^ 31) ∧
        Covers machine tls offset length log) := by
  rcases sound.element_of_area area with ⟨pointer, element, placed, reached, found, rfl⟩
  rw [sound.area_eq] at area
  have sized := sound.sized tid element.tls area
  have unprotect : forSlots element.tls.pages tlsUnprotect element.tls.pageNum.toNat state =
      .ok (state.withProt element.tls.pages .readWrite) := (sound.changeProt area .readWrite).1
  have whole : loggedRead state tid offset length buffer =
      loggedLoop (fun _ => touchAt (state.withProt element.tls.pages .readWrite).pageSize)
        (readRound pointer (state.withProt element.tls.pages .readWrite)) (offset + length)
        (length.toNat + 1) buffer 0 offset.toInt32 >>=
        (fun result => do
          let state ← forSlots element.tls.pages tlsProtect element.tls.pageNum.toNat
            (state.withProt element.tls.pages .readWrite)
          .ok ((0, result.1, state), result.2)) := by
    simp only [loggedRead, sound.table.hashSearch_eq, placed, reached, if_neg checked,
      unprotect, bind, Except.bind]
  rw [whole] at returned
  rcases bind_eq_ok_iff.mp returned with ⟨⟨filled', log'⟩, looped, returned⟩
  rcases bind_eq_ok_iff.mp returned with ⟨closed, -, returned⟩
  cases returned
  refine ⟨rfl, fun fits => ?_⟩
  have pageSize : (state.withProt element.tls.pages .readWrite).pageSize = machine.pageSizeInt :=
    sound.pageSize sized.initialized
  apply loggedLoop_covers sized _ _ _ fits looped
  · intro current i indx next done
    rfl
  · exact congrArg touchAt pageSize
  · intro indx next done
    exact readRound_inside pageSize sized.short found done

theorem tlsWrite_returns (sound : Sound machine state buckets place) {tls : Tls}
    (area : state.area tid = some tls) (fits : offset.toNat + length.toNat ≤ tls.size.toNat)
    (short : length = 0 ∨ offset.toNat + length.toNat < 2 ^ 31)
    (served : Served machine kernel state tid (.write offset length buffer)) :
    ∃ after, tlsWrite kernel state tid offset length buffer = .ok (0, after) := by
  rcases sound.element_of_area area with ⟨pointer, element, placed, -, found, rfl⟩
  have here : state.array machine tid = some ((List.range element.tls.size.toNat).map
      (state.byteIn machine (references (state.areaAt place)) tid)) := by
    rw [sound.array_eq, arrayOf, ← sound.area_eq, area]
    rfl
  have inside : ∀ n, n ≤ element.tls.size.toNat →
      n ≤ ((List.range element.tls.size.toNat).map
        (state.byteIn machine (references (state.areaAt place)) tid)).length := by
    intro n below
    rwa [List.length_map, List.length_range]
  have served' : tlsWrite kernel state tid offset length buffer ≠ .error .mapFailed := served
  rcases short with empty | small
  · subst empty
    have wrapped : ¬offset < offset + 0 := by
      rw [UInt32.add_zero]
      exact UInt32.lt_irrefl offset
    rw [tlsWrite_wrapped sound placed found (checked_of_fits fits) wrapped] at served' ⊢
    have nothing : (0 : UInt32).toNat + (0 : UInt32).toNat < 2 ^ 31 := by decide
    rcases tlsWrite_done sound kernel buffer nothing here (inside _ (Nat.zero_le _)) with
      failed | ⟨after, done, -⟩
    · exact absurd failed served'
    · exact ⟨after, done⟩
  · rcases tlsWrite_done sound kernel buffer small here (inside _ fits) with
      failed | ⟨after, done, -⟩
    · exact absurd failed served'
    · exact ⟨after, done⟩

theorem tlsRead_returns (sound : Sound machine state buckets place) {tls : Tls}
    (area : state.area tid = some tls) (fits : offset.toNat + length.toNat ≤ tls.size.toNat)
    (short : length = 0 ∨ offset.toNat + length.toNat < 2 ^ 31) :
    ∃ rest, tlsRead state tid offset length buffer = .ok (0, rest) := by
  rcases sound.element_of_area area with ⟨pointer, element, placed, -, found, rfl⟩
  rw [sound.area_eq] at area
  rcases short with empty | small
  · subst empty
    have wrapped : ¬offset < offset + 0 := by
      rw [UInt32.add_zero]
      exact UInt32.lt_irrefl offset
    rw [tlsRead_wrapped sound placed found (checked_of_fits fits) wrapped]
    exact ⟨_, tlsRead_eq sound area buffer (by decide) (Nat.zero_le _)⟩
  · exact ⟨_, tlsRead_eq sound area buffer small fits⟩

/-- The calls keep to the bounds exactly on the ranges that `int` and `unsigned int` can count. -/
theorem bounds_iff (valid : Valid machine state) (kernel : Kernel) (tid : Tid)
    (offset length : UInt32) (buffer : Buffer) :
    (Served machine kernel state tid (.write offset length buffer) →
      (Bounded machine (state.area tid) offset length
          (tlsWrite kernel state tid offset length buffer)
          (loggedWrite kernel state tid offset length buffer) ↔
        Countable (state.area tid) offset length)) ∧
    (Bounded machine (state.area tid) offset length
        (tlsRead state tid offset length buffer)
        (loggedRead state tid offset length buffer) ↔
      Countable (state.area tid) offset length) := by
  rcases valid with ⟨buckets, place, sound⟩
  constructor
  · intro served
    apply bounded_iff (loggedWrite_erased ..)
    · intro refused
      exact ⟨state, tlsWrite_refused sound refused⟩
    · intro tls area checked code rest log returned
      exact loggedWrite_accepted sound area checked returned
    · intro tls area fits short
      exact tlsWrite_returns sound area fits short served
  · apply bounded_iff (loggedRead_erased ..)
    · intro refused
      exact ⟨(buffer, state), tlsRead_refused sound refused⟩
    · intro tls area checked code rest log returned
      exact loggedRead_accepted sound area checked returned
    · intro tls area fits short
      exact tlsRead_returns sound area fits short

def areaFrom (kernel : Kernel) : State :=
  match play page4096 (.initial fun _ => none) [{ tid := 1, call := .create 1, kernel }] with
  | .ok (_, state) => state
  | .error _ => .initial fun _ => none

theorem areaFrom_valid : Valid page4096 (areaFrom twoPages) := by
  have sharing : ∀ event ∈ [({ tid := 1, call := .create 1, kernel := twoPages } : Event)],
      event.call.Sharing := by
    simp [Call.Sharing]
  have served : AllServed page4096 (.initial fun _ => none)
      [{ tid := 1, call := .create 1, kernel := twoPages }] :=
    ⟨fun _ _ => by decide, fun _ _ _ => trivial⟩
  rcases (Quiet.initial page4096 fun _ => none).play sharing served with
    ⟨replies, final, played, buckets, place, settled⟩
  cases played
  exact ⟨buckets, place, settled.sound⟩

/-- The whole area is read and written within its bounds. -/
theorem bounds_wholeArea :
    Bounded page4096 ((areaFrom twoPages).area 1) 0 1
        (tlsWrite twoPages (areaFrom twoPages) 1 0 1 fun _ => 7)
        (loggedWrite twoPages (areaFrom twoPages) 1 0 1 fun _ => 7) ∧
      Bounded page4096 ((areaFrom twoPages).area 1) 0 1
        (tlsRead (areaFrom twoPages) 1 0 1 fun _ => 7)
        (loggedRead (areaFrom twoPages) 1 0 1 fun _ => 7) := by
  have served : Served page4096 twoPages (areaFrom twoPages) 1 (.write 0 1 fun _ => 7) := by
    intro failed
    cases failed
  have countable : Countable ((areaFrom twoPages).area 1) 0 1 := by
    intro tls area
    cases area
    exact .inr (by decide)
  have both := bounds_iff areaFrom_valid twoPages 1 0 1 (fun _ => 7)
  exact ⟨(both.1 served).mpr countable, both.2.mpr countable⟩

/-- The end of the range of the largest offset and one byte wraps around to 0. -/
theorem bounds_broken :
    ¬∀ (machine : Machine) (kernel : Kernel) (state : State) (tid : Tid)
      (offset length : UInt32) (buffer : Buffer), Valid machine state →
      Served machine kernel state tid (.write offset length buffer) →
      Bounded machine (state.area tid) offset length
          (tlsWrite kernel state tid offset length buffer)
          (loggedWrite kernel state tid offset length buffer) ∧
        Bounded machine (state.area tid) offset length
          (tlsRead state tid offset length buffer)
          (loggedRead state tid offset length buffer) := by
  intro always
  have served : Served page4096 twoPages (areaFrom twoPages) 1 (.write 4294967295 1 fun _ => 7) := by
    intro failed
    cases failed
  rcases always page4096 twoPages (areaFrom twoPages) 1 4294967295 1 (fun _ => 7) areaFrom_valid
    served with ⟨-, refuses, -⟩
  have outside : Outside ((areaFrom twoPages).area 1) 4294967295 1 := by
    intro tls area
    cases area
    decide
  rcases refuses.mpr outside with ⟨rest, refused⟩
  cases refused

end EC440.LocalStorage
