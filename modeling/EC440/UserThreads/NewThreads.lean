import EC440.Library.StackMachine
import EC440.Threads.Statements
import EC440.UserThreads.State

/-!
# How a new thread starts

`pthread_create` writes the registers of a new thread into its `jmp_buf` and a
return address onto its stack.  The first `longjmp` to it enters `start_thunk`,
which goes on to the thread's routine as if `pthread_exit` had called it.  Both
libraries do this in the same way; the later one returns to
`pthread_exit_wrapper`, which passes the return value on.
-/

namespace EC440.UserThreads

open StackMachine
open Function (update)
open Threads (Tid Value)

/-! ## Registers in a jmp_buf -/

/-- `STACK_SIZE` -/
def stackSize : UInt64 := 32767

/-- `__jmpbuf` -/
abbrev JmpBuf := Fin 8 → UInt64

def jbRbx : Fin 8 := 0

def jbRbp : Fin 8 := 1

def jbR12 : Fin 8 := 2

def jbR13 : Fin 8 := 3

def jbR14 : Fin 8 := 4

def jbR15 : Fin 8 := 5

def jbRsp : Fin 8 := 6

def jbPc : Fin 8 := 7

/-- `ptr_mangle`; `guard` is the word at `%fs:0x30`. -/
def ptrMangle (guard p : UInt64) : UInt64 :=
  ⟨(p ^^^ guard).toBitVec.rotateLeft 0x11⟩

def ptrDemangle (guard p : UInt64) : UInt64 :=
  ⟨p.toBitVec.rotateRight 0x11⟩ ^^^ guard

theorem rotateRight_rotateLeft {width shift : Nat} (word : BitVec width) (inside : shift < width) :
    (word.rotateLeft shift).rotateRight shift = word := by
  have reduced : shift % width = shift := Nat.mod_eq_of_lt inside
  apply BitVec.eq_of_getElem_eq
  intro i bound
  simp only [BitVec.getElem_rotateRight, BitVec.getElem_rotateLeft, reduced]
  split
  next low =>
      have notWrapped : ¬shift + i < shift := by omega
      simp only [dif_neg notWrapped, Nat.add_sub_cancel_left]
  next high =>
      have wrapped : i - (width - shift) < shift := by omega
      have found : width - shift + (i - (width - shift)) = i := by omega
      simp only [dif_pos wrapped, found]

theorem ptrDemangle_ptrMangle (guard p : UInt64) : ptrDemangle guard (ptrMangle guard p) = p := by
  have rotated : (⟨(ptrMangle guard p).toBitVec.rotateRight 0x11⟩ : UInt64) = p ^^^ guard :=
    congrArg UInt64.ofBitVec (rotateRight_rotateLeft (p ^^^ guard).toBitVec (by decide))
  rw [ptrDemangle, rotated, UInt64.xor_assoc, UInt64.xor_self, UInt64.xor_zero]

/-- `topspace`, the last word of the stack. -/
def topspace (stack : UInt64) : UInt64 :=
  stack + stackSize - 8

/-- What `pthread_create` changes in `TCB[i].reg`, which `setjmp` has saved. -/
def newRegisters (guard : UInt64) (reg : JmpBuf) (startThunk startRoutine arg stack : UInt64) :
    JmpBuf :=
  let reg := update reg jbR13 arg
  let reg := update reg jbR12 startRoutine
  let reg := update reg jbPc (ptrMangle guard startThunk)
  update reg jbRsp (ptrMangle guard (topspace stack))

/-- `memcpy(topspace, &exit_addr, 8)` -/
def plantExit (memory : Bytes) (stack exitAddr : UInt64) : Bytes :=
  store memory (topspace stack) exitAddr

/-- `longjmp(reg, value)`, which restores what `setjmp` saves.  The stack pointer, the frame
pointer and the address where it goes on are mangled in a `jmp_buf`. -/
def longjmp (guard : UInt64) (reg : JmpBuf) (value : UInt64) (machine : Machine) : Machine where
  registers
    | .rax => value
    | .rbx => reg jbRbx
    | .rbp => ptrDemangle guard (reg jbRbp)
    | .rsp => ptrDemangle guard (reg jbRsp)
    | .rdi => machine.registers .rdi
    | .r12 => reg jbR12
    | .r13 => reg jbR13
    | .r14 => reg jbR14
    | .r15 => reg jbR15
  memory := machine.memory
  rip := ptrDemangle guard (reg jbPc)

/-! ## Code -/

/-- What the compiler puts in front of a function's body. -/
def prologue : List Instruction :=
  [.push .rbp, .mov .rbp .rsp]

/-- `start_thunk` up to its `retq` -/
def startThunk : List Instruction :=
  prologue ++ [.pop .rbp, .mov .rdi .r13, .push .r12]

/-- `pthread_exit_wrapper` up to its call of `pthread_exit`.  The compiler chooses a register for
`res`. -/
def pthreadExitWrapper (res : Register) : List Instruction :=
  prologue ++ [.mov res .rax, .mov .rdi res]

/-- The machine is at the entry of `routine(arg)`, which returns to `exitAddr`. -/
structure Begins (exitAddr routine arg : UInt64) (machine : Machine) : Prop where
  entry : machine.rip = routine
  argument : machine.registers .rdi = arg
  returnAddress : machine.top = exitAddr

def Returns (entered returned : Machine) : Prop :=
  returned.rip = entered.top ∧ returned.registers .rsp = entered.registers .rsp + 8

/-- `start_thunk` puts the routine where it returns to. -/
theorem startThunk_effects (machine : Store) :
    let after := effects startThunk machine
    after.top = machine.registers .r12 ∧
      after.registers .rsp = machine.registers .rsp - 8 ∧
      after.registers .rdi = machine.registers .r13 ∧
      ∀ place, ¬Within (machine.registers .rsp - 8) place →
        after.memory place = machine.memory place := by
  refine ⟨?_, ?_, ?_, ?_⟩
  · simp [effects, startThunk, prologue, Instruction.effect, Store.top, load_store]
  · simp [effects, startThunk, prologue, Instruction.effect]
  · simp [effects, startThunk, prologue, Instruction.effect]
  · intro place outside
    simp [effects, startThunk, prologue, Instruction.effect, store_of_notWithin outside]

theorem startThunk_straight : .ret ∉ startThunk := by
  decide

/-- Whatever register the compiler chooses, the returned value is the argument of `pthread_exit`. -/
theorem pthreadExitWrapper_argument (res : Register) (machine : Store) :
    (effects (pthreadExitWrapper res) machine).registers .rdi = machine.registers .rax := by
  simp [effects, pthreadExitWrapper, prologue, Instruction.effect]

/-! ## The first dispatch -/

/-- The stack of a new thread in the address space. -/
structure Block (stack : UInt64) : Prop where
  inside : stack.toNat + stackSize.toNat < 2 ^ 64

theorem Block.topspace_toNat {stack : UInt64} (block : Block stack) :
    (topspace stack).toNat = stack.toNat + 32759 := by
  have inside := block.inside
  have size : stackSize.toNat = 32767 := rfl
  rw [size] at inside
  rw [topspace, UInt64.toNat_sub_of_le, UInt64.toNat_add, size, Nat.mod_eq_of_lt inside]
  · rfl
  · rw [UInt64.le_iff_toNat_le, UInt64.toNat_add, size, Nat.mod_eq_of_lt inside]
    exact Nat.le_add_left_of_le (by decide)

theorem Block.below_toNat {stack : UInt64} (block : Block stack) :
    (topspace stack - 8).toNat = stack.toNat + 32751 := by
  have top := block.topspace_toNat
  rw [UInt64.toNat_sub_of_le, top]
  · rfl
  · rw [UInt64.le_iff_toNat_le, top]
    exact Nat.le_add_left_of_le (by decide)

/-- How the thread begins that `pthread_create` has set up with the stack, when `longjmp` has gone
to it from the given state. -/
structure Begun (exitAddr routine arg stack : UInt64) (machine begun : Machine) : Prop
    extends Begins exitAddr routine arg begun where
  rsp : begun.registers .rsp = topspace stack
  /-- Only the free part of the stack has been written to. -/
  frame : ∀ place, ¬(stack.toNat ≤ place ∧ place < (topspace stack).toNat) →
    begun.memory place = machine.memory place
  /-- The stack pointer of a call is 8 behind a multiple of 16. -/
  misaligned : 16 ∣ stack.toNat → (begun.registers .rsp).toNat % 16 = 7
  /-- The routine returns to the end of the thread, with its value. -/
  returns : ∀ returned, Returns begun returned → returned.rip = exitAddr ∧
    (returned.registers .rsp).toNat = stack.toNat + stackSize.toNat ∧
    ∀ res, (effects (pthreadExitWrapper res) returned.toStore).registers .rdi =
      returned.registers .rax

theorem longjmp_newRegisters (guard : UInt64) (reg : JmpBuf)
    (thunk routine arg stack value : UInt64) (machine : Machine) :
    let jumped := longjmp guard (newRegisters guard reg thunk routine arg stack) value machine
    jumped.rip = thunk ∧ jumped.registers .rsp = topspace stack ∧
      jumped.registers .r12 = routine ∧ jumped.registers .r13 = arg ∧
      jumped.memory = machine.memory := by
  have pc : newRegisters guard reg thunk routine arg stack jbPc = ptrMangle guard thunk := rfl
  have rsp : newRegisters guard reg thunk routine arg stack jbRsp =
      ptrMangle guard (topspace stack) := rfl
  refine ⟨?_, ?_, rfl, rfl, rfl⟩
  · rw [longjmp, pc, ptrDemangle_ptrMangle]
  · rw [longjmp, rsp, ptrDemangle_ptrMangle]

/-- The first `longjmp` to a new thread enters its routine. -/
theorem exists_begun {image : Image} {thunk : UInt64}
    (holds : image.Holds thunk (startThunk ++ [.ret])) (guard : UInt64) (reg : JmpBuf)
    {exitAddr stack : UInt64} (routine arg : UInt64) (block : Block stack) {machine : Machine}
    (planted : load machine.memory (topspace stack) = exitAddr) :
    ∃ begun, Relation.ReflTransGen (Step image)
        (longjmp guard (newRegisters guard reg thunk routine arg stack) 1 machine) begun ∧
      Begun exitAddr routine arg stack machine begun := by
  rcases longjmp_newRegisters guard reg thunk routine arg stack 1 machine with
    ⟨entry, rsp, r12, r13, memory⟩
  revert entry rsp r12 r13 memory
  generalize longjmp guard (newRegisters guard reg thunk routine arg stack) 1 machine = jumped
  intro entry rsp r12 r13 memory
  rw [← entry] at holds
  rcases startThunk_effects jumped.toStore with ⟨target, below, argument, frame⟩
  refine ⟨_, runs_of_holds startThunk_straight holds, ?_⟩
  have top := block.topspace_toNat
  have free := block.below_toNat
  have rspAfter : (Instruction.ret.effect (effects startThunk jumped.toStore)).registers .rsp =
      topspace stack := by
    rw [effect_ret_rsp, below, rsp, UInt64.sub_add_cancel]
  have memoryAfter : ∀ place, ¬(stack.toNat ≤ place ∧ place < (topspace stack).toNat) →
      (effects startThunk jumped.toStore).memory place = machine.memory place := by
    intro place outside
    rw [frame, memory]
    rw [rsp]
    intro within
    have bounds : (topspace stack - 8).toNat ≤ place ∧ place < (topspace stack - 8).toNat + 8 :=
      within
    omega
  have topAfter : load (effects startThunk jumped.toStore).memory (topspace stack) = exitAddr := by
    rw [← planted]
    apply load_congr
    intro place within
    apply memoryAfter
    have bounds : (topspace stack).toNat ≤ place ∧ place < (topspace stack).toNat + 8 := within
    omega
  have argumentAfter :
      (Instruction.ret.effect (effects startThunk jumped.toStore)).registers .rdi = arg := by
    rw [effect_ret_register _ (by decide), argument, r13]
  have returnAfter :
      (Instruction.ret.effect (effects startThunk jumped.toStore)).top = exitAddr := by
    rw [Store.top, rspAfter]
    exact topAfter
  constructor
  case toBegins => exact ⟨target.trans r12, argumentAfter, returnAfter⟩
  case rsp => exact rspAfter
  case frame => exact memoryAfter
  case misaligned =>
      rintro ⟨blocks, aligned⟩
      change ((Instruction.ret.effect (effects startThunk jumped.toStore)).registers .rsp).toNat
        % 16 = 7
      rw [rspAfter, top]
      omega
  case returns =>
      intro returned comesBack
      refine ⟨?_, ?_, fun res => pthreadExitWrapper_argument res _⟩
      · exact comesBack.1.trans returnAfter
      · rw [comesBack.2, rspAfter]
        have size : stackSize.toNat = 32767 := rfl
        rw [UInt64.toNat_add, top, size, Nat.mod_eq_of_lt]
        · rfl
        · have inside := block.inside
          change stack.toNat + 32759 + 8 < 2 ^ 64
          omega

/-! ## Both libraries -/

/-- In both libraries the context of a new thread is where the first `longjmp` to it leads: into
its routine, on its own stack, and from there to the end of the thread. -/
theorem newThreads_start {image : Image} {thunk : UInt64}
    (holds : image.Holds thunk (startThunk ++ [.ret])) (guard : UInt64) (reg : JmpBuf)
    {exitAddr stack : UInt64} (routine arg : Value) (block : Block stack) {memory : Bytes}
    {machine : Machine}
    (kept : ∀ place, Within (topspace stack) place →
      machine.memory place = plantExit memory stack exitAddr place)
    {User LaterUser : Type} (client : Client User) (laterClient : Threads.Client LaterUser)
    (program : Machine → User) (laterProgram : Machine → LaterUser)
    (enters : ∀ machine, Begins exitAddr routine arg machine →
      program machine = client.start routine arg)
    (laterEnters : ∀ machine, Begins exitAddr routine arg machine →
      laterProgram machine = laterClient.start routine arg) :
    ∃ begun, Relation.ReflTransGen (Step image)
        (longjmp guard (newRegisters guard reg thunk routine arg stack) 1 machine) begun ∧
      Begun exitAddr routine arg stack machine begun ∧
      (∀ tid, State.newContext client tid routine arg =
        { owner := tid, user := program begun, call := none, schedulers := [] }) ∧
      ∀ (state : Threads.State LaterUser) (tid : Tid),
        ((state.newThread laterClient tid routine arg).tcb tid).reg = some
          { owner := tid, user := laterProgram begun, call := none, schedulers := [] } := by
  have planted : load machine.memory (topspace stack) = exitAddr := by
    rw [load_congr kept]
    exact load_store ..
  rcases exists_begun holds guard reg routine arg block planted with ⟨begun, runs, begins⟩
  refine ⟨begun, runs, begins, ?_, ?_⟩
  · intro tid
    rw [State.newContext, enters begun begins.toBegins]
  · intro state tid
    rw [Threads.State.newThread_reg, if_pos rfl, laterEnters begun begins.toBegins]

/-- `start_thunk` at the addresses from 0 on. -/
def thunkImage : Image := fun address =>
  (startThunk ++ [.ret])[address.toNat]?.map (·, address + 1)

def beginners : Client (UInt64 × UInt64) where
  start routine arg := (routine, arg)
  own _ _ := False
  calls _ _ _ := False
  returns program _ := program

def laterBeginners : Threads.Client (UInt64 × UInt64) where
  start routine arg := (routine, arg)
  own _ _ := False
  calls _ _ _ := False
  returns program _ _ := program

def beginning (machine : Machine) : UInt64 × UInt64 :=
  (machine.rip, machine.registers .rdi)

def elsewhere : Machine where
  registers _ := 9
  memory := plantExit (fun _ => 0) 4096 600
  rip := 8

theorem newThreads_start_small :
    ∃ begun, Relation.ReflTransGen (Step thunkImage)
        (longjmp 5 (newRegisters 5 (fun _ => 0) 0 500 42 4096) 1 elsewhere) begun ∧
      Begun 600 500 42 4096 elsewhere begun ∧
      (∀ tid, State.newContext beginners tid 500 42 =
        { owner := tid, user := beginning begun, call := none, schedulers := [] }) ∧
      ∀ (state : Threads.State (UInt64 × UInt64)) (tid : Tid),
        ((state.newThread laterBeginners tid 500 42).tcb tid).reg = some
          { owner := tid, user := beginning begun, call := none, schedulers := [] } := by
  have holds : thunkImage.Holds 0 (startThunk ++ [.ret]) :=
    ⟨1, rfl, 2, rfl, 3, rfl, 4, rfl, 5, rfl, 6, rfl, trivial⟩
  have kept : ∀ place, Within (topspace 4096) place →
      elsewhere.memory place = plantExit (fun _ => 0) 4096 600 place := by
    intro place within
    rw [elsewhere]
  have enters : ∀ machine, Begins 600 500 42 machine → beginning machine = (500, 42) := by
    intro machine begins
    rw [beginning, begins.entry, begins.argument]
  exact newThreads_start holds 5 (fun _ => 0) 500 42 ⟨by decide⟩ kept beginners laterBeginners
    beginning beginning enters enters

end EC440.UserThreads
