import Mathlib.Data.UInt
import Mathlib.Logic.Function.Basic
import Mathlib.Logic.Relation

/-!
# A machine with a stack

Words of 64 bits in registers, bytes in a memory, and the instructions by which
a piece of code without branches moves registers, saves them on the stack and
goes to the address on top of it.  A run of such a piece is calculated from the
effects of its instructions.
-/

namespace EC440.StackMachine

open Function (update)

/-! ## Words in memory -/

abbrev Bytes := Nat → UInt8

/-- The number in the bytes from an address on, the lowest byte first. -/
def numberAt (memory : Bytes) (address : Nat) : Nat → Nat
  | 0 => 0
  | width + 1 => (memory address).toNat + 256 * numberAt memory (address + 1) width

theorem numberAt_of_bytes {memory : Bytes} {address number width : Nat}
    (bytes : ∀ i < width, memory (address + i) = UInt8.ofNat (number / 256 ^ i)) :
    numberAt memory address width = number % 256 ^ width := by
  induction width generalizing address number with
  | zero => simp [numberAt, Nat.mod_one]
  | succ width inductionHypothesis =>
      have first : (memory address).toNat = number % 256 := by
        have byte := bytes 0 (Nat.succ_pos width)
        rw [Nat.add_zero, pow_zero, Nat.div_one] at byte
        simp [byte, UInt8.toNat_ofNat']
      have others : numberAt memory (address + 1) width = number / 256 % 256 ^ width := by
        apply inductionHypothesis
        intro i inside
        have byte := bytes (i + 1) (Nat.succ_lt_succ inside)
        rw [Nat.add_right_comm, Nat.add_assoc, byte, pow_succ', Nat.div_div_eq_div_mul]
      rw [numberAt, first, others, pow_succ', Nat.mod_mul]

def load (memory : Bytes) (address : UInt64) : UInt64 :=
  UInt64.ofNat (numberAt memory address.toNat 8)

/-- The addresses of the word at an address. -/
def Within (address : UInt64) (place : Nat) : Prop :=
  address.toNat ≤ place ∧ place < address.toNat + 8

instance (address : UInt64) (place : Nat) : Decidable (Within address place) :=
  inferInstanceAs (Decidable (_ ∧ _))

def store (memory : Bytes) (address : UInt64) (word : UInt64) : Bytes := fun place =>
  if Within address place then UInt8.ofNat (word.toNat / 256 ^ (place - address.toNat))
  else memory place

theorem load_store (memory : Bytes) (address word : UInt64) :
    load (store memory address word) address = word := by
  have number : numberAt (store memory address word) address.toNat 8 = word.toNat % 256 ^ 8 := by
    apply numberAt_of_bytes
    intro i inside
    have within : Within address (address.toNat + i) :=
      ⟨Nat.le_add_right .., Nat.add_lt_add_left inside _⟩
    rw [store, if_pos within, Nat.add_sub_cancel_left]
  have small : word.toNat < 256 ^ 8 := lt_of_lt_of_eq word.toNat_lt (by decide)
  rw [load, number, Nat.mod_eq_of_lt small]
  exact UInt64.ofNat_toNat

theorem store_of_notWithin {memory : Bytes} {address word : UInt64} {place : Nat}
    (outside : ¬Within address place) : store memory address word place = memory place :=
  if_neg outside

theorem numberAt_congr {memory other : Bytes} {address width : Nat}
    (same : ∀ i < width, other (address + i) = memory (address + i)) :
    numberAt other address width = numberAt memory address width := by
  induction width generalizing address with
  | zero => rfl
  | succ width inductionHypothesis =>
      have first := same 0 (Nat.succ_pos width)
      have others : numberAt other (address + 1) width = numberAt memory (address + 1) width := by
        apply inductionHypothesis
        intro i inside
        have byte := same (i + 1) (Nat.succ_lt_succ inside)
        rwa [← Nat.add_assoc, Nat.add_right_comm] at byte
      rw [numberAt, numberAt, others]
      rw [Nat.add_zero] at first
      rw [first]

theorem load_congr {memory other : Bytes} {address : UInt64}
    (same : ∀ place, Within address place → other place = memory place) :
    load other address = load memory address := by
  rw [load, load]
  refine congrArg UInt64.ofNat (numberAt_congr fun i inside => same _ ?_)
  exact ⟨Nat.le_add_right .., Nat.add_lt_add_left inside _⟩

/-! ## Instructions -/

inductive Register where
  | rax | rbx | rbp | rsp | rdi | r12 | r13 | r14 | r15
  deriving DecidableEq, Repr

/-- What the instructions work on. -/
structure Store where
  registers : Register → UInt64
  memory : Bytes

/-- The machine in front of the instruction at `rip`. -/
structure Machine extends Store where
  rip : UInt64

inductive Instruction where
  | push (source : Register)
  | pop (target : Register)
  | mov (target source : Register)
  | ret
  deriving DecidableEq, Repr

namespace Store

variable (store : Store)

def top : UInt64 :=
  load store.memory (store.registers .rsp)

end Store

def Instruction.effect (machine : Store) : Instruction → Store
  | .push source =>
      let rsp := machine.registers .rsp - 8
      { registers := update machine.registers .rsp rsp
        memory := store machine.memory rsp (machine.registers source) }
  | .pop target =>
      { machine with
        registers := update (update machine.registers .rsp (machine.registers .rsp + 8))
          target machine.top }
  | .mov target source =>
      { machine with
        registers := update machine.registers target (machine.registers source) }
  | .ret =>
      { machine with
        registers := update machine.registers .rsp (machine.registers .rsp + 8) }

@[simp]
theorem effect_ret_rsp (machine : Store) :
    (Instruction.ret.effect machine).registers .rsp = machine.registers .rsp + 8 := by
  simp [Instruction.effect]

@[simp]
theorem effect_ret_register (machine : Store) {register : Register} (other : register ≠ .rsp) :
    (Instruction.ret.effect machine).registers register = machine.registers register := by
  simp [Instruction.effect, other]

/-- Where the machine goes on, if the next instruction in the memory is at `next`. -/
def Instruction.goesTo (next : UInt64) (machine : Store) : Instruction → UInt64
  | .ret => machine.top
  | .push _ | .pop _ | .mov .. => next

/-- The instruction at an address, and the address behind it. -/
abbrev Image := UInt64 → Option (Instruction × UInt64)

def Step (image : Image) (before after : Machine) : Prop :=
  ∃ instruction next, image before.rip = some (instruction, next) ∧
    after =
      { instruction.effect before.toStore with rip := instruction.goesTo next before.toStore }

/-- The instructions stand one behind the other from the address on. -/
def Image.Holds (image : Image) : UInt64 → List Instruction → Prop
  | _, [] => True
  | address, instruction :: rest =>
      ∃ next, image address = some (instruction, next) ∧ image.Holds next rest

def effects (code : List Instruction) (machine : Store) : Store :=
  code.foldl Instruction.effect machine

/-- A piece of code that ends with `ret`. -/
theorem runs_of_holds {image : Image} {code : List Instruction} {machine : Machine}
    (straight : .ret ∉ code) (holds : image.Holds machine.rip (code ++ [.ret])) :
    Relation.ReflTransGen (Step image) machine
      { Instruction.ret.effect (effects code machine.toStore) with
        rip := (effects code machine.toStore).top } := by
  induction code generalizing machine with
  | nil =>
      rcases holds with ⟨next, fetched, -⟩
      exact .single ⟨.ret, next, fetched, rfl⟩
  | cons instruction rest inductionHypothesis =>
      rcases holds with ⟨next, fetched, behind⟩
      let middle : Machine := { instruction.effect machine.toStore with rip := next }
      have goesOn : instruction.goesTo next machine.toStore = next := by
        cases instruction with
        | push | pop | mov => rfl
        | ret => exact absurd (.head _) straight
      have first : Step image machine middle := by
        refine ⟨instruction, next, fetched, ?_⟩
        rw [goesOn]
      have straightRest : .ret ∉ rest := fun membership => straight (.tail _ membership)
      have goesBehind := @inductionHypothesis middle straightRest behind
      exact .head first goesBehind

end EC440.StackMachine
