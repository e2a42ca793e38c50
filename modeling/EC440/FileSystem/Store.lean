import EC440.FileSystem.Invariant
import EC440.Library.Ranges
import Mathlib.Data.Set.Card

/-!
# What the file system is for

A store keeps byte sequences under names, and handles that stand at positions
in them.  Blocks, chains, the directory and the staging buffers do not occur
here.  A store carries what makes it well formed, so that every handle stands
inside the file of its name.
-/

namespace EC440.FileSystem

open Ranges

/-! ## Requests and replies -/

/-- The calls of a program that creates, opens, closes, deletes, reads, writes and measures
files.  `fs_truncate` is not among them: it never changes the size of a file. -/
inductive Store.Request where
  | create (name : CString)
  | opens (name : CString)
  | close (fildesI : Int)
  | delete (name : CString)
  | read (fildesI : Int) (nbyte : UInt64)
  | write (fildesI : Int) (buf : Nat → UInt8) (nbyte : UInt64)
  | lseek (fildesI : Int) (offset : Int64)
  | getFilesize (fildesI : Int)

/-- A return value, and the bytes that the call reports to have delivered. -/
structure Store.Reply where
  code : Int
  data : List UInt8
  deriving DecidableEq

def Store.Reply.only (code : Int) : Store.Reply := ⟨code, []⟩

/-! ## Stores -/

structure Handle where
  name : List UInt8
  position : Nat
  deriving DecidableEq

/-- Named byte sequences within the size limit, and handles inside them. -/
@[ext]
structure Store where
  files : List UInt8 → Option (List UInt8)
  handles : Descriptor → Option Handle
  limited : ∀ name content, files name = some content → content.length ≤ maxFSize
  attached : ∀ descriptor handle, handles descriptor = some handle →
    ∃ content, files handle.name = some content ∧ handle.position ≤ content.length

namespace Store

variable (store : Store)

def empty : Store where
  files _ := none
  handles _ := none
  limited _ _ found := by cases found
  attached _ _ found := by cases found

/-- A name can be added: it is neither empty nor too long nor taken, and the directory is not
full. -/
structure Admits (name : List UInt8) : Prop where
  nonempty : name ≠ []
  short : name.length ≤ maxFName
  new : store.files name = none
  room : {name | store.files name ≠ none}.ncard < maxFNum

def create (name : List UInt8) (new : store.files name = none) : Store where
  files := Function.update store.files name (some [])
  handles := store.handles
  limited other content found := by
    by_cases same : other = name
    · subst same
      rw [Function.update_self, Option.some.injEq] at found
      rw [← found]
      exact Nat.zero_le _
    · rw [Function.update_of_ne same] at found
      exact store.limited other content found
  attached descriptor handle found := by
    obtain ⟨content, stored, inside⟩ := store.attached descriptor handle found
    have other : handle.name ≠ name := by
      rintro rfl
      rw [new] at stored
      cases stored
    exact ⟨content, by rwa [Function.update_of_ne other], inside⟩

def Unopened (name : List UInt8) : Prop :=
  ∀ descriptor handle, store.handles descriptor = some handle → handle.name ≠ name

def delete (name : List UInt8) (unopened : store.Unopened name) : Store where
  files := Function.update store.files name none
  handles := store.handles
  limited other content found := by
    by_cases same : other = name
    · subst same
      rw [Function.update_self] at found
      cases found
    · rw [Function.update_of_ne same] at found
      exact store.limited other content found
  attached descriptor handle found := by
    rw [Function.update_of_ne (unopened descriptor handle found)]
    exact store.attached descriptor handle found

def place (descriptor : Descriptor) (handle : Handle)
    (inside : ∃ content, store.files handle.name = some content ∧
      handle.position ≤ content.length) : Store where
  files := store.files
  handles := Function.update store.handles descriptor (some handle)
  limited := store.limited
  attached other handle' found := by
    by_cases same : other = descriptor
    · subst same
      rw [Function.update_self, Option.some.injEq] at found
      rwa [← found]
    · rw [Function.update_of_ne same] at found
      exact store.attached other handle' found

def close (descriptor : Descriptor) : Store where
  files := store.files
  handles := Function.update store.handles descriptor none
  limited := store.limited
  attached other handle found := by
    by_cases same : other = descriptor
    · subst same
      rw [Function.update_self] at found
      cases found
    · rw [Function.update_of_ne same] at found
      exact store.attached other handle found

@[simp]
theorem files_create {name : List UInt8} (new : store.files name = none) :
    (store.create name new).files = Function.update store.files name (some []) := rfl

@[simp]
theorem files_place {descriptor : Descriptor} {handle : Handle}
    (inside : ∃ content, store.files handle.name = some content ∧
      handle.position ≤ content.length) :
    (store.place descriptor handle inside).files = store.files := rfl

@[simp]
theorem handles_place {descriptor : Descriptor} {handle : Handle}
    (inside : ∃ content, store.files handle.name = some content ∧
      handle.position ≤ content.length) :
    (store.place descriptor handle inside).handles =
      Function.update store.handles descriptor (some handle) := rfl

@[simp]
theorem files_empty (name : List UInt8) : empty.files name = none := rfl

/-! ### Open handles -/

structure Held where
  descriptor : Descriptor
  handle : Handle
  isOpen : store.handles descriptor = some handle

/-- The open handle that an `int` denotes. -/
def held? (fildesI : Int) : Option store.Held :=
  match fildesAt fildesI with
  | .error _ => none
  | .ok descriptor =>
      match isOpen : store.handles descriptor with
      | none => none
      | some handle => some ⟨descriptor, handle, isOpen⟩

variable {store}

theorem held?_of_open {descriptor : Descriptor} {handle : Handle}
    (isOpen : store.handles descriptor = some handle) :
    store.held? descriptor.val = some ⟨descriptor, handle, isOpen⟩ := by
  unfold held?
  rw [fildesAt_val]
  simp only
  split
  next none => rw [isOpen] at none; cases none
  next other found =>
    obtain rfl : handle = other := Option.some.inj (isOpen.symm.trans found)
    rfl

theorem held?_of_closed {descriptor : Descriptor} (closed : store.handles descriptor = none) :
    store.held? descriptor.val = none := by
  unfold held?
  rw [fildesAt_val]
  simp only
  split
  next => rfl
  next other found =>
    rw [closed] at found
    cases found

namespace Held

variable (held : store.Held)

def content : List UInt8 := (store.files held.handle.name).getD []

theorem files_eq : store.files held.handle.name = some held.content := by
  obtain ⟨content, stored, -⟩ := store.attached held.descriptor held.handle held.isOpen
  rw [Held.content, stored, Option.getD_some]

theorem position_le : held.handle.position ≤ held.content.length := by
  obtain ⟨content, stored, inside⟩ := store.attached held.descriptor held.handle held.isOpen
  rwa [Held.content, stored, Option.getD_some]

theorem length_le : held.content.length ≤ maxFSize :=
  store.limited held.handle.name held.content held.files_eq

def move (position : Nat) (inside : position ≤ held.content.length) : Store :=
  store.place held.descriptor ⟨held.handle.name, position⟩ ⟨held.content, held.files_eq, inside⟩

/-- The bytes of `data` that the size limit leaves to a write. -/
def accepted (data : List UInt8) : List UInt8 := data.take (maxFSize - held.handle.position)

def rewritten (data : List UInt8) : List UInt8 :=
  overwrite held.content held.handle.position (held.accepted data)

theorem length_rewritten (data : List UInt8) : (held.rewritten data).length =
    max held.content.length (held.handle.position + (held.accepted data).length) :=
  length_overwrite held.position_le

theorem accepted_fits (data : List UInt8) :
    held.handle.position + (held.accepted data).length ≤ maxFSize := by
  have position := held.position_le
  have size := held.length_le
  rw [accepted, List.length_take]
  omega

def write (data : List UInt8) : Store where
  files := Function.update store.files held.handle.name (some (held.rewritten data))
  handles := Function.update store.handles held.descriptor
    (some ⟨held.handle.name, held.handle.position + (held.accepted data).length⟩)
  limited name content found := by
    by_cases same : name = held.handle.name
    · subst same
      rw [Function.update_self, Option.some.injEq] at found
      rw [← found, length_rewritten]
      exact max_le held.length_le (held.accepted_fits data)
    · rw [Function.update_of_ne same] at found
      exact store.limited name content found
  attached descriptor handle found := by
    by_cases same : descriptor = held.descriptor
    · subst same
      rw [Function.update_self, Option.some.injEq] at found
      rw [← found]
      refine ⟨held.rewritten data, Function.update_self _ _ _, ?_⟩
      rw [length_rewritten]
      exact le_max_right _ _
    · rw [Function.update_of_ne same] at found
      obtain ⟨content, stored, inside⟩ := store.attached descriptor handle found
      by_cases sameFile : handle.name = held.handle.name
      · refine ⟨held.rewritten data, by rw [sameFile, Function.update_self], ?_⟩
        -- a file never shrinks, so the other handles on it stay inside
        have own : held.content = content := by
          rw [Held.content, ← sameFile, stored, Option.getD_some]
        rw [length_rewritten, own]
        exact inside.trans (le_max_left _ _)
      · exact ⟨content, by rwa [Function.update_of_ne sameFile], inside⟩

theorem files_write {data : List UInt8} :
    (held.write data).files held.handle.name = some (held.rewritten data) :=
  Function.update_self held.handle.name _ _

end Held

/-! ## Answers -/

variable (store)

/-- The handle that the next `fs_open` takes. -/
def nextHandle : Option Descriptor := search fun descriptor => (store.handles descriptor).isNone

open Classical in
noncomputable def respond : Request → Reply × Store
  | .create name =>
      if admitted : store.Admits name.bytes then (.only 0, store.create name.bytes admitted.new)
      else (.only (-1), store)
  | .opens name =>
      match stored : store.files name.bytes, store.nextHandle with
      | some content, some descriptor =>
          (.only descriptor.val, store.place descriptor ⟨name.bytes, 0⟩
            ⟨content, stored, Nat.zero_le _⟩)
      | _, _ => (.only (-1), store)
  | .close fildesI =>
      match store.held? fildesI with
      | some held => (.only 0, store.close held.descriptor)
      | none => (.only (-1), store)
  | .delete name =>
      if unopened : store.files name.bytes ≠ none ∧ store.Unopened name.bytes then
        (.only 0, store.delete name.bytes unopened.2)
      else (.only (-1), store)
  | .read fildesI nbyte =>
      match store.held? fildesI with
      | some held =>
          if nbyte = 0 then (.only (-1), store)
          else
            let data := slice held.content held.handle.position nbyte.toNat
            (⟨data.length, data⟩, held.move (held.handle.position + data.length) (by
              have position := held.position_le
              simp only [data, length_slice]
              omega))
      | none => (.only (-1), store)
  | .write fildesI buf nbyte =>
      match store.held? fildesI with
      | some held =>
          let data := (List.range nbyte.toNat).map buf
          (.only (held.accepted data).length, held.write data)
      | none => (.only (-1), store)
  | .lseek fildesI offset =>
      match store.held? fildesI with
      | some held =>
          if inside : 0 ≤ offset.toInt ∧ offset.toInt ≤ held.content.length then
            (.only 0, held.move offset.toInt.toNat (by omega))
          else (.only (-1), store)
      | none => (.only (-1), store)
  | .getFilesize fildesI =>
      match store.held? fildesI with
      | some held => (.only held.content.length, store)
      | none => (.only (-1), store)

theorem respond_opens {store : Store} {name : CString} {content : List UInt8}
    {descriptor : Descriptor} (stored : store.files name.bytes = some content)
    (next : store.nextHandle = some descriptor) :
    store.respond (.opens name) = (.only descriptor.val, store.place descriptor ⟨name.bytes, 0⟩
      ⟨content, stored, Nat.zero_le _⟩) := by
  simp only [respond]
  split
  next content' descriptor' stored' next' =>
    obtain rfl : descriptor = descriptor' := Option.some.inj (next.symm.trans next')
    rfl
  next neither => exact absurd next (neither content descriptor stored)

theorem respond_opens_refused {store : Store} {name : CString}
    (refused : store.files name.bytes = none ∨ store.nextHandle = none) :
    store.respond (.opens name) = (.only (-1), store) := by
  simp only [respond]
  split
  next stored next =>
    rcases refused with absent | full
    · rw [stored] at absent
      cases absent
    · rw [next] at full
      cases full
  next => rfl

noncomputable def play : Store → List Request → List Reply × Store
  | store, [] => ([], store)
  | store, request :: rest =>
      let (reply, after) := store.respond request
      let (replies, final) := play after rest
      (reply :: replies, final)

end Store

end EC440.FileSystem
