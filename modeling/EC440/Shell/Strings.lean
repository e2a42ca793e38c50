import Mathlib.Data.List.Basic

/-!
# Strings of the shell

The functions of `myshell.c`.  A buffer is an array of bytes, a pointer into it
is the index of the byte it points to, and the string at a pointer ends before
the next NUL.  `none` is an access in front of the buffer.
-/

namespace EC440.Shell

abbrev Byte := UInt8

abbrev Buffer := List Byte

/-- `char *`, into the buffer at hand -/
abbrev Pointer := Nat

/-- `'\\n'` -/
def newline : Byte := 10

/-- `' '` -/
def space : Byte := 32

/-! ## The C library -/

def cstring (buffer : Buffer) (pointer : Pointer) : Buffer :=
  (buffer.drop pointer).takeWhile (· ≠ 0)

def strlen (buffer : Buffer) (pointer : Pointer) : Nat :=
  (cstring buffer pointer).length

/-- `strpbrk(pointer, delim)` for a string `delim` of one character, and `strchr` for it -/
def strpbrk (buffer : Buffer) (pointer : Pointer) (delim : Byte) : Option Pointer :=
  ((cstring buffer pointer).findIdx? (· = delim)).map (pointer + ·)

def isspace (c : Byte) : Bool :=
  c = space ∨ 9 ≤ c ∧ c ≤ 13

/-- The first `c` of the string becomes its end, if there is one. -/
def cutAt (buffer : Buffer) (pointer : Pointer) (c : Byte) : Buffer :=
  match strpbrk buffer pointer c with
  | some found => buffer.set found 0
  | none => buffer

/-- Where the string goes on behind its leading spaces. -/
def skipSpaces (buffer : Buffer) (pointer : Pointer) : Pointer :=
  pointer + ((cstring buffer pointer).takeWhile (· = space)).length

/-! ## parse_input -/

/-- The loop of `parse_input`, at its condition.  Each round finds a delimiter further on, so
that the length of the buffer bounds their number. -/
def parseLoop (delim : Byte) :
    Nat → Buffer → Option Pointer → List Pointer → Buffer × List Pointer
  | fuel + 1, buffer, some lim, separated =>
      let rest := cstring buffer (lim + 1)
      parseLoop delim fuel (buffer.set lim 0) (strpbrk buffer (lim + 1) delim)
        (if rest ≠ [newline] ∧ rest ≠ [space] ∧ rest.length ≠ 0 then separated ++ [lim + 1]
          else separated)
  | _, buffer, _, separated => (buffer, separated)

/-- `parse_input(line, &numfound, delim)`: the buffer afterwards and the pointers in `separated`
up to its `NULL`, whose number is `numfound`. -/
def parseInput (buffer : Buffer) (line : Pointer) (delim : Byte) : Buffer × List Pointer :=
  let lim := strpbrk buffer line delim
  let leading := buffer[line]? = some space
  let lim :=
    if leading ∧ delim = space then lim.bind fun lim => strpbrk buffer (lim + 1) delim else lim
  let (buffer, separated) :=
    parseLoop delim buffer.length buffer lim [if leading then line + 1 else line]
  (cutAt buffer (separated.getLastD line) newline, separated)

/-! ## killspaces -/

/-- The loop of `killspaces`, at its condition.  Each round removes a space. -/
def killLoop (input : Pointer) : Nat → Buffer → Nat → Option Buffer
  | 0, _, _ => none
  | fuel + 1, buffer, i =>
      let stop := input + strlen buffer input
      if i ≤ stop then
        if buffer[stop - i]? = some space then killLoop input fuel (buffer.set (stop - i) 0) (i + 1)
        else some buffer
      else none

def killspaces (buffer : Buffer) (input : Pointer) : Option Buffer :=
  killLoop input (buffer.length + 1) buffer 1

end EC440.Shell
