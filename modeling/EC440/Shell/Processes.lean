import EC440.Library.Transition
import EC440.Shell.Strings

/-!
# Processes of the shell

`main` of the shell as a tree of processes.  A process executes `main` from one
system call that decides what happens next to the following one, which are
`fgets`, `fork`, `pipe`, `waitpid`, `wait`, `execvp` and `exit`.  A child has a
copy of its parent's memory, so that processes meet in these calls only.  What
`open`, `dup2`, `close` and `printf` do decides nothing here, and `pipefds` is
not looked at.  `none` is an access outside an array.  A child that frees a
pointer it has moved may be aborted there, on its way to `execvp`: `stageFreed`
says which pointer that is.
-/

namespace EC440.Shell

/-- What is executed: the arguments, and the files that standard input and output are
redirected to. -/
structure Command where
  args : List Buffer
  fileIn : Option Buffer
  fileOut : Option Buffer
  deriving DecidableEq, Repr

abbrev Pid := Nat

/-- Where a process is, with what it still reads of its memory. -/
inductive Point where
  /-- `line = fgets(input, 512, stdin)` -/
  | read
  /-- `pid_bkgd = fork()` -/
  | background (input : Buffer)
  /-- Behind it, in front of the first `parse_input`. -/
  | parse (input : Buffer)
  /-- `pid = fork()` -/
  | single (command : Command)
  /-- `waitpid(pid, &status, 0)` -/
  | waitpid (child : Option Pid)
  /-- `pipe(pipefds + i * 2)` -/
  | pipe (input : Buffer) (sections : List Pointer) (i : Nat)
  /-- `pid1 = fork()` in the loop over the commands -/
  | fork (input : Buffer) (sections : List Pointer) (i : Nat)
  /-- Behind it, in the child. -/
  | stage (input : Buffer) (sections : List Pointer) (i : Nat)
  /-- `wait(&status)`, the given number of times -/
  | wait (remaining : Nat)
  /-- `execvp(args[0], args)` -/
  | execvp (command : Command)
  /-- `exit(11)` -/
  | exit
  /-- Another program is executed. -/
  | executing (command : Command)
  | ended
  deriving DecidableEq, Repr

/-! ## Between the system calls -/

def bar : Byte := 124

def less : Byte := 60

def greater : Byte := 62

def ampersand : Byte := 38

/-- Nothing but spaces stands in front of the newline. -/
def isBlank : Buffer → Bool
  | [] => false
  | c :: rest => c = newline || isspace c && isBlank rest

/-- From `fgets` on, which has stored the line. -/
def afterRead (line : Buffer) : Point :=
  let input := line ++ [0]
  if isBlank input then .read
  else
    match strpbrk input 0 ampersand with
    | some temp => .background (input.set temp 0)
    | none => .parse input

/-- The strings that `parse_input(line, _, " ")` finds, after it has cut them. -/
def parseArgs (input : Buffer) (line : Pointer) : Buffer × List Pointer :=
  parseInput input line space

/-- A file name without the spaces around it. -/
def trim (input : Buffer) (file : Pointer) : Option (Buffer × Pointer) :=
  let file := skipSpaces input file
  (killspaces input file).map fun input => (input, file)

def singleCommand (input : Buffer) (command : Pointer) : Option Point := do
  let (input, outRedirCheck) := parseInput input command greater
  let (input, inRedirCheck) := parseInput input command less
  match inRedirCheck with
  | [_] =>
      let (input, args) := parseArgs input command
      finishSingle input args none outRedirCheck
  | [command, fileIn] =>
      let (input, args) := parseArgs input command
      let (input, fileIn) ← trim input fileIn
      finishSingle input args (some fileIn) outRedirCheck
  -- ERROR: Too many input redirections
  | _ => some .read
where
  finishSingle (input : Buffer) (args : List Pointer) (fileIn : Option Pointer) :
      List Pointer → Option Point
    | [_] => some (.single
        { args := args.map (cstring input), fileIn := fileIn.map (cstring input), fileOut := none })
    | [_, fileOut] => do
        let (input, fileOut) ← trim (cutAt input fileOut newline) fileOut
        some (.single
          { args := args.map (cstring input)
            fileIn := fileIn.map (cstring input)
            fileOut := some (cstring input fileOut) })
    -- ERROR: Too many out redirections
    | _ => some .read

/-- From the first `parse_input` on. -/
def afterFork (input : Buffer) : Option Point :=
  let (input, pipeSection) := parseInput input 0 bar
  match pipeSection with
  | [] => some .read
  | [command] => singleCommand input command
  | _ => some (.pipe input pipeSection 0)

/-- `strcpy(file, source)` to 256 bytes -/
def strcpy (source : Buffer) : Option Buffer :=
  if source.length < 256 then some (source ++ [0]) else none

/-- The child of the `i`-th command, up to `execvp` or back to the loop over the commands. -/
def stageChild (input : Buffer) (sections : List Pointer) (i : Nat) : Option Point := do
  let command := sections.getD i 0
  if i = 0 then
    let (input, inRedirCheck) := parseInput input command less
    match inRedirCheck with
    | [_] =>
        let (input, args) := parseArgs input command
        some (.execvp { args := args.map (cstring input), fileIn := none, fileOut := none })
    | [command, file] =>
        let (input, args) := parseArgs input command
        let (copy, fileIn) ← trim (← strcpy (cstring input file)) 0
        some (.execvp
          { args := args.map (cstring input), fileIn := cstring copy fileIn, fileOut := none })
    -- ERROR: Too many input redirections
    | _ => some (.fork input sections i)
  else if i < sections.length - 1 then
    let (input, args) := parseArgs input command
    some (.execvp { args := args.map (cstring input), fileIn := none, fileOut := none })
  else
    let (input, outRedirCheck) := parseInput input command greater
    match outRedirCheck with
    | [_] =>
        let (input, args) := parseArgs input command
        some (.execvp { args := args.map (cstring input), fileIn := none, fileOut := none })
    | [command, file] =>
        let (input, args) := parseArgs input command
        let (copy, fileOut) ← trim (cutAt (← strcpy (cstring input file)) 0 newline) 0
        some (.execvp
          { args := args.map (cstring input), fileIn := none, fileOut := cstring copy fileOut })
    -- ERROR: Too many output redirections
    | _ => some (.fork input sections i)

/-- Behind the `fork` of the `i`-th command, in the parent. -/
def nextStage (input : Buffer) (sections : List Pointer) (i : Nat) : Point :=
  if i + 1 < sections.length then .fork input sections (i + 1) else .wait sections.length

/-- Behind the `i`-th `pipe`. -/
def nextPipe (input : Buffer) (sections : List Pointer) (i : Nat) : Point :=
  if i + 1 < 2 * (sections.length - 1) then .pipe input sections (i + 1)
  else .fork input sections 0

/-! ## The processes -/

structure Process where
  parent : Option Pid
  point : Point

/-- `line` is what was read last, `created` the number of processes forked since. -/
structure State where
  processes : Pid → Option Process
  next : Pid
  line : Buffer
  created : Nat

namespace State

/-- The shell, at its first `fgets`. -/
def initial (shell : Pid) : State where
  processes := Function.update (fun _ => none) shell (some { parent := none, point := .read })
  next := shell + 1
  line := []
  created := 0

variable (state : State)

def goto (pid : Pid) (process : Process) (point : Point) : State :=
  { state with processes := Function.update state.processes pid (some { process with point }) }

/-- `fork()` -/
def spawn (pid : Pid) (process : Process) (parent child : Point) : State :=
  { state with
    processes := Function.update (Function.update state.processes pid
      (some { process with point := parent })) state.next (some { parent := some pid, point := child })
    next := state.next + 1
    created := state.created + 1 }

/-- The process has ended, as far as the kernel tells its parent. -/
def HasEnded (pid : Pid) : Prop :=
  ∀ process ∈ state.processes pid, process.point = .ended

/-- All children of the process have ended, and `wait` fails (`SA_NOCLDWAIT`). -/
def ChildrenEnded (pid : Pid) : Prop :=
  ∀ child < state.next, ∀ process ∈ state.processes child, process.parent = some pid →
    process.point = .ended

end State

/-- What happens to a process at its system call. -/
inductive Outcome where
  /-- `fgets` stores a line. -/
  | line (line : Buffer)
  | succeeds
  | fails
  deriving DecidableEq, Repr

/-- What `fgets` may store: at most 511 bytes, of which a newline is the last. -/
def IsLine (line : Buffer) : Prop :=
  line ≠ [] ∧ line.length < 512 ∧ newline ∉ line.dropLast

instance (line : Buffer) : Decidable (IsLine line) :=
  inferInstanceAs (Decidable (_ ∧ _ ∧ _))

instance (state : State) (pid : Pid) : Decidable (state.HasEnded pid) :=
  inferInstanceAs (Decidable (∀ process ∈ _, _ = _))

instance (state : State) (pid : Pid) : Decidable (state.ChildrenEnded pid) :=
  inferInstanceAs (Decidable (∀ child < _, ∀ process ∈ _, _ = _ → _ = _))

def State.proceed (state : State) (pid : Pid) (process : Process) : Point → Outcome → Option State
  | .read, .line line =>
      if IsLine line then
        some { state.goto pid process (afterRead line) with line, created := 0 }
      else none
  -- `line[i]` of a `NULL`
  | .read, .fails => some (state.goto pid process .ended)
  | .background input, .succeeds => some (state.spawn pid process .read (.parse input))
  | .background input, .fails => some (state.goto pid process (.parse input))
  | .parse input, .succeeds => (afterFork input).map (state.goto pid process)
  | .single command, .succeeds =>
      some (state.spawn pid process (.waitpid (some state.next)) (.execvp command))
  | .single _, .fails => some (state.goto pid process (.waitpid none))
  | .waitpid (some child), .succeeds =>
      if state.HasEnded child then some (state.goto pid process .read) else none
  | .waitpid none, .succeeds =>
      if state.ChildrenEnded pid then some (state.goto pid process .read) else none
  | .pipe input sections i, .succeeds =>
      some (state.goto pid process (nextPipe input sections i))
  -- ERROR: failed to open pipes
  | .pipe input sections i, .fails => some (state.goto pid process (.pipe input sections i))
  | .fork input sections i, .succeeds =>
      some (state.spawn pid process (nextStage input sections i) (.stage input sections i))
  | .fork input sections i, .fails => some (state.goto pid process (nextStage input sections i))
  | .stage input sections i, .succeeds =>
      (stageChild input sections i).map (state.goto pid process)
  | .wait 0, .succeeds => some (state.goto pid process .read)
  | .wait (remaining + 1), .succeeds =>
      if state.ChildrenEnded pid then some (state.goto pid process (.wait remaining)) else none
  | .execvp command, .succeeds => some (state.goto pid process (.executing command))
  | .execvp _, .fails => some (state.goto pid process .exit)
  | .exit, .succeeds => some (state.goto pid process .ended)
  | .executing _, .succeeds => some (state.goto pid process .ended)
  | _, _ => none

def State.perform (state : State) (action : Pid × Outcome) : Option State :=
  (state.processes action.1).bind fun process =>
    state.proceed action.1 process process.point action.2

def Step (state : State) (action : Pid × Outcome) (after : State) : Prop :=
  state.perform action = some after

end EC440.Shell
