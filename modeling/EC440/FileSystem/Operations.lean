import EC440.FileSystem.State

/-!
# File operations

The calls of `fs.c` on a mounted file system, statement by statement.  Every
function returns its C return value with the state it leaves.  `garbage n` is
what the `n`-th `malloc` of the call finds in the memory it hands out.
-/

namespace EC440.FileSystem

variable (tolerance : Tolerance)

/-! ## fs_open and fs_close -/

def fsOpen (state : State) (name : CString) : Outcome (Int32 × State) :=
  match search fun file => (state.dir file).name.Matches name with
  | none => .ok (-1, state)
  | some file =>
      if (state.dir file).used = 0 then
        .ok (-1, state)
      else
        match search fun descriptor => (state.fildes descriptor).used = 0 with
        | none => do
            tolerate tolerance .fildesPeek
            .ok (-1, state)
        | some newFildes =>
            let entry := state.dir file
            .ok (Int32.ofNat newFildes, { state with
              fildes := Function.update state.fildes newFildes
                { used := 1, file := entry.head, offset := 0 }
              dir := Function.update state.dir file { entry with refCnt := entry.refCnt + 1 } })

/-- `fildes[i].used == 0 || i > MAX_FILDES || i < 0`, once `fildes[i]` has been read. -/
def invalidFildes (state : State) (fildesI : Int) (descriptor : Descriptor) : Prop :=
  (state.fildes descriptor).used = 0 ∨ fildesI > maxFildes ∨ fildesI < 0

instance (state : State) (fildesI : Int) (descriptor : Descriptor) :
    Decidable (invalidFildes state fildesI descriptor) :=
  inferInstanceAs (Decidable (_ ∨ _ ∨ _))

/-- The first entry of `DIR` whose `head` is the `file` of a descriptor. -/
def searchHead (dir : Directory) (file : Int32) : Option Slot :=
  search fun slot => (dir slot).head = file

def fsClose (state : State) (fildesI : Int) : Outcome (Int32 × State) := do
  let descriptor ← fildesAt fildesI
  if invalidFildes state fildesI descriptor then
    .ok (-1, state)
  else
    match searchHead state.dir (state.fildes descriptor).file with
    | none =>
        tolerate tolerance .dirPeek
        .ok (-1, state)
    | some slot =>
        let entry := state.dir slot
        if entry.used = 0 then
          .ok (-1, state)
        else
          .ok (0, { state with
            fildes := Function.update state.fildes descriptor { used := 0, file := 0, offset := -1 }
            dir := Function.update state.dir slot { entry with refCnt := entry.refCnt - 1 } })

/-! ## fs_create -/

/-- The loop over `DIR` of `fs_create`, with `unused` (initially `MAX_F_NUM`) as the
accumulator.  `none` is the return from inside the loop when the name exists. -/
def createScan (dir : Directory) (name : CString) : List Slot → Option Slot → Option (Option Slot)
  | [], unused => some unused
  | slot :: rest, unused =>
      if (dir slot).name.Matches name then
        none
      else
        createScan dir name rest (if (dir slot).used = 0 then some slot else unused)

/-- `for (i = start; i < DISK_BLOCKS; i++) if (FAT[i] == 0) break;` with the number of
iterations left.  The result is the final value of `i`. -/
def findFree (fat : Fat) : Nat → Int → Outcome Int
  | 0, index => .ok index
  | remaining + 1, index => do
      if (← readFat fat index) = 0 then
        .ok index
      else
        findFree fat remaining (index + 1)

/-- The search for a free block, from `fs->data_idx` on. -/
def firstFree (fat : Fat) (superBlock : SuperBlock) : Outcome Int :=
  findFree fat (diskBlocks - superBlock.dataIdx.toInt).toNat superBlock.dataIdx.toInt

def fsCreate (state : State) (name : CString) : Outcome (Int32 × State) :=
  if name.bytes.length > 15 then
    .ok (-1, state)
  else
    match createScan state.dir name (List.finRange maxFNum) none with
    | none => .ok (-1, state)
    | some none => .ok (-1, state)
    | some (some unused) => do
        let superBlock ← state.superBlock
        let index ← firstFree state.fat superBlock
        let fat ← writeFat state.fat index (-1)
        .ok (0, { state with
          fat
          dir := Function.update state.dir unused
            { used := 1
              name := (state.dir unused).name.strcpy name
              size := 0
              head := Int32.ofInt index
              refCnt := 0 } })

/-! ## fs_delete -/

/-- The loop of `fs_delete` that frees the chain.  The flag tells whether it reached the end
of the chain; otherwise it met a free block and the function returns -1. -/
def freeChain : Nat → Fat → Int → Outcome (Bool × Fat)
  | 0, _, _ => .error .diverges
  | fuel + 1, fat, fatIndex => do
      let next ← readFat fat fatIndex
      if next = -1 then
        let fat ← writeFat fat fatIndex 0
        .ok (true, fat)
      else if next = 0 then
        .ok (false, fat)
      else
        let fat ← writeFat fat fatIndex 0
        freeChain fuel fat next.toInt

/-- One step more than there are blocks: a walk that takes longer repeats a block. -/
def chainFuel : Nat := diskBlocks + 1

def fsDelete (state : State) (name : CString) : Outcome (Int32 × State) :=
  match search fun slot => (state.dir slot).name.Matches name with
  | none => do
      tolerate tolerance .dirPeek
      .ok (-1, state)
  | some slot =>
      let entry := state.dir slot
      if entry.refCnt > 0 then
        .ok (-1, state)
      else do
        let (complete, fat) ← freeChain chainFuel state.fat entry.head.toInt
        if complete then
          .ok (0, { state with
            fat
            dir := Function.update state.dir slot
              { entry with used := 0, name := entry.name.clear, size := 0, head := 0 } })
        else
          .ok (-1, { state with fat })

/-! ## fs_lseek and fs_get_filesize -/

/-- `while (DIR[i].head != file) i++;` has no bound test. -/
def searchHeadUnbounded (dir : Directory) (file : Int32) : Outcome Slot :=
  match searchHead dir file with
  | some slot => .ok slot
  | none => .error (.outOfRange .dir maxFNum)

def fsLseek (state : State) (fildesI : Int) (offset : Int64) : Outcome (Int32 × State) := do
  let descriptor ← fildesAt fildesI
  let fd := state.fildes descriptor
  if fd.used = 0 then
    .ok (-1, state)
  else if offset < 0 then
    .ok (-1, state)
  else
    let slot ← searchHeadUnbounded state.dir fd.file
    if offset.toInt > (state.dir slot).size.toInt then
      .ok (-1, state)
    else
      .ok (0, { state with
        fildes := Function.update state.fildes descriptor
          { fd with offset := Int32.ofInt offset.toInt } })

def fsGetFilesize (state : State) (fildesI : Int) : Outcome Int32 := do
  let descriptor ← fildesAt fildesI
  if (state.fildes descriptor).used = 0 then
    .ok (-1)
  else
    let slot ← searchHeadUnbounded state.dir (state.fildes descriptor).file
    .ok (state.dir slot).size

/-! ## fs_read and fs_write -/

/-- The loop that reads a chain into a buffer of `blocks` blocks, from the `blockIndex`-th on.
`none` is a failed `block_read`. -/
def loadChain (device : Device) (fat : Fat) (blocks : Int) :
    Nat → Int32 → Nat → Buffer → Outcome (Option Buffer)
  | 0, _, _, _ => .error .diverges
  | fuel + 1, fatIndex, blockIndex, buffer =>
      if fatIndex = -1 then
        .ok (some buffer)
      else
        match device.blockRead fatIndex.toInt with
        | none => .ok none
        | some block => do
            if blockIndex ≥ blocks then
              tolerate tolerance .heap
            let next ← readFat fat fatIndex.toInt
            loadChain device fat blocks fuel next (blockIndex + 1)
              (buffer.load (blockIndex * blockSize) block)

/-- The loop that writes a buffer of `blocks` blocks back to a chain.  The flag tells whether
every `block_write` succeeded. -/
def storeChain (fat : Fat) (blocks : Int) (buffer : Buffer) :
    Nat → Device → Int32 → Nat → Outcome (Bool × Device)
  | 0, _, _, _ => .error .diverges
  | fuel + 1, device, fatIndex, blockIndex =>
      if fatIndex = -1 then
        .ok (true, device)
      else
        match device.blockWrite fatIndex.toInt (buffer.blockAt (blockIndex * blockSize)) with
        | none => .ok (false, device)
        | some device => do
            if blockIndex ≥ blocks then
              tolerate tolerance .heap
            let next ← readFat fat fatIndex.toInt
            storeChain fat blocks buffer fuel device next (blockIndex + 1)

/-- A `memcpy` of `length` bytes at `offset` of a buffer of `blocks` blocks. -/
def checkCopy (blocks offset : Int) (length : Nat) : Outcome Unit :=
  if 0 ≤ offset ∧ offset + length ≤ blockSize * blocks then
    .ok ()
  else
    tolerate tolerance .heap

/-- `size / BLOCK_SIZE + 1` -/
def numBlocks (size : Int32) : Int := size.toInt.tdiv blockSize + 1

/-- The second component is the memory that `memcpy` stores to `buf`; its first `nbyte` cells
are meaningful. -/
def fsRead (garbage : Nat → Buffer) (state : State) (fildesI : Int) (nbyte : UInt64) :
    Outcome (Int32 × (Nat → UInt8) × State) := do
  let descriptor ← fildesAt fildesI
  let fd := state.fildes descriptor
  if invalidFildes state fildesI descriptor then
    .ok (-1, fun _ => 0, state)
  else if nbyte.toNat ≤ 0 then
    .ok (-1, fun _ => 0, state)
  else
    let slot ← searchHeadUnbounded state.dir fd.file
    let entry := state.dir slot
    if entry.used = 0 then
      .ok (-1, fun _ => 0, state)
    else
      let blocks := numBlocks entry.size
      match ← loadChain tolerance state.device state.fat blocks chainFuel fd.file 0 (garbage 0) with
      | none => .ok (-1, fun _ => 0, state)
      | some buffer =>
          checkCopy tolerance blocks fd.offset.toInt nbyte.toNat
          let data := fun position : Nat => buffer (fd.offset.toInt + position)
          if toSize (fd.offset.toInt + nbyte.toNat) > toSize entry.size.toInt then
            .ok (entry.size - fd.offset, data, { state with
              fildes := Function.update state.fildes descriptor { fd with offset := entry.size } })
          else
            .ok (Int32.ofNat nbyte.toNat, data, { state with
              fildes := Function.update state.fildes descriptor
                { fd with offset := Int32.ofInt (fd.offset.toInt + nbyte.toNat) } })

/-- The loop of `fs_write` that appends blocks, with the number of iterations left. -/
def extendChain (superBlock : SuperBlock) : Nat → Fat → Int → Outcome Fat
  | 0, fat, _ => .ok fat
  | remaining + 1, fat, fatIndex => do
      if (← readFat fat fatIndex) = -1 then
        let index ← firstFree fat superBlock
        if index = diskBlocks then
          -- "There are no more empty blocks": reported, but the loop goes on
          extendChain superBlock remaining fat fatIndex
        else
          let fat ← writeFat fat fatIndex (Int32.ofInt index)
          let fat ← writeFat fat index (-1)
          extendChain superBlock remaining fat index
      else
        -- there is a next block already, but `fat_index` does not move on to it
        extendChain superBlock remaining fat fatIndex

/-- `nbyte` after the test against the maximum file size. -/
def clampCount (offset : Int32) (nbyte : UInt64) : Nat :=
  if toSize (offset.toInt + nbyte.toNat) > maxFSize then
    toSize (Int32.ofInt (maxFSize - offset.toInt)).toInt
  else
    nbyte.toNat

def fsWrite (garbage : Nat → Buffer) (state : State) (fildesI : Int) (buf : Nat → UInt8)
    (nbyte : UInt64) : Outcome (Int32 × State) := do
  let descriptor ← fildesAt fildesI
  let fd := state.fildes descriptor
  if invalidFildes state fildesI descriptor then
    .ok (-1, state)
  else
    let count := clampCount fd.offset nbyte
    let stop := toSize (fd.offset.toInt + count)
    match searchHead state.dir fd.file with
    | none =>
        tolerate tolerance .dirPeek
        .ok (-1, state)
    | some slot =>
        let entry := state.dir slot
        if entry.used = 0 then
          .ok (-1, state)
        else
          let superBlock ← state.superBlock
          let fat ← extendChain superBlock (stop / blockSize) state.fat fd.file.toInt
          let size := if stop > toSize entry.size.toInt then Int32.ofNat stop else entry.size
          let dir := Function.update state.dir slot { entry with size }
          let blocks := numBlocks size
          match ← loadChain tolerance state.device fat blocks chainFuel fd.file 0 (garbage 0) with
          | none => .ok (-1, { state with fat, dir })
          | some buffer =>
              checkCopy tolerance blocks fd.offset.toInt count
              let buffer := buffer.memcpy fd.offset.toInt (fun position => buf position.toNat) count
              let (complete, device) ←
                storeChain tolerance fat blocks buffer chainFuel state.device fd.file 0
              if complete then
                .ok (Int32.ofNat count, { state with
                  device, fat, dir
                  fildes := Function.update state.fildes descriptor
                    { fd with offset := Int32.ofInt (fd.offset.toInt + count) } })
              else
                .ok (-1, { state with device, fat, dir })

/-! ## fs_truncate -/

/-- `for (i = 0; i < start_block + 1; i++) new_last = FAT[new_last];` -/
def advance (fat : Fat) : Nat → Int32 → Outcome Int32
  | 0, block => .ok block
  | remaining + 1, block => do
      let next ← readFat fat block.toInt
      advance fat remaining next

/-- The loop of `fs_truncate` that overwrites and frees the blocks behind the new last one.
The flag tells whether every `block_write` succeeded. -/
def freeTail (content : Block) : Nat → Device → Fat → Int32 → Outcome (Bool × Device × Fat)
  | 0, _, _, _ => .error .diverges
  | fuel + 1, device, fat, fatIndex =>
      if fatIndex = -1 then
        .ok (true, device, fat)
      else
        match device.blockWrite fatIndex.toInt content with
        | none => .ok (false, device, fat)
        | some device => do
            let next ← readFat fat fatIndex.toInt
            let fat ← writeFat fat fatIndex.toInt 0
            freeTail content fuel device fat next

/-- `garbage 0` is the uninitialised `buf`, `garbage 1` the uninitialised `blank`. -/
def fsTruncate (garbage : Nat → Buffer) (state : State) (fildesI : Int) (length : Int64) :
    Outcome (Int32 × State) := do
  let descriptor ← fildesAt fildesI
  let fd := state.fildes descriptor
  if invalidFildes state fildesI descriptor then
    .ok (-1, state)
  else
    match searchHead state.dir fd.file with
    | none =>
        tolerate tolerance .dirPeek
        .ok (-1, state)
    | some slot =>
        let entry := state.dir slot
        if entry.used = 0 then
          .ok (-1, state)
        else if length.toInt > entry.size.toInt then
          .ok (-1, state)
        else
          let startBlock := (Int32.ofInt (length.toInt.tdiv blockSize)).toInt
          let newLast ← advance state.fat (startBlock + 1).toNat entry.head
          let fatIndex ← readFat state.fat newLast.toInt
          let fat ← writeFat state.fat newLast.toInt (-1)
          let buffer := garbage 0
          let (complete, device, fat) ←
            freeTail (buffer.blockAt 0) chainFuel state.device fat fatIndex
          if ¬complete then
            .ok (-1, { state with device, fat })
          else
            match device.blockRead newLast.toInt with
            | none => .ok (-1, { state with device, fat })
            | some block =>
                let buffer := buffer.load 0 block
                let leftover := blockSize - length.toInt.tmod blockSize
                checkCopy tolerance 1 length.toInt leftover.toNat
                let buffer : Buffer := buffer.memcpy length.toInt (garbage 1) leftover.toNat
                match device.blockWrite newLast.toInt (buffer.blockAt 0) with
                | none => .ok (-1, { state with device, fat })
                | some device =>
                    let offset :=
                      if fd.offset.toInt > length.toInt then Int32.ofInt length.toInt
                      else fd.offset
                    .ok (0, { state with
                      device, fat
                      fildes := Function.update state.fildes descriptor { fd with offset } })

/-! ## Runs -/

/-- The calls of a session, with their arguments. -/
inductive Call where
  | create (name : CString)
  | opens (name : CString)
  | close (fildesI : Int)
  | delete (name : CString)
  | read (fildesI : Int) (nbyte : UInt64)
  | write (fildesI : Int) (buf : Nat → UInt8) (nbyte : UInt64)
  | lseek (fildesI : Int) (offset : Int64)
  | truncate (fildesI : Int) (length : Int64)

/-- Execute one call; what `fs_read` delivers to its caller is not part of the state. -/
def exec (garbage : Nat → Buffer) (state : State) : Call → Outcome (Int32 × State)
  | .create name => fsCreate state name
  | .opens name => fsOpen tolerance state name
  | .close fildesI => fsClose tolerance state fildesI
  | .delete name => fsDelete tolerance state name
  | .read fildesI nbyte => do
      let (code, _, after) ← fsRead tolerance garbage state fildesI nbyte
      .ok (code, after)
  | .write fildesI buf nbyte => fsWrite tolerance garbage state fildesI buf nbyte
  | .lseek fildesI offset => fsLseek state fildesI offset
  | .truncate fildesI length => fsTruncate tolerance garbage state fildesI length

/-- `before` turns into `after` by a call that the predicate allows and that does not stop. -/
def Step (allowed : State → Call → Prop) (before after : State) : Prop :=
  ∃ garbage call code, allowed before call ∧
    exec tolerance garbage before call = .ok (code, after)

/-- The states of a session that starts in `start` and makes allowed calls only. -/
def Session (allowed : State → Call → Prop) : State → State → Prop :=
  Relation.ReflTransGen (Step tolerance allowed)

end EC440.FileSystem
