import EC440.LocalStorage.Elements
import EC440.LocalStorage.Refinement

/-!
# Storage areas and their buckets

What a program sees of the library: the private arrays, and for each bucket of
the hash table the threads with an area in it.  A thread that destroys the
newest area of a bucket breaks the bucket, and the next call that searches it
stops the program.
-/

namespace EC440.LocalStorage

/-- The arrays of the threads, the threads of each bucket with the newest area first, and the
buckets whose first element was freed. -/
structure Life where
  arrays : Private.Arrays
  bucket : Bucket → List Tid
  broken : Bucket → Bool

namespace Life

def start : Life where
  arrays _ := none
  bucket _ := []
  broken _ := false

/-- The buckets that a call searches. -/
def searched (tid : Tid) : Call → List Bucket
  | .create size => if size = 0 then [] else [bucketOf tid]
  | .clone source => [bucketOf tid, bucketOf source]
  | .write .. | .read .. | .destroy => [bucketOf tid]

/-- The buckets after a call that returned `code`. -/
def moved (life : Life) (tid : Tid) (call : Call) (code : Int32) : Life :=
  let tids := life.bucket (bucketOf tid)
  if code = 0 then
    match call with
    | .create _ | .clone _ =>
        { life with bucket := Function.update life.bucket (bucketOf tid) (tid :: tids) }
    | .destroy =>
        { life with
          bucket := Function.update life.bucket (bucketOf tid) (tids.erase tid)
          broken :=
            if tids.head? = some tid then Function.update life.broken (bucketOf tid) true
            else life.broken }
    | .write .. | .read .. => life
  else life

def respond (life : Life) (tid : Tid) (call : Call) : Option (Reply × Life) :=
  if (searched tid call).any life.broken then none
  else
    let (reply, arrays) := Private.respond life.arrays tid call
    some (reply, { life.moved tid call reply.code with arrays })

def play : Life → List Event → Option (List Reply × Life)
  | life, [] => some ([], life)
  | life, event :: rest => do
      let (reply, after) ← life.respond event.tid event.call
      let (replies, final) ← play after rest
      some (reply :: replies, final)

variable {life : Life} {tid : Tid} {call : Call} {code : Int32}

theorem moved_failed (failed : code ≠ 0) : life.moved tid call code = life :=
  if_neg failed

theorem moved_lasting (lasting : call ≠ .destroy) (creates : ¬call.Creates) :
    life.moved tid call code = life := by
  unfold moved
  split
  · cases call with
    | create => exact absurd trivial creates
    | clone => exact absurd trivial creates
    | destroy => exact absurd rfl lasting
    | write => rfl
    | read => rfl
  · rfl

theorem moved_creates (creates : call.Creates) : life.moved tid call 0 =
    { life with
      bucket := Function.update life.bucket (bucketOf tid)
        (tid :: life.bucket (bucketOf tid)) } := by
  cases call with
  | create => rfl
  | clone => rfl
  | destroy => exact creates.elim
  | write => exact creates.elim
  | read => exact creates.elim

theorem moved_destroyed : life.moved tid .destroy 0 =
    { life with
      bucket := Function.update life.bucket (bucketOf tid) ((life.bucket (bucketOf tid)).erase tid)
      broken :=
        if (life.bucket (bucketOf tid)).head? = some tid then
          Function.update life.broken (bucketOf tid) true
        else life.broken } := by
  unfold moved
  rw [if_pos rfl]

end Life

end EC440.LocalStorage
