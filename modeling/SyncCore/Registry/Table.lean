import SyncCore.Thread.Object

/-!
# Tables of threads

A table has a fixed number of slots, each free or taken by one object. An
object does not live on because it has a slot: when its last owner is gone
its slot stays taken until a cleanup frees it.
-/

set_option autoImplicit false

namespace SyncCore

abbrev Table := List (Option ObjectId)

namespace Table

def free (capacity : Nat) : Table := List.replicate capacity none

def capacity (t : Table) : Nat := t.length

def contains (o : ObjectId) (t : Table) : Bool := t.elem (some o)

def size (t : Table) : Nat := t.countP Option.isSome

def register (o : ObjectId) (t : Table) : Outcome Table :=
  if t.contains o then .error .alreadyInitialized
  else match t.findIdx? Option.isNone with
    | some i => .ok (t.set i (some o))
    | none => .error .notFound

def unregister (o : ObjectId) (t : Table) : Outcome Table :=
  match t.findIdx? (· == some o) with
  | some i => .ok (t.set i none)
  | none => .error .notFound

/-- The living object in the lowest slot whose handle is the given one. -/
def find? (alive : ObjectId → Bool) (handleOf : ObjectId → Option Handle) (h : Handle)
    (t : Table) : Option ObjectId :=
  t.findSome? fun slot =>
    slot.bind fun o => if alive o && handleOf o == some h then some o else none

def cleanup (alive : ObjectId → Bool) (t : Table) : Table :=
  t.map fun slot => slot.filter alive

def stale (alive : ObjectId → Bool) (t : Table) : Nat :=
  t.countP fun slot => slot.any fun o => !alive o

end Table

end SyncCore
