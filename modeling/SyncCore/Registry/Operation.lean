import SyncCore.Log
import SyncCore.Mutex.Operation
import SyncCore.Registry.Table

/-!
# Operations on a shared table

A table that several threads share is guarded by a mutex. Every operation
takes the mutex, walks over the slots one access at a time, and gives the
mutex back. If the mutex cannot be taken the table is not touched. If giving
it back fails the operation fails too, although its work is done. An object
that a search has found is kept while the mutex is given back, so it is still
there when the search answers.
-/

set_option autoImplicit false

namespace SyncCore.Registry

inductive Op where
  | register (o : ObjectId)
  | unregister (o : ObjectId)
  | find (h : Handle)
  | contains (o : ObjectId)
  | cleanup
  | size
  deriving DecidableEq, Repr

inductive Reply where
  | outcome (r : Outcome Unit)
  | found (o : Option ObjectId)
  | flag (b : Bool)
  | count (n : Nat)
  deriving DecidableEq

inductive Action where
  | mutex (a : Mutex.Action)
  | readSlot (i : Nat)
  | writeSlot (i : Nat) (v : Option ObjectId)
  | isAlive (o : ObjectId)
  | handleOf (o : ObjectId)
  /-- Keeps an object until the operation has answered, if it still has an owner. -/
  | hold (o : ObjectId)
  | log (r : Log.Record)
  deriving DecidableEq, Repr

def Action.Answer : Action → Type
  | .mutex a => a.Answer
  | .readSlot _ => Option ObjectId
  | .writeSlot _ _ => Unit
  | .isAlive _ => Bool
  | .handleOf _ => Option Handle
  | .hold _ => Bool
  | .log _ => Unit

def interface : Interface := ⟨Action, Action.Answer⟩

inductive Body where
  | seek (o : ObjectId) (i : Nat)
  | seekFree (o : ObjectId) (i : Nat)
  | fill (o : ObjectId) (i : Nat)
  | search (o : ObjectId) (i : Nat)
  | empty (o : ObjectId) (i : Nat)
  | visit (h : Handle) (i : Nat)
  | compare (h : Handle) (i : Nat) (o : ObjectId)
  | hold (h : Handle) (i : Nat) (o : ObjectId)
  | lookFor (o : ObjectId) (i : Nat)
  | sweep (i : Nat) (freed : Nat)
  | probe (i : Nat) (freed : Nat) (o : ObjectId)
  | clear (i : Nat) (freed : Nat)
  | count (i : Nat) (taken : Nat)
  | say (message : String) (r : Reply)
  deriving DecidableEq

inductive Pc where
  | enter (op : Op) (m : Mutex.Pc)
  | inside (op : Op) (b : Body)
  | leave (op : Op) (r : Reply) (m : Mutex.Pc)
  | done (r : Reply)
  deriving DecidableEq

def Op.failed (e : ErrorKind) : Op → Reply
  | .register _ => .outcome (.error e)
  | .unregister _ => .outcome (.error e)
  | .find _ => .found none
  | .contains _ => .flag false
  | .cleanup => .count 0
  | .size => .count 0

def ok : Reply := .outcome (.ok ())

def refused (e : ErrorKind) : Reply := .outcome (.error e)

def finish (op : Op) (r : Reply) : Pc := .leave op r (Mutex.start .release)

/-! The points below go on with a walk at a slot, or end it after the last. -/

section Walks

variable (capacity : Nat) (op : Op)

def freeFrom (o : ObjectId) (i : Nat) : Pc :=
  if i < capacity then .inside op (.seekFree o i) else finish op (refused .notFound)

def seekFrom (o : ObjectId) (i : Nat) : Pc :=
  if i < capacity then .inside op (.seek o i) else freeFrom capacity op o 0

def searchFrom (o : ObjectId) (i : Nat) : Pc :=
  if i < capacity then .inside op (.search o i) else finish op (refused .notFound)

def visitFrom (h : Handle) (i : Nat) : Pc :=
  if i < capacity then .inside op (.visit h i) else finish op (.found none)

def lookFrom (o : ObjectId) (i : Nat) : Pc :=
  if i < capacity then .inside op (.lookFor o i) else finish op (.flag false)

def sweepFrom (i freed : Nat) : Pc :=
  if i < capacity then .inside op (.sweep i freed)
  else if freed = 0 then finish op (.count 0)
  else .inside op (.say ("registry: reclaimed " ++ toString freed ++ " stale slots") (.count freed))

def countFrom (i taken : Nat) : Pc :=
  if i < capacity then .inside op (.count i taken) else finish op (.count taken)

end Walks

def enterBody (capacity : Nat) (op : Op) : Pc :=
  match op with
  | .register o => seekFrom capacity op o 0
  | .unregister o => searchFrom capacity op o 0
  | .find h => visitFrom capacity op h 0
  | .contains o => lookFrom capacity op o 0
  | .cleanup => sweepFrom capacity op 0 0
  | .size => countFrom capacity op 0 0

def afterEnter (capacity : Nat) (op : Op) : Mutex.Pc → Pc
  | .done (.outcome (.ok _)) => enterBody capacity op
  | .done (.outcome (.error e)) => .done (op.failed e)
  | m => .enter op m

def afterLeave (op : Op) (r : Reply) : Mutex.Pc → Pc
  | .done (.outcome (.ok _)) => .done r
  | .done (.outcome (.error e)) => .done (op.failed e)
  | m => .leave op r m

def start (op : Op) : Pc := .enter op (Mutex.start .lock)

def bodyNext (capacity : Nat) (op : Op) : Body → Next interface Pc Reply
  | .seek o i => .act (.readSlot i) fun (slot : Option ObjectId) =>
      if slot = some o then finish op (refused .alreadyInitialized)
      else seekFrom capacity op o (i + 1)
  | .seekFree o i => .act (.readSlot i) fun (slot : Option ObjectId) =>
      if slot = none then .inside op (.fill o i) else freeFrom capacity op o (i + 1)
  | .fill o i => .act (.writeSlot i (some o)) fun (_ : Unit) =>
      .inside op (.say ("registry: " ++ ThreadObject.label o ++ " -> slot " ++ toString i) ok)
  | .search o i => .act (.readSlot i) fun (slot : Option ObjectId) =>
      if slot = some o then .inside op (.empty o i) else searchFrom capacity op o (i + 1)
  | .empty o i => .act (.writeSlot i none) fun (_ : Unit) =>
      .inside op (.say ("registry: " ++ ThreadObject.label o ++ " left slot " ++ toString i) ok)
  | .visit h i => .act (.readSlot i) fun (slot : Option ObjectId) =>
      match slot with
      | some o => .inside op (.compare h i o)
      | none => visitFrom capacity op h (i + 1)
  | .compare h i o => .act (.handleOf o) fun (found : Option Handle) =>
      if found = some h then .inside op (.hold h i o) else visitFrom capacity op h (i + 1)
  | .hold h i o => .act (.hold o) fun (held : Bool) =>
      if held then finish op (.found (some o)) else visitFrom capacity op h (i + 1)
  | .lookFor o i => .act (.readSlot i) fun (slot : Option ObjectId) =>
      if slot = some o then finish op (.flag true) else lookFrom capacity op o (i + 1)
  | .sweep i freed => .act (.readSlot i) fun (slot : Option ObjectId) =>
      match slot with
      | some o => .inside op (.probe i freed o)
      | none => sweepFrom capacity op (i + 1) freed
  | .probe i freed o => .act (.isAlive o) fun (alive : Bool) =>
      if alive then sweepFrom capacity op (i + 1) freed else .inside op (.clear i freed)
  | .clear i freed => .act (.writeSlot i none) fun (_ : Unit) =>
      sweepFrom capacity op (i + 1) (freed + 1)
  | .count i taken => .act (.readSlot i) fun (slot : Option ObjectId) =>
      countFrom capacity op (i + 1) (if slot.isSome then taken + 1 else taken)
  | .say message r => .act (.log (Log.trace message)) fun (_ : Unit) => finish op r

/-- An action of the mutex, as one of the table's. Entering and leaving never
hold the mutex's machine at its end. -/
def liftMutex (after : Mutex.Pc → Pc) :
    Next Mutex.interface Mutex.Pc LockReply → Next interface Pc Reply
  | .done _ => .done ok
  | .act a resume => .act (.mutex a) fun (x : a.Answer) => after (resume x)

def next (capacity : Nat) : Machine interface Pc Reply
  | .enter op m => liftMutex (afterEnter capacity op) (Mutex.next m)
  | .inside op b => bodyNext capacity op b
  | .leave op r m => liftMutex (afterLeave op r) (Mutex.next m)
  | .done r => .done r

/-- The number of actions an operation makes when nothing disturbs it is below this. -/
def length (capacity : Nat) : Nat := 3 * capacity + 16

end SyncCore.Registry
