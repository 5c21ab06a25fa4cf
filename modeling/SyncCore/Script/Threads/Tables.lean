import SyncCore.Script.Threads.World

/-!
# Locks and tables in a script

The raw calls on a lock pass through the arms if the lock is the backend's
own and the main thread makes them. Operations on a table are runs of the
table's machine.
-/

set_option autoImplicit false

namespace SyncCore.Script.Threads

variable {V : Type}

def plainLockCall (caller : Caller) (l : Nat) (op : LockOp) : Run V op.Answer := do
  let (_, me) ← identity caller
  let (a, raw) ← found ((← lockAt l).raw.call me op)
  modify (World.modifyLock l fun k => { k with raw := raw })
  return a

def lockCall (nested : Nested V) (caller : Caller) (l : Nat) (op : LockOp) : Run V op.Answer := do
  if (← lockAt l).native then armedLockCall (verdictFor nested caller) (plainLockCall caller l) op
  else plainLockCall caller l op

def performMutex (nested : Nested V) (caller : Caller) (r : Nat) :
    (a : Mutex.Action) → Run V a.Answer
  | .raw op => do lockCall nested caller (← tableAt r).lock op
  | .load => do return (← tableAt r).status
  | .store s => modify (World.modifyTable r fun t => { t with status := s })
  | .exchange e d => do
    let status := (← tableAt r).status
    if status = e then modify (World.modifyTable r fun t => { t with status := d })
    return status

def performTable (nested : Nested V) (caller : Caller) (r : Nat) :
    (a : Registry.Action) → Run V a.Answer
  | .mutex a => performMutex nested caller r a
  | .readSlot i => do return ((← tableAt r).slots[i]?).join
  | .writeSlot i v => modify (World.modifyTable r fun g => { g with slots := g.slots.set i v })
  | .isAlive o => do return (← get).isAlive o
  | .handleOf o => do return (← get).handleOf o
  | .hold o => do
    if !(← get).isAlive o then return false
    pin o
    return true
  | .log record => modify (World.say record)

def tableRun (nested : Nested V) (caller : Caller) (r : Nat) (op : Registry.Op) :
    Run V Registry.Reply := do
  let w ← get
  whilePinning <| (Registry.next w.capacity).drive (performTable nested caller r) w.rounds
    (Registry.start op)

def tableOutcome (nested : Nested V) (caller : Caller) (r : Nat) (op : Registry.Op) :
    Run V (Outcome Unit) := do
  match ← tableRun nested caller r op with
  | .outcome a => return a
  | _ => failure

def tableFind (nested : Nested V) (caller : Caller) (r : Nat) (h : Handle) :
    Run V (Option ObjectId) := do
  match ← tableRun nested caller r (.find h) with
  | .found o => return o
  | _ => failure

def tableCount (nested : Nested V) (caller : Caller) (r : Nat) (op : Registry.Op) :
    Run V Nat := do
  match ← tableRun nested caller r op with
  | .count n => return n
  | _ => failure

end SyncCore.Script.Threads
