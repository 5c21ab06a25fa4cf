import SyncCore.Script.Threads.Handles

/-!
# Direct use of the backend

Steps that call the backend without a manager: threads of its own, its locks,
and the records that the mock backend keeps.
-/

set_option autoImplicit false

namespace SyncCore.Script.Threads

variable {V : Type}

def queryMock (p : String) (ask : Mock.State → Reply V) : Run V (Reply V) :=
  withPlatform p fun p => do
    match (← get).backend with
    | .hosted => return .refused .unsupported
    | _ => return ask (← platformAt p).mock

def hostSpawn (nested : Nested V) (p : Nat) (t name : String) (stackSize : UInt64)
    (priority : Int32) : Run V (Reply V) := do
  if (← get).workerNames.has t then return .refused .duplicate
  match ← mainSpawn nested p .bare name stackSize priority with
  | .error e => return .outcome (.error e)
  | .ok b =>
    modify fun w => { w with threadNames := w.threadNames.put t b.thread }
    nameWorker t b true
    return .spawned (← nameHandle .main b.handle)

def withThread (p t : String) (run : Nat → ThreadNo → Run V (Reply V)) : Run V (Reply V) :=
  withPlatform p fun p => do withPart (← get).threadNames t (run p)

def hostJoin (nested : Nested V) (p : Nat) (t : ThreadNo) (e : Ending V) : Run V (Reply V) := do
  let k := (← threadAt t).worker
  if ← isParked k then return .refused .parked
  let r ← whileJoining ⟨k, 1, e⟩ (mainJoin nested p t)
  return .outcome r

def hostLockOp (nested : Nested V) (l : Nat) : Option LockOp → Run V (Reply V)
  | none => return .refused .malformed
  | some op => do
    if op = .lock && (← lockAt l).raw.held then return .refused .wouldBlock
    return .locked (← lockReply (lockCall nested .main l) op)

def hostLock (nested : Nested V) (ops : List (Option LockOp)) : Run V (Reply V) := do
  match ← mainNewLock nested with
  | .error e => return .outcome (.error e)
  | .ok raw =>
    let l ← addLock ⟨true, raw⟩
    return .results (← ops.mapM (hostLockOp nested l))

end SyncCore.Script.Threads
