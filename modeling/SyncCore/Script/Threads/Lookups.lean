import SyncCore.Script.Threads.Parts

/-!
# Steps on tables and texts

Tables of threads that no manager owns, lookups in any table, and the texts
that describe a part.
-/

set_option autoImplicit false

namespace SyncCore.Script.Threads

variable {V : Type}

def newTable (nested : Nested V) (p : Option Nat) : Run V (Outcome BackedLock) := do
  match p with
  | none => return .ok .spinning
  | some p =>
    let info := (← platformAt p).report
    let created ←
      if info.supports .mutex then mainNewLock nested else pure (.error .notImplemented)
    return BackedLock.choose info created

def registry (nested : Nested V) (reg : String) (p : Option Nat) : Run V (Reply V) := do
  match ← newTable nested p with
  | .error e => return .outcome (.error e)
  | .ok lock =>
    modify fun w => World.say (Manager.Opening.tableRecord w.capacity lock.native) w
    let t ← addTable lock
    modify fun w => { w with tableNames := w.tableNames.put reg t }
    return .opened lock.native

def withLookup (l : Lookup) (run : Handle → Run V (Reply V)) : Run V (Reply V) :=
  match l with
  | .handle h => withOwner h fun o => do
    match (← get).handleOf o.object with
    | some x => run x
    | none => return .object none
  | .object o => do
    withPart (← get).kept o fun id => do
      match (← get).handleOf id with
      | some x => run x
      | none => return .object none
  | .caller p => withPlatform p fun _ => do run (← plainCurrent .main)

def find (nested : Nested V) (t : Nat) (keep : Option String) (h : Handle) : Run V (Reply V) := do
  match ← tableFind nested .main t h with
  | none => return .object none
  | some id =>
    match keep with
    | some o => modify fun w => { w with kept := w.kept.put o id }
    | none => pure ()
    return .object (some (← viewOf id))

def withKept (t : Target) (o : String) (run : Nat → ObjectId → Run V (Reply V)) :
    Run V (Reply V) :=
  withTable t fun table => do withPart (← get).kept o fun id => whilePinned id (run table id)

/-! ## Texts -/

def tableText (nested : Nested V) (t : Nat) : Run V String := do
  let size ← tableCount nested .main t .size
  return Text.record "Registry"
    [("len", toString size), ("capacity", toString (← get).capacity)]

def objectText (id : ObjectId) : Run V String := do
  let backend := (← get).backend
  return (← objectAt id).debugText id (World.handleText backend)

def debugText (nested : Nested V) : Subject → Run V (Reply V)
  | .handle h => withOwner h fun o => do
    return .text (Text.record "ThreadHandle"
      [("object", ← objectText o.object), ("joined", Text.flag o.joined)])
  | .ref r => do withPart (← get).refs r fun id => do return .text (← objectText id)
  | .object o => do withPart (← get).kept o fun id => do return .text (← objectText id)
  | .thread t => do withPart (← get).threadNames t fun t => do
    match (← get).backend with
    | .hosted => return .text (Hosted.debugText (← threadAt t).attached)
    | _ => return .refused .unsupported
  | .table t => withTable t fun t => do return .text (← tableText nested t)
  | .manager m => withManager m fun c => do
    let core ← coreAt c
    return .text (Text.record "ThreadManager"
      [("info", core.info.debugText), ("registry", ← tableText nested core.table)])

end SyncCore.Script.Threads
