import SyncCore.Script.Threads.Direct
import SyncCore.Script.Threads.Lookups

/-!
# Carrying out a script for threads

Each step is checked against the world first and refused if it names a part
that is not there or would wait for ever; otherwise it is one call of the
library, and its reply says what the call answered.
-/

set_option autoImplicit false

namespace SyncCore.Script.Threads

variable {V : Type}

def stepWith (nested : Nested V) : Step V → Run V (Reply V)
  | .platform p setup => do
    addPlatform p setup
    return .unit
  | .setInfo p replaced => withPlatform p fun p => do
    modify (World.modifyPlatform p fun q => { q with replaced := replaced })
    return .unit
  | .arm call times body verdict => do
    addArms times ⟨call, body, verdict⟩
    return .unit
  | .manager m p => withPlatform p fun p => do
    match ← openManager nested p with
    | .error e => return .outcome (.error e)
    | .ok c =>
      modify fun w => { w with managers := w.managers.put m c }
      return .outcome (.ok ())
  | .cloneManager m source => withManager source fun c => do
    modify fun w => { w with managers := w.managers.put m c }
    return .outcome (.ok ())
  | .dropManager m => do
    modify fun w => { w with managers := w.managers.remove m }
    return .unit
  | .managerInfo m => withManager m fun c => do return .info (← coreAt c).info
  | .managerPlatformInfo m => withManager m fun c => do
    return .info (← platformAt (← coreAt c).platform).report
  | .platformInfo p => withPlatform p fun p => do return .info (← platformAt p).report
  | .defaultAttributes m => withManager m fun c => do
    return .attributes (Attributes.ofLimits (← coreAt c).info.thread)
  | .create m h creation => withManager m fun c => do
    if (← get).workerNames.has h then return .refused .duplicate
    create nested c h creation
  | .start h => do withPart (← get).workerNames h fun k => do
    beginWorker k
    return .unit
  | .finish h e => do withPart (← get).workerNames h fun k => do
    if (← get).hasEnded k || (← isParked k) then return .refused .notRunning
    finishWorker k e
    return .unit
  | .inside h command => do withPart (← get).workerNames h fun k => do
    if ← isRunning k then inside k command else return .refused .notRunning
  | .join m h polls e => withManager m fun c => join nested c h polls e
  | .destroy m h intoError =>
    withManager m fun c => withFreeOwner h fun o => destroy nested c h o intoError
  | .drop h => withFreeOwner h fun o => do
    modify fun w => { w with owners := w.owners.remove h }
    whilePinned o.object (dropOwner nested h o)
    return .unit
  | .view h => withOwner h fun o => do return .view (← viewOf o.object) o.joined
  | .getState m h => withManager m fun _ => withOwner h fun o => do
    return .state (← objectAt o.object).state
  | .setPriority m h p => withManager m fun c => withOwner h fun o => setPriority nested c h o p
  | .hold m h d => withManager m fun c => withOwner h fun o => hold nested c h o d
  | .sleep m ms => withManager m fun c => do
    return .outcome (← mainSleep nested (← coreAt c).platform ms)
  | .yield m => withManager m fun c => do
    mainYield nested (← coreAt c).platform
    return .unit
  | .current m => withManager m fun c => current nested c
  | .ref r h => withOwner h fun o => do
    modify fun w => { w with refs := w.refs.put r o.object }
    return .ref (some (← viewOf o.object))
  | .cloneRef r source => do withPart (← get).refs source fun id => do
    modify fun w => { w with refs := w.refs.put r id }
    return .ref (some (← viewOf id))
  | .refView r => do withPart (← get).refs r fun id => do return .ref (some (← viewOf id))
  | .refEq r s => do
    withPart (← get).refs r fun a => do
    withPart (← get).refs s fun b => do
    return .flag (a == b)
  | .dropRef r => do
    let there := (← get).refs.has r
    modify fun w => { w with refs := w.refs.remove r }
    return .flag there
  | .registry reg none => registry nested reg none
  | .registry reg (some p) => withPlatform p fun p => registry nested reg (some p)
  | .tableState t => withTable t fun t => do
    let size ← tableCount nested .main t .size
    let again ← tableCount nested .main t .size
    return .tableState size (again == 0) (← get).capacity
  | .cleanup t => withTable t fun t => do return .count (← tableCount nested .main t .cleanup)
  | .find t l keep => withLookup l fun h => withTable t fun t => find nested t keep h
  | .register t o => withKept t o fun t id => do
    return .outcome (← tableOutcome nested .main t (.register id))
  | .unregister t o => withKept t o fun t id => do
    return .outcome (← tableOutcome nested .main t (.unregister id))
  | .contains t o => withKept t o fun t id => do
    match ← tableRun nested .main t (.contains id) with
    | .flag b => return .flag b
    | _ => failure
  | .objectView o => do withPart (← get).kept o fun id => do return .object (some (← viewOf id))
  | .dropObject o => do
    let there := (← get).kept.has o
    modify fun w => { w with kept := w.kept.remove o }
    return .flag there
  | .calls p => queryMock p fun s => .calls s.calls
  | .spawnCount p => queryMock p fun s => .count s.spawnCount
  | .task p t => queryMock p fun s =>
    .task ((s.task? t).map (·.priority)) (s.isSuspended t) (s.isDetached t)
  | .hostSpawn p t name stackSize priority =>
    withPlatform p fun p => hostSpawn nested p t name stackSize priority
  | .hostHandle p t => withThread p t fun _ t => do
    return .handle (← nameHandle .main (← threadAt t).handle)
  | .hostCurrent p => withPlatform p fun _ => do
    return .handle (← nameHandle .main (← plainCurrent .main))
  | .hostJoin p t e => withThread p t fun p t => hostJoin nested p t e
  | .hostDetach p t => withThread p t fun p t => do return .outcome (← mainDetach nested p t)
  | .hostSetPriority p t n => withThread p t fun p t => do
    return .outcome (← mainSetPriority nested p t n)
  | .hostHold p t d => withThread p t fun p t => do
    let r ← mainHold nested p t d
    afterHold (some (← threadAt t).worker) d r
  | .hostSleep p ms => withPlatform p fun p => do return .outcome (← mainSleep nested p ms)
  | .hostYield p => withPlatform p fun p => do
    mainYield nested p
    return .unit
  | .hostLock p ops => withPlatform p fun _ => hostLock nested ops
  | .debug s => debugText nested s
  | .malformed => return .refused .malformed

def exec : Nat → Step V → Run V (Reply V)
  | 0, _ => failure
  | n + 1, step => stepWith (fun body => body.mapM (exec n)) step

structure Entry (V : Type) where
  reply : Reply V
  sizes : List (String × Nat)
  states : List (String × ThreadState)
  hooks : List (String × List (Reply V))
  log : List Log.Record

def World.sizeOf (w : World V) (c : Nat) : Nat :=
  match w.cores[c]? with
  | some core => ((w.tables[core.table]?).map fun t => Table.size t.slots).getD 0
  | none => 0

def World.stateOf (w : World V) (id : ObjectId) : ThreadState :=
  ((w.object? id).map ThreadObject.state).getD .terminated

def entry (depth : Nat) (step : Step V) : Run V (Entry V) := do
  modify fun w => { w with armory.hooks := [], log := [] }
  let r ← exec depth step
  let w ← get
  return ⟨r, w.managers.map fun m => (m.1, w.sizeOf m.2),
    w.owners.map fun o => (o.1, w.stateOf o.2.object), w.armory.hooks, w.log⟩

def run (backend : Backend) (capacity : Nat) (steps : List (Step V)) : Option (List (Entry V)) :=
  let weight := Step.weights steps
  let rounds := Registry.length capacity + 8 * weight + 64
  ((steps.mapM (entry (weight + 8))).run (World.initial backend capacity rounds)).map (·.1)

end SyncCore.Script.Threads
