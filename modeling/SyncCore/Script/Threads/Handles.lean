import SyncCore.Script.Threads.Parts

/-!
# Steps on managers and handles

Each step is one call of the library. While the call is in progress its
handle is lent to it, so the steps inside the call see which handles they may
use.
-/

set_option autoImplicit false

namespace SyncCore.Script.Threads

variable {V : Type}

def addPlatform (name : String) (setup : Setup) : Run V Unit := do
  let w ← get
  let p : Platform := match w.backend with
    | .hosted => ⟨Hosted.defaultInfo, setup.replaced, .initial⟩
    | _ =>
      let info := Mock.defaultInfo
      let info := { info with capabilities := setup.capabilities.getD info.capabilities }
      let info := match setup.priorityRange with
        | some (low, high) =>
          { info with thread := { info.thread with minPriority := low, maxPriority := high } }
        | none => info
      ⟨info, setup.replaced, { Mock.State.initial with failing := setup.failing.getD 0 }⟩
  set { w with
    platforms := w.platforms ++ [p]
    platformNames := w.platformNames.put name w.platforms.length }

def Creation.attributes (c : Creation) (core : Core) : Attributes :=
  let a := if c.managerDefaults then Attributes.ofLimits core.info.thread else Attributes.default
  let a := match c.priority with | some p => a.withPriority p | none => a
  let a := match c.stackSize with | some n => a.withStackSize n | none => a
  match c.name with | some s => a.withName s | none => a

def World.nextObject (w : World V) : ObjectId := w.objects.length + 1

def addObject (a : Attributes) : Run V Unit :=
  modify fun w => { w with objects := w.objects ++ [ThreadObject.ofAttributes a] }

def nameWorker (h : String) (b : Binding) (begins : Bool) : Run V Unit := do
  let k := (← threadAt b.thread).worker
  modify fun w => { w with workerNames := w.workerNames.put h k }
  if begins then beginWorker k

def create (nested : Nested V) (c : Nat) (h : String) (creation : Creation) :
    Run V (Reply V) := do
  let core ← coreAt c
  let id := (← get).nextObject
  match Manager.Create.request core.info.thread (creation.attributes core) id with
  | .error e => return .outcome (.error e)
  | .ok request =>
    addObject request.attributes
    whilePinned id do
      let r ← mainRun nested ⟨id, c, h⟩ (Manager.Create.next request) Manager.Create.start
      match (← objectAt id).binding with
      | some b => nameWorker h b (!creation.hold)
      | none => pure ()
      match r with
      | .error e => return .outcome (.error e)
      | .ok _ =>
        modify fun w => { w with owners := w.owners.put h ⟨id, c, false, 0, false⟩ }
        return .created (← viewOf id)

def inside (k : Nat) : Command → Run V (Reply V)
  | .current m => withManager m fun c => do
    let context : Context := ⟨0, c, ""⟩
    let backend := (← get).backend
    let found ← (Manager.Current.next (World.handleText backend)).drive
      (performWorker k context none) (← get).rounds Manager.Current.start
    match found with
    | some id => return .myself (some (← selfView id))
    | none => return .myself none
  | .size m => withManager m fun c => do
    return .count (← tableCount noNested (.worker k) (← coreAt c).table .size)
  | .sleep m ms => withManager m fun c => do
    workerPause k (← coreAt c).platform false (.sleep ms)
  | .yield m => withManager m fun c => do workerPause k (← coreAt c).platform true .yield
  | .hostCurrent p => withPlatform p fun _ => do
    return .handle (← nameHandle (.worker k) (← plainCurrent (.worker k)))
  | .hostSleep p ms => withPlatform p fun p => workerPause k p false (.sleep ms)
  | .hostYield p => withPlatform p fun p => workerPause k p true .yield

/-- A manager's thread is not joined while a call holds it up, whether or not its handle is
still there. -/
def join (nested : Nested V) (c : Nat) (h : String) (polls : Nat) (e : Ending V) :
    Run V (Reply V) := do
  withPart (← get).workerNames h fun k => do
    if (← isManaged k) && (← isParked k) then return .refused .parked
    withFreeOwner h fun o => do
      let native := (← coreAt c).info.supports .nativeJoin
      let r ← whileTaken h do
        whileJoining ⟨k, polls, e⟩ do
          mainRun nested ⟨o.object, c, h⟩ (Manager.Join.next o.object native)
            (Manager.Join.start (o.core == c) o.joined)
      return .returned r

def dropOwner (nested : Nested V) (h : String) (o : Owner) : Run V Unit :=
  mainRun nested ⟨o.object, o.core, h⟩ (Manager.Drop.next o.object o.joined) Manager.Drop.start

def destroy (nested : Nested V) (c : Nat) (h : String) (o : Owner) (intoError : Bool) :
    Run V (Reply V) := do
  modify fun w => { w with owners := w.owners.remove h }
  whilePinned o.object do
    let r ← mainRun nested ⟨o.object, c, h⟩ (Manager.Destroy.next o.object o.joined)
      (Manager.Destroy.start (o.core == c))
    match r with
    | .ok _ => return .outcome (.ok ())
    | .error e =>
      if intoError then dropOwner nested h o
      else modify fun w => { w with owners := w.owners.put h o }
      return .destroyRefused e intoError

def afterHold (k : Option Nat) (d : Manager.Hold) (r : Outcome Unit) : Run V (Reply V) := do
  match d, r, k with
  | .resume, .ok _, some k =>
    match ← wakeWorker k with
    | some reply => return .woke reply
    | none => return .outcome r
  | _, _, _ => return .outcome r

def hold (nested : Nested V) (c : Nat) (h : String) (o : Owner) (d : Manager.Hold) :
    Run V (Reply V) := do
  let supported := (← coreAt c).info.supports .suspend
  let r ← whileReading h do
    mainRun nested ⟨o.object, c, h⟩ (Manager.Hold.next o.object d)
      (Manager.Hold.start (o.core == c) supported)
  afterHold ((← get).workerNames.lookup h) d r

def setPriority (nested : Nested V) (c : Nat) (h : String) (o : Owner) (p : Priority) :
    Run V (Reply V) := do
  let native := p.toNative (← coreAt c).info.thread
  let r ← whileReading h do
    mainRun nested ⟨o.object, c, h⟩ (Manager.SetPriority.next o.object p native)
      (Manager.SetPriority.start (o.core == c))
  return .outcome r

def current (nested : Nested V) (c : Nat) : Run V (Reply V) := do
  let backend := (← get).backend
  let found ← mainRun nested ⟨0, c, ""⟩ (Manager.Current.next (World.handleText backend))
    Manager.Current.start
  match found with
  | some id => return .ref (some (← viewOf id))
  | none => return .ref none

end SyncCore.Script.Threads
