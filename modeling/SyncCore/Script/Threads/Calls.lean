import SyncCore.Manager.Create
import SyncCore.Manager.Destroy
import SyncCore.Manager.Join
import SyncCore.Manager.Opening
import SyncCore.Script.Threads.Workers

/-!
# Calls of the main thread

Backend calls of the main thread pass through the arms. A join in progress
makes its worker end: at the end of a certain sleep, or just before a join
of the backend that waits.
-/

set_option autoImplicit false

namespace SyncCore.Script.Threads

variable {V : Type}

/-- Makes the worker of a join end, unless it has ended. -/
def endForJoin (j : JoinPlan V) : Run V Unit := do
  if (← get).hasEnded j.worker then return ()
  finishWorker j.worker j.ending

def countPoll : Run V Unit := do
  match (← get).joins with
  | [] => return ()
  | j :: js =>
    let left := j.polls - 1
    modify fun w => { w with joins := { j with polls := left } :: js }
    if left = 0 then endForJoin j

def mainSpawn (nested : Nested V) (p : Nat) (routine : Routine) (name : String)
    (stackSize : UInt64) (priority : Int32) : Run V (Outcome Binding) :=
  callUnlessFailed (fire nested "spawn") (plainSpawn p routine name stackSize priority)

/-- A call that only some backends have; the others have no arms for it. -/
def mainOptional (nested : Nested V) (name : String) (call : Run V (Outcome Unit)) :
    Run V (Outcome Unit) := do
  match (← get).backend with
  | .bare => call
  | _ => callAfter (fire nested name) call

def mainJoin (nested : Nested V) (p : Nat) (t : ThreadNo) : Run V (Outcome Unit) :=
  mainOptional nested "join" do
    let w ← get
    if joinsNatively w.backend (← platformAt p) then
      match w.joins with
      | j :: _ => endForJoin j
      | [] => pure ()
    plainJoin p t

def mainDetach (nested : Nested V) (p : Nat) (t : ThreadNo) : Run V (Outcome Unit) :=
  callAfter (fire nested "detach") (plainDetach p t)

def mainSetPriority (nested : Nested V) (p : Nat) (t : ThreadNo) (n : Int32) :
    Run V (Outcome Unit) :=
  mainOptional nested "set_priority" (plainSetPriority p t n)

/-- A resume lets every worker go on that runs the resumed task, whichever
thread the call was about: threads of two backends may have the same task. -/
def mainHold (nested : Nested V) (p : Nat) (t : ThreadNo) (d : Manager.Hold) :
    Run V (Outcome Unit) :=
  mainOptional nested d.name do
    let r ← plainHold p t d
    if d = .resume then resumeAllParked
    return r

def mainPause (p : Nat) (r : Mock.Request) : Run V (Outcome Unit) := do
  match ← plainPause .main p r with
  | .inr (.outcome a) => return a
  | _ => failure

def mainSleep (nested : Nested V) (p : Nat) (ms : UInt32) : Run V (Outcome Unit) := do
  let r ← callAfter (fire nested "sleep") (mainPause p (.sleep ms))
  countPoll
  return r

def mainYield (nested : Nested V) (p : Nat) : Run V Unit := do
  let _ ← callAfter (fire nested "yield") (mainPause p .yield)

def mainNewLock (nested : Nested V) : Run V (Outcome RawLock) := do
  match (← get).backend with
  | .bare => return .error .notImplemented
  | b => callUnlessFailed (fire nested "new_mutex") (return plainLock b)

def boundThread (c : Context) : Run V (Nat × ThreadNo) := do
  let b ← found (← objectAt c.object).binding
  return ((← coreAt c.core).platform, b.thread)

def performBackend (nested : Nested V) (c : Context) : (b : Manager.BackendCall) → Run V b.Answer
  | .spawn s => do
    mainSpawn nested (← coreAt c.core).platform (.managed c.object c.core) s.name s.stackSize
      s.priority
  | .join => do
    let (p, t) ← boundThread c
    mainJoin nested p t
  | .detach => do
    let (p, t) ← boundThread c
    mainDetach nested p t
  | .setPriority n => do
    let (p, t) ← boundThread c
    mainSetPriority nested p t n
  | .suspend => do
    let (p, t) ← boundThread c
    mainHold nested p t .suspend
  | .resume => do
    let (p, t) ← boundThread c
    mainHold nested p t .resume
  | .sleep ms => do mainSleep nested (← coreAt c.core).platform ms
  | .yield => do mainYield nested (← coreAt c.core).platform
  | .current => plainCurrent .main

def performMain (nested : Nested V) (c : Context) : (a : Manager.Action V) → Run V a.Answer
  | .cell a => performCell c.object a
  | .table t => performTableCall nested .main c t
  | .log r => modify (World.say r)
  | .backend b => performBackend nested c b
  | .markJoined => modify (World.modifyOwner c.owner fun o => { o with joined := true })
  | .runBody => failure

def mainRun {Pc Res : Type} (nested : Nested V) (c : Context)
    (m : Machine (Manager.interface V) Pc Res) (pc : Pc) : Run V Res := do
  m.drive (performMain nested c) (← get).rounds pc

def performOpening (nested : Nested V) (p : Nat) : (a : Manager.Opening.Action) → Run V a.Answer
  | .readInfo => do return (← platformAt p).report
  | .newLock => mainNewLock nested
  | .log r => modify (World.say r)

def addLock (lock : BackedLock) : Run V Nat := do
  let l := (← get).locks.length
  modify fun w => { w with locks := w.locks ++ [lock] }
  return l

def addTable (lock : BackedLock) : Run V Nat := do
  let l ← addLock lock
  let w ← get
  let t : SharedTable := ⟨.ready, l, .free w.capacity⟩
  modify fun w => { w with tables := w.tables ++ [t] }
  return w.tables.length

def openManager (nested : Nested V) (p : Nat) : Run V (Outcome Nat) := do
  let w ← get
  match ← (Manager.Opening.next w.capacity).drive (performOpening nested p) w.rounds
      Manager.Opening.start with
  | .error e => return .error e
  | .ok o =>
    let table ← addTable o.lock
    let c := (← get).cores.length
    let core : Core := ⟨p, o.info, table⟩
    modify fun w => { w with cores := w.cores ++ [core] }
    return .ok c

end SyncCore.Script.Threads
