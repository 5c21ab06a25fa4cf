import SyncCore.Backend.Mock.Operation
import SyncCore.Manager.Routine
import SyncCore.Mutex.State
import SyncCore.Registry.Operation
import SyncCore.Script.Threads.Step

/-!
# The world of a script for threads

Everything that a script has made so far, and the small questions that its
steps ask of it. Parts are numbered and aliases lead to numbers, so a part
outlives the alias it was made under.
-/

set_option autoImplicit false

namespace SyncCore.Script.Threads

abbrev Aliases (α : Type) := List (String × α)

namespace Aliases

variable {α : Type}

def put (k : String) (v : α) (as : Aliases α) : Aliases α := as.filter (·.1 != k) ++ [(k, v)]

def remove (k : String) (as : Aliases α) : Aliases α := as.filter (·.1 != k)

def has (k : String) (as : Aliases α) : Bool := (as.lookup k).isSome

end Aliases

structure Platform where
  own : PlatformInfo
  replaced : Replacement
  mock : Mock.State

def Platform.report (p : Platform) : PlatformInfo := p.replaced.apply p.own

structure SharedTable where
  status : Mutex.Status
  lock : Nat
  slots : Table

/-- What the clones of one manager share. -/
structure Core where
  platform : Nat
  info : PlatformInfo
  table : Nat

structure HostThread where
  task : Mock.TaskId
  handle : Handle
  /-- Neither joined nor detached. -/
  attached : Bool
  worker : Nat

inductive Routine where
  | managed (object : ObjectId) (core : Nat)
  | bare

/-- A call that holds a worker up. The call may have come to its end since; the
worker is parked until its answer is asked for. -/
structure Parked where
  platform : Nat
  pc : Mock.Pc
  yields : Bool

inductive Stage where
  | held
  | running
  | parked (call : Parked)
  | ended (returned : Bool)

structure Worker where
  task : Mock.TaskId
  /-- The number of the thread among all threads; the main thread has 0. -/
  number : Nat
  routine : Routine
  stage : Stage

def Worker.keeps (k : Worker) (id : ObjectId) : Bool :=
  match k.stage, k.routine with
  | .ended _, _ => false
  | _, .managed o _ => o == id
  | _, .bare => false

structure Owner where
  object : ObjectId
  core : Nat
  joined : Bool
  readers : Nat
  taken : Bool

structure JoinPlan (V : Type) where
  worker : Nat
  polls : Nat
  ending : Ending V

structure World (V : Type) where
  backend : Backend
  capacity : Nat
  rounds : Nat
  platforms : List Platform
  locks : List BackedLock
  tables : List SharedTable
  cores : List Core
  objects : List (ThreadObject V)
  threads : List HostThread
  workers : List Worker
  platformNames : Aliases Nat
  managers : Aliases Nat
  tableNames : Aliases Nat
  owners : Aliases Owner
  workerNames : Aliases Nat
  threadNames : Aliases ThreadNo
  refs : Aliases ObjectId
  kept : Aliases ObjectId
  pinned : List ObjectId
  joins : List (JoinPlan V)
  armory : Armory (Step V) (Reply V)
  log : List Log.Record
  /-- Handles of the hosted backend in the order the answers showed them. -/
  shown : List Handle

namespace World

variable {V : Type}

def initial (backend : Backend) (capacity rounds : Nat) : World V where
  backend := backend
  capacity := capacity
  rounds := rounds
  platforms := []
  locks := []
  tables := []
  cores := []
  objects := []
  threads := []
  workers := []
  platformNames := []
  managers := []
  tableNames := []
  owners := []
  workerNames := []
  threadNames := []
  refs := []
  kept := []
  pinned := []
  joins := []
  armory := ⟨[], []⟩
  log := []
  shown := []

def object? (w : World V) (id : ObjectId) : Option (ThreadObject V) := w.objects[id - 1]?

def modifyObject (id : ObjectId) (f : ThreadObject V → ThreadObject V) (w : World V) : World V :=
  { w with objects := w.objects.modify (id - 1) f }

def modifyPlatform (p : Nat) (f : Platform → Platform) (w : World V) : World V :=
  { w with platforms := w.platforms.modify p f }

def modifyLock (l : Nat) (f : BackedLock → BackedLock) (w : World V) : World V :=
  { w with locks := w.locks.modify l f }

def modifyTable (r : Nat) (f : SharedTable → SharedTable) (w : World V) : World V :=
  { w with tables := w.tables.modify r f }

def modifyThread (t : ThreadNo) (f : HostThread → HostThread) (w : World V) : World V :=
  { w with threads := w.threads.modify t f }

def modifyWorker (k : Nat) (f : Worker → Worker) (w : World V) : World V :=
  { w with workers := w.workers.modify k f }

def modifyOwner (h : String) (f : Owner → Owner) (w : World V) : World V :=
  { w with owners := w.owners.map fun o => if o.1 = h then (o.1, f o.2) else o }

def say (r : Log.Record) (w : World V) : World V := { w with log := w.log ++ [r] }

def isAlive (w : World V) (id : ObjectId) : Bool :=
  w.owners.any (·.2.object == id) || w.refs.any (·.2 == id) || w.kept.any (·.2 == id)
    || w.pinned.contains id || w.workers.any (Worker.keeps · id)

def handleOf (w : World V) (id : ObjectId) : Option Handle := (w.object? id).bind (·.handle)

def hasEnded (w : World V) (k : Nat) : Bool :=
  match w.workers[k]? with
  | some ⟨_, _, _, .ended _⟩ => true
  | _ => false

def handleText (backend : Backend) (h : Handle) : String :=
  match backend with
  | .hosted => Text.wrapped "ThreadId" "_"
  | _ => Text.wrapped "TaskId" (toString h)

end World

instance {V : Type} : Armed (World V) (Step V) (Reply V) :=
  ⟨World.armory, fun w a => { w with armory := a }⟩

abbrev Run (V : Type) := StateT (World V) Option

abbrev Nested (V : Type) := List (Step V) → Run V (List (Reply V))

/-- Who makes a call. Arms see the calls of the main thread only. -/
inductive Caller where
  | main
  | worker (k : Nat)
  deriving DecidableEq, Repr

variable {V : Type}

def found {α : Type} (a : Option α) : Run V α := fun w => a.map fun x => (x, w)

def platformAt (p : Nat) : Run V Platform := do found (← get).platforms[p]?
def lockAt (l : Nat) : Run V BackedLock := do found (← get).locks[l]?
def tableAt (r : Nat) : Run V SharedTable := do found (← get).tables[r]?
def coreAt (c : Nat) : Run V Core := do found (← get).cores[c]?
def objectAt (id : ObjectId) : Run V (ThreadObject V) := do found ((← get).object? id)
def threadAt (t : ThreadNo) : Run V HostThread := do found (← get).threads[t]?
def workerAt (k : Nat) : Run V Worker := do found (← get).workers[k]?

def identity : Caller → Run V (Mock.TaskId × Nat)
  | .main => return (0, 0)
  | .worker k => do
    let worker ← workerAt k
    return (worker.task, worker.number)

def pin (id : ObjectId) : Run V Unit := modify fun w => { w with pinned := id :: w.pinned }

def whilePinning {α : Type} (run : Run V α) : Run V α := do
  let before := (← get).pinned
  let r ← run
  modify fun w => { w with pinned := before }
  return r

def whilePinned {α : Type} (id : ObjectId) (run : Run V α) : Run V α :=
  whilePinning do
    pin id
    run

def verdictFor (nested : Nested V) (caller : Caller) (call : String) : Run V Verdict :=
  match caller with
  | .main => fire nested call
  | .worker _ => return .proceed

end SyncCore.Script.Threads
