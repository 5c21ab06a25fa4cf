import SyncCore.Log
import SyncCore.Text.Quoted
import SyncCore.Thread.Object

/-!
# The mock backend

A backend that behaves like a small cooperative kernel and keeps a log of its
calls. Tasks are numbered from 1; number 0 is any thread the backend did not
start. A suspended task is held at its next sleep or yield. A given number of
spawns can be made to fail. Clones of a backend share the task table and the
log, but each clone has its own description.
-/

set_option autoImplicit false

namespace SyncCore.Mock

abbrev TaskId := UInt32

inductive Call where
  | spawn (task : TaskId) (name : String) (stackSize : UInt64) (priority : Int32)
  | join (task : TaskId)
  | detach (task : TaskId)
  | setPriority (task : TaskId) (priority : Int32)
  | suspend (task : TaskId)
  | resume (task : TaskId)
  | sleep (ms : UInt32)
  deriving DecidableEq, Repr

def taskText (t : TaskId) : String := Text.wrapped "TaskId" (toString t.toNat)

def Call.text : Call → String
  | .spawn t name stackSize priority =>
    Text.record "Spawn"
      [("task", taskText t), ("name", Text.quoted name),
       ("stack_size", toString stackSize.toNat), ("priority", toString priority.toInt)]
  | .join t => Text.wrapped "Join" (taskText t)
  | .detach t => Text.wrapped "Detach" (taskText t)
  | .setPriority t n => Text.wrapped "SetPriority" (taskText t ++ ", " ++ toString n.toInt)
  | .suspend t => Text.wrapped "Suspend" (taskText t)
  | .resume t => Text.wrapped "Resume" (taskText t)
  | .sleep ms => Text.wrapped "Sleep" (toString ms.toNat)

def Call.record (c : Call) : Log.Record := Log.trace ("mock: " ++ c.text)

structure Task where
  priority : Int32
  suspended : Bool
  detached : Bool
  deriving DecidableEq, Repr

structure State where
  nextId : TaskId
  /-- How many of the next spawns fail. -/
  failing : UInt32
  calls : List Call
  tasks : List (TaskId × Task)
  /-- The thread inside the guard of the task table. -/
  inside : Option Nat
  /-- The threads waiting for a task to be resumed. -/
  sleepers : List Nat
  deriving DecidableEq, Repr

def State.initial : State := ⟨1, 0, [], [], none, []⟩

namespace State

def task? (s : State) (t : TaskId) : Option Task := s.tasks.lookup t

def isSuspended (s : State) (t : TaskId) : Bool := (s.task? t).any (·.suspended)

def isDetached (s : State) (t : TaskId) : Bool := (s.task? t).any (·.detached)

def spawnCount (s : State) : Nat :=
  s.calls.countP fun c => match c with
    | .spawn _ _ _ _ => true
    | _ => false

end State

inductive Update where
  | insert (t : TaskId) (name : String) (stackSize : UInt64) (priority : Int32)
  | detached (t : TaskId)
  | priority (t : TaskId) (n : Int32)
  | suspended (t : TaskId) (b : Bool)
  deriving DecidableEq, Repr

def Update.task : Update → TaskId
  | .insert t _ _ _ => t
  | .detached t => t
  | .priority t _ => t
  | .suspended t _ => t

def Update.change : Update → Task → Task
  | .insert _ _ _ n, _ => ⟨n, false, false⟩
  | .detached _, k => { k with detached := true }
  | .priority _ n, k => { k with priority := n }
  | .suspended _ b, k => { k with suspended := b }

def Update.apply : Update → List (TaskId × Task) → Bool × List (TaskId × Task)
  | .insert t _ _ n, tasks => (true, tasks.filter (·.1 != t) ++ [(t, ⟨n, false, false⟩)])
  | u, tasks =>
    ((tasks.lookup u.task).isSome,
      tasks.map fun k => if k.1 = u.task then (k.1, u.change k.2) else k)

/-- A kernel with suspension and native priorities 0 to 4, but no blocking join. -/
def defaultInfo : PlatformInfo where
  kind := .freeRtos
  arch := .current
  capabilities := .threads ||| .mutex ||| .atomics ||| .timers ||| .suspend
  coreCount := 1
  thread := ⟨128, 49152, 512, 0, 4⟩

end SyncCore.Mock
