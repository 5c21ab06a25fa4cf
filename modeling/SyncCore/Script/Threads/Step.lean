import SyncCore.Backend.Mock.State
import SyncCore.Manager.Control
import SyncCore.Platform.Replacement
import SyncCore.Script.Arm
import SyncCore.Lock.Operation

/-!
# Steps of a script for threads

A script makes backends and managers, creates threads on them, and drives
both the owners and the threads themselves. Everything is known by an alias.
A created thread is a worker: its function waits for commands and does one at
a time. A worker and the handle that owns it share an alias.
-/

set_option autoImplicit false

namespace SyncCore.Script.Threads

/-- Which backend the script runs on. A bare backend has only the operations
that every backend must have. -/
inductive Backend where
  | mock
  | bare
  | hosted
  deriving DecidableEq, Repr

structure Setup where
  capabilities : Option Capabilities
  priorityRange : Option (Int32 × Int32)
  failing : Option UInt32
  replaced : Replacement

inductive Ending (V : Type) where
  | value (v : V)
  | panic

structure Creation where
  priority : Option Priority
  stackSize : Option UInt64
  name : Option String
  /-- The backend thread does not begin until it is told to. -/
  hold : Bool
  /-- Start from the manager's default attributes instead of the general ones. -/
  managerDefaults : Bool

inductive Command where
  | current (m : String)
  | size (m : String)
  | sleep (m : String) (ms : UInt32)
  | yield (m : String)
  | hostCurrent (p : String)
  | hostSleep (p : String) (ms : UInt32)
  | hostYield (p : String)

inductive Target where
  | registry (reg : String)
  | manager (m : String)

inductive Lookup where
  | handle (h : String)
  | object (o : String)
  | caller (p : String)

inductive Subject where
  | handle (h : String)
  | ref (r : String)
  | object (o : String)
  | thread (t : String)
  | table (t : Target)
  | manager (m : String)

inductive Step (V : Type) where
  | platform (p : String) (setup : Setup)
  | setInfo (p : String) (replaced : Replacement)
  | arm (call : String) (times : Nat) (body : List (Step V)) (verdict : Verdict)
  | manager (m p : String)
  | cloneManager (m source : String)
  | dropManager (m : String)
  | managerInfo (m : String)
  | managerPlatformInfo (m : String)
  | platformInfo (p : String)
  | defaultAttributes (m : String)
  | create (m h : String) (c : Creation)
  | start (h : String)
  | finish (h : String) (e : Ending V)
  | inside (h : String) (c : Command)
  | join (m h : String) (polls : Nat) (e : Ending V)
  | destroy (m h : String) (intoError : Bool)
  | drop (h : String)
  | view (h : String)
  | getState (m h : String)
  | setPriority (m h : String) (p : Priority)
  | hold (m h : String) (d : Manager.Hold)
  | sleep (m : String) (ms : UInt32)
  | yield (m : String)
  | current (m : String)
  | ref (r h : String)
  | cloneRef (r source : String)
  | refView (r : String)
  | refEq (r s : String)
  | dropRef (r : String)
  | registry (reg : String) (p : Option String)
  | tableState (t : Target)
  | cleanup (t : Target)
  | find (t : Target) (l : Lookup) (keep : Option String)
  | register (t : Target) (o : String)
  | unregister (t : Target) (o : String)
  | contains (t : Target) (o : String)
  | objectView (o : String)
  | dropObject (o : String)
  | calls (p : String)
  | spawnCount (p : String)
  | task (p : String) (t : Mock.TaskId)
  | hostSpawn (p t name : String) (stackSize : UInt64) (priority : Int32)
  | hostHandle (p t : String)
  | hostCurrent (p : String)
  | hostJoin (p t : String) (e : Ending V)
  | hostDetach (p t : String)
  | hostSetPriority (p t : String) (n : Int32)
  | hostHold (p t : String) (d : Manager.Hold)
  | hostSleep (p : String) (ms : UInt32)
  | hostYield (p : String)
  /-- Operations on a new lock; one that is not understood is refused by itself. -/
  | hostLock (p : String) (ops : List (Option LockOp))
  | debug (s : Subject)
  | malformed
  deriving Inhabited

inductive HandleName where
  | self
  | number (n : Nat)
  deriving DecidableEq, Repr

structure View where
  id : ObjectId
  name : String
  state : ThreadState
  priority : Priority
  handle : Option HandleName
  stackSize : UInt64
  deriving DecidableEq, Repr

inductive Reply (V : Type) where
  | unit
  | flag (b : Bool)
  | count (n : Nat)
  | text (s : String)
  | refused (r : Refusal)
  | outcome (r : Outcome Unit)
  | locked (r : LockReply)
  | returned (r : Outcome V)
  | state (s : ThreadState)
  | handle (h : HandleName)
  | spawned (h : HandleName)
  | info (i : PlatformInfo)
  | attributes (a : Attributes)
  | created (v : View)
  | view (v : View) (joined : Bool)
  | ref (v : Option View)
  | object (v : Option View)
  | myself (v : Option View)
  | destroyRefused (e : ErrorKind) (into : Bool)
  | woke (r : Reply V)
  | parked
  | opened (native : Bool)
  | tableState (size : Nat) (empty : Bool) (capacity : Nat)
  | calls (cs : List Mock.Call)
  | task (priority : Option Int32) (suspended detached : Bool)
  | results (rs : List (Reply V))
  deriving Inhabited

mutual

def Step.weight {V : Type} : Step V → Nat
  | .arm _ times body _ => 1 + (times + 1) * (1 + weights body)
  | .join _ _ polls _ => 1 + polls
  | .hostLock _ ops => 1 + ops.length
  | _ => 1

def Step.weights {V : Type} : List (Step V) → Nat
  | [] => 0
  | s :: ss => s.weight + Step.weights ss

end

end SyncCore.Script.Threads
