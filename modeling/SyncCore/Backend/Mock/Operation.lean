import SyncCore.Backend.Mock.State
import SyncCore.Machine

/-!
# Calls of the mock backend

The failure count and the log are single cells. The task table has a guard,
and a condition on which held tasks wait until some task is resumed. Clones
check a call against their own description before it changes anything; a call
that passes is in the log before it takes effect.
-/

set_option autoImplicit false

namespace SyncCore.Mock

inductive SharedAction where
  | loadFailing
  | storeFailing (n : UInt32)
  | drawId
  | record (c : Call)
  | enter
  | leave
  | update (u : Update)
  | isSuspended (t : TaskId)
  | wait
  | wake
  | notifyAll
  deriving DecidableEq, Repr

def SharedAction.Answer : SharedAction → Type
  | .loadFailing => UInt32
  | .storeFailing _ => Unit
  | .drawId => TaskId
  | .record _ => Unit
  | .enter => Unit
  | .leave => Unit
  | .update _ => Bool
  | .isSuspended _ => Bool
  | .wait => Unit
  | .wake => Unit
  | .notifyAll => Unit

inductive HostAction where
  | start (t : TaskId)
  | takeHandle
  /-- Waits for the thread's end, and answers whether it did not unwind. -/
  | await
  | pause (ms : UInt32)
  deriving DecidableEq, Repr

def HostAction.Answer : HostAction → Type
  | .start _ => Bool
  | .takeHandle => Bool
  | .await => Bool
  | .pause _ => Unit

inductive Action where
  | shared (a : SharedAction)
  | host (a : HostAction)
  deriving DecidableEq, Repr

def Action.Answer : Action → Type
  | .shared a => a.Answer
  | .host a => a.Answer

def interface : Interface := ⟨Action, Action.Answer⟩

/-- The effect of the shared actions of one thread. The guard blocks while it
is taken; waiting leaves it, and a waiter is blocked until it is notified. -/
def effect (me : Nat) : Effect ⟨SharedAction, SharedAction.Answer⟩ State
  | .loadFailing, s => some (s.failing, s)
  | .storeFailing n, s => some ((), { s with failing := n })
  | .drawId, s => some (s.nextId, { s with nextId := s.nextId + 1 })
  | .record c, s => some ((), { s with calls := s.calls ++ [c] })
  | .enter, s => if s.inside = none then some ((), { s with inside := some me }) else none
  | .leave, s => some ((), { s with inside := none })
  | .update u, s => some ((u.apply s.tasks).1, { s with tasks := (u.apply s.tasks).2 })
  | .isSuspended t, s => some (s.isSuspended t, s)
  | .wait, s => some ((), { s with inside := none, sleepers := s.sleepers ++ [me] })
  | .wake, s => if me ∈ s.sleepers then none else some ((), s)
  | .notifyAll, s => some ((), { s with sleepers := [] })

inductive Request where
  | spawn (name : String) (stackSize : UInt64) (priority : Int32)
  | join (t : TaskId)
  | detach (t : TaskId)
  | setPriority (t : TaskId) (n : Int32)
  | suspend (t : TaskId)
  | resume (t : TaskId)
  | sleep (ms : UInt32)
  | yield
  deriving DecidableEq, Repr

inductive Reply where
  | spawned (t : TaskId)
  | outcome (r : Outcome Unit)
  deriving DecidableEq

inductive Onward where
  | fallAsleep (ms : UInt32)
  | finish
  deriving DecidableEq, Repr

inductive Pc where
  | spawnLoad (name : String) (stackSize : UInt64) (priority : Int32)
  | spawnRefuse (left : UInt32)
  | spawnDraw (name : String) (stackSize : UInt64) (priority : Int32)
  | spawnStart (t : TaskId) (name : String) (stackSize : UInt64) (priority : Int32)
  | record (c : Call)
  | enter (u : Update)
  | change (u : Update)
  | leave (u : Update) (known : Bool)
  | joinTake
  | await
  | detachTake (t : TaskId)
  | checkEnter (k : Onward)
  | checkLook (k : Onward)
  | checkWait (k : Onward)
  | checkWake (k : Onward)
  | checkLeave (k : Onward)
  | pause (ms : UInt32)
  | notify
  | done (r : Reply)
  deriving DecidableEq

def ok : Pc := .done (.outcome (.ok ()))

def failed (e : ErrorKind) : Pc := .done (.outcome (.error e))

/-- What follows a change of the table. Only an insertion needs no known task. -/
def afterUpdate : Update → Bool → Pc
  | .insert t name stackSize priority, _ => .spawnStart t name stackSize priority
  | .suspended _ false, true => .notify
  | _, true => ok
  | _, false => failed .notFound

def inRange (info : PlatformInfo) (n : Int32) : Bool :=
  info.thread.minPriority ≤ n && n ≤ info.thread.maxPriority

/-- A task passes a checkpoint unless it is suspended; other threads need not look. -/
def checkpoint (me : TaskId) (k : Onward) : Pc :=
  if me = 0 then
    match k with
    | .fallAsleep ms => .record (.sleep ms)
    | .finish => ok
  else .checkEnter k

def start (info : PlatformInfo) (me : TaskId) : Request → Pc
  | .spawn name stackSize priority => .spawnLoad name stackSize priority
  | .join t => if info.supports .nativeJoin then .record (.join t) else failed .notImplemented
  | .detach t => .record (.detach t)
  | .setPriority t n =>
    if inRange info n then .record (.setPriority t n) else failed .invalidParameter
  | .suspend t => if info.supports .suspend then .record (.suspend t) else failed .notImplemented
  | .resume t => if info.supports .suspend then .record (.resume t) else failed .notImplemented
  | .sleep ms => checkpoint me (.fallAsleep ms)
  | .yield => checkpoint me .finish

def afterRecord : Call → Pc
  | .spawn t _ _ _ => .done (.spawned t)
  | .join _ => .joinTake
  | .detach t => .detachTake t
  | .setPriority t n => .enter (.priority t n)
  | .suspend t => .enter (.suspended t true)
  | .resume t => .enter (.suspended t false)
  | .sleep ms => .pause ms

def next (info : PlatformInfo) (me : TaskId) : Machine interface Pc Reply
  | .spawnLoad name stackSize priority => .act (.shared .loadFailing) fun (left : UInt32) =>
      if left > 0 then .spawnRefuse (left - 1)
      else if inRange info priority then .spawnDraw name stackSize priority
      else failed .invalidParameter
  | .spawnRefuse left => .act (.shared (.storeFailing left)) fun (_ : Unit) => failed .unknown
  | .spawnDraw name stackSize priority => .act (.shared .drawId) fun (t : TaskId) =>
      .enter (.insert t name stackSize priority)
  | .spawnStart t name stackSize priority => .act (.host (.start t)) fun (started : Bool) =>
      if started then .record (.spawn t name stackSize priority) else failed .outOfMemory
  | .record c => .act (.shared (.record c)) fun (_ : Unit) => afterRecord c
  | .enter u => .act (.shared .enter) fun (_ : Unit) => .change u
  | .change u => .act (.shared (.update u)) fun (known : Bool) => .leave u known
  | .leave u known => .act (.shared .leave) fun (_ : Unit) => afterUpdate u known
  | .joinTake => .act (.host .takeHandle) fun (there : Bool) =>
      if there then .await else failed .threadJoinFailed
  | .detachTake t => .act (.host .takeHandle) fun (_ : Bool) => .enter (.detached t)
  | .await => .act (.host .await) fun (returned : Bool) =>
      if returned then ok else failed .threadJoinFailed
  | .checkEnter k => .act (.shared .enter) fun (_ : Unit) => .checkLook k
  | .checkLook k => .act (.shared (.isSuspended me)) fun (held : Bool) =>
      if held then .checkWait k else .checkLeave k
  | .checkWait k => .act (.shared .wait) fun (_ : Unit) => .checkWake k
  | .checkWake k => .act (.shared .wake) fun (_ : Unit) => .checkEnter k
  | .checkLeave (.fallAsleep ms) => .act (.shared .leave) fun (_ : Unit) => .record (.sleep ms)
  | .checkLeave .finish => .act (.shared .leave) fun (_ : Unit) => ok
  | .pause ms => .act (.host (.pause ms)) fun (_ : Unit) => checkpoint me .finish
  | .notify => .act (.shared .notifyAll) fun (_ : Unit) => ok
  | .done r => .done r

end SyncCore.Mock
