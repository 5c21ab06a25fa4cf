import SyncCore.Log
import SyncCore.Mutex.State

/-!
# Opening a manager

A manager reads its backend's description once, when it is opened, and keeps
it. A backend without threads is refused. The lock for the table of threads
is chosen next; the backend is asked for one of its own only if it promises
mutexes.
-/

set_option autoImplicit false

namespace SyncCore.Manager.Opening

inductive Action where
  | readInfo
  | newLock
  | log (r : Log.Record)
  deriving DecidableEq, Repr

def Action.Answer : Action → Type
  | .readInfo => PlatformInfo
  | .newLock => Outcome RawLock
  | .log _ => Unit

def interface : Interface := ⟨Action, Action.Answer⟩

structure Opened where
  info : PlatformInfo
  lock : BackedLock
  deriving DecidableEq, Repr

inductive Pc where
  | read
  | request (info : PlatformInfo)
  | announceTable (o : Opened)
  | announce (o : Opened)
  | done (r : Outcome Opened)
  deriving DecidableEq

def start : Pc := .read

def chosen (info : PlatformInfo) (created : Outcome RawLock) : Pc :=
  match BackedLock.choose info created with
  | .ok lock => .announceTable ⟨info, lock⟩
  | .error e => .done (.error e)

def tableRecord (capacity : Nat) (native : Bool) : Log.Record :=
  Log.trace ("registry: capacity " ++ toString capacity ++ ", native mutex " ++ Text.flag native)

def managerRecord (capacity : Nat) (i : PlatformInfo) : Log.Record :=
  Log.debug ("thread manager: " ++ i.kind.name ++ "/" ++ i.arch.name ++ ", caps "
    ++ i.capabilities.debugText ++ ", " ++ toString capacity ++ " slots")

def next (capacity : Nat) : Machine interface Pc (Outcome Opened)
  | .read => .act .readInfo fun (info : PlatformInfo) =>
      if info.supports .threads then
        if info.supports .mutex then .request info else chosen info (.error .notImplemented)
      else .done (.error .platformNotSupported)
  | .request info => .act .newLock fun (r : Outcome RawLock) => chosen info r
  | .announceTable o => .act (.log (tableRecord capacity o.lock.native)) fun (_ : Unit) =>
      .announce o
  | .announce o => .act (.log (managerRecord capacity o.info)) fun (_ : Unit) => .done (.ok o)
  | .done r => .done r

end SyncCore.Manager.Opening
