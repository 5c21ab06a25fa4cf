import SyncCore.Log
import SyncCore.Machine
import SyncCore.Thread.Object

/-!
# Actions of the thread manager

An operation of the manager concerns one thread object. Its actions are
accesses to that object's cells, calls of the backend on the thread the
object is bound to, and operations on the table of registered threads, each
of them one step that other threads may come between.
-/

set_option autoImplicit false

namespace SyncCore.Manager

inductive CellAction (V : Type) where
  | loadState
  | storeState (s : ThreadState)
  | exchangeState (expected desired : ThreadState)
  | storePriority (p : Priority)
  | readGate
  | openGate
  | readDetached
  | markDetached
  | bind (b : Binding)
  | isBound
  | putValue (v : V)
  | takeValue
  deriving DecidableEq, Repr

def CellAction.Answer {V : Type} : CellAction V → Type
  | .loadState => ThreadState
  | .storeState _ => Unit
  | .exchangeState _ _ => Bool
  | .storePriority _ => Unit
  | .readGate => Bool
  | .openGate => Unit
  | .readDetached => Bool
  | .markDetached => Unit
  | .bind _ => Unit
  | .isBound => Bool
  | .putValue _ => Unit
  | .takeValue => Option V

/-- The answer of an access, and the object after it. An object is bound once. -/
def CellAction.perform {V : Type} :
    (a : CellAction V) → ThreadObject V → a.Answer × ThreadObject V
  | .loadState, o => (o.state, o)
  | .storeState s, o => ((), { o with stateWord := s.word })
  | .exchangeState e d, o => o.exchangeState e d
  | .storePriority p, o => ((), { o with priorityWord := p.word })
  | .readGate, o => (o.gateOpen, o)
  | .openGate, o => ((), { o with gateOpen := true })
  | .readDetached, o => (o.detached, o)
  | .markDetached, o => ((), { o with detached := true })
  | .bind b, o => ((), { o with binding := o.binding.or (some b) })
  | .isBound, o => (o.binding.isSome, o)
  | .putValue v, o => ((), { o with returned := some v })
  | .takeValue, o => (o.returned, { o with returned := none })

structure SpawnConfig where
  name : String
  stackSize : UInt64
  priority : Int32
  deriving DecidableEq, Repr

inductive BackendCall where
  | spawn (c : SpawnConfig)
  | join
  | detach
  | setPriority (n : Int32)
  | suspend
  | resume
  | sleep (ms : UInt32)
  | yield
  | current
  deriving DecidableEq, Repr

def BackendCall.Answer : BackendCall → Type
  | .spawn _ => Outcome Binding
  | .join => Outcome Unit
  | .detach => Outcome Unit
  | .setPriority _ => Outcome Unit
  | .suspend => Outcome Unit
  | .resume => Outcome Unit
  | .sleep _ => Outcome Unit
  | .yield => Unit
  | .current => Handle

inductive TableCall where
  | register
  | unregister
  | find (h : Handle)
  deriving DecidableEq, Repr

def TableCall.Answer : TableCall → Type
  | .register => Outcome Unit
  | .unregister => Outcome Unit
  | .find _ => Option ObjectId

inductive Action (V : Type) where
  | cell (a : CellAction V)
  | backend (c : BackendCall)
  | table (c : TableCall)
  | markJoined
  /-- The thread's own function, which returns a value or unwinds. -/
  | runBody
  | log (r : Log.Record)
  deriving DecidableEq, Repr

def Action.Answer {V : Type} : Action V → Type
  | .cell a => a.Answer
  | .backend c => c.Answer
  | .table c => c.Answer
  | .markJoined => Unit
  | .runBody => Option V
  | .log _ => Unit

def interface (V : Type) : Interface := ⟨Action V, Action.Answer⟩

def threadLabel (id : ObjectId) : String := "thread " ++ ThreadObject.label id

def detachWarning (id : ObjectId) (e : ErrorKind) : Log.Record :=
  Log.warn (threadLabel id ++ ": detach failed: " ++ e.message)

end SyncCore.Manager
