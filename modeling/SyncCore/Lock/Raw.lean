import SyncCore.Lock.Flag
import SyncCore.Lock.Monitor
import SyncCore.Lock.Spin

/-!
# The raw locks

Three raw locks answer the same operations. A call made while no other thread
acts is the run of the lock's own machine; it has no answer if it would wait
for ever.
-/

set_option autoImplicit false

namespace SyncCore

inductive RawLock where
  | spin (word : Int32)
  | flag (held : Bool)
  | monitor (state : Monitor.State)
  deriving DecidableEq, Repr

namespace RawLock

def newSpin : RawLock := .spin Spin.free
def newFlag : RawLock := .flag false
def newMonitor : RawLock := .monitor .initial

/-- No operation that does not wait makes more actions than this. -/
def callLength : Nat := 5

def answer? {Pc σ : Type} (op : LockOp) (wrap : σ → RawLock) :
    Stop Pc LockReply σ → Option (op.Answer × RawLock)
  | .finished r s => (r.as? op).map fun a => (a, wrap s)
  | _ => none

def call (me : Nat) (op : LockOp) : RawLock → Option (op.Answer × RawLock)
  | .spin w => answer? op .spin (Spin.next.solo Atomic.effect callLength (Spin.start op) w)
  | .flag h => answer? op .flag (Flag.next.solo Flag.effect callLength (Flag.start op) h)
  | .monitor s =>
    answer? op .monitor (Monitor.next.solo (Monitor.effect me) callLength (Monitor.start op) s)

def held : RawLock → Bool
  | .spin w => Spin.isLocked w
  | .flag h => h
  | .monitor s => s.flag

end RawLock

end SyncCore
