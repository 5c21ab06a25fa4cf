import SyncCore.Atomic.Cell
import SyncCore.Lock.Operation
import SyncCore.Text.Record

/-!
# The spinlock

A lock made of one atomic cell: the word is 1 while the lock is held and 0
while it is free. A claim is one exchange. A waiter whose claim failed reads
the word until it is no longer 1 and then claims again.
-/

set_option autoImplicit false

namespace SyncCore.Spin

def free : Int32 := 0
def taken : Int32 := 1

def isLocked (word : Int32) : Bool := word = taken

inductive Pc where
  | claim
  | wait
  | tryClaim
  | release
  | look
  | done (r : LockReply)
  deriving DecidableEq

/-- Tearing a spinlock down needs no action and is never refused. -/
def start : LockOp → Pc
  | .lock => .claim
  | .tryLock => .tryClaim
  | .unlock => .release
  | .isLocked => .look
  | .destroy => .done .ok

def next : Machine Atomic.interface Pc LockReply
  | .claim => .act (.exchange .acquire free taken) fun (r : Atomic.Exchanged) =>
      if r.success then .done .ok else .wait
  | .wait => .act (.load .relaxed) fun (v : Int32) => if v = taken then .wait else .claim
  | .tryClaim => .act (.exchange .acquire free taken) fun (r : Atomic.Exchanged) =>
      .done (if r.success then .ok else .busy)
  | .release => .act (.exchange .release taken free) fun (r : Atomic.Exchanged) =>
      .done (if r.success then .ok else .notHeld)
  | .look => .act (.load .acquire) fun (v : Int32) => .done (.flag (v = taken))
  | .done r => .done r

def debugText (word : Int32) : String :=
  Text.record "SpinLock" [("locked", Text.flag (isLocked word))]

end SyncCore.Spin
