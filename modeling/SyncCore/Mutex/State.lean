import SyncCore.Lock.Raw
import SyncCore.Log
import SyncCore.Mutex.Operation
import SyncCore.Platform.Info

/-!
# A mutex and its raw lock

The state of one mutex, the effect on it of each action of a thread, and the
choice of the raw lock: the backend's own lock if it offers one, a spinlock
otherwise.
-/

set_option autoImplicit false

namespace SyncCore

structure BackedLock where
  native : Bool
  raw : RawLock
  deriving DecidableEq, Repr

namespace BackedLock

def spinning : BackedLock := ⟨false, .newSpin⟩

/-- The lock for a backend that answers the request for a native one as
given. The request is made only if the description promises mutexes, and a
backend that turns out to have none gets a spinlock. -/
def choose (info : PlatformInfo) (created : Outcome RawLock) : Outcome BackedLock :=
  if info.supports .mutex then
    match created with
    | .ok raw => .ok ⟨true, raw⟩
    | .error .notImplemented => .ok spinning
    | .error e => .error e
  else .ok spinning

end BackedLock

namespace Mutex

structure State (R : Type) where
  status : Status
  raw : R
  deriving DecidableEq, Repr

namespace State

def ofRaw {R : Type} (raw : R) : State R := ⟨.ready, raw⟩

def uninit {R : Type} (raw : R) : State R := ⟨.uninitialized, raw⟩

def isInitialized {R : Type} (s : State R) : Bool := s.status.usable

def isLocked (s : State RawLock) : Bool := s.isInitialized && s.raw.held

end State

def effect {Hint R : Type} (call : RawCalls Hint R) (hint : Hint) : Effect interface (State R)
  | .load, s => some (s.status, s)
  | .store t, s => some ((), { s with status := t })
  | .exchange e d, s =>
    some (s.status, if s.status = e then { s with status := d } else s)
  | .raw op, s => (call hint op s.raw).map fun r => (r.1, { s with raw := r.2 })

def run (me : Nat) (op : Op) (s : State RawLock) : Option (LockReply × State RawLock) :=
  match next.solo (effect RawLock.call me) 16 (start op) s with
  | .finished r s => some (r, s)
  | _ => none

end Mutex

end SyncCore
