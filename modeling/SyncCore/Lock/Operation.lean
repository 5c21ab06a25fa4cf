import SyncCore.Error
import SyncCore.Machine

/-!
# Operations on raw locks

A raw lock has five operations. Locking and unlocking are not tied to one
another by a guard, so they may come from different calls.
-/

set_option autoImplicit false

namespace SyncCore

inductive LockOp where
  | lock
  | tryLock
  | unlock
  | isLocked
  | destroy
  deriving DecidableEq, Repr

def LockOp.Answer : LockOp → Type
  | .lock => Outcome Unit
  | .tryLock => Outcome Unit
  | .unlock => Outcome Unit
  | .isLocked => Bool
  | .destroy => Outcome Unit

/-- The calls of a raw lock. What a call leaves open is settled by a hint. -/
abbrev RawCalls (Hint R : Type) := Hint → (op : LockOp) → R → Option (op.Answer × R)

inductive LockReply where
  | outcome (r : Outcome Unit)
  | flag (b : Bool)
  deriving DecidableEq

namespace LockReply

def ok : LockReply := .outcome (.ok ())
def busy : LockReply := .outcome (.error .busy)
def notHeld : LockReply := .outcome (.error .invalidParameter)

def as? : (op : LockOp) → LockReply → Option op.Answer
  | .lock, .outcome r => some r
  | .tryLock, .outcome r => some r
  | .unlock, .outcome r => some r
  | .isLocked, .flag b => some b
  | .destroy, .outcome r => some r
  | _, _ => none

end LockReply

end SyncCore
