import SyncCore.Lock.Operation

/-!
# The yielding lock

A lock made of one boolean flag that is set and cleared by exchanges. A
waiter gives up its time slice between two claims. Destroying the lock is
refused while it is held.
-/

set_option autoImplicit false

namespace SyncCore.Flag

inductive Action where
  | exchange (expected desired : Bool)
  | load
  | yield
  deriving DecidableEq, Repr

def Action.Answer : Action → Type
  | .exchange _ _ => Bool
  | .load => Bool
  | .yield => Unit

def interface : Interface := ⟨Action, Action.Answer⟩

def perform : (a : Action) → Bool → a.Answer × Bool
  | .exchange e d, held => if held = e then (true, d) else (false, held)
  | .load, held => (held, held)
  | .yield, held => ((), held)

def effect : Effect interface Bool := fun a held => some (perform a held)

inductive Pc where
  | claim
  | pause
  | tryClaim
  | release
  | look
  | check
  | done (r : LockReply)
  deriving DecidableEq

def start : LockOp → Pc
  | .lock => .claim
  | .tryLock => .tryClaim
  | .unlock => .release
  | .isLocked => .look
  | .destroy => .check

def next : Machine interface Pc LockReply
  | .claim => .act (.exchange false true) fun (taken : Bool) => if taken then .done .ok else .pause
  | .pause => .act .yield fun (_ : Unit) => .claim
  | .tryClaim => .act (.exchange false true) fun (taken : Bool) =>
      .done (if taken then .ok else .busy)
  | .release => .act (.exchange true false) fun (freed : Bool) =>
      .done (if freed then .ok else .notHeld)
  | .look => .act .load fun (held : Bool) => .done (.flag held)
  | .check => .act .load fun (held : Bool) => .done (if held then .busy else .ok)
  | .done r => .done r

end SyncCore.Flag
