import SyncCore.Lock.Operation

/-!
# The blocking lock

A lock made of a flag, a mutex that guards the flag, and a condition on which
waiters sleep. Sleeping leaves the guard in the same action. A sleeper wakes
when it is notified, or for no reason, and then looks at the flag again under
the guard. Unlocking clears the flag, leaves the guard, and only then
notifies one sleeper. Destroying the lock is refused while it is held.
-/

set_option autoImplicit false

namespace SyncCore.Monitor

abbrev ThreadId := Nat

structure State where
  flag : Bool
  inside : Option ThreadId
  /-- The threads asleep on the condition that have not been woken. -/
  sleepers : List ThreadId
  deriving DecidableEq, Repr

def State.initial : State := ⟨false, none, []⟩

inductive Action where
  | enter
  | read
  | write (b : Bool)
  | leave
  | sleep
  | wake
  | notify
  deriving DecidableEq, Repr

def Action.Answer : Action → Type
  | .read => Bool
  | .enter => Unit
  | .write _ => Unit
  | .leave => Unit
  | .sleep => Unit
  | .wake => Unit
  | .notify => Unit

def interface : Interface := ⟨Action, Action.Answer⟩

/-- The effect of the actions of one thread. Entering is blocked while the
guard is taken, and waking is blocked until the thread has been woken. Of
several sleepers the one that has slept longest is notified. -/
def effect (me : ThreadId) : Effect interface State
  | .enter, s => if s.inside = none then some ((), { s with inside := some me }) else none
  | .read, s => some (s.flag, s)
  | .write b, s => some ((), { s with flag := b })
  | .leave, s => some ((), { s with inside := none })
  | .sleep, s => some ((), { s with inside := none, sleepers := s.sleepers ++ [me] })
  | .wake, s => if me ∈ s.sleepers then none else some ((), s)
  | .notify, s => some ((), { s with sleepers := s.sleepers.tail })

inductive Pc where
  | enter (op : LockOp)
  | test (op : LockOp)
  | write (b : Bool) (wakes : Bool)
  | sleep
  | asleep
  | leave (r : LockReply)
  | leaveFreed
  | notify
  | done (r : LockReply)
  deriving DecidableEq

def start (op : LockOp) : Pc := .enter op

def afterTest : LockOp → Bool → Pc
  | .lock, true => .sleep
  | .lock, false => .write true false
  | .tryLock, true => .leave .busy
  | .tryLock, false => .write true false
  | .unlock, true => .write false true
  | .unlock, false => .leave .notHeld
  | .isLocked, held => .leave (.flag held)
  | .destroy, true => .leave .busy
  | .destroy, false => .leave .ok

def next : Machine interface Pc LockReply
  | .enter op => .act .enter fun (_ : Unit) => .test op
  | .test op => .act .read fun (held : Bool) => afterTest op held
  | .write b wakes => .act (.write b) fun (_ : Unit) => if wakes then .leaveFreed else .leave .ok
  | .sleep => .act .sleep fun (_ : Unit) => .asleep
  | .asleep => .act .wake fun (_ : Unit) => .enter .lock
  | .leave r => .act .leave fun (_ : Unit) => .done r
  | .leaveFreed => .act .leave fun (_ : Unit) => .notify
  | .notify => .act .notify fun (_ : Unit) => .done .ok
  | .done r => .done r

end SyncCore.Monitor
