import SyncCore.Lock.Operation

/-!
# Mutexes with a life cycle

A mutex is a raw lock and a status. Operations on a mutex that was never
initialized, or has been destroyed, are refused. Each access to the status
and each call of the raw lock is one action, and other threads may act in
between: a locker checks the status once before it waits and again when it
holds the raw lock, and gives the lock back if a teardown came first.
-/

set_option autoImplicit false

namespace SyncCore.Mutex

inductive Status where
  | uninitialized
  | ready
  | destroyed
  /-- A teardown has begun and may still be refused. -/
  | destroying
  deriving DecidableEq, Repr

def Status.usable : Status → Bool
  | .ready => true
  | .destroying => true
  | .uninitialized => false
  | .destroyed => false

inductive Action where
  | load
  | store (s : Status)
  | exchange (expected desired : Status)
  | raw (op : LockOp)
  deriving DecidableEq, Repr

/-- An exchange answers the status it found; it took place if that is the
expected one. -/
def Action.Answer : Action → Type
  | .load => Status
  | .store _ => Unit
  | .exchange _ _ => Status
  | .raw op => op.Answer

def interface : Interface := ⟨Action, Action.Answer⟩

inductive Op where
  | init
  | destroy
  | lock
  | unlock
  | tryLock
  | isLocked
  | isInitialized
  /-- What a guard does when it is released or dropped. -/
  | release
  deriving DecidableEq, Repr

inductive Pc where
  | initFrom (expected : Status)
  | initReport
  | destroyClaim
  | destroyAcquire
  | destroyAbandon (e : ErrorKind)
  | destroyMark
  | destroyGiveBack
  | destroyRaw
  | destroyRevive (e : ErrorKind)
  | acquireCheck (waits : Bool)
  | acquireRaw (waits : Bool)
  | acquireConfirm
  | acquireGiveBack
  | unlockCheck
  | unlockRaw
  | lookCheck
  | lookRaw
  | initializedCheck
  | done (r : LockReply)
  deriving DecidableEq

def start : Op → Pc
  | .init => .initFrom .uninitialized
  | .destroy => .destroyClaim
  | .lock => .acquireCheck true
  | .unlock => .unlockCheck
  | .tryLock => .acquireCheck false
  | .isLocked => .lookCheck
  | .isInitialized => .initializedCheck
  | .release => .unlockRaw

def failed (e : ErrorKind) : Pc := .done (.outcome (.error e))

def succeeded : Pc := .done .ok

def orFail (after : Pc) : Outcome Unit → Pc
  | .ok _ => after
  | .error e => failed e

def next : Machine interface Pc LockReply
  | .initFrom expected => .act (.exchange expected .ready) fun (found : Status) =>
      if found = expected then succeeded
      else if found.usable then failed .alreadyInitialized
      else if expected = .uninitialized then .initFrom .destroyed
      else .initReport
  | .initReport => .act .load fun (found : Status) =>
      if found.usable then failed .alreadyInitialized else failed .busy
  | .destroyClaim => .act (.exchange .ready .destroying) fun (found : Status) =>
      if found = .ready then .destroyAcquire
      else if found = .destroying then failed .busy
      else failed .notInitialized
  | .destroyAcquire => .act (.raw .tryLock) fun (r : Outcome Unit) =>
      match r with
      | .ok _ => .destroyMark
      | .error e => .destroyAbandon e
  | .destroyAbandon e => .act (.store .ready) fun (_ : Unit) => failed e
  | .destroyMark => .act (.store .destroyed) fun (_ : Unit) => .destroyGiveBack
  | .destroyGiveBack => .act (.raw .unlock) fun (r : Outcome Unit) => orFail .destroyRaw r
  | .destroyRaw => .act (.raw .destroy) fun (r : Outcome Unit) =>
      match r with
      | .ok _ => succeeded
      | .error e => if e = .busy then .destroyRaw else .destroyRevive e
  | .destroyRevive e => .act (.store .ready) fun (_ : Unit) => failed e
  | .acquireCheck waits => .act .load fun (found : Status) =>
      if found.usable then .acquireRaw waits else failed .notInitialized
  | .acquireRaw true => .act (.raw .lock) fun (r : Outcome Unit) => orFail .acquireConfirm r
  | .acquireRaw false => .act (.raw .tryLock) fun (r : Outcome Unit) => orFail .acquireConfirm r
  | .acquireConfirm => .act .load fun (found : Status) =>
      if found.usable then succeeded else .acquireGiveBack
  | .acquireGiveBack => .act (.raw .unlock) fun (r : Outcome Unit) =>
      orFail (failed .notInitialized) r
  | .unlockCheck => .act .load fun (found : Status) =>
      if found.usable then .unlockRaw else failed .notInitialized
  | .unlockRaw => .act (.raw .unlock) fun (r : Outcome Unit) => orFail succeeded r
  | .lookCheck => .act .load fun (found : Status) =>
      if found.usable then .lookRaw else .done (.flag false)
  | .lookRaw => .act (.raw .isLocked) fun (held : Bool) => .done (.flag held)
  | .initializedCheck => .act .load fun (found : Status) => .done (.flag found.usable)
  | .done r => .done r

def dropWarning (e : ErrorKind) : String := "mutex unlock on guard drop failed: " ++ e.message

end SyncCore.Mutex
