import SyncCore.Lock.Operation

/-!
# Arms

An arm waits for the next call of one name. When that call comes the arm is
used up, its steps are carried out in the middle of the call, and the call is
then made, skipped or replaced by an error. Of several arms for the same call
the one added first is used first.
-/

set_option autoImplicit false

namespace SyncCore.Script

inductive Refusal where
  | malformed
  | noSuch
  | duplicate
  | wouldBlock
  | notHeld
  | notRunning
  | parked
  | inUse
  | unsupported
  deriving DecidableEq, Repr

inductive Verdict where
  | proceed
  | skip
  | fail (e : ErrorKind)
  deriving DecidableEq, Repr

structure Arm (S : Type) where
  call : String
  body : List S
  verdict : Verdict

def takeArm? {S : Type} (call : String) : List (Arm S) → Option (Arm S × List (Arm S))
  | [] => none
  | a :: as =>
    if a.call = call then some (a, as)
    else (takeArm? call as).map fun r => (r.1, a :: r.2)

structure Armory (S R : Type) where
  arms : List (Arm S)
  hooks : List (String × List R)

/-- Worlds with arms, whose steps are of type `S` and whose replies of type `R`. -/
class Armed (W : Type) (S R : outParam Type) where
  armory : W → Armory S R
  withArmory : W → Armory S R → W

section Fire

variable {W S R : Type} [Armed W S R]

def modifyArmory (f : Armory S R → Armory S R) : StateT W Option Unit :=
  modify fun w => Armed.withArmory w (f (Armed.armory w))

def addArms (times : Nat) (arm : Arm S) : StateT W Option Unit :=
  modifyArmory fun a => { a with arms := a.arms ++ List.replicate times arm }

def fire (nested : List S → StateT W Option (List R)) (call : String) :
    StateT W Option Verdict := do
  match takeArm? call (Armed.armory (← get)).arms with
  | none => return .proceed
  | some (arm, rest) =>
    modifyArmory fun a => { a with arms := rest }
    let rs ← nested arm.body
    modifyArmory fun a => { a with hooks := a.hooks ++ [(call, rs)] }
    return arm.verdict

def callAfter (verdict : StateT W Option Verdict) (call : StateT W Option (Outcome Unit)) :
    StateT W Option (Outcome Unit) := do
  match ← verdict with
  | .proceed => call
  | .skip => return .ok ()
  | .fail e => return .error e

/-- A call that comes before its verdict; there is none if the call fails. -/
def callBefore (verdict : StateT W Option Verdict) (call : StateT W Option (Outcome Unit)) :
    StateT W Option (Outcome Unit) := do
  match ← call with
  | .error e => return .error e
  | .ok _ =>
    match ← verdict with
    | .fail e => return .error e
    | _ => return .ok ()

/-- A call with a result of its own, which can be replaced by an error but not skipped. -/
def callUnlessFailed {α : Type} (verdict : StateT W Option Verdict)
    (call : StateT W Option (Outcome α)) : StateT W Option (Outcome α) := do
  match ← verdict with
  | .fail e => return .error e
  | _ => call

def armedLockCall (verdict : String → StateT W Option Verdict)
    (call : (op : LockOp) → StateT W Option op.Answer) :
    (op : LockOp) → StateT W Option op.Answer
  | .lock => callAfter (verdict "m_lock") (call .lock)
  | .tryLock => callAfter (verdict "m_try_lock") (call .tryLock)
  | .destroy => callAfter (verdict "m_destroy") (call .destroy)
  | .unlock => callBefore (verdict "m_unlock") (call .unlock)
  | .isLocked => call .isLocked

end Fire

def lockReply {M : Type → Type} [Monad M] (call : (op : LockOp) → M op.Answer) :
    LockOp → M LockReply
  | .isLocked => do return .flag (← call .isLocked)
  | .lock => do return .outcome (← call .lock)
  | .tryLock => do return .outcome (← call .tryLock)
  | .unlock => do return .outcome (← call .unlock)
  | .destroy => do return .outcome (← call .destroy)

end SyncCore.Script
