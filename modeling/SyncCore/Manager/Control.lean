import SyncCore.Manager.Action

/-!
# Controlling a running thread

Setting the priority asks the backend first and notes the level only if the
backend agreed. Suspending and resuming change the state first and call the
backend second; if the backend refuses, the state is changed back.
-/

set_option autoImplicit false

namespace SyncCore.Manager

namespace SetPriority

inductive Pc where
  | check
  | look
  | call
  | warn (e : ErrorKind)
  | note
  | done (r : Outcome Unit)
  deriving DecidableEq

def start (own : Bool) : Pc := if own then .check else .done (.error .invalidParameter)

def next {V : Type} (id : ObjectId) (p : Priority) (native : Int32) :
    Machine (interface V) Pc (Outcome Unit)
  | .check => .act (.cell .loadState) fun (s : ThreadState) =>
      if s = .terminated then .done (.error .invalidParameter) else .look
  | .look => .act (.cell .isBound) fun (bound : Bool) =>
      if bound then .call else .done (.error .notInitialized)
  | .call => .act (.backend (.setPriority native)) fun (r : Outcome Unit) =>
      match r with
      | .ok _ => .note
      | .error e => .warn e
  | .warn e =>
    .act (.log (Log.warn (threadLabel id ++ ": set priority " ++ toString native.toInt
        ++ " failed: " ++ e.message)))
      fun (_ : Unit) => .done (.error e)
  | .note => .act (.cell (.storePriority p)) fun (_ : Unit) => .done (.ok ())
  | .done r => .done r

end SetPriority

inductive Hold where
  | suspend
  | resume
  deriving DecidableEq, Repr

namespace Hold

def origin : Hold → ThreadState
  | .suspend => .running
  | .resume => .suspended

def target : Hold → ThreadState
  | .suspend => .suspended
  | .resume => .running

def name : Hold → String
  | .suspend => "suspend"
  | .resume => "resume"

inductive Pc where
  | exchange
  | look
  | call
  | undo (e : ErrorKind)
  | warn (e : ErrorKind)
  | done (r : Outcome Unit)
  deriving DecidableEq

/-- Refused for a foreign handle and on a backend that cannot suspend. -/
def start (own supported : Bool) : Pc :=
  if own then if supported then .exchange else .done (.error .notImplemented)
  else .done (.error .invalidParameter)

def afterCall : Outcome Unit → Pc
  | .ok _ => .done (.ok ())
  | .error e => .undo e

def next {V : Type} (id : ObjectId) (h : Hold) : Machine (interface V) Pc (Outcome Unit)
  | .exchange => .act (.cell (.exchangeState h.origin h.target)) fun (changed : Bool) =>
      if changed then .look else .done (.error .invalidParameter)
  | .look => .act (.cell .isBound) fun (bound : Bool) =>
      if bound then .call else .done (.error .notInitialized)
  | .call =>
    match h with
    | .suspend => .act (.backend .suspend) fun (r : Outcome Unit) => afterCall r
    | .resume => .act (.backend .resume) fun (r : Outcome Unit) => afterCall r
  | .undo e => .act (.cell (.exchangeState h.target h.origin)) fun (_ : Bool) => .warn e
  | .warn e =>
    .act (.log (Log.warn (threadLabel id ++ ": " ++ h.name ++ " failed: " ++ e.message)))
      fun (_ : Unit) => .done (.error e)
  | .done r => .done r

end Hold

end SyncCore.Manager
