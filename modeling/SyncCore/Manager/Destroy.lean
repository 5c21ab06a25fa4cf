import SyncCore.Manager.Routine

/-!
# Giving a thread up

Destroying releases a thread that has ended; a refusal leaves the handle as
it was. Dropping a handle detaches the thread instead: it is marked first and
its state is read last, so of the owner and the start routine at least one
sees what the other wrote and frees the slot.
-/

set_option autoImplicit false

namespace SyncCore.Manager

namespace Destroy

inductive Pc where
  | check
  | unregister
  | look
  | detach
  | warn (e : ErrorKind)
  | announce
  | done (r : Outcome Unit)
  deriving DecidableEq

def start (own : Bool) : Pc := if own then .check else .done (.error .invalidParameter)

def next {V : Type} (id : ObjectId) (joined : Bool) : Machine (interface V) Pc (Outcome Unit)
  | .check => .act (.cell .loadState) fun (s : ThreadState) =>
      if s = .terminated then .unregister else .done (.error .threadStillActive)
  | .unregister => .act (.table .unregister) fun (r : Outcome Unit) =>
      match r with
      | .ok _ => if joined then .announce else .look
      | .error e => .done (.error e)
  | .look => .act (.cell .isBound) fun (bound : Bool) => if bound then .detach else .announce
  | .detach => .act (.backend .detach) fun (r : Outcome Unit) =>
      match r with
      | .ok _ => .announce
      | .error e => .warn e
  | .warn e => .act (.log (detachWarning id e)) fun (_ : Unit) => .announce
  | .announce => .act (.log (Log.debug (threadLabel id ++ " destroyed"))) fun (_ : Unit) =>
      .done (.ok ())
  | .done r => .done r

def message (e : ErrorKind) : String := "destroy refused: " ++ e.message

def debugText (e : ErrorKind) : String := Text.openRecord "DestroyError" [("error", e.name)]

end Destroy

namespace Drop

inductive Pc where
  | warn
  | mark
  | look
  | detach
  | detachWarn (e : ErrorKind)
  | check
  | unregister
  | unregisterWarn (e : ErrorKind)
  | done
  deriving DecidableEq

def start : Pc := .warn

def next {V : Type} (id : ObjectId) (joined : Bool) : Machine (interface V) Pc Unit
  | .warn =>
    .act (.log (Log.warn (threadLabel id ++ " dropped without destroy, detaching")))
      fun (_ : Unit) => .mark
  | .mark => .act (.cell .markDetached) fun (_ : Unit) => if joined then .check else .look
  | .look => .act (.cell .isBound) fun (bound : Bool) => if bound then .detach else .check
  | .detach => .act (.backend .detach) fun (r : Outcome Unit) =>
      match r with
      | .ok _ => .check
      | .error e => .detachWarn e
  | .detachWarn e => .act (.log (detachWarning id e)) fun (_ : Unit) => .check
  | .check => .act (.cell .loadState) fun (s : ThreadState) =>
      if s = .terminated then .unregister else .done
  | .unregister => .act (.table .unregister) fun (r : Outcome Unit) =>
      match r with
      | .ok _ => .done
      | .error e => if e = .notFound then .done else .unregisterWarn e
  | .unregisterWarn e => .act (.log (unregisterWarning id e)) fun (_ : Unit) => .done
  | .done => .done ()

end Drop

end SyncCore.Manager
