import SyncCore.Manager.Action

/-!
# The start routine

What a backend thread does for its object: it waits behind the gate, becomes
Running, runs the function, keeps the value if the function returned, and
becomes Terminated in either case. If its owner has given it up by then, it
frees its slot in the table itself.
-/

set_option autoImplicit false

namespace SyncCore.Manager

/-- Freeing a slot that may already be free. -/
def unregisterWarning (id : ObjectId) (e : ErrorKind) : Log.Record :=
  Log.warn (threadLabel id ++ ": unregister failed: " ++ e.message)

namespace Routine

inductive Pc (V : Type) where
  | gate
  | wait
  | begin
  | body
  | put (v : V)
  | terminate
  | look
  | unregister
  | unregisterWarn (e : ErrorKind)
  | done
  deriving DecidableEq

def start {V : Type} : Pc V := .gate

def next {V : Type} (id : ObjectId) : Machine (interface V) (Pc V) Unit
  | .gate => .act (.cell .readGate) fun (opened : Bool) => if opened then .begin else .wait
  | .wait => .act (.backend .yield) fun (_ : Unit) => .gate
  | .begin => .act (.cell (.storeState .running)) fun (_ : Unit) => .body
  | .body => .act .runBody fun (r : Option V) =>
      match r with
      | some v => .put v
      | none => .terminate
  | .put v => .act (.cell (.putValue v)) fun (_ : Unit) => .terminate
  | .terminate => .act (.cell (.storeState .terminated)) fun (_ : Unit) => .look
  | .look => .act (.cell .readDetached) fun (detached : Bool) =>
      if detached then .unregister else .done
  | .unregister => .act (.table .unregister) fun (r : Outcome Unit) =>
      match r with
      | .ok _ => .done
      | .error e => if e = .notFound then .done else .unregisterWarn e
  | .unregisterWarn e => .act (.log (unregisterWarning id e)) fun (_ : Unit) => .done
  | .done => .done ()

end Routine

end SyncCore.Manager
