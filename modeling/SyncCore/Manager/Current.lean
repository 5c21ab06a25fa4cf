import SyncCore.Manager.Action

/-!
# The calling thread

A thread asks which registered object it is by looking its backend handle up
in the table.
-/

set_option autoImplicit false

namespace SyncCore.Manager.Current

inductive Pc where
  | ask
  | find (h : Handle)
  | announce (h : Handle) (o : Option ObjectId)
  | done (o : Option ObjectId)
  deriving DecidableEq

def start : Pc := .ask

def next {V : Type} (handleText : Handle → String) :
    Machine (interface V) Pc (Option ObjectId)
  | .ask => .act (.backend .current) fun (h : Handle) => .find h
  | .find h => .act (.table (.find h)) fun (o : Option ObjectId) => .announce h o
  | .announce h o =>
    .act (.log (Log.trace ("current: " ++ handleText h ++ " -> "
        ++ Text.optional (o.map ThreadObject.idText))))
      fun (_ : Unit) => .done o
  | .done o => .done o

end SyncCore.Manager.Current
