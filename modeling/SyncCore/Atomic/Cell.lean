import SyncCore.Atomic.Order
import SyncCore.Machine
import SyncCore.Text.Record

/-!
# Atomic cells

A cell holds a signed 32-bit word that is read and changed only by atomic
operations. Sums wrap. An exchange compares the word with the expected one:
if they agree it writes the desired word, otherwise it changes nothing and
hands back the word it found. The order of an operation restrains the order
of other accesses, never the values.
-/

set_option autoImplicit false

namespace SyncCore.Atomic

inductive Action where
  | load (order : MemoryOrder)
  | store (order : MemoryOrder) (value : Int32)
  | add (order : MemoryOrder) (delta : Int32)
  | sub (order : MemoryOrder) (delta : Int32)
  | exchange (order : MemoryOrder) (expected desired : Int32)
  | fence (order : MemoryOrder)
  deriving DecidableEq, Repr

structure Exchanged where
  success : Bool
  expected : Int32
  deriving DecidableEq, Repr

def Action.Answer : Action → Type
  | .load _ => Int32
  | .store _ _ => Unit
  | .add _ _ => Int32
  | .sub _ _ => Int32
  | .exchange _ _ _ => Exchanged
  | .fence _ => Unit

def interface : Interface := ⟨Action, Action.Answer⟩

def perform : (a : Action) → Int32 → a.Answer × Int32
  | .load _, v => (v, v)
  | .store _ w, _ => ((), w)
  | .add _ d, v => (v, v + d)
  | .sub _ d, v => (v, v - d)
  | .exchange _ e d, v => if v = e then (⟨true, e⟩, d) else (⟨false, v⟩, v)
  | .fence _, v => ((), v)

def effect : Effect interface Int32 := fun a v => some (perform a v)

def debugText (v : Int32) : String :=
  Text.record "AtomicInt" [("value", toString v.toInt)]

end SyncCore.Atomic
