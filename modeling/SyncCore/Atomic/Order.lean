/-!
# Memory orders

Every atomic operation names an order, and every operation takes every order.
-/

set_option autoImplicit false

namespace SyncCore

inductive MemoryOrder where
  | relaxed
  | acquire
  | release
  | acqRel
  | seqCst
  deriving DecidableEq, Repr

namespace MemoryOrder

def ofName? : String → Option MemoryOrder
  | "Relaxed" => some .relaxed
  | "Acquire" => some .acquire
  | "Release" => some .release
  | "AcqRel" => some .acqRel
  | "SeqCst" => some .seqCst
  | _ => none

end MemoryOrder

end SyncCore
