import SyncCore.Platform.Info

/-!
# Replaced descriptions

A backend can be made to describe itself otherwise than it is: some fields of
its description are replaced, while the backend itself keeps using its own.
-/

set_option autoImplicit false

namespace SyncCore

structure Replacement where
  capabilities : Option Capabilities
  minStack : Option UInt64
  maxStack : Option UInt64
  defaultStack : Option UInt64
  minPriority : Option Int32
  maxPriority : Option Int32
  deriving DecidableEq, Repr

namespace Replacement

def none : Replacement := ⟨.none, .none, .none, .none, .none, .none⟩

def apply (r : Replacement) (i : PlatformInfo) : PlatformInfo where
  kind := i.kind
  arch := i.arch
  capabilities := r.capabilities.getD i.capabilities
  coreCount := i.coreCount
  thread :=
    ⟨r.minStack.getD i.thread.minStack, r.maxStack.getD i.thread.maxStack,
      r.defaultStack.getD i.thread.defaultStack, r.minPriority.getD i.thread.minPriority,
      r.maxPriority.getD i.thread.maxPriority⟩

end Replacement

end SyncCore
