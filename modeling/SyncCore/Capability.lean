import SyncCore.Text.Record

/-!
# Capability sets

A backend describes what it can do by a set of flags kept in a 32-bit word.
Ten bits have names. Bits without a name are kept when a set is built from a
number, and are dropped only by `truncate` and by the complement.
-/

set_option autoImplicit false

namespace SyncCore

structure Capabilities where
  bits : UInt32
  deriving DecidableEq, Repr

namespace Capabilities

def empty : Capabilities := ⟨0⟩

instance : Inhabited Capabilities := ⟨empty⟩

def threads : Capabilities := ⟨1⟩
def mutex : Capabilities := ⟨2⟩
def semaphore : Capabilities := ⟨4⟩
def threadLocal : Capabilities := ⟨8⟩
def atomics : Capabilities := ⟨16⟩
def interrupts : Capabilities := ⟨32⟩
def timers : Capabilities := ⟨64⟩
def directMemory : Capabilities := ⟨128⟩
def suspend : Capabilities := ⟨256⟩
def nativeJoin : Capabilities := ⟨512⟩

def flags : List (String × Capabilities) :=
  [("THREADS", threads), ("MUTEX", mutex), ("SEMAPHORE", semaphore), ("TLS", threadLocal),
   ("ATOMIC", atomics), ("IRQ", interrupts), ("TIMERS", timers), ("DMA", directMemory),
   ("SUSPEND", suspend), ("NATIVE_JOIN", nativeJoin)]

def union (a b : Capabilities) : Capabilities := ⟨a.bits ||| b.bits⟩
def inter (a b : Capabilities) : Capabilities := ⟨a.bits &&& b.bits⟩
def symmDiff (a b : Capabilities) : Capabilities := ⟨a.bits ^^^ b.bits⟩
def diff (a b : Capabilities) : Capabilities := ⟨a.bits &&& ~~~b.bits⟩

instance : OrOp Capabilities := ⟨union⟩

def known : Capabilities := flags.foldl (fun acc f => acc ||| f.2) empty

def truncate (a : Capabilities) : Capabilities := a.inter known

def complement (a : Capabilities) : Capabilities := truncate ⟨~~~a.bits⟩

def isEmpty (a : Capabilities) : Bool := a == empty

/-- Every flag of `b` is in `a`. -/
def contains (a b : Capabilities) : Bool := a.inter b == b

def intersects (a b : Capabilities) : Bool := !(a.inter b).isEmpty

/-- Every named flag is present; further bits do not matter. -/
def isAll (a : Capabilities) : Bool := a.contains known

def ofBits? (bits : UInt32) : Option Capabilities :=
  if truncate ⟨bits⟩ = ⟨bits⟩ then some ⟨bits⟩ else none

def ofName? (s : String) : Option Capabilities :=
  (flags.find? fun f => f.1 == s).map (·.2)

def compare (a b : Capabilities) : Ordering := compareOfLessAndEq a.bits b.bits

def names (a : Capabilities) : List String :=
  (flags.filter fun f => a.contains f.2).map (·.1)

/-- The names, then the bits without a name as one hexadecimal number. -/
def pieces (a : Capabilities) : List String :=
  let rest := a.diff known
  if rest.isEmpty then a.names else a.names ++ ["0x" ++ Text.hex rest.bits.toNat]

def render (a : Capabilities) : String := " | ".intercalate a.pieces

def debugText (a : Capabilities) : String :=
  Text.wrapped "Capabilities" (if a.isEmpty then "0x0" else a.render)

end Capabilities

end SyncCore
