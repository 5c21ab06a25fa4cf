import SyncCore.Capability

/-!
# Platform descriptions

The static description a backend gives of itself: its kind, the processor,
its capabilities and the limits of its threads. Stack sizes are 64-bit words
and native priorities are signed 32-bit words.
-/

set_option autoImplicit false

namespace SyncCore

inductive PlatformKind where
  | unknown
  | linux
  | windows
  | macOs
  | freeRtos
  | arduino
  | bareMetal
  deriving DecidableEq, Repr

namespace PlatformKind

def all : List PlatformKind :=
  [.unknown, .linux, .windows, .macOs, .freeRtos, .arduino, .bareMetal]

def name : PlatformKind → String
  | .unknown => "Unknown"
  | .linux => "Linux"
  | .windows => "Windows"
  | .macOs => "MacOs"
  | .freeRtos => "FreeRtos"
  | .arduino => "Arduino"
  | .bareMetal => "BareMetal"

def ofName? (s : String) : Option PlatformKind := all.find? (fun k => k.name == s)

end PlatformKind

inductive Arch where
  | unknown
  | x86
  | x64
  | arm
  | arm64
  | avr
  | riscV
  deriving DecidableEq, Repr

namespace Arch

def all : List Arch := [.unknown, .x86, .x64, .arm, .arm64, .avr, .riscV]

def name : Arch → String
  | .unknown => "Unknown"
  | .x86 => "X86"
  | .x64 => "X64"
  | .arm => "Arm"
  | .arm64 => "Arm64"
  | .avr => "Avr"
  | .riscV => "RiscV"

def ofName? (s : String) : Option Arch := all.find? (fun a => a.name == s)

def current : Arch := .x64

end Arch

structure ThreadLimits where
  minStack : UInt64
  /-- Largest stack a thread may ask for, 0 if there is no bound. -/
  maxStack : UInt64
  /-- Stack of a thread that asks for 0. -/
  defaultStack : UInt64
  minPriority : Int32
  maxPriority : Int32
  deriving DecidableEq, Repr

structure PlatformInfo where
  kind : PlatformKind
  arch : Arch
  capabilities : Capabilities
  /-- Number of processor cores, 0 if unknown. -/
  coreCount : UInt16
  thread : ThreadLimits
  deriving DecidableEq, Repr

namespace ThreadLimits

def zero : ThreadLimits := ⟨0, 0, 0, 0, 0⟩

def debugText (l : ThreadLimits) : String :=
  Text.record "ThreadLimits"
    [("min_stack_size", toString l.minStack.toNat),
     ("max_stack_size", toString l.maxStack.toNat),
     ("default_stack_size", toString l.defaultStack.toNat),
     ("min_priority", toString l.minPriority.toInt),
     ("max_priority", toString l.maxPriority.toInt)]

end ThreadLimits

namespace PlatformInfo

def blank : PlatformInfo := ⟨.unknown, .unknown, .empty, 0, .zero⟩

instance : Inhabited PlatformInfo := ⟨blank⟩

def supports (i : PlatformInfo) (c : Capabilities) : Bool := i.capabilities.contains c

def debugText (i : PlatformInfo) : String :=
  Text.record "PlatformInfo"
    [("kind", i.kind.name), ("arch", i.arch.name),
     ("capabilities", i.capabilities.debugText),
     ("core_count", toString i.coreCount.toNat),
     ("thread", i.thread.debugText)]

end PlatformInfo

end SyncCore
