import SyncCore.Error
import SyncCore.Json.Reader
import SyncCore.Json.Writer
import SyncCore.Platform.Info
import SyncCore.Text.Blank

/-!
# Documents of the data types

The data types of the library are exchanged as JSON documents. A choice is
its name, or an object whose only field is that name with null. A record is
an object in which each field occurs once and fields of other names are
passed over, or an array of exactly its fields in order. A capability set is
a string of names and hexadecimal numbers separated by bars.
-/

set_option autoImplicit false

namespace SyncCore.Schema

open SyncCore.Json (Value)

def choice? {α : Type} (ofName? : String → Option α) : Value → Option α
  | .text s => ofName? s
  | .object [(some s, .null)] => ofName? s
  | _ => none

def fields? (names : List String) : Value → Option (List Value)
  | .array xs => if xs.length = names.length then some xs else none
  | .object fs =>
    if fs.all (·.1.isSome) then
      names.mapM fun n =>
        match fs.filter (fun f => f.1 == some n) with
        | [f] => some f.2
        | _ => none
    else none
  | _ => none

def whole? (low high : Int) : Value → Option Int
  | .int n => if low ≤ n ∧ n ≤ high then some n else none
  | _ => none

def word64? (v : Value) : Option UInt64 :=
  (whole? 0 0xFFFFFFFFFFFFFFFF v).map fun n => UInt64.ofNat n.toNat

def word32? (v : Value) : Option UInt32 :=
  (whole? 0 0xFFFFFFFF v).map fun n => UInt32.ofNat n.toNat

def word16? (v : Value) : Option UInt16 :=
  (whole? 0 0xFFFF v).map fun n => UInt16.ofNat n.toNat

def signed32? (v : Value) : Option Int32 :=
  (whole? (-0x80000000) 0x7FFFFFFF v).map Int32.ofInt

/-- A hexadecimal number of 32 bits, which may begin with a plus sign. -/
def hexWord? (cs : List Char) : Option UInt32 := do
  let ds := match cs with
    | '+' :: ds => ds
    | ds => ds
  if ds.isEmpty then none
  else
    let n ← ds.foldlM (fun n d => (Json.hexDigit? d).map (n * 16 + ·)) 0
    if n < UInt32.size then some (UInt32.ofNat n) else none

def capability? : List Char → Option Capabilities
  | '0' :: 'x' :: ds => (hexWord? ds).map (⟨·⟩)
  | cs => Capabilities.ofName? (String.ofList cs)

def capabilitiesOf? (s : String) : Option Capabilities :=
  if (Text.trim s.toList).isEmpty then some .empty
  else (Text.splitOn '|' s.toList).foldlM
    (fun acc piece => (capability? (Text.trim piece)).map (acc ||| ·)) .empty

def capabilities? : Value → Option Capabilities
  | .text s => capabilitiesOf? s
  | _ => none

def limitNames : List String :=
  ["min_stack_size", "max_stack_size", "default_stack_size", "min_priority", "max_priority"]

def threadLimits? (v : Value) : Option ThreadLimits := do
  match ← fields? limitNames v with
  | [a, b, c, d, e] =>
    return ⟨← word64? a, ← word64? b, ← word64? c, ← signed32? d, ← signed32? e⟩
  | _ => none

def infoNames : List String := ["kind", "arch", "capabilities", "core_count", "thread"]

def platformInfo? (v : Value) : Option PlatformInfo := do
  match ← fields? infoNames v with
  | [a, b, c, d, e] =>
    return ⟨← choice? PlatformKind.ofName? a, ← choice? Arch.ofName? b, ← capabilities? c,
      ← word16? d, ← threadLimits? e⟩
  | _ => none

def ofLimits (l : ThreadLimits) : Value :=
  .record [("min_stack_size", .nat l.minStack.toNat), ("max_stack_size", .nat l.maxStack.toNat),
    ("default_stack_size", .nat l.defaultStack.toNat), ("min_priority", .int l.minPriority.toInt),
    ("max_priority", .int l.maxPriority.toInt)]

def ofInfo (i : PlatformInfo) : Value :=
  .record [("kind", .text i.kind.name), ("arch", .text i.arch.name),
    ("capabilities", .text i.capabilities.render), ("core_count", .nat i.coreCount.toNat),
    ("thread", ofLimits i.thread)]

inductive Kind where
  | error
  | capabilities
  | platformKind
  | arch
  | limits
  | info
  deriving DecidableEq, Repr

def Kind.ofName? : String → Option Kind
  | "Error" => some .error
  | "Capabilities" => some .capabilities
  | "PlatformKind" => some .platformKind
  | "Arch" => some .arch
  | "ThreadLimits" => some .limits
  | "PlatformInfo" => some .info
  | _ => none

def reread? (k : Kind) (text : String) : Option (String × Value) := do
  let v ← Json.read? text
  match k with
  | .error => (choice? ErrorKind.ofName? v).map fun e => (e.name, .text e.name)
  | .capabilities => (capabilities? v).map fun c => (c.debugText, .text c.render)
  | .platformKind => (choice? PlatformKind.ofName? v).map fun p => (p.name, .text p.name)
  | .arch => (choice? Arch.ofName? v).map fun a => (a.name, .text a.name)
  | .limits => (threadLimits? v).map fun l => (l.debugText, ofLimits l)
  | .info => (platformInfo? v).map fun i => (i.debugText, ofInfo i)

end SyncCore.Schema
