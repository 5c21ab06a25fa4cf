import SyncCore.Json.Double

/-!
# JSON values

Whole numbers that fit a word of 64 bits are kept exactly. Every other number
is a double: one that is larger, has a fraction or an exponent, or is a zero
with a sign. A string with an unpaired surrogate and a number beyond all
doubles are well formed as parts of a document but stand for no value. Fields
are kept in the order of the document, repetitions included.
-/

set_option autoImplicit false

namespace SyncCore.Json

/-- A field's name, if its string holds a text. -/
abbrev Key := Option String

inductive Value where
  | null
  | bool (b : Bool)
  | int (n : Int)
  | decimal (negative : Bool) (magnitude : Double)
  | text (s : String)
  | illFormed
  | array (xs : List Value)
  | object (fields : List (Key × Value))
  deriving Repr

namespace Value

instance : Inhabited Value := ⟨.null⟩

def record (fields : List (String × Value)) : Value :=
  .object (fields.map fun f => (some f.1, f.2))

def nat (n : Nat) : Value := .int n

mutual

def depth : Value → Nat
  | .array xs => depthList xs + 1
  | .object fs => depthFields fs + 1
  | _ => 0

def depthList : List Value → Nat
  | [] => 0
  | x :: xs => max (depth x) (depthList xs)

def depthFields : List (Key × Value) → Nat
  | [] => 0
  | (_, x) :: fs => max (depth x) (depthFields fs)

end

mutual

def wellFormed : Value → Bool
  | .illFormed => false
  | .array xs => wellFormedList xs
  | .object fs => wellFormedFields fs
  | _ => true

def wellFormedList : List Value → Bool
  | [] => true
  | x :: xs => wellFormed x && wellFormedList xs

def wellFormedFields : List (Key × Value) → Bool
  | [] => true
  | (k, x) :: fs => k.isSome && wellFormed x && wellFormedFields fs

end

/-- The field of this name that comes last. -/
def field? (v : Value) (name : String) : Option Value :=
  match v with
  | .object fs => (fs.reverse.find? fun f => f.1 == some name).map (·.2)
  | _ => none

end Value

end SyncCore.Json
