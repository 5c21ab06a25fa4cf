/-!
# Text of records

A record is written as its name and its fields in declaration order, each
field as its name, a colon and its text. A record that keeps some fields to
itself ends in two dots. A tuple value is its name around its one field.
-/

set_option autoImplicit false

namespace SyncCore.Text

def Record.fields (fs : List (String × String)) : String :=
  ", ".intercalate (fs.map fun f => f.1 ++ ": " ++ f.2)

def record (name : String) (fs : List (String × String)) : String :=
  name ++ " \x7b " ++ Record.fields fs ++ " \x7d"

def openRecord (name : String) (fs : List (String × String)) : String :=
  name ++ " \x7b " ++ Record.fields fs ++ ", .. \x7d"

def wrapped (name inner : String) : String := name ++ "(" ++ inner ++ ")"

def optional : Option String → String
  | none => "None"
  | some s => wrapped "Some" s

def flag (b : Bool) : String := if b then "true" else "false"

def hex (n : Nat) : String := String.ofList (Nat.toDigits 16 n)

end SyncCore.Text
