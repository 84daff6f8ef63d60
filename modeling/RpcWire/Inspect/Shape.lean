import RpcWire.Call.Timeout
import RpcWire.Text.Printable

/-!
# Showing values

For logs a value is shown as its type, its fields and their values on one line:
`Name \x7b field: value, .. \x7d`. The two dots say that there are fields which
are not shown.

* `Shape` — what is shown of a value;
* `Shape.render` — the line.
-/

namespace RpcWire.Inspect

/-- What is shown of a value. -/
inductive Shape where
  /-- A number, a word, or a name that stands alone. -/
  | word (s : String)
  /-- A text between quotes. -/
  | text (s : String)
  | list (items : List Shape)
  /-- A name with values in parentheses. -/
  | tuple (name : String) (items : List Shape)
  /-- A name with named values, and whether there are more. -/
  | record (name : String) (fields : List (String × Shape)) (more : Bool)

/-! ## Text -/

/-- A number in lower-case hexadecimal digits. -/
def hexText (n : Nat) : List Char := Nat.toDigits 16 n

/-- A character inside quotes. -/
def escape (c : Char) : List Char :=
  if c = '\x00' then ['\\', '0']
  else if c = '\t' then ['\\', 't']
  else if c = '\r' then ['\\', 'r']
  else if c = '\n' then ['\\', 'n']
  else if c = '\\' then ['\\', '\\']
  else if c = '"' then ['\\', '"']
  else if Text.isShown c then [c]
  else ['\\', 'u', '\x7b'] ++ hexText c.toNat ++ ['\x7d']

/-- A text between quotes. -/
def quote (s : String) : List Char := '"' :: s.toList.flatMap escape ++ ['"']

/-! ## Values -/

/-- Items with a comma and a space between them. -/
def separated : List (List Char) → List Char
  | [] => []
  | [m] => m
  | m :: ms => m ++ ',' :: ' ' :: separated ms

/-- The body of a record. -/
def braces (members : List (List Char)) : List Char :=
  [' ', '\x7b', ' '] ++ separated members ++ [' ', '\x7d']

mutual

/-- The line that shows a value. -/
def Shape.render : Shape → List Char
  | .word s => s.toList
  | .text s => quote s
  | .list items => '[' :: separated (renderItems items) ++ [']']
  | .tuple name items => name.toList ++ '(' :: separated (renderItems items) ++ [')']
  | .record name fields more =>
    let members := renderFields fields ++ if more then [['.', '.']] else []
    name.toList ++ if members.isEmpty then [] else braces members

/-- The items of a list, each as it is shown. -/
def renderItems : List Shape → List (List Char)
  | [] => []
  | v :: vs => v.render :: renderItems vs

/-- The fields of a record, each as it is shown. -/
def renderFields : List (String × Shape) → List (List Char)
  | [] => []
  | (name, v) :: fields => (name.toList ++ ':' :: ' ' :: v.render) :: renderFields fields

end

namespace Shape

/-- The line that shows a value, as a text. -/
def toText (v : Shape) : String := String.ofList v.render

def bool (b : Bool) : Shape := word (if b then "true" else "false")

def nat (n : Nat) : Shape := word (toString n)

def option {α : Type} (shape : α → Shape) : Option α → Shape
  | some a => tuple "Some" [shape a]
  | none => word "None"

end Shape

/-! ## Time -/

/-- The digits after a point, as many as `width`, without zeros at the end; none without digits. -/
def fractionText (width n : Nat) : List Char :=
  let digits := Nat.toDigits 10 n
  let padded := List.replicate (width - digits.length) '0' ++ digits
  match Text.dropTrailing (· == '0') padded with
  | [] => []
  | shown => '.' :: shown

/-- A span of time in the greatest unit that is not longer than the span. -/
def Shape.time (t : Nanoseconds) : Shape :=
  let inUnit (width : Nat) (name : String) : Shape :=
    let length := Nat.pow 10 width
    word (toString (t / length) ++ String.ofList (fractionText width (t % length)) ++ name)
  if 1_000_000_000 ≤ t then inUnit 9 "s"
  else if 1_000_000 ≤ t then inUnit 6 "ms"
  else if 1_000 ≤ t then inUnit 3 "µs"
  else inUnit 0 "ns"

end RpcWire.Inspect
