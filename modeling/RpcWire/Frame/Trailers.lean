import RpcWire.Metadata
import RpcWire.Text.Percent

/-!
# Trailers as text

gRPC-Web sends its trailers inside the body: one line `name: value` for each
value, a line ending at CRLF.

* `TrailerText.encode` — the text of trailers; only visible values are written;
* `TrailerText.parse` — reads any text; what is no line of that form is skipped.

A value that could not stand in a header is percent-coded while it is read, so
that no message is lost.
-/

namespace RpcWire.TrailerText

/-! ## Writing -/

/-- The line of a field, if its value is visible. -/
def line? (f : Field) : Option (List Char) :=
  (visibleText? f.value).map fun text => f.name.toList ++ ": ".toList ++ text.toList ++ ['\r', '\n']

def encodeChars (m : Metadata) : List Char := (m.fields.filterMap line?).flatten

def encode (m : Metadata) : Bytes := Utf8.encodeChars (encodeChars m)

/-! ## Lines -/

/-- A text cut after each CRLF. -/
def cutLines (text : List Char) : List (List Char) :=
  let ls := Text.lines text
  ls.dropLast.map (· ++ ['\r', '\n']) ++ (ls.getLast?.toList.filter (· ≠ []))

/-- The name that a line begins with. -/
def nameOf (line : List Char) : String := String.ofList (line.takeWhile (· ≠ ':'))

/-- The lines of a text in the order of their names; those of one name keep their order. -/
def sortedLines (text : List Char) : List String :=
  ((cutLines text).mergeSort fun a b => nameOf a ≤ nameOf b).map String.ofList

/-! ## Reading -/

/-- The form in which a value is kept. -/
def storedValue (value : List Char) : String :=
  let text := String.ofList value
  if (Utf8.encode text).all isVisibleByte then text else Percent.encode text

/-- Takes one line into account: a name, a colon and a value, both between blanks. -/
def absorb (m : Metadata) (line : List Char) : Metadata :=
  match Text.cutFirst? ':' line with
  | none => m
  | some (name, value) =>
    m.add (Text.lower (String.ofList (Text.trim name))) (storedValue (Text.trim value))

def parse (payload : Bytes) : Metadata :=
  (Text.lines (Utf8.decodeCharsLossy payload)).foldl absorb .empty

end RpcWire.TrailerText
