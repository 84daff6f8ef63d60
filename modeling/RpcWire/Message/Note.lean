import RpcWire.Message.Encoding
import RpcWire.Text.Number

/-!
# Notes

A small message type with one field of each shape: a text, a number of 32 bits
and a list of texts. Any of them may be left out.
-/

namespace RpcWire

structure Note where
  text : String
  /-- A number of 32 bits. -/
  count : Int
  labels : List String
  deriving DecidableEq, Repr

namespace Note

def empty : Note := ⟨"", 0, []⟩

/-! ## Protobuf -/

/-- The octets of a note. Labels are written even if they are empty. -/
def toProto (n : Note) : Bytes :=
  Proto.encodeFields (Proto.textField 1 n.text ++ Proto.numberField 2 n.count ++
    n.labels.map fun label => ⟨3, .bytes (Utf8.encode label)⟩)

/-- Takes one field into account: the last text and the last count stay, labels add up. -/
def absorb (n : Note) (f : Proto.Field) : Option Note :=
  match f.tag with
  | 1 => f.content.text?.map fun text => { n with text }
  | 2 => f.content.number?.map fun v => { n with count := Proto.signed32 v }
  | 3 => f.content.text?.map fun label => { n with labels := n.labels ++ [label] }
  | _ => some n

def ofProto? (octets : Bytes) : Option Note :=
  (Proto.fields? Proto.maxDepth octets).bind (·.foldlM absorb empty)

/-! ## JSON -/

/-- The note as an object with all its fields. -/
def toJson (n : Note) : Json.Value :=
  .object [("text", .string n.text), ("count", .number (toString n.count)),
    ("labels", .array (n.labels.map Json.Value.string))]

/-- Reads a count: an integer of 32 bits, written with digits only. A zero has no sign. -/
def count? : Json.Value → Option Int
  | .number text => do
    let n ← Number.integer? text.toList
    if text ≠ "-0" ∧ -0x8000_0000 ≤ n ∧ n < 0x8000_0000 then some n else none
  | _ => none

/-- Reads a field that may be left out. -/
def orElse {α : Type} (default : α) (read : Json.Value → Option α) : Option Json.Value → Option α
  | none => some default
  | some v => read v

def labels? (v : Json.Value) : Option (List String) := v.array?.bind (·.mapM Json.Value.string?)

/-- Reads a note from an object, or from an array of its first fields in order. -/
def ofJson? (v : Json.Value) : Option Note := do
  let slots ← v.openSlots? ["text", "count", "labels"]
  match slots with
  | [text, count, labels] =>
    let text ← orElse "" Json.Value.string? text
    let count ← orElse 0 count? count
    let labels ← orElse [] labels? labels
    some ⟨text, count, labels⟩
  | _ => none

end Note

instance : Inhabited Note := ⟨Note.empty⟩

instance : Message Note where
  toProto := Note.toProto
  ofProto? := Note.ofProto?
  toJson? n := some n.toJson
  ofJson? := Note.ofJson?

end RpcWire
