import RpcWire.Proto.Wire
import RpcWire.Status.Failure
import RpcWire.Text.Base64

/-!
# Status records

Besides its number and its message, gRPC reports a status as one protobuf
record that also holds the details. The record travels as base64 text in a
trailer.

* `StatusRecord.encode` / `StatusRecord.decode?` — the record as octets;
* `StatusRecord.toText` / `StatusRecord.ofText` — the record as text.

A type without a slash is written under `type.googleapis.com/`.
-/

namespace RpcWire

/-- The number, the message and the details of a status. -/
structure StatusRecord where
  /-- A signed number of 32 bits. -/
  number : Int
  message : String
  details : List Detail
  deriving DecidableEq, Repr

/-! ## Details -/

namespace Detail

/-- What is put before a type that has no slash. -/
def defaultStem : String := "type.googleapis.com/"

/-- The detail under a type that has a slash. -/
def qualified (d : Detail) : Detail :=
  if d.typeUrl.toList.contains '/' then d else { d with typeUrl := defaultStem ++ d.typeUrl }

def encode (d : Detail) : Bytes :=
  Proto.encodeFields (Proto.textField 1 d.typeUrl ++ Proto.bytesField 2 d.value)

/-- Takes one field into account. -/
def absorb (d : Detail) (f : Proto.Field) : Option Detail :=
  match f.tag with
  | 1 => f.content.text?.map fun typeUrl => { d with typeUrl }
  | 2 => f.content.bytes?.map fun value => { d with value }
  | _ => some d

/-- Reads a detail in which groups may be nested to a depth. -/
def decode? (depth : Nat) (bs : Bytes) : Option Detail :=
  (Proto.fields? depth bs).bind (·.foldlM absorb ⟨"", []⟩)

end Detail

/-! ## Records -/

namespace StatusRecord

def of (code : Code) (message : Option String) (details : List Detail) : StatusRecord :=
  ⟨code.number, message.getD "", details.map Detail.qualified⟩

/-- The octets of a record. A detail is written even if it has no octets. -/
def encode (r : StatusRecord) : Bytes :=
  Proto.encodeFields (Proto.numberField 1 r.number ++ Proto.textField 2 r.message ++
    r.details.map fun d => ⟨3, .bytes d.encode⟩)

/-- Takes one field into account: of numbers and messages the last counts, details add up. -/
def absorb (r : StatusRecord) (f : Proto.Field) : Option StatusRecord :=
  match f.tag with
  | 1 => f.content.number?.map fun n => { r with number := Proto.signed32 n }
  | 2 => f.content.text?.map fun message => { r with message }
  | 3 => do
    let octets ← f.content.bytes?
    let d ← Detail.decode? (Proto.maxDepth - 1) octets
    some { r with details := r.details ++ [d] }
  | _ => some r

def decode? (bs : Bytes) : Option StatusRecord :=
  (Proto.fields? Proto.maxDepth bs).bind (·.foldlM absorb ⟨0, "", []⟩)

/-! ## Text -/

/-- The text of a record, padded. -/
def toText (r : StatusRecord) : String :=
  String.ofList (Base64.encode .standard .padded r.encode)

/-- Reads the text of a record, padded or not, between blanks. -/
def ofText (text : String) : Except Failure StatusRecord :=
  match Base64.decodeEither? .standard (Text.trim text.toList) with
  | none => .error (.ofCause .internal .base64)
  | some octets =>
    match decode? octets with
    | none => .error (.ofCause .internal .protobuf)
    | some r => .ok r

end StatusRecord

end RpcWire
