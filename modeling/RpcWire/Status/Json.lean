import RpcWire.Json.Value
import RpcWire.Status.Failure
import RpcWire.Text.Base64

/-!
# Failures as JSON

Connect reports a failed unary call by a body that holds the failure as a JSON
object, and ends every stream by a message that holds the failure, if there is
one, and the trailers.

* `Failure.encodeJson` / `Failure.parseJson?` — the body of a failed call;
* `EndOfStream.encode` / `EndOfStream.parse?` — the last message of a stream.

A detail carries its type name without the part before the slash, and its value
in base64 without padding; padding is accepted all the same, and a value that
is no base64 reads as empty.
-/

namespace RpcWire

open Json (Value)

/-! ## Details -/

def Detail.toJson (d : Detail) : Value :=
  .object [("type", .string d.typeName),
    ("value", .string (String.ofList (Base64.encode .standard .bare d.value)))]

/-- The value of a detail, empty if its text is no base64. -/
def Detail.valueOfText (text : String) : Bytes :=
  (Base64.decodeEither? .standard text.toList).getD []

/-- Reads a detail; one without a type is dropped, not refused. -/
def Detail.ofJson? (v : Value) : Option (Option Detail) := do
  let slots ← v.slots? ["type", "value"]
  match slots with
  | [type, value] =>
    let type ← Value.optional? Value.string? type
    let value ← Value.optional? Value.string? value
    some (type.map fun typeUrl => ⟨typeUrl, (value.map valueOfText).getD []⟩)
  | _ => none

/-! ## The body of a failed call -/

namespace Failure

/-- A failure as an object: a missing message and an empty list of details are left out. -/
def toJson (f : Failure) : Value :=
  .object ([("code", .string f.code.name)] ++
    (match f.message with | some m => [("message", .string m)] | none => []) ++
    if f.details = [] then [] else [("details", .array (f.details.map Detail.toJson))])

def encodeJson (f : Failure) : Bytes := f.toJson.encode

def detailsOfJson? (v : Value) : Option (List Detail) := do
  let items ← v.array?
  let details ← items.mapM Detail.ofJson?
  some (details.filterMap id)

/-- Reads a failure. A code that is missing or has no known name is unknown. -/
def ofJson? (v : Value) : Option Failure := do
  let slots ← v.slots? ["code", "message", "details"]
  match slots with
  | [code, message, details] =>
    let code ← Value.optional? Value.string? code
    let message ← Value.optional? Value.string? message
    let details ← Value.optional? detailsOfJson? details
    some ⟨(code.map Code.ofName).getD .unknown, message, details.getD [], .empty, none⟩
  | _ => none

def parseJson? (body : Bytes) : Option Failure := (Value.parse? body).bind ofJson?

end Failure

/-! ## The last message of a stream -/

/-- How a Connect stream ends. -/
structure EndOfStream where
  /-- The failure the stream ended with, if it failed. -/
  failure : Option Failure
  metadata : Metadata
  deriving DecidableEq

namespace EndOfStream

/-- The visible values of every name, in the order of names. -/
def metadataToJson (m : Metadata) : Value :=
  .object (Json.sortedByName (m.names.map fun name =>
    (name, Value.array ((m.texts name).map Value.string))))

/-- The end of a stream as an object: what is absent or empty is left out. -/
def toJson (e : EndOfStream) : Value :=
  .object ((match e.failure with | some f => [("error", f.toJson)] | none => []) ++
    if e.metadata.isEmpty then [] else [("metadata", metadataToJson e.metadata)])

def encode (e : EndOfStream) : Bytes := e.toJson.encode

def stringsOfJson? (v : Value) : Option (List String) := v.array?.bind (·.mapM Value.string?)

/-- Reads metadata. Names that differ in case only share their values, in the order of the names as
they were written; illegal names and values are dropped. -/
def metadataOfJson? (v : Value) : Option Metadata := do
  let fields ← v.object?
  let entries ← fields.mapM fun f => (stringsOfJson? f.2).map fun texts => (f.1, texts)
  some ((Json.sortedByName entries).foldl
    (fun m e => e.2.foldl (fun m text => m.add e.1 text) m) .empty)

/-- Reads the end of a stream. A failure carries the metadata too. -/
def ofJson? (v : Value) : Option EndOfStream := do
  let slots ← v.slots? ["error", "metadata"]
  match slots with
  | [failure, metadata] =>
    let failure ← Value.optional? Failure.ofJson? failure
    let metadata ← Value.optional? metadataOfJson? metadata
    let metadata := metadata.getD .empty
    some ⟨failure.map (·.withMetadata metadata), metadata⟩
  | _ => none

def parse? (body : Bytes) : Option EndOfStream := (Value.parse? body).bind ofJson?

end EndOfStream

end RpcWire
