import RpcWire.Json.Value
import RpcWire.Proto.Wire
import RpcWire.Status.Failure

/-!
# Encodings of messages

A message type is one that has a protobuf form and a JSON form; which of the
two goes over the wire is an `Encoding`. Reading what is no message of the type
fails, and so does writing a message that has no JSON form.
-/

namespace RpcWire

/-- A type of messages. -/
class Message (α : Type) where
  toProto : α → Bytes
  ofProto? : Bytes → Option α
  toJson? : α → Option Json.Value
  ofJson? : Json.Value → Option α

/-- How messages are written. -/
inductive Encoding where
  | proto
  | json
  deriving DecidableEq, Repr

namespace Encoding

variable {α : Type} [Message α]

/-- The name in media types. -/
def name : Encoding → String
  | proto => "proto"
  | json => "json"

def all : List Encoding := [proto, json]

def ofName? (s : String) : Option Encoding := all.find? fun e => e.name == s

/-- The octets of a JSON form, if there is one. -/
def encodeJson (v : Option Json.Value) : Except Failure Bytes :=
  match v with
  | some v => .ok v.encode
  | none => .error (.ofCause .internal .json)

def encode (e : Encoding) (message : α) : Except Failure Bytes :=
  match e with
  | proto => .ok (Message.toProto message)
  | json => encodeJson (Message.toJson? message)

/-- The octets of a message in canonical form: JSON objects have their fields in order. -/
def encodeCanonical (e : Encoding) (message : α) : Except Failure Bytes :=
  match e with
  | proto => .ok (Message.toProto message)
  | json => encodeJson ((Message.toJson? message).map Json.Value.canonical)

def decode (e : Encoding) (octets : Bytes) : Except Failure α :=
  match e with
  | proto =>
    match Message.ofProto? octets with
    | some message => .ok message
    | none => .error (.ofCause .unknown .protobuf)
  | json =>
    match (Json.Value.parse? octets).bind Message.ofJson? with
    | some message => .ok message
    | none => .error (.ofCause .unknown .json)

end Encoding

end RpcWire
