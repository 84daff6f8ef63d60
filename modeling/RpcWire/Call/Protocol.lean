import RpcWire.FieldName
import RpcWire.Text.Cut

/-!
# Protocols

Three families of protocols are spoken: Connect, gRPC and gRPC-Web. Connect
lays out unary calls and streams differently, so on the wire there are four
protocols. Each has its own media types and its own fields for compression.
-/

namespace RpcWire

/-! ## Families -/

/-- The protocol a client speaks. -/
inductive Family where
  | connect
  | grpc
  | grpcWeb
  deriving DecidableEq, Repr

def Family.name : Family → String
  | connect => "connect"
  | grpc => "grpc"
  | grpcWeb => "grpc_web"

def Family.all : List Family := [connect, grpc, grpcWeb]

def Family.ofName? (s : String) : Option Family := all.find? fun f => f.name == s

/-! ## Protocols -/

/-- The protocol of one call. -/
inductive Protocol where
  /-- One message as the whole body, or in the query of a GET. -/
  | connect
  | connectStream
  | grpc
  | grpcWeb
  deriving DecidableEq, Repr

namespace Protocol

def name : Protocol → String
  | connect => "connect"
  | connectStream => "connect_stream"
  | grpc => "grpc"
  | grpcWeb => "grpc_web"

def all : List Protocol := [connect, connectStream, grpc, grpcWeb]

def ofName? (s : String) : Option Protocol := all.find? fun p => p.name == s

/-- Whether bodies are sequences of envelopes. -/
def isEnveloped (p : Protocol) : Bool := p != connect

/-- The field that names the compression of what is sent. -/
def encodingField : Protocol → String
  | connect => FieldName.contentEncoding
  | connectStream => FieldName.connectContentEncoding
  | grpc | grpcWeb => FieldName.grpcEncoding

/-- The field that advertises compressions. -/
def acceptField : Protocol → String
  | connect => FieldName.acceptEncoding
  | connectStream => FieldName.connectAcceptEncoding
  | grpc | grpcWeb => FieldName.grpcAcceptEncoding

/-- The media type without the codec. -/
def mediaType : Protocol → String
  | connect => "application"
  | connectStream => "application/connect"
  | grpc => "application/grpc"
  | grpcWeb => "application/grpc-web"

/-- The media type of messages in a codec. -/
def contentType (p : Protocol) (codec : String) : String :=
  p.mediaType ++ (if p = connect then "/" else "+") ++ codec

/-- The protocol of a request, if it has one: a GET is a Connect call, and of a POST the media type
decides. Case matters. -/
def detect? (method : String) (contentType : Option String) : Option Protocol :=
  if method = "GET" then some connect
  else if method = "POST" then
    contentType.bind fun contentType =>
      let cs := contentType.toList
      if Text.startsWith "application/grpc-web" cs then some grpcWeb
      else if contentType = "application/grpc" ∨ Text.startsWith "application/grpc+" cs then
        some grpc
      else if Text.startsWith "application/connect+" cs then some connectStream
      else if Text.startsWith "application/" cs then some connect
      else none
  else none

end Protocol

/-- The protocol that a family uses for a call. -/
def Family.protocol (f : Family) (streaming : Bool) : Protocol :=
  match f with
  | connect => if streaming then .connectStream else .connect
  | grpc => .grpc
  | grpcWeb => .grpcWeb

end RpcWire
