import RpcWire.Call.Protocol
import RpcWire.Frame.Envelope
import RpcWire.Message.Encoding

/-!
# What a client accepts

Every protocol checks a response before it is read further: its media type has
to be that of the protocol and the codec, and a frame may be compressed only if
the response has named a compression.

A media type of the same protocol but of another codec is an internal failure;
with any other the peer does not speak the protocol at all.
-/

namespace RpcWire

/-- The media type of a response in lower case, empty if there is none. -/
def mediaTypeOf (headers : Metadata) : String :=
  Text.lower ((headers.text? FieldName.contentType).getD "")

/-- The failure of a response with the wrong media type. -/
def wrongMediaType (code : Code) (actual expected : String) (headers : Metadata) : Failure :=
  (Failure.new code ("invalid content-type: \"" ++ actual ++ "\"; expecting \"" ++ expected ++
    "\"")).withMetadata headers

namespace Protocol

def expectedType (p : Protocol) (e : Encoding) : String := p.contentType e.name

/-- Whether a media type in lower case is accepted. An enveloped protocol without a codec means
protobuf; JSON on its own may have parameters. -/
def accepts (p : Protocol) (e : Encoding) (actual : String) : Bool :=
  actual == p.expectedType e ||
    if p.isEnveloped then actual == p.mediaType && e == .proto
    else e == .json && Text.startsWith "application/json" actual.toList

/-- What the media types of the protocol begin with. -/
def stem (p : Protocol) : String := if p.isEnveloped then p.mediaType else p.mediaType ++ "/"

def checkType (p : Protocol) (e : Encoding) (headers : Metadata) : Except Failure Unit :=
  let actual := mediaTypeOf headers
  if p.accepts e actual then .ok ()
  else
    let code : Code := if Text.startsWith p.stem actual.toList then .internal else .unknown
    .error (wrongMediaType code actual (p.expectedType e) headers)

/-- Checks that a frame is not compressed if there is no pool to undo it. -/
def checkFrame (p : Protocol) (e : Envelope) (pool : Option Pool) : Except Failure Unit :=
  if e.isCompressed ∧ pool.isNone then
    .error (.new .internal ("protocol error: received compressed message without " ++
      p.encodingField))
  else .ok ()

/-- Takes a frame off the front of a buffer: what is left, and the frame. -/
def takeFrame (p : Protocol) (buffer : Bytes) (pool : Option Pool) :
    Except Failure (Bytes × Envelope) :=
  match Envelope.unpack buffer pool with
  | (_, .error fault) => .error (.ofFrame fault)
  | (rest, .ok e) => (p.checkFrame e pool).map fun _ => (rest, e)

end Protocol

end RpcWire
