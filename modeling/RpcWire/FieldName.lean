/-!
# Names of header and trailer fields

The fields that the protocols give a meaning to.
-/

namespace RpcWire.FieldName

/-! ## HTTP -/

/-- The media type of the body. -/
def contentType : String := "content-type"

/-- The coding of a whole body. -/
def contentEncoding : String := "content-encoding"

/-- The codings that are accepted for a whole body. -/
def acceptEncoding : String := "accept-encoding"

/-- The length of the body. -/
def contentLength : String := "content-length"

/-- What sent the request. -/
def userAgent : String := "user-agent"

/-- What sent the request, where a browser owns the other field. -/
def extraUserAgent : String := "x-user-agent"

/-- The transfer codings that are accepted. -/
def transferCodings : String := "te"

/-! ## Connect -/

/-- The version of the protocol. -/
def connectVersion : String := "connect-protocol-version"

/-- The timeout in milliseconds. -/
def connectTimeout : String := "connect-timeout-ms"

/-- The coding of the messages of a stream. -/
def connectContentEncoding : String := "connect-content-encoding"

/-- The codings that are accepted for the messages of a stream. -/
def connectAcceptEncoding : String := "connect-accept-encoding"

/-- What stands before the name of a trailer that is sent among the headers. -/
def trailerStem : String := "trailer-"

/-! ## gRPC -/

/-- The number of the status. -/
def grpcStatus : String := "grpc-status"

/-- The message of the status, percent-coded. -/
def grpcMessage : String := "grpc-message"

/-- The whole status as a record. -/
def grpcStatusRecord : String := "grpc-status-details-bin"

/-- The timeout as digits and a unit. -/
def grpcTimeout : String := "grpc-timeout"

/-- The coding of messages. -/
def grpcEncoding : String := "grpc-encoding"

/-- The codings that are accepted for messages. -/
def grpcAcceptEncoding : String := "grpc-accept-encoding"

/-! ## Reserved names -/

/-- Whether a name in lower case belongs to the protocols, so that callers cannot set it. -/
def isReserved (name : String) : Bool :=
  "connect-".toList.isPrefixOf name.toList || "grpc-".toList.isPrefixOf name.toList ||
    [contentType, contentEncoding, acceptEncoding, contentLength, transferCodings].contains name

end RpcWire.FieldName
