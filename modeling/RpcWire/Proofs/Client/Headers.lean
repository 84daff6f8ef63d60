import RpcWire.Client.Unary
import RpcWire.Proofs.Metadata

/-!
# The headers of a client's requests

What each protocol adds to the headers of a caller is a chain of fields that are
set, some of them only if there is something to say. A caller's own fields have
none of the names that belong to the protocols, so a field of a protocol holds
what the client has set and nothing else.
-/

namespace RpcWire

variable {σ : Type}

/-! ## What a client advertises -/

/-- A caller cannot set what belongs to the protocols. -/
theorem CallOptions.values_ownHeaders (o : CallOptions) {key : String}
    (reserved : FieldName.isReserved (Text.lower key) = true) : o.ownHeaders.values key = [] := by
  refine Metadata.values_keep _ _ _ ?_
  intro f _ named
  rw [named, reserved]
  rfl

theorem Protocol.isVisible_contentType (p : Protocol) (e : Encoding) :
    IsVisible (p.contentType e.name) := by
  cases p <;> cases e <;> decide

namespace Connect

/-- A registry without pools advertises nothing. -/
theorem advertise_eq (headers : Metadata) (field : String) (pools : Registry) :
    advertise headers field pools = headers.setIf field pools.accept? := by
  unfold advertise
  cases pools.accept? <;> rfl

theorem prepareHeaders_eq (headers : Metadata) (timeout : Option Nanoseconds) :
    prepareHeaders headers timeout = ((headers.set FieldName.connectVersion "1").setDefault
      FieldName.userAgent agent).setIf FieldName.connectTimeout
        (timeout.map Timeout.encodeMilliseconds) := by
  cases timeout <;> rfl

theorem headers_streamRequest (c : ClientConfig σ) (r : Http.Request) :
    (streamRequest c r).headers = ((prepareHeaders r.headers r.timeout).setIf
      FieldName.connectContentEncoding (c.compression.map fun t => t.pool.name)).setIf
        FieldName.connectAcceptEncoding c.pools.accept? := by
  show advertise _ FieldName.connectAcceptEncoding c.pools = _
  rw [advertise_eq]
  cases c.compression <;> rfl

end Connect

namespace Grpc

theorem nameEncoding_eq (headers : Metadata) (t : Option Threshold) :
    nameEncoding headers t = headers.setIf FieldName.grpcEncoding (t.map fun t => t.pool.name) := by
  cases t <;> rfl

theorem nameTimeout_eq (headers : Metadata) (timeout : Option Nanoseconds) :
    nameTimeout headers timeout =
      headers.setIf FieldName.grpcTimeout (timeout.map Timeout.encodeScaled) := by
  cases timeout <;> rfl

theorem prepareHeaders_eq (c : ClientConfig σ) (headers : Metadata)
    (timeout : Option Nanoseconds) :
    prepareHeaders c headers timeout =
      ((((headers.set FieldName.transferCodings "trailers").setDefault FieldName.userAgent
        agent).setIf FieldName.grpcEncoding (c.compression.map fun t => t.pool.name)).setIf
          FieldName.grpcAcceptEncoding c.pools.accept?).setIf FieldName.grpcTimeout
            (timeout.map Timeout.encodeScaled) := by
  unfold prepareHeaders
  rw [nameTimeout_eq, nameEncoding_eq]
  cases c.pools.accept? <;> rfl

theorem prepareWebHeaders_eq (c : ClientConfig σ) (headers : Metadata)
    (timeout : Option Nanoseconds) :
    prepareWebHeaders c headers timeout = ((headers.setDefault FieldName.extraUserAgent agent).setIf
      FieldName.grpcEncoding (c.compression.map fun t => t.pool.name)).setIf
        FieldName.grpcTimeout (timeout.map Timeout.encodeScaled) := by
  unfold prepareWebHeaders
  rw [nameTimeout_eq, nameEncoding_eq]

end Grpc

/-- What a client advertises is what its registry says, or nothing. -/
theorem text?_acceptField_openingRequest (c : ClientConfig σ) (callee : Method) (o : CallOptions) :
    (openingRequest c (c.baseRequest callee o)).headers.text? (c.family.protocol true).acceptField =
        none ∨
      (openingRequest c (c.baseRequest callee o)).headers.text?
        (c.family.protocol true).acceptField = c.pools.accept? := by
  unfold openingRequest
  cases hf : c.family with
  | connect =>
    show (Connect.streamRequest c _).headers.text? FieldName.connectAcceptEncoding = _ ∨
      (Connect.streamRequest c _).headers.text? FieldName.connectAcceptEncoding = _
    rw [Connect.headers_streamRequest, Connect.prepareHeaders_eq]
    refine Metadata.text?_setIf_cases (by decide) ?_ _
    rw [Metadata.values_setIf_of_ne (by decide), Metadata.values_setIf_of_ne (by decide),
      Metadata.values_setDefault_of_ne (by decide), Metadata.values_set_of_ne (by decide)]
    exact o.values_ownHeaders (by decide)
  | grpc =>
    show (Grpc.prepareHeaders c _ _).text? FieldName.grpcAcceptEncoding = _ ∨
      (Grpc.prepareHeaders c _ _).text? FieldName.grpcAcceptEncoding = _
    rw [Grpc.prepareHeaders_eq, Metadata.text?_eq_of_values
      (Metadata.values_setIf_of_ne (by decide) _)]
    refine Metadata.text?_setIf_cases (by decide) ?_ _
    rw [Metadata.values_setIf_of_ne (by decide), Metadata.values_setDefault_of_ne (by decide),
      Metadata.values_set_of_ne (by decide)]
    exact o.values_ownHeaders (by decide)
  | grpcWeb =>
    -- this protocol has no field for what a client accepts
    show (Grpc.prepareWebHeaders c _ _).text? FieldName.grpcAcceptEncoding = _ ∨ _
    refine .inl (Metadata.text?_of_values_nil ?_)
    rw [Grpc.prepareWebHeaders_eq, Metadata.values_setIf_of_ne (by decide),
      Metadata.values_setIf_of_ne (by decide), Metadata.values_setDefault_of_ne (by decide)]
    exact o.values_ownHeaders (by decide)

end RpcWire
