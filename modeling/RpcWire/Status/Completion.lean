import RpcWire.FieldName
import RpcWire.Status.Record
import RpcWire.Text.Number
import RpcWire.Text.Percent

/-!
# How a gRPC response ends

gRPC and gRPC-Web report how a call ended in the trailers. A response that has
neither a body nor trailers may report it in its headers instead. Only a status
that is there and is zero means success.
-/

namespace RpcWire

/-- How a response says that the call ended. -/
structure Completion where
  /-- Whether there was a status at all. -/
  present : Bool
  /-- No code means success. -/
  code : Option Code
  message : String
  details : List Detail
  /-- Headers and trailers together. -/
  metadata : Metadata
  /-- Whether the status was looked for in the headers. -/
  trailersOnly : Bool
  deriving DecidableEq

namespace Completion

/-- The code of the text of a status; what is no number is unknown. -/
def codeOfText (status : String) : Option Code :=
  match Number.integer? (Text.trim status.toList) with
  | some n => Code.ofNumber? n
  | none => some .unknown

/-- The details of the text of a record; none if it cannot be read. -/
def detailsOfText (text : String) : List Detail :=
  match StatusRecord.ofText text with
  | .ok r => r.details
  | .error _ => []

/-- Reads how a response ended. -/
def parse (headers : Metadata) (hasBody : Bool) (trailers : Metadata) : Completion :=
  let trailersOnly := !hasBody && trailers.isEmpty
  let source := if trailersOnly then headers else trailers
  let metadata := headers.merge trailers
  match source.text? FieldName.grpcStatus with
  | none => ⟨false, some .unknown, "", [], metadata, trailersOnly⟩
  | some status =>
    ⟨true, codeOfText status, ((source.text? FieldName.grpcMessage).map Percent.decode).getD "",
      ((source.text? FieldName.grpcStatusRecord).map detailsOfText).getD [], metadata, trailersOnly⟩

def isOk (c : Completion) : Bool := c.present && c.code.isNone

/-- The failure of a call that did not succeed. An empty message counts as none. -/
def failure? (c : Completion) : Option Failure :=
  if c.present then
    c.code.map fun code =>
      { Failure.ofCode code with
        message := if c.message = "" then none else some c.message
        details := c.details
        metadata := c.metadata }
  else some ((Failure.new .unknown "protocol error: status is missing from trailers").withMetadata
    c.metadata)

/-- A call succeeded exactly if there is no failure to report. -/
theorem failure?_eq_none_iff (c : Completion) : c.failure? = none ↔ c.isOk = true := by
  unfold failure? isOk
  cases c.present <;> simp

end Completion

end RpcWire
