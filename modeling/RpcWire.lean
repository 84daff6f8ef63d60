import RpcWire.Call.Cancellation
import RpcWire.Call.Trace
import RpcWire.Client.InProcess
import RpcWire.Client.Session
import RpcWire.Inspect.Parts
import RpcWire.Message.Note
import RpcWire.Proto.Duration
import RpcWire.Transport.Exchange
import RpcWire.Proofs.Session.Truncation
import RpcWire.Proofs.Session.Unsent
import RpcWire.Proofs.Session.Shut
import RpcWire.Proofs.Session.Queue
import RpcWire.Proofs.Session.Outcome
import RpcWire.Proofs.Text.Utf8
import RpcWire.Proofs.Coding.Negotiate
import RpcWire.Proofs.Frame.Split
import RpcWire.Proofs.Frame.Whole
import RpcWire.Proofs.Frame.Content
import RpcWire.Proofs.Server.Messages
import RpcWire.Proofs.Server.Rejection
import RpcWire.Proofs.Server.MediaType
import RpcWire.Proofs.Transport.Arrival
import RpcWire.Proofs.Metadata
import RpcWire.Proofs.Text.Base64
import RpcWire.Proofs.Text.Percent
import RpcWire.Proofs.Text.Escapes
import RpcWire.Proofs.Json.Written
import RpcWire.Proofs.Proto.Wire
import RpcWire.Proofs.Status.EndOfStream
import RpcWire.Proofs.Status.Record
import RpcWire.Proofs.Status.Details
import RpcWire.Proofs.Frame.Trailers
import RpcWire.Proofs.Frame.Packed
import RpcWire.Proofs.Frame.Parcel
import RpcWire.Proofs.Server.Status
import RpcWire.Proofs.Client.Headers
import RpcWire.Proofs.RoundTrip.Response
import RpcWire.Proofs.RoundTrip.Unary
import RpcWire.Proofs.Call.Timeout
import RpcWire.Proofs.Http.Target
import RpcWire.Proofs.Server.Request
import RpcWire.Proofs.Client.Request
import RpcWire.Proofs.RoundTrip.Request
import RpcWire.Proofs.Client.Reserved
import RpcWire.Proofs.RoundTrip.Failure
import RpcWire.Proofs.RoundTrip.Agreement
import RpcWire.Proofs.Client.Success
import RpcWire.Proofs.Client.OneMessage
import RpcWire.Proofs.Client.Trailers
import RpcWire.Proofs.RoundTrip.Get
import RpcWire.Proofs.Session.Reply
import RpcWire.Proofs.Session.Shown
import RpcWire.Proofs.Client.SameResponses
import RpcWire.Proofs.Call.TimeoutForms
import RpcWire.Proofs.Client.HandedOn
import RpcWire.Proofs.Coding.Preference
import RpcWire.Proofs.Server.Compressed
import RpcWire.Proofs.Frame.Length
import RpcWire.Proofs.Coding.Registration
import RpcWire.Proofs.Call.Nesting
import RpcWire.Proofs.Metadata.Multimap
