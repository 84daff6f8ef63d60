import RpcWire.Proto.Wire
import RpcWire.Status.Failure

/-!
# Durations in details

A span of time as a protobuf message of its own: whole seconds and nanoseconds,
both signed. It is the message type that details are unpacked to here.
-/

namespace RpcWire

/-- A signed span of time. -/
structure Duration where
  /-- A number of 64 bits. -/
  seconds : Int
  /-- A number of 32 bits. -/
  nanos : Int
  deriving DecidableEq, Repr

namespace Duration

def typeName : String := "google.protobuf.Duration"

def fields (d : Duration) : List Proto.Field :=
  Proto.numberField 1 d.seconds ++ Proto.numberField 2 d.nanos

def encode (d : Duration) : Bytes := Proto.encodeFields d.fields

/-- Takes one field into account; the last one of each tag counts. -/
def absorb (d : Duration) (f : Proto.Field) : Option Duration :=
  match f.tag with
  | 1 => f.content.number?.map fun n => { d with seconds := Proto.signed64 n }
  | 2 => f.content.number?.map fun n => { d with nanos := Proto.signed32 n }
  | _ => some d

def decode? (bs : Bytes) : Option Duration :=
  (Proto.fields? Proto.maxDepth bs).bind (·.foldlM absorb ⟨0, 0⟩)

end Duration

/-! ## Unpacking -/

/-- Whether a detail says that it is a duration. -/
def Detail.isDuration (d : Detail) : Bool := d.typeName == Duration.typeName

def Detail.duration? (d : Detail) : Option Duration :=
  if d.isDuration then Duration.decode? d.value else none

def Failure.durations (f : Failure) : List Duration := f.details.filterMap Detail.duration?

end RpcWire
