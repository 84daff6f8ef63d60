import RpcWire.Frame.Envelope

/-!
# Cutting a body into frames

A body arrives in chunks that need not end where a frame ends. The splitter
keeps what does not yet make a frame and hands out whole frames as they become
complete. When the body ends, nothing may be left.
-/

namespace RpcWire.Envelope

/-- The whole frames at the front of a buffer, and what follows them. -/
def splitWhole (data : Bytes) : List Bytes × Bytes :=
  match _h : wholeLength? data with
  | none => ([], data)
  | some length =>
    let (frames, rest) := splitWhole (data.drop length)
    (data.take length :: frames, rest)
termination_by data.length
decreasing_by
  unfold wholeLength? at _h
  split at _h
  · split at _h
    · cases _h
      simp only [List.length_drop]
      have : headerSize = 5 := rfl
      omega
    · cases _h
  · cases _h

/-- What has arrived and does not yet make a frame. -/
structure Splitter where
  buffer : Bytes
  deriving DecidableEq, Repr

namespace Splitter

def fresh : Splitter := ⟨[]⟩

/-- Takes a chunk; gives the frames it completes. -/
def push (s : Splitter) (chunk : Bytes) : List Bytes × Splitter :=
  let (frames, rest) := splitWhole (s.buffer ++ chunk)
  (frames, ⟨rest⟩)

/-- Takes chunks one after another; gives all frames they complete. -/
def pushAll (s : Splitter) : List Bytes → List Bytes × Splitter
  | [] => ([], s)
  | chunk :: chunks =>
    let (frames, next) := s.push chunk
    let (more, last) := next.pushAll chunks
    (frames ++ more, last)

/-- The body has ended: nothing may be left. -/
def finish (s : Splitter) : Except Failure Unit :=
  if s.buffer = [] then .ok ()
  else .error (.new .internal ("protocol error: stream ended with " ++
    toString s.buffer.length ++ " bytes of an incomplete message"))

end Splitter

end RpcWire.Envelope
