import RpcWire.Coding.Registry
import RpcWire.Status.Failure

/-!
# Envelopes

Every message of a stream travels in an envelope: one octet of flags, four
octets of length, most significant first, and the payload. The lowest flag says
that the payload is compressed; what the other flags mean is up to the protocol
that reads the frame.

* `frame` and `pack` write an envelope, `pack` compressing where a threshold
  asks for it;
* `unpack` takes one envelope off the front of a buffer;
* `wholeLength?` says how long the first envelope is, once it has all arrived.
-/

namespace RpcWire.Envelope

/-! ## Flags -/

/-- The payload is compressed. -/
def compressedFlag : UInt8 := 0x01

/-- The payload is the end-of-stream message of a Connect stream. -/
def endStreamFlag : UInt8 := 0x02

/-- The payload is the trailer block of a gRPC-Web body. -/
def trailersFlag : UInt8 := 0x80

/-- The octets before the payload. -/
def headerSize : Nat := 5

end Envelope

/-- One frame: its flags as they were on the wire, and its payload. -/
structure Envelope where
  flags : UInt8
  payload : Bytes
  deriving DecidableEq, Repr

namespace Envelope

/-- Whether every bit of `flag` is set. -/
def has (e : Envelope) (flag : UInt8) : Bool := e.flags &&& flag == flag

/-- Whether the payload was sent compressed. -/
def isCompressed (e : Envelope) : Bool := e.has compressedFlag

/-! ## Writing -/

/-- The frame of a payload that is written as it is. -/
def frame (flags : UInt8) (payload : Bytes) : Bytes :=
  flags :: (Bytes.word32 payload.length ++ payload)

/-- The frame of a payload, compressed if the threshold selects a pool for it. -/
def pack (payload : Bytes) (threshold : Option Threshold) : Except FrameFault Bytes :=
  match threshold.bind fun t => t.select? payload with
  | some pool =>
    match pool.compress payload with
    | .ok packed => .ok (frame compressedFlag packed)
    | .error reason => .error (.compression reason)
  | none => .ok (frame 0 payload)

/-! ## Reading -/

/-- The flags and the length in front of a buffer. -/
def header? : Bytes → Except FrameFault (UInt8 × Nat)
  | flags :: a :: b :: c :: d :: _ => .ok (flags, Bytes.ofWord32 a b c d)
  | short => .error (.shortHeader headerSize short.length)

/-- The length of the first frame of a buffer, if all of it is there. -/
def wholeLength? (data : Bytes) : Option Nat :=
  match header? data with
  | .ok (_, length) =>
    if headerSize + length ≤ data.length then some (headerSize + length) else none
  | .error _ => none

/-- Takes one frame off the front of a buffer: what is left, and the frame or what is wrong with
it. The payload is decompressed if the frame says so and there is a pool. An incomplete frame stays
in the buffer; one that cannot be decompressed does not. An empty buffer gives an empty frame, so
whoever has to tell the two apart looks at the buffer first. -/
def unpack (data : Bytes) (pool : Option Pool) : Bytes × Except FrameFault Envelope :=
  if data = [] then ([], .ok ⟨0, []⟩)
  else match header? data with
    | .error fault => (data, .error fault)
    | .ok (flags, length) =>
      let available := data.length - headerSize
      if available < length then (data, .error (.shortBody length available))
      else
        let body := data.drop headerSize
        let payload := body.take length
        let rest := body.drop length
        match pool with
        | some pool =>
          if flags &&& compressedFlag ≠ 0 then
            match pool.decompress payload with
            | .ok plain => (rest, .ok ⟨flags, plain⟩)
            | .error reason => (rest, .error (.decompression reason))
          else (rest, .ok ⟨flags, payload⟩)
        | none => (rest, .ok ⟨flags, payload⟩)

theorem length_of_header?_ok {data : Bytes} {flags : UInt8} {length : Nat}
    (h : header? data = .ok (flags, length)) : headerSize ≤ data.length := by
  unfold header? at h
  split at h
  · simp [headerSize]
  · cases h

/-- What is left after taking a frame off a buffer is shorter than the buffer. -/
theorem length_unpack_ok {data rest : Bytes} {pool : Option Pool} {e : Envelope}
    (hne : data ≠ []) (h : unpack data pool = (rest, .ok e)) : rest.length < data.length := by
  rw [unpack, if_neg hne] at h
  split at h
  · cases h
  · next flags length hh =>
    have hlen := length_of_header?_ok hh
    have hsize : headerSize = 5 := rfl
    have hrest : ((data.drop headerSize).drop length).length < data.length := by
      simp only [List.length_drop]; omega
    simp only at h
    split at h
    · cases h
    · split at h
      · split at h
        · split at h
          · cases h; exact hrest
          · cases h
        · cases h; exact hrest
      · cases h; exact hrest

end Envelope

end RpcWire
