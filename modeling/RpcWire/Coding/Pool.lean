import RpcWire.Bytes

/-!
# Compression pools

A pool compresses and decompresses whole payloads and is known by the name
that stands for it in headers. Either direction may fail with a reason.

Besides the type, this file has three small pools that make every effect of a
pool visible without a real algorithm: one reverses, one writes hexadecimal,
one always fails.
-/

namespace RpcWire

/-- A named way to compress payloads and to undo it. -/
structure Pool where
  name : String
  compress : Bytes → Except String Bytes
  decompress : Bytes → Except String Bytes

namespace Pool

/-- Decompressing what the pool has compressed gives it back. -/
def RoundTrips (p : Pool) : Prop := ∀ payload packed, p.compress payload = .ok packed →
  p.decompress packed = .ok payload

/-! ## Pools without an algorithm -/

/-- Writes a payload backwards. -/
def reversing (name : String) : Pool where
  name := name
  compress bs := .ok bs.reverse
  decompress bs := .ok bs.reverse

/-- Writes a payload as lower-case hexadecimal text, and reads either case. -/
def hexadecimal (name : String) : Pool where
  name := name
  compress bs := .ok ((Bytes.toHex bs).map fun c => UInt8.ofNat c.toNat)
  decompress bs :=
    match Bytes.ofHex? (bs.map fun b => Char.ofNat b.toNat) with
    | some octets => .ok octets
    | none => .error "bad hex"

def failing (name : String) : Pool where
  name := name
  compress _ := .error "no space"
  decompress _ := .error "corrupt"

theorem reversing_roundTrips (name : String) : (reversing name).RoundTrips := by
  intro payload packed h
  injection h with h
  simp [reversing, ← h]

end Pool

end RpcWire
