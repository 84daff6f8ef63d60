import RpcWire.Bytes

/-!
# Bits of a compressed stream

A deflate stream is a sequence of bits, the lowest bit of each octet first.
`Bits` is what is left of one: the bits of an octet that has been begun, and
the octets after it. `size` counts the bits that are left; every reader here
says by how much it shrinks, which is why inflating ends.
-/

namespace RpcWire.Gzip

/-- What is left of a stream of bits. -/
structure Bits where
  /-- The bits of the octet that has been begun. -/
  pending : List Bool
  rest : Bytes
  deriving DecidableEq, Repr

namespace Bits

def ofBytes (bs : Bytes) : Bits := ⟨[], bs⟩

def size (b : Bits) : Nat := b.pending.length + 8 * b.rest.length

/-- The bits of an octet above the lowest. -/
def upper (x : UInt8) : List Bool := [1, 2, 3, 4, 5, 6, 7].map fun i => x.toNat.testBit i

/-- The next bit, if there is one. -/
def next? : Bits → Option (Bool × Bits)
  | ⟨bit :: pending, rest⟩ => some (bit, ⟨pending, rest⟩)
  | ⟨[], x :: rest⟩ => some (x.toNat.testBit 0, ⟨upper x, rest⟩)
  | ⟨[], []⟩ => none

theorem size_next? {b after : Bits} {bit : Bool} (h : b.next? = some (bit, after)) :
    after.size + 1 = b.size := by
  unfold next? at h
  split at h
  · cases h; simp [size]; omega
  · cases h; simp [size, upper]; omega
  · cases h

/-- A number of `n` bits, the lowest first. -/
def number? : Nat → Bits → Option (Nat × Bits)
  | 0, b => some (0, b)
  | n + 1, b => do
    let (bit, b) ← b.next?
    let (high, b) ← number? n b
    some (bit.toNat + 2 * high, b)

theorem size_number? {n v : Nat} {b after : Bits} (h : number? n b = some (v, after)) :
    after.size + n = b.size := by
  induction n generalizing b v with
  | zero => cases h; rfl
  | succ n ih =>
    simp only [number?, Option.bind_eq_bind, Option.bind_eq_some_iff, Prod.exists] at h
    obtain ⟨bit, b', hb, high, b'', hn, h⟩ := h
    cases h
    have := size_next? hb
    have := ih hn
    omega

/-- The octets after the one that has been begun. -/
def aligned (b : Bits) : Bytes := b.rest

theorem size_aligned (b : Bits) : (ofBytes b.aligned).size ≤ b.size := by
  simp [size, ofBytes, aligned]

end Bits

end RpcWire.Gzip
