import RpcWire.Bytes

/-!
# The checksum of gzip

CRC-32: the remainder of an octet string as a polynomial, lowest bit first.
-/

namespace RpcWire.Gzip

/-- The remainder after one more bit. -/
def shiftRemainder (r : UInt32) : UInt32 :=
  if r &&& 1 = 1 then (r >>> 1) ^^^ 0xEDB88320 else r >>> 1

/-- The remainder after one more octet. -/
def addOctet (r : UInt32) (b : UInt8) : UInt32 :=
  let r := r ^^^ b.toUInt32
  (List.range 8).foldl (fun r _ => shiftRemainder r) r

/-- The checksum of an octet string. -/
def crc32 (bs : Bytes) : UInt32 := (bs.foldl addOctet 0xFFFFFFFF) ^^^ 0xFFFFFFFF

/-- The octets of a number, the least significant first. -/
def littleEndian : Nat → Nat → Bytes
  | 0, _ => []
  | width + 1, n => UInt8.ofNat n :: littleEndian width (n / 256)

/-- The number that octets spell, the least significant first. -/
def ofLittleEndian : Bytes → Nat
  | [] => 0
  | b :: bs => b.toNat + 256 * ofLittleEndian bs

theorem length_littleEndian (width n : Nat) : (littleEndian width n).length = width := by
  induction width generalizing n <;> simp [littleEndian, *]

/-- A number is read back from its octets, as far as there is room for it. -/
theorem ofLittleEndian_littleEndian (width n : Nat) :
    ofLittleEndian (littleEndian width n) = n % Nat.pow 256 width := by
  induction width generalizing n with
  | zero => simp [littleEndian, ofLittleEndian, Nat.mod_one]
  | succ width ih =>
    have e : Nat.pow 256 (width + 1) = 256 * Nat.pow 256 width := Nat.mul_comm _ _
    rw [littleEndian, ofLittleEndian, ih, UInt8.toNat_ofNat', e, Nat.mod_mul]

end RpcWire.Gzip
