/-!
# Byte strings

Everything that crosses the network is a `Bytes`: a list of octets. This file
holds the two spellings of numbers and octets that the wire formats share.

* `word32` / `ofWord32` — four octets, most significant first;
* `toHex` / `ofHex?` — two hexadecimal digits an octet.
-/

namespace RpcWire

/-- A string of octets. -/
abbrev Bytes := List UInt8

namespace Bytes

/-! ## Four-octet numbers -/

/-- The low 32 bits of `n`, most significant octet first. -/
def word32 (n : Nat) : Bytes :=
  [UInt8.ofNat (n / 0x100_0000), UInt8.ofNat (n / 0x1_0000), UInt8.ofNat (n / 0x100), UInt8.ofNat n]

/-- The number four octets spell, most significant first. -/
def ofWord32 (a b c d : UInt8) : Nat :=
  ((a.toNat * 0x100 + b.toNat) * 0x100 + c.toNat) * 0x100 + d.toNat

theorem length_word32 (n : Nat) : (word32 n).length = 4 := rfl

/-- The four octets of a number spell its low 32 bits. -/
theorem ofWord32_word32 (n : Nat) :
    ofWord32 (UInt8.ofNat (n / 0x100_0000)) (UInt8.ofNat (n / 0x1_0000))
      (UInt8.ofNat (n / 0x100)) (UInt8.ofNat n) = n % 0x1_0000_0000 := by
  simp only [ofWord32, UInt8.toNat_ofNat']
  omega

theorem ofWord32_lt (a b c d : UInt8) : ofWord32 a b c d < 0x1_0000_0000 := by
  have ha := a.toNat_lt; have hb := b.toNat_lt; have hc := c.toNat_lt; have hd := d.toNat_lt
  simp only [ofWord32]
  omega

/-! ## Hexadecimal text -/

/-- The lower-case digit of a number below sixteen. -/
def hexDigit (n : Nat) : Char :=
  if n < 10 then Char.ofNat (48 + n) else Char.ofNat (87 + n)

/-- The value of a hexadecimal digit of either case. -/
def hexValue? (c : Char) : Option Nat :=
  if '0' ≤ c ∧ c ≤ '9' then some (c.toNat - 48)
  else if 'a' ≤ c ∧ c ≤ 'f' then some (c.toNat - 87)
  else if 'A' ≤ c ∧ c ≤ 'F' then some (c.toNat - 55)
  else none

/-- Two lower-case digits for each octet. -/
def toHex (bs : Bytes) : List Char :=
  bs.flatMap fun b => [hexDigit (b.toNat / 16), hexDigit (b.toNat % 16)]

/-- Reads pairs of hexadecimal digits of either case; refuses an odd digit or any other text. -/
def ofHex? : List Char → Option Bytes
  | [] => some []
  | [_] => none
  | h :: l :: rest => do
    let high ← hexValue? h
    let low ← hexValue? l
    let more ← ofHex? rest
    some (UInt8.ofNat (16 * high + low) :: more)

theorem hexValue?_hexDigit : ∀ n < 16, hexValue? (hexDigit n) = some n := by decide

/-- Every byte string is read back from its hexadecimal text. -/
theorem ofHex?_toHex (bs : Bytes) : ofHex? (toHex bs) = some bs := by
  induction bs with
  | nil => rfl
  | cons b bs ih =>
    have hb := b.toNat_lt
    have e : toHex (b :: bs) = hexDigit (b.toNat / 16) :: hexDigit (b.toNat % 16) :: toHex bs := rfl
    rw [e, ofHex?, hexValue?_hexDigit _ (by omega), hexValue?_hexDigit _ (by omega), ih]
    show some (UInt8.ofNat (16 * (b.toNat / 16) + b.toNat % 16) :: bs) = _
    rw [Nat.div_add_mod, UInt8.ofNat_toNat]

end Bytes

end RpcWire
