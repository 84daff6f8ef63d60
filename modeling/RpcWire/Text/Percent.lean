import RpcWire.Text.Utf8

/-!
# Percent coding of status messages

A status message travels as printable ASCII: every octet of its UTF-8 form
that is not printable, and the percent sign itself, is written as `%XX`.
Reading undoes every `%` that two hexadecimal digits of either case follow and
keeps every other octet; what is then no UTF-8 is replaced, not refused.

A percent sign is looked at only where two more octets follow it, so a text
without such a sign is its own reading.
-/

namespace RpcWire.Percent

/-- Printable ASCII other than the percent sign. -/
def isPlain (b : UInt8) : Bool := 0x20 ≤ b && b ≤ 0x7E && b ≠ 0x25

/-- The upper-case hexadecimal digit of a number below sixteen. -/
def upperDigit (n : Nat) : Char :=
  if n < 10 then Char.ofNat (48 + n) else Char.ofNat (55 + n)

def escape (b : UInt8) : List Char := ['%', upperDigit (b.toNat / 16), upperDigit (b.toNat % 16)]

def encodeBytes (bs : Bytes) : List Char :=
  bs.flatMap fun b => if isPlain b then [Char.ofNat b.toNat] else escape b

def encode (message : String) : String := String.ofList (encodeBytes (Utf8.encode message))

/-- The value of an octet that is a hexadecimal digit of either case. -/
def hexValue? (b : UInt8) : Option Nat := Bytes.hexValue? (Char.ofNat b.toNat)

/-- One pass over the octets, every escape being undone. -/
def unescape : Bytes → Bytes
  | [] => []
  | b :: bs =>
    if b = 0x25 then
      match bs with
      | h :: l :: rest =>
        match hexValue? h, hexValue? l with
        | some high, some low => UInt8.ofNat (high * 16 + low) :: unescape rest
        | _, _ => b :: unescape (h :: l :: rest)
      | short => b :: unescape short
    else b :: unescape bs

/-- Whether a percent sign with two octets after it occurs. -/
def hasEscape : Bytes → Bool
  | [] => false
  | b :: bs => (b = 0x25 && 2 ≤ bs.length) || hasEscape bs

/-- The message that a written form stands for. -/
def decode (text : String) : String :=
  let bs := Utf8.encode text
  if hasEscape bs then Utf8.decodeLossy (unescape bs) else text

end RpcWire.Percent
