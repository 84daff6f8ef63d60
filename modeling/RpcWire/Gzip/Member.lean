import RpcWire.Gzip.Checksum
import RpcWire.Gzip.Inflate

/-!
# Gzip files

A gzip file is a header, a deflate stream and a trailer with the checksum and
the length of what the stream stands for. Reading checks all of it and ignores
what follows; writing stores the octets as they are, in blocks.
-/

namespace RpcWire.Gzip

/-! ## The header -/

/-- The octets that every file begins with: the two that mark a gzip file, the method, flags, a
time, a hint and a system. -/
def fixedSize : Nat := 10

/-- The header has a checksum of its own. -/
def checksumFlag : UInt8 := 0x02

/-- The header has a field with its length in front. -/
def extraFlag : UInt8 := 0x04

/-- The header has a file name. -/
def nameFlag : UInt8 := 0x08

/-- The header has a comment. -/
def commentFlag : UInt8 := 0x10

/-- The flags that must not be set. -/
def reservedFlags : UInt8 := 0xE0

/-- The longest file name or comment that is accepted. -/
def maxTextLength : Nat := 65535

def skip (n : Nat) (bs : Bytes) : Except Fault Bytes :=
  if bs.length < n then .error .endOfFile else .ok (bs.drop n)

/-- Skips a field with its length in two octets in front. -/
def skipExtra (bs : Bytes) : Except Fault Bytes := do
  let rest ← skip 2 bs
  skip (ofLittleEndian (bs.take 2)) rest

/-- Skips a text up to the zero that ends it. -/
def skipText (bs : Bytes) : Except Fault Bytes :=
  let text := bs.takeWhile (· ≠ 0)
  if maxTextLength < text.length then .error .longField else skip (text.length + 1) bs

/-- Skips a header: what follows it. -/
def skipHeader (file : Bytes) : Except Fault Bytes := do
  let rest ← skip fixedSize file
  match file with
  | m :: m' :: method :: flags :: _ =>
    if m ≠ 0x1F ∨ m' ≠ 0x8B ∨ method ≠ 8 ∨ flags &&& reservedFlags ≠ 0 then .error .badHeader
    else do
      let rest ← if flags &&& extraFlag = 0 then .ok rest else skipExtra rest
      let rest ← if flags &&& nameFlag = 0 then .ok rest else skipText rest
      let rest ← if flags &&& commentFlag = 0 then .ok rest else skipText rest
      if flags &&& checksumFlag = 0 then .ok rest
      else do
        let after ← skip 2 rest
        let header := file.take (file.length - rest.length)
        if (crc32 header).toNat % 0x1_0000 = ofLittleEndian (rest.take 2) then .ok after
        else .error .checksum
  | _ => .error .endOfFile

/-! ## Whole files -/

/-- The checksum and the length of the data, four octets each. -/
def trailer (data : Bytes) : Bytes :=
  littleEndian 4 (crc32 data).toNat ++ littleEndian 4 data.length

/-- The data of the file at the front of some octets. -/
def decompress (file : Bytes) : Except Fault Bytes := do
  let packed ← skipHeader file
  let (data, rest) ← inflate packed
  let _ ← skip 8 rest
  if rest.take 8 = trailer data then .ok data else .error .checksum

/-- A block of octets as they are. -/
def storedBlock (final : Bool) (chunk : Bytes) : Bytes :=
  (if final then 1 else 0) :: (littleEndian 2 chunk.length ++
    littleEndian 2 (65535 - chunk.length) ++ chunk)

/-- The greatest number of octets in a block of octets as they are. -/
def maxStored : Nat := 65535

/-- The blocks of some octets. -/
def storedBlocks (data : Bytes) : Bytes :=
  if data.length ≤ maxStored then storedBlock true data
  else storedBlock false (data.take maxStored) ++ storedBlocks (data.drop maxStored)
termination_by data.length
decreasing_by
  have : maxStored = 65535 := rfl
  simp only [List.length_drop]
  omega

/-- A file with the given data. -/
def compress (data : Bytes) : Bytes :=
  [0x1F, 0x8B, 8, 0, 0, 0, 0, 0, 0, 255] ++ storedBlocks data ++ trailer data

end RpcWire.Gzip
