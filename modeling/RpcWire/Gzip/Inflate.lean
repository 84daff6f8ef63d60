import RpcWire.Gzip.PrefixCode

/-!
# Inflating

A deflate stream is a sequence of blocks, the last one marked. A block holds
octets as they are, or symbols of two prefix codes: a literal octet, the end of
the block, or a length that is followed by a distance and repeats what stands
that far back. The codes are fixed or described at the head of the block.

What lies before the start of the output counts as zeros, so a distance never
reaches too far.
-/

namespace RpcWire.Gzip

/-! ## Symbols -/

/-- The base length and the number of extra bits of the symbols from 257 on. -/
def lengthTable : List (Nat × Nat) :=
  [(3, 0), (4, 0), (5, 0), (6, 0), (7, 0), (8, 0), (9, 0), (10, 0), (11, 1), (13, 1), (15, 1),
    (17, 1), (19, 2), (23, 2), (27, 2), (31, 2), (35, 3), (43, 3), (51, 3), (59, 3), (67, 4),
    (83, 4), (99, 4), (115, 4), (131, 5), (163, 5), (195, 5), (227, 5), (258, 0)]

/-- The base distance and the number of extra bits of the symbols of the second code. -/
def distanceTable : List (Nat × Nat) :=
  [(1, 0), (2, 0), (3, 0), (4, 0), (5, 1), (7, 1), (9, 2), (13, 2), (17, 3), (25, 3), (33, 4),
    (49, 4), (65, 5), (97, 5), (129, 6), (193, 6), (257, 7), (385, 7), (513, 8), (769, 8),
    (1025, 9), (1537, 9), (2049, 10), (3073, 10), (4097, 11), (6145, 11), (8193, 12), (12289, 12),
    (16385, 13), (24577, 13)]

def readNumber (n : Nat) (b : Bits) : Except Fault (Nat × Bits) :=
  match b.number? n with
  | some r => .ok r
  | none => .error .unfinished

theorem size_readNumber {n v : Nat} {b after : Bits} (h : readNumber n b = .ok (v, after)) :
    after.size + n = b.size := by
  unfold readNumber at h
  split at h
  · next hb => cases h; exact Bits.size_number? hb
  · cases h

/-- Reads the extra bits of the `i`-th entry of a table: the number that it stands for. -/
def readEntry (table : List (Nat × Nat)) (i : Nat) (b : Bits) : Except Fault (Nat × Bits) :=
  match table[i]? with
  | none => .error .corrupt
  | some (base, extra) =>
    match readNumber extra b with
    | .error fault => .error fault
    | .ok (v, b) => .ok (base + v, b)

theorem size_readEntry {table : List (Nat × Nat)} {i v : Nat} {b after : Bits}
    (h : readEntry table i b = .ok (v, after)) : after.size ≤ b.size := by
  unfold readEntry at h
  split at h
  · cases h
  · split at h
    · cases h
    · next hb => cases h; have := size_readNumber hb; omega

/-- Repeats `n` octets that stand `distance` back. -/
def repeated (distance : Nat) : Nat → Array UInt8 → Array UInt8
  | 0, out => out
  | n + 1, out =>
    let octet := if distance ≤ out.size then out.getD (out.size - distance) 0 else 0
    repeated distance n (out.push octet)

/-- The two codes of a block. -/
structure BlockCodes where
  literals : PrefixCode
  distances : PrefixCode

/-- What a symbol of the first code and what belongs to it say. -/
inductive Item where
  | literal (octet : UInt8)
  | endOfBlock
  | repeated (length distance : Nat)
  deriving DecidableEq, Repr

/-- Reads what belongs to the symbol of a length: the length, and the distance. -/
def readRepeat (codes : BlockCodes) (n : Nat) (b : Bits) : Except Fault (Item × Bits) := do
  let (length, b) ← readEntry lengthTable n b
  let (symbol, b) ← codes.distances.read b
  let (distance, b) ← readEntry distanceTable symbol b
  .ok (.repeated length distance, b)

def readItem (codes : BlockCodes) (b : Bits) : Except Fault (Item × Bits) := do
  let (n, b) ← codes.literals.read b
  if n < 256 then .ok (.literal (UInt8.ofNat n), b)
  else if n = 256 then .ok (.endOfBlock, b)
  else readRepeat codes (n - 257) b

theorem size_readRepeat {codes : BlockCodes} {n : Nat} {b after : Bits} {item : Item}
    (h : readRepeat codes n b = .ok (item, after)) : after.size ≤ b.size := by
  simp only [readRepeat, bind, Except.bind] at h
  split at h
  · cases h
  · next hl =>
    split at h
    · cases h
    · next hs =>
      split at h
      · cases h
      · next hd =>
        cases h
        have := size_readEntry hl
        have := PrefixCode.size_read hs
        have := size_readEntry hd
        omega

theorem size_readItem {codes : BlockCodes} {b after : Bits} {item : Item}
    (h : readItem codes b = .ok (item, after)) : after.size < b.size := by
  simp only [readItem, bind, Except.bind] at h
  split at h
  · cases h
  · next hn =>
    have := PrefixCode.size_read hn
    split at h
    · cases h; assumption
    · split at h
      · cases h; assumption
      · have := size_readRepeat h; omega

/-- Reads items up to the end of the block. -/
def readItems (codes : BlockCodes) (b : Bits) (out : Array UInt8) :
    Except Fault (Bits × Array UInt8) :=
  match _h : readItem codes b with
  | .error fault => .error fault
  | .ok (.literal octet, after) => readItems codes after (out.push octet)
  | .ok (.endOfBlock, after) => .ok (after, out)
  | .ok (.repeated length distance, after) =>
    readItems codes after (repeated distance length out)
termination_by b.size
decreasing_by
  · exact size_readItem _h
  · exact size_readItem _h

/-! ## Codes of a block -/

/-- The lengths of the literals of the fixed code. -/
def fixedLengths : List Nat :=
  List.replicate 144 8 ++ List.replicate 112 9 ++ List.replicate 24 7 ++ List.replicate 8 8

/-- The codes that need no description. -/
def fixedCodes : Except Fault BlockCodes := do
  let literals ← PrefixCode.ofLengths true fixedLengths
  let distances ← PrefixCode.ofLengths true (List.replicate 32 5)
  .ok ⟨literals, distances⟩

/-- The order in which the lengths of the code for lengths are written. -/
def lengthOrder : List Nat := [16, 17, 18, 0, 8, 7, 9, 6, 10, 5, 11, 4, 12, 3, 13, 2, 14, 1, 15]

/-- Reads `n` numbers of `width` bits. -/
def readNumbers (width : Nat) : Nat → Bits → Except Fault (List Nat × Bits)
  | 0, b => .ok ([], b)
  | n + 1, b => do
    let (v, b) ← readNumber width b
    let (vs, b) ← readNumbers width n b
    .ok (v :: vs, b)

/-- What a symbol from 16 on stands for, given the lengths read before, the latest first: a length
that is repeated, how often at least, and the number of bits that say how often it is repeated
beyond that. A symbol of 16 repeats the latest length, 17 and 18 stand for zeros. -/
def runOf? (n : Nat) (lengths : List Nat) : Option (Nat × Nat × Nat) :=
  if n = 16 then lengths.head?.map fun latest => (latest, 3, 2)
  else if n = 17 then some (0, 3, 3)
  else some (0, 11, 7)

/-- Reads lengths until there are `wanted`, given those read before, the latest first. -/
def readLengths (code : PrefixCode) (wanted : Nat) (b : Bits) (lengths : List Nat) :
    Except Fault (List Nat × Bits) :=
  if wanted ≤ lengths.length then
    if wanted = lengths.length then .ok (lengths.reverse, b) else .error .corrupt
  else match _h : code.read b with
    | .error fault => .error fault
    | .ok (n, after) =>
      if n < 16 then readLengths code wanted after (n :: lengths)
      else match runOf? n lengths with
        | none => .error .corrupt
        | some (length, base, extra) =>
          match _h' : readNumber extra after with
          | .error fault => .error fault
          | .ok (v, after) =>
            readLengths code wanted after (List.replicate (base + v) length ++ lengths)
termination_by b.size
decreasing_by
  · exact PrefixCode.size_read _h
  · have := PrefixCode.size_read _h
    have := size_readNumber _h'
    omega

/-- Reads the description of the codes of a block. -/
def readCodes (b : Bits) : Except Fault (BlockCodes × Bits) := do
  let (literals, b) ← readNumber 5 b
  let (distances, b) ← readNumber 5 b
  let (lengths, b) ← readNumber 4 b
  if 29 < literals ∨ 29 < distances then .error .corrupt
  else do
    let (widths, b) ← readNumbers 3 (lengths + 4) b
    let order := lengthOrder.take (lengths + 4) |>.zip widths
    let code ← PrefixCode.ofLengths false ((List.range 19).map fun n => (order.lookup n).getD 0)
    let (all, b) ← readLengths code (literals + 257 + distances + 1) b []
    let second ← PrefixCode.ofLengths true (all.drop (literals + 257))
    let first ← PrefixCode.ofLengths true (all.take (literals + 257))
    .ok (⟨first, second⟩, b)

/-! ## Blocks -/

/-- Reads a block of octets as they are: their number, its complement, and the octets. -/
def readStored (b : Bits) (out : Array UInt8) : Except Fault (Bits × Array UInt8) :=
  match b.aligned with
  | l :: h :: l' :: h' :: rest =>
    let length := l.toNat + 256 * h.toNat
    if length + (l'.toNat + 256 * h'.toNat) ≠ 65535 then .error .corrupt
    else if rest.length < length then .error .unfinished
    else .ok (.ofBytes (rest.drop length), out ++ rest.take length)
  | _ => .error .unfinished

/-- Reads the content of a block of some kind. -/
def readBlock (kind : Nat) (b : Bits) (out : Array UInt8) : Except Fault (Bits × Array UInt8) :=
  match kind with
  | 0 => readStored b out
  | 1 => do readItems (← fixedCodes) b out
  | 2 => do
    let (codes, b) ← readCodes b
    readItems codes b out
  | _ => .error .corrupt

/-- Reads at most `room` blocks. -/
def readBlocks : Nat → Bits → Array UInt8 → Except Fault (Bytes × Array UInt8)
  | 0, _, _ => .error .unfinished
  | room + 1, b, out => do
    let (final, b) ← readNumber 1 b
    let (kind, b) ← readNumber 2 b
    let (b, out) ← readBlock kind b out
    if final = 1 then .ok (b.aligned, out) else readBlocks room b out

/-- What a deflate stream at the front of some octets stands for, and the octets after the stream.
A block takes at least three bits, which bounds their number. -/
def inflate (data : Bytes) : Except Fault (Bytes × Bytes) := do
  let (rest, out) ← readBlocks (8 * data.length + 1) (.ofBytes data) #[]
  .ok (out.toList, rest)

end RpcWire.Gzip
