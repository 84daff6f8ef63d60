import RpcWire.Bytes

/-!
# UTF-8

Text is written as UTF-8 by `encode`. Reading is one pass of a small machine,
`units`, that turns octets into characters and marks every maximal run of
octets that begins a character but does not finish it, or that cannot begin
one, by a single `none`. The two readers differ only in what they make of a
mark:

* `decode?` — refuses a text with a mark;
* `decodeLossy` — writes U+FFFD for each mark.
-/

namespace RpcWire.Utf8

/-! ## Writing -/

def encodeChars (cs : List Char) : Bytes := cs.flatMap String.utf8EncodeChar

def encode (s : String) : Bytes := encodeChars s.toList

@[simp] theorem encodeChars_nil : encodeChars [] = [] := rfl

@[simp] theorem encodeChars_cons (c : Char) (cs : List Char) :
    encodeChars (c :: cs) = String.utf8EncodeChar c ++ encodeChars cs := rfl

@[simp] theorem encodeChars_append (cs ds : List Char) :
    encodeChars (cs ++ ds) = encodeChars cs ++ encodeChars ds := by
  simp [encodeChars]

/-! ## Reading -/

/-- A character of which some octets have been read: how many are owed, between which bounds the
next one lies, and the code point as far as it is known. -/
structure Partial where
  owed : Nat
  low : UInt8
  high : UInt8
  point : Nat
  deriving DecidableEq, Repr

/-- What an octet means where a character may begin. -/
inductive Lead where
  | whole (c : Char)
  | opens (p : Partial)
  | stray

/-- Classifies the first octet of a character. The bounds on the second octet leave out overlong
forms, surrogates and everything above U+10FFFF. -/
def lead (b : UInt8) : Lead :=
  let n := b.toNat
  if n < 0x80 then .whole (Char.ofNat n)
  else if n < 0xC2 then .stray
  else if n < 0xE0 then .opens ⟨1, 0x80, 0xBF, n - 0xC0⟩
  else if n = 0xE0 then .opens ⟨2, 0xA0, 0xBF, 0⟩
  else if n = 0xED then .opens ⟨2, 0x80, 0x9F, 0xD⟩
  else if n < 0xF0 then .opens ⟨2, 0x80, 0xBF, n - 0xE0⟩
  else if n = 0xF0 then .opens ⟨3, 0x90, 0xBF, 0⟩
  else if n < 0xF4 then .opens ⟨3, 0x80, 0xBF, n - 0xF0⟩
  else if n = 0xF4 then .opens ⟨3, 0x80, 0x8F, 4⟩
  else .stray

/-- One octet where a character may begin. -/
def open? (b : UInt8) : List (Option Char) × Option Partial :=
  match lead b with
  | .whole c => ([some c], none)
  | .opens p => ([], some p)
  | .stray => ([none], none)

/-- One octet: the units it completes and the character it leaves unfinished. An octet that cannot
continue the unfinished character ends it with a mark and is then read afresh. -/
def step : Option Partial → UInt8 → List (Option Char) × Option Partial
  | none, b => open? b
  | some p, b =>
    if p.low ≤ b ∧ b ≤ p.high then
      let point := p.point * 64 + (b.toNat - 0x80)
      if p.owed ≤ 1 then ([some (Char.ofNat point)], none)
      else ([], some ⟨p.owed - 1, 0x80, 0xBF, point⟩)
    else
      let fresh := open? b
      (none :: fresh.1, fresh.2)

/-- The units of an octet string, given the character left unfinished before it. -/
def unitsFrom : Option Partial → Bytes → List (Option Char)
  | none, [] => []
  | some _, [] => [none]
  | p, b :: bs => (step p b).1 ++ unitsFrom (step p b).2 bs

/-- The characters of an octet string, `none` standing for a run that is no character. -/
def units (bs : Bytes) : List (Option Char) := unitsFrom none bs

/-- The character that replaces what cannot be read. -/
def replacement : Char := '\uFFFD'

/-- The characters of a well-formed octet string. -/
def decodeChars? (bs : Bytes) : Option (List Char) := (units bs).mapM id

/-- The text of a well-formed octet string. -/
def decode? (bs : Bytes) : Option String := (decodeChars? bs).map String.ofList

/-- The characters of any octet string, what cannot be read being replaced. -/
def decodeCharsLossy (bs : Bytes) : List Char := (units bs).map (·.getD replacement)

/-- The text of any octet string, what cannot be read being replaced. -/
def decodeLossy (bs : Bytes) : String := String.ofList (decodeCharsLossy bs)

end RpcWire.Utf8
