import RpcWire.Bytes

/-!
# Base64

Two alphabets (standard and URL-safe) and two rules about the padding at the
end. Reading is strict: a text is accepted exactly when it is what writing
produces, so neither stray characters, nor bits that encode nothing, nor
padding of the other kind are let through.

* `encode` — the text of an octet string;
* `decode?` — the octet string of a text.
-/

namespace RpcWire.Base64

/-- Which 64 characters stand for the numbers below 64. -/
inductive Alphabet where
  | standard
  | urlSafe
  deriving DecidableEq, Repr

/-- Whether the last group is filled up with `=`. -/
inductive Padding where
  | padded
  | bare
  deriving DecidableEq, Repr

/-! ## Digits -/

/-- The two digits that the alphabets disagree about. -/
def Alphabet.last (a : Alphabet) : Char × Char :=
  match a with
  | .standard => ('+', '/')
  | .urlSafe => ('-', '_')

/-- The digit of a number below 64. -/
def Alphabet.digit (a : Alphabet) (n : Nat) : Char :=
  if n < 26 then Char.ofNat (65 + n)
  else if n < 52 then Char.ofNat (71 + n)
  else if n < 62 then Char.ofNat (n - 4)
  else if n = 62 then a.last.1
  else a.last.2

/-- The number of a digit. -/
def Alphabet.value? (a : Alphabet) (c : Char) : Option Nat :=
  if 'A' ≤ c ∧ c ≤ 'Z' then some (c.toNat - 65)
  else if 'a' ≤ c ∧ c ≤ 'z' then some (c.toNat - 71)
  else if '0' ≤ c ∧ c ≤ '9' then some (c.toNat + 4)
  else if c = a.last.1 then some 62
  else if c = a.last.2 then some 63
  else none

theorem Alphabet.value?_digit (a : Alphabet) : ∀ n < 64, a.value? (a.digit n) = some n := by
  cases a <;> decide

theorem Alphabet.digit_ne_pad (a : Alphabet) : ∀ n < 64, a.digit n ≠ '=' := by
  cases a <;> decide

/-! ## Writing -/

/-- The text of an octet string, three octets to four digits. -/
def encode (a : Alphabet) (p : Padding) : Bytes → List Char
  | [] => []
  | [x] =>
    let n := x.toNat
    let pad := match p with | .padded => ['=', '='] | .bare => []
    a.digit (n / 4) :: a.digit (n % 4 * 16) :: pad
  | [x, y] =>
    let n := x.toNat
    let m := y.toNat
    let pad := match p with | .padded => ['='] | .bare => []
    a.digit (n / 4) :: a.digit (n % 4 * 16 + m / 16) :: a.digit (m % 16 * 4) :: pad
  | x :: y :: z :: rest =>
    let n := x.toNat
    let m := y.toNat
    let k := z.toNat
    a.digit (n / 4) :: a.digit (n % 4 * 16 + m / 16) :: a.digit (m % 16 * 4 + k / 64) ::
      a.digit (k % 64) :: encode a p rest

/-! ## Reading -/

/-- Two digits that end a text: one octet, if the last four bits are zero. -/
def lastOne? (a : Alphabet) (c d : Char) : Option Bytes := do
  let u ← a.value? c
  let v ← a.value? d
  if v % 16 = 0 then some [UInt8.ofNat (u * 4 + v / 16)] else none

/-- Three digits that end a text: two octets, if the last two bits are zero. -/
def lastTwo? (a : Alphabet) (c d e : Char) : Option Bytes := do
  let u ← a.value? c
  let v ← a.value? d
  let w ← a.value? e
  if w % 4 = 0 then some [UInt8.ofNat (u * 4 + v / 16), UInt8.ofNat (v % 16 * 16 + w / 4)]
  else none

/-- Four digits: three octets. -/
def group? (a : Alphabet) (c d e f : Char) : Option Bytes := do
  let u ← a.value? c
  let v ← a.value? d
  let w ← a.value? e
  let x ← a.value? f
  some [UInt8.ofNat (u * 4 + v / 16), UInt8.ofNat (v % 16 * 16 + w / 4),
    UInt8.ofNat (w % 4 * 64 + x)]

def decode? (a : Alphabet) (p : Padding) : List Char → Option Bytes
  | [] => some []
  | [c, d] => if p = .bare then lastOne? a c d else none
  | [c, d, e] => if p = .bare then lastTwo? a c d e else none
  | c :: d :: e :: f :: rest =>
    if p = .padded ∧ f = '=' ∧ rest = [] then
      if e = '=' then lastOne? a c d else lastTwo? a c d e
    else do
      let here ← group? a c d e f
      let more ← decode? a p rest
      some (here ++ more)
  | _ => none

/-- The octets of a text that follows either padding rule, the first of the two being tried
first. -/
def decodeEither? (a : Alphabet) (cs : List Char) : Option Bytes :=
  (decode? a .bare cs).or (decode? a .padded cs)

end RpcWire.Base64
