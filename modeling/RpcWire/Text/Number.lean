/-!
# Numbers in headers

Three grammars for numbers that arrive as text:

* `digits?` — one or more decimal digits;
* `integer?` — digits after at most one sign, kept within 64 bits;
* `Weight` — a decimal fraction as it weighs a coding in an accept header, of
  which only one thing matters: whether it counts as zero or less.

A weight is compared after rounding to a binary fraction of 24 digits whose
smallest step is `2 ^ -149`, so a positive weight of at most half that step
counts as zero.
-/

namespace RpcWire.Number

/-! ## Integers -/

/-- The value of one or more decimal digits. -/
def digits? (cs : List Char) : Option Nat :=
  if cs ≠ [] ∧ cs.all Char.isDigit then some (Nat.ofDigitChars 10 cs 0) else none

/-- A signed decimal number that fits 64 bits. -/
def integer? (cs : List Char) : Option Int := do
  let n ← match cs with
    | '-' :: ds => (digits? ds).map fun n => -(n : Int)
    | '+' :: ds => (digits? ds).map Int.ofNat
    | ds => (digits? ds).map Int.ofNat
  if -0x8000_0000_0000_0000 ≤ n ∧ n < 0x8000_0000_0000_0000 then some n else none

theorem digits?_toDigits (n : Nat) : digits? (Nat.toDigits 10 n) = some n := by
  have h : ∀ c ∈ Nat.toDigits 10 n, c.isDigit = true := fun c hc =>
    Nat.isDigit_of_mem_toDigits (by decide) (by decide) hc
  simp [digits?, Nat.toDigits_ne_nil, List.all_eq_true.2 h, Nat.ofDigitChars_ten_toDigits]

/-! ## Weights -/

/-- A decimal fraction, or one of the words for what is no number. -/
inductive Weight where
  | infinite (negative : Bool)
  | undefined
  /-- The value `mantissa * 10 ^ scale`, negated if `negative`. -/
  | finite (negative : Bool) (mantissa : Nat) (scale : Int)
  deriving DecidableEq, Repr

namespace Weight

/-- The power of ten after an `e`: digits after at most one sign, and nothing after them. -/
def exponent? : List Char → Option Int
  | '-' :: ds => (digits? ds).map fun n => -(n : Int)
  | '+' :: ds => (digits? ds).map Int.ofNat
  | ds => (digits? ds).map Int.ofNat

/-- The words for infinity and for no number, in any case. -/
def word? (negative : Bool) (cs : List Char) : Option Weight :=
  let w := cs.map Char.toLower
  if w = "nan".toList then some .undefined
  else if w = "inf".toList ∨ w = "infinity".toList then some (.infinite negative)
  else none

/-- Digits, a point and digits, at least one digit in all, then perhaps an exponent. -/
def unsigned? (negative : Bool) (cs : List Char) : Option Weight :=
  let whole := cs.takeWhile Char.isDigit
  let rest := cs.dropWhile Char.isDigit
  let (fraction, rest) := match rest with
    | '.' :: ds => (ds.takeWhile Char.isDigit, ds.dropWhile Char.isDigit)
    | _ => ([], rest)
  let mantissa := Nat.ofDigitChars 10 (whole ++ fraction) 0
  let scale : Int := -(fraction.length : Int)
  if whole ++ fraction = [] then none
  else match rest with
    | [] => some (.finite negative mantissa scale)
    | e :: ds =>
      if e = 'e' ∨ e = 'E' then (exponent? ds).map fun x => .finite negative mantissa (scale + x)
      else none

/-- Reads a weight: a sign, then a number or a word. -/
def parse? (cs : List Char) : Option Weight :=
  let (negative, rest) := match cs with
    | '-' :: ds => (true, ds)
    | '+' :: ds => (false, ds)
    | ds => (false, ds)
  (unsigned? negative rest).or (word? negative rest)

/-- Whether `mantissa * 10 ^ scale` rounds to zero, that is, is at most `2 ^ -150`. The powers of
ten on either side of that number settle all but a few scales. -/
def roundsToZero (mantissa : Nat) (scale : Int) : Bool :=
  let size : Int := (Nat.toDigits 10 mantissa).length + scale
  if mantissa = 0 then true
  else if size < -45 then true
  else if -44 < size then false
  else mantissa * Nat.pow 2 150 ≤ Nat.pow 10 (-scale).toNat

/-- Whether the weight counts as zero or less. -/
def isRefusal : Weight → Bool
  | .undefined => false
  | .infinite negative => negative
  | .finite negative mantissa scale => negative || roundsToZero mantissa scale

end Weight

end RpcWire.Number
