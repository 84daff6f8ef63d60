import RpcWire.Text.Utf8

/-!
# The tokens of a JSON text

A JSON text is read from octets in two steps. This file holds the first: it
cuts the text into tokens. A string token whose content is no Unicode text (a
lone surrogate, or octets that are no UTF-8) is still a token, since a reader
may skip it, but it has no content.

Strings are read by way of `Piece`s: what stands between the quotes, escapes
being told apart from characters, so that two escapes can make one character.
-/

namespace RpcWire.Json

/-- A token of a JSON text. -/
inductive Token where
  | openArray
  | closeArray
  | openObject
  | closeObject
  | comma
  | colon
  | null
  | bool (b : Bool)
  | number (text : String)
  | string (content : Option String)
  deriving DecidableEq, Repr

/-- A character of the text, or `none` for octets that are no character. -/
abbrev Mark := Option Char

/-! ## Strings -/

/-- One element between the quotes: a character, a 16-bit escape, or octets that are no
character. -/
inductive Piece where
  | char (c : Char)
  | unit (n : Nat)
  | broken
  deriving DecidableEq, Repr

/-- The character of a two-character escape. -/
def simpleEscape? : Char → Option Char
  | '"' => some '"'
  | '\\' => some '\\'
  | '/' => some '/'
  | 'b' => some '\x08'
  | 'f' => some '\x0C'
  | 'n' => some '\n'
  | 'r' => some '\r'
  | 't' => some '\t'
  | _ => none

/-- The number that four hexadecimal digits spell. -/
def unit? (a b c d : Mark) : Option Nat := do
  let h ← (← a) |> Bytes.hexValue?
  let i ← (← b) |> Bytes.hexValue?
  let j ← (← c) |> Bytes.hexValue?
  let k ← (← d) |> Bytes.hexValue?
  some (((h * 16 + i) * 16 + j) * 16 + k)

/-- The pieces up to the closing quote, and what follows it. -/
def scanPieces : List Mark → Option (List Piece × List Mark)
  | [] => none
  | none :: rest => do
    let (pieces, after) ← scanPieces rest
    some (.broken :: pieces, after)
  | some '"' :: rest => some ([], rest)
  | some '\\' :: some 'u' :: a :: b :: c :: d :: rest => do
    let n ← unit? a b c d
    let (pieces, after) ← scanPieces rest
    some (.unit n :: pieces, after)
  | some '\\' :: some e :: rest => do
    let c ← simpleEscape? e
    let (pieces, after) ← scanPieces rest
    some (.char c :: pieces, after)
  | some c :: rest =>
    if c.toNat < 0x20 ∨ c = '\\' then none
    else do
      let (pieces, after) ← scanPieces rest
      some (.char c :: pieces, after)

/-- The characters that pieces spell: an escape is a character by itself unless it is a surrogate,
and a leading surrogate makes a character with the trailing one right after it. -/
def spell? : List Piece → Option (List Char)
  | [] => some []
  | .char c :: rest => (spell? rest).map (c :: ·)
  | .broken :: _ => none
  | .unit n :: rest =>
    if n < 0xD800 ∨ 0xDFFF < n then (spell? rest).map (Char.ofNat n :: ·)
    else if 0xDBFF < n then none
    else match rest with
      | .unit m :: rest =>
        if 0xDC00 ≤ m ∧ m ≤ 0xDFFF then
          (spell? rest).map (Char.ofNat (0x10000 + (n - 0xD800) * 0x400 + (m - 0xDC00)) :: ·)
        else none
      | _ => none

/-- What a successful scan leaves is shorter than what it was given. -/
theorem length_scanPieces {ms : List Mark} {pieces : List Piece} {after : List Mark}
    (h : scanPieces ms = some (pieces, after)) : after.length < ms.length := by
  fun_induction scanPieces ms generalizing pieces after with
  | case1 => cases h
  | case2 rest ih =>
    simp only [Option.bind_eq_bind, Option.bind_eq_some_iff, Prod.exists] at h
    obtain ⟨ps, r, hr, h⟩ := h
    cases h
    have := ih hr
    simp only [List.length_cons]; omega
  | case3 rest => cases h; simp
  | case4 a b c d rest ih =>
    simp only [Option.bind_eq_bind, Option.bind_eq_some_iff, Prod.exists] at h
    obtain ⟨n, _, ps, r, hr, h⟩ := h
    cases h
    have := ih hr
    simp only [List.length_cons]; omega
  | case5 e rest _ ih =>
    simp only [Option.bind_eq_bind, Option.bind_eq_some_iff, Prod.exists] at h
    obtain ⟨n, _, ps, r, hr, h⟩ := h
    cases h
    have := ih hr
    simp only [List.length_cons]; omega
  | case6 => cases h
  | case7 c rest _ _ _ _ ih =>
    simp only [Option.bind_eq_bind, Option.bind_eq_some_iff, Prod.exists] at h
    obtain ⟨ps, r, hr, h⟩ := h
    cases h
    have := ih hr
    simp only [List.length_cons]; omega

/-! ## Numbers and words

No token can directly follow a number or a word, so each is read as the longest run of characters
that could be part of one, and the run has to be right as a whole.
-/

/-- The characters that numbers are made of. -/
def isNumberChar (c : Char) : Bool :=
  c.isDigit || c = '-' || c = '+' || c = '.' || c = 'e' || c = 'E'

def isDigits (cs : List Char) : Bool := !cs.isEmpty && cs.all Char.isDigit

/-- Nothing, or an exponent: a letter, perhaps a sign, and digits. -/
def isExponent : List Char → Bool
  | [] => true
  | e :: rest =>
    (e = 'e' || e = 'E') &&
      match rest with
      | '+' :: digits => isDigits digits
      | '-' :: digits => isDigits digits
      | digits => isDigits digits

/-- A number: perhaps a minus sign, digits that begin with a zero only if there is no other, then
perhaps a fraction, then perhaps an exponent. -/
def isNumber (cs : List Char) : Bool :=
  let unsigned := match cs with
    | '-' :: rest => rest
    | rest => rest
  let whole := unsigned.takeWhile Char.isDigit
  let rest := unsigned.dropWhile Char.isDigit
  isDigits whole && (whole.head? ≠ some '0' || whole.length = 1) &&
    match rest with
    | '.' :: rest =>
      isDigits (rest.takeWhile Char.isDigit) && isExponent (rest.dropWhile Char.isDigit)
    | rest => isExponent rest

/-- The token that a word is. -/
def word? (cs : List Char) : Option Token :=
  if cs = "null".toList then some .null
  else if cs = "true".toList then some (.bool true)
  else if cs = "false".toList then some (.bool false)
  else none

/-! ## Tokens -/

/-- The longest run of characters that `p` accepts. -/
def run (p : Char → Bool) : List Mark → List Char
  | some c :: rest => if p c then c :: run p rest else []
  | _ => []

/-- The token that a single character is. -/
def punctuation? : Char → Option Token
  | '[' => some .openArray
  | ']' => some .closeArray
  | '\x7b' => some .openObject
  | '\x7d' => some .closeObject
  | ',' => some .comma
  | ':' => some .colon
  | _ => none

/-- The four characters that may stand between tokens. -/
def isSpace (c : Char) : Bool := c = ' ' || c = '\n' || c = '\t' || c = '\r'

/-- The tokens of a text. -/
def tokens? : List Mark → Option (List Token)
  | [] => some []
  | none :: _ => none
  | some c :: rest =>
    if isSpace c then tokens? rest
    else match punctuation? c with
      | some t => (tokens? rest).map (t :: ·)
      | none =>
        if c = '"' then
          match _h : scanPieces rest with
          | none => none
          | some (pieces, after) =>
            (tokens? after).map (.string ((spell? pieces).map String.ofList) :: ·)
        else if c.isDigit ∨ c = '-' then
          let digits := c :: run isNumberChar rest
          if isNumber digits then
            (tokens? (rest.drop (run isNumberChar rest).length)).map
              (.number (String.ofList digits) :: ·)
          else none
        else do
          let t ← word? (c :: run Char.isAlpha rest)
          let ts ← tokens? (rest.drop (run Char.isAlpha rest).length)
          some (t :: ts)
termination_by ms => ms.length
decreasing_by
  · simp
  · simp
  · have := length_scanPieces _h
    simp only [List.length_cons]; omega
  · simp only [List.length_drop, List.length_cons]; omega
  · simp only [List.length_drop, List.length_cons]; omega

end RpcWire.Json
