import RpcWire.Text.Cut
import RpcWire.Text.Utf8

/-!
# Request targets

The target of an HTTP request: a path with perhaps a query, an absolute URL, or
a bare authority. A fragment is dropped. Reading is strict about the characters
that may stand in each part; what is not ASCII may stand in paths and queries.
-/

namespace RpcWire.Http

/-- The parts of a request target. -/
structure Target where
  scheme : Option String
  authority : String
  /-- Empty only if the target is a bare authority. -/
  path : String
  query : Option String
  deriving DecidableEq, Repr

namespace Target

/-- The greatest number of octets of a target. -/
def maxLength : Nat := 65534

/-! ## Schemes -/

def maxScheme : Nat := 64

def isSchemeChar (c : Char) : Bool := c.isAlphanum || ['+', '-', '.', '~'].contains c

/-- What reading a scheme can come to. -/
inductive SchemePart where
  | absent
  | tooLong
  | present (scheme : String) (rest : List Char)

/-- The scheme in front of `://`. The two usual ones are known in any case, and are given in
lower case; for any other there have to be more than three characters in all. -/
def cutScheme (cs : List Char) : SchemePart :=
  if (cs.take 7).map Char.toLower = "http://".toList then .present "http" (cs.drop 7)
  else if (cs.take 8).map Char.toLower = "https://".toList then .present "https" (cs.drop 8)
  else
    let scheme := cs.takeWhile isSchemeChar
    match Text.stripStart? "://" (cs.dropWhile isSchemeChar) with
    | some rest =>
      if (Utf8.encodeChars cs).length ≤ 3 then .absent
      else if maxScheme < scheme.length then .tooLong
      else .present (String.ofList scheme) rest
    | none => .absent

/-! ## Authorities -/

/-- The characters that end an authority. -/
def endsAuthority (c : Char) : Bool := c = '/' || c = '?' || c = '#'

/-- The characters that may stand in an authority, brackets, colons and percent signs apart. -/
def isAuthorityChar (c : Char) : Bool :=
  c.isAlphanum ||
    ['!', '$', '&', '\'', '(', ')', '*', '+', ',', '-', '.', ';', '=', '_', '~'].contains c

/-- What has been seen of an authority: the colons and the percent sign since the last at-sign or
closing bracket, the brackets, and whether the last character was an at-sign. -/
structure AuthorityScan where
  colons : Nat
  percent : Bool
  opened : Bool
  closed : Bool
  lastAt : Bool
  deriving DecidableEq, Repr

/-- Takes one character of an authority into account. -/
def AuthorityScan.step (s : AuthorityScan) (c : Char) : Option AuthorityScan :=
  let s' := { s with lastAt := false }
  if c = ':' then if 8 ≤ s.colons then none else some { s' with colons := s.colons + 1 }
  else if c = '[' then if s.percent ∨ s.opened then none else some { s' with opened := true }
  else if c = ']' then
    if s.opened ∧ ¬ s.closed then some { s' with closed := true, colons := 0, percent := false }
    else none
  else if c = '@' then some { s with colons := 0, percent := false, lastAt := true }
  else if c = '%' then some { s' with percent := true }
  else if isAuthorityChar c then some s'
  else none

/-- Whether a text is an authority: brackets come in a pair, at most one colon comes before a
port, a percent sign stands only in what precedes an at-sign or in brackets, and an at-sign is not
the last character. -/
def isAuthority (cs : List Char) : Bool :=
  match cs.foldlM AuthorityScan.step ⟨0, false, false, false, false⟩ with
  | some s => s.opened = s.closed && s.colons ≤ 1 && !s.lastAt && !s.percent
  | none => false

/-! ## Paths and queries -/

/-- The characters that may stand in a path: of ASCII no controls, and not all signs. -/
def isPathChar (c : Char) : Bool :=
  let n := c.toNat
  n = 0x21 || n = 0x22 || (0x24 ≤ n && n ≤ 0x3B) || n = 0x3D || (0x40 ≤ n && n ≤ 0x5F) ||
    (0x61 ≤ n && n ≠ 0x7F)

/-- The characters that may stand in a query: of ASCII no controls, and not all signs. -/
def isQueryChar (c : Char) : Bool :=
  let n := c.toNat
  n = 0x21 || (0x24 ≤ n && n ≤ 0x3B) || n = 0x3D || (0x3F ≤ n && n ≠ 0x7F)

/-- The text before a fragment. -/
def beforeFragment (cs : List Char) : List Char := cs.takeWhile (· ≠ '#')

/-- The path and the query of a text. -/
def cutQuery? (cs : List Char) : Option (List Char × Option (List Char)) :=
  let cs := beforeFragment cs
  match Text.cutFirst? '?' cs with
  | some (path, query) =>
    if path.all isPathChar ∧ query.all isQueryChar then some (path, some query) else none
  | none => if cs.all isPathChar then some (cs, none) else none

/-- A target of given scheme and authority; an empty path is the root. -/
def ofParts? (scheme : Option String) (authority cs : List Char) : Option Target := do
  let (path, query) ← cutQuery? cs
  some ⟨scheme, String.ofList authority, if path = [] then "/" else String.ofList path,
    query.map String.ofList⟩

/-! ## Targets -/

def parse? (text : String) : Option Target :=
  let cs := text.toList
  if maxLength < (Utf8.encodeChars cs).length then none
  else if cs = ['*'] then some ⟨none, "", "*", none⟩
  else if cs.head? = some '/' then ofParts? none [] cs
  else match cutScheme cs with
    | .tooLong => none
    | .absent => if cs ≠ [] ∧ isAuthority cs then some ⟨none, text, "", none⟩ else none
    | .present scheme rest =>
      let authority := rest.takeWhile fun c => !endsAuthority c
      if authority ≠ [] ∧ isAuthority authority then
        ofParts? (some scheme) authority (rest.dropWhile fun c => !endsAuthority c)
      else none

end Target

end RpcWire.Http
