/-!
# Cutting text

Header values, paths and queries are read by a few cuts on lists of
characters: at a separator, at the first or the last of its kind, at CRLF, and
by stripping what stands at an end. Blank means the characters with the
Unicode property `White_Space`.
-/

namespace RpcWire.Text

/-! ## Blanks -/

/-- The characters with the Unicode property `White_Space`. -/
def isBlank (c : Char) : Bool :=
  let n := c.toNat
  (0x09 ≤ n && n ≤ 0x0D) || n == 0x20 || n == 0x85 || n == 0xA0 || n == 0x1680 ||
    (0x2000 ≤ n && n ≤ 0x200A) || n == 0x2028 || n == 0x2029 || n == 0x202F || n == 0x205F ||
    n == 0x3000

/-- The text without the characters `p` at its end. -/
def dropTrailing (p : Char → Bool) (cs : List Char) : List Char :=
  (cs.reverse.dropWhile p).reverse

def trim (cs : List Char) : List Char := dropTrailing isBlank (cs.dropWhile isBlank)

/-! ## Separators -/

/-- What stands before and after the first `sep`, if there is one. -/
def cutFirst? (sep : Char) : List Char → Option (List Char × List Char)
  | [] => none
  | c :: cs =>
    if c = sep then some ([], cs)
    else (cutFirst? sep cs).map fun (before, after) => (c :: before, after)

/-- What stands before and after the last `sep`, if there is one. -/
def cutLast? (sep : Char) : List Char → Option (List Char × List Char)
  | [] => none
  | c :: cs =>
    match cutLast? sep cs with
    | some (before, after) => some (c :: before, after)
    | none => if c = sep then some ([], cs) else none

/-- The text after `stem`, if the text begins with it. -/
def stripStart? (stem : String) (cs : List Char) : Option (List Char) :=
  stem.toList.isPrefixOf? cs

def startsWith (stem : String) (cs : List Char) : Bool := stem.toList.isPrefixOf cs

/-- The lines of a text, a line ending at each CRLF. A lone CR or LF is part of its line. -/
def lines : List Char → List (List Char)
  | [] => [[]]
  | '\r' :: '\n' :: cs => [] :: lines cs
  | c :: cs =>
    match lines cs with
    | [] => [[c]]
    | l :: ls => (c :: l) :: ls

/-! ## Case -/

/-- The text with ASCII capitals made small. -/
def lower (s : String) : String := String.ofList (s.toList.map Char.toLower)

/-! ## Laws -/

/-- What is decided for every ASCII code holds of every ASCII character. -/
theorem forall_ascii {p : Char → Prop} (h : ∀ n < 128, p (Char.ofNat n)) {c : Char}
    (hc : c.toNat < 128) : p c := by
  have here := h c.toNat hc
  rwa [Char.ofNat_toNat] at here

theorem cutFirst?_append {sep : Char} {before : List Char} (h : sep ∉ before)
    (after : List Char) : cutFirst? sep (before ++ sep :: after) = some (before, after) := by
  induction before with
  | nil => simp [cutFirst?]
  | cons c cs ih =>
    have hc : c ≠ sep := fun e => h (by simp [e])
    simp [cutFirst?, hc, ih (fun hm => h (by simp [hm]))]

theorem cutFirst?_eq_none {sep : Char} {cs : List Char} (h : sep ∉ cs) :
    cutFirst? sep cs = none := by
  induction cs with
  | nil => rfl
  | cons c cs ih =>
    have hc : c ≠ sep := fun e => h (by simp [e])
    simp [cutFirst?, hc, ih (fun hm => h (by simp [hm]))]

theorem cutLast?_eq_none {sep : Char} {cs : List Char} (h : sep ∉ cs) :
    cutLast? sep cs = none := by
  induction cs with
  | nil => rfl
  | cons c cs ih =>
    have hc : c ≠ sep := fun e => h (by simp [e])
    simp [cutLast?, hc, ih (fun hm => h (by simp [hm]))]

theorem cutLast?_append {sep : Char} (before : List Char) {after : List Char}
    (h : sep ∉ after) : cutLast? sep (before ++ sep :: after) = some (before, after) := by
  induction before with
  | nil => simp [cutLast?, cutLast?_eq_none h]
  | cons c cs ih => simp [cutLast?, ih]

end RpcWire.Text
