import RpcWire.Text.Cut
import RpcWire.Text.Utf8

/-!
# Metadata

Headers and trailers: a multimap from names to values. A name is a legal HTTP
token and is held in lower case, so that every look-up ignores case. A value is
a string of octets without controls other than the tab; only a value that is
visible ASCII can be looked up as text, the others are opaque.

The fields are kept in one list, every one of them legal. Its order matters
only among values of one name: `values` is the view that every other
observation is read from, and `Metadata.Same` says that two maps have the same
view.
-/

namespace RpcWire

/-! ## Legal names and values -/

/-- The characters of an HTTP token. -/
def isTokenChar (c : Char) : Bool :=
  c.isAlphanum || [0x21, 0x23, 0x24, 0x25, 0x26, 0x27, 0x2A, 0x2B, 0x2D, 0x2E, 0x5E, 0x5F, 0x60,
    0x7C, 0x7E].contains c.toNat

/-- The longest name that is accepted. -/
def maxNameLength : Nat := 65535

/-- Whether a text is a token that can name a field. -/
def isFieldName (s : String) : Bool :=
  let cs := s.toList
  !cs.isEmpty && cs.all isTokenChar && cs.length ≤ maxNameLength

/-- The octets that a value may hold: no controls but the tab. -/
def isFieldByte (b : UInt8) : Bool := (0x20 ≤ b && b ≠ 0x7F) || b = 0x09

/-- Visible ASCII and the tab. -/
def isVisibleByte (b : UInt8) : Bool := (0x20 ≤ b && b ≤ 0x7E) || b = 0x09

/-- The text of a value that is visible ASCII. -/
def visibleText? (value : Bytes) : Option String :=
  if value.all isVisibleByte then
    some (String.ofList (value.map fun b => Char.ofNat b.toNat))
  else none

/-- A character of a token is ASCII. -/
theorem toNat_lt_of_isTokenChar {c : Char} (h : isTokenChar c = true) : c.toNat < 128 := by
  delta isTokenChar Char.isAlphanum Char.isAlpha Char.isUpper Char.isLower Char.isDigit at h
  simp only [Bool.or_eq_true, Bool.and_eq_true, decide_eq_true_eq, List.contains_eq_mem,
    List.mem_cons, List.not_mem_nil, or_false] at h
  have e : c.toNat = c.val.toNat := rfl
  simp only [ge_iff_le, UInt32.le_iff_toNat_le] at h
  rcases h with ((⟨_, h⟩ | ⟨_, h⟩) | ⟨_, h⟩) | h
  · exact Nat.lt_of_le_of_lt h (by decide)
  · exact Nat.lt_of_le_of_lt h (by decide)
  · exact Nat.lt_of_le_of_lt h (by decide)
  · omega

/-- Making a character of a token small keeps it one, and doing it again changes nothing. -/
theorem toLower_of_isTokenChar {c : Char} (h : isTokenChar c = true) :
    isTokenChar c.toLower = true ∧ c.toLower.toLower = c.toLower :=
  Text.forall_ascii (p := fun c => isTokenChar c = true →
    isTokenChar c.toLower = true ∧ c.toLower.toLower = c.toLower) (by decide)
    (toNat_lt_of_isTokenChar h) h

/-! ## Fields -/

/-- One value with the name it belongs to. -/
structure Field where
  name : String
  value : Bytes
  deriving DecidableEq, Repr

/-- The name is a token in lower case and the value holds no control but the tab. -/
def Field.Legal (f : Field) : Prop :=
  isFieldName f.name = true ∧ Text.lower f.name = f.name ∧ f.value.all isFieldByte = true

instance (f : Field) : Decidable f.Legal := inferInstanceAs (Decidable (_ ∧ _ ∧ _))

/-- A legal name in lower case is a legal name in lower case. -/
theorem isFieldName_lower {key : String} (h : isFieldName key = true) :
    isFieldName (Text.lower key) = true ∧ Text.lower (Text.lower key) = Text.lower key := by
  simp only [isFieldName, Bool.and_eq_true, Bool.not_eq_true', List.isEmpty_eq_false_iff,
    decide_eq_true_eq, List.all_eq_true] at h
  obtain ⟨⟨hne, hall⟩, hlen⟩ := h
  constructor
  · simp only [isFieldName, Text.lower, String.toList_ofList, Bool.and_eq_true, Bool.not_eq_true',
      List.isEmpty_eq_false_iff, decide_eq_true_eq, List.all_eq_true, List.length_map,
      List.mem_map, forall_exists_index, and_imp]
    refine ⟨⟨by simpa using hne, ?_⟩, hlen⟩
    rintro _ c hc rfl
    exact (toLower_of_isTokenChar (hall c hc)).1
  · simp only [Text.lower, String.toList_ofList, List.map_map]
    congr 1
    exact List.map_congr_left fun c hc => (toLower_of_isTokenChar (hall c hc)).2

/-- The field of a name in any case and a value, if both are legal. -/
def Field.make? (key : String) (value : Bytes) : Option { f : Field // f.Legal } :=
  if h : isFieldName key = true ∧ value.all isFieldByte = true then
    some ⟨⟨Text.lower key, value⟩, (isFieldName_lower h.1).1, (isFieldName_lower h.1).2, h.2⟩
  else none

/-! ## The map -/

/-- Headers or trailers. -/
structure Metadata where
  /-- Every value with its name, in order of arrival. -/
  fields : List Field
  legal : ∀ f ∈ fields, f.Legal

namespace Metadata

theorem ext {m other : Metadata} (h : m.fields = other.fields) : m = other := by
  cases m; cases other; cases h; rfl

instance : DecidableEq Metadata := fun m other =>
  if h : m.fields = other.fields then isTrue (ext h) else isFalse fun e => h (e ▸ rfl)

def empty : Metadata := ⟨[], by simp⟩

instance : Inhabited Metadata := ⟨empty⟩

/-- The values of a name, in order. -/
def values (m : Metadata) (key : String) : List Bytes :=
  let name := Text.lower key
  m.fields.filterMap fun f => if f.name = name then some f.value else none

/-- The values of a name that are visible text, in order. -/
def texts (m : Metadata) (key : String) : List String := (m.values key).filterMap visibleText?

/-- The first value of a name, if it is visible text. -/
def text? (m : Metadata) (key : String) : Option String := (m.values key).head?.bind visibleText?

def value? (m : Metadata) (key : String) : Option Bytes := (m.values key).head?

def contains (m : Metadata) (key : String) : Bool := !(m.values key).isEmpty

/-- The names that have values, each once. -/
def names (m : Metadata) : List String := (m.fields.map Field.name).eraseDups

def size (m : Metadata) : Nat := m.fields.length

def isEmpty (m : Metadata) : Bool := m.fields.isEmpty

/-! ## Changing the map -/

/-- Adds a field after all others. -/
def push (m : Metadata) (f : { f : Field // f.Legal }) : Metadata :=
  ⟨m.fields ++ [f.1], by
    intro g hg
    rcases List.mem_append.1 hg with hg | hg
    · exact m.legal g hg
    · rw [List.mem_singleton.1 hg]; exact f.2⟩

/-- Only the fields that `p` accepts. -/
def keep (m : Metadata) (p : Field → Bool) : Metadata :=
  ⟨m.fields.filter p, fun f hf => m.legal f (List.mem_filter.1 hf).1⟩

/-- Adds every value of another map. -/
def merge (m other : Metadata) : Metadata :=
  ⟨m.fields ++ other.fields, fun f hf =>
    (List.mem_append.1 hf).elim (m.legal f) (other.legal f)⟩

/-- Adds an octet value after those the name has; refuses an illegal name or value. -/
def addBytes? (m : Metadata) (key : String) (value : Bytes) : Option Metadata :=
  (Field.make? key value).map m.push

/-- Adds an octet value if it and the name are legal. -/
def addBytes (m : Metadata) (key : String) (value : Bytes) : Metadata :=
  (m.addBytes? key value).getD m

/-- Adds a text after the values the name has; refuses an illegal name or value. -/
def add? (m : Metadata) (key value : String) : Option Metadata :=
  m.addBytes? key (Utf8.encode value)

/-- Adds a text if it and the name are legal. -/
def add (m : Metadata) (key value : String) : Metadata := (m.add? key value).getD m

def erase (m : Metadata) (key : String) : Metadata :=
  let name := Text.lower key
  m.keep fun f => f.name ≠ name

/-- Makes a text the only value of a name; refuses an illegal name or value. -/
def set? (m : Metadata) (key value : String) : Option Metadata := (m.erase key).add? key value

/-- Makes a text the only value of a name if both are legal. -/
def set (m : Metadata) (key value : String) : Metadata := (m.set? key value).getD m

/-- Makes the value of a field the only one of its name. -/
def setField (m : Metadata) (f : { f : Field // f.Legal }) : Metadata :=
  (m.erase f.1.name).push f

/-- Makes the legal ones of a list of texts the values of a name. -/
def setAll (m : Metadata) (key : String) (texts : List String) : Metadata :=
  texts.foldl (fun m value => m.add key value) (m.erase key)

/-- Makes a text the value of a name that has none. -/
def setDefault (m : Metadata) (key value : String) : Metadata :=
  if m.contains key then m else m.set key value

/-- The map with the legal ones of a list of texts. -/
def ofTexts (fields : List (String × String)) : Metadata :=
  fields.foldl (fun m f => m.add f.1 f.2) empty

/-! ## Comparison -/

/-- Same names, and the same values in the same order for each. -/
def same (m other : Metadata) : Bool :=
  (m.names ++ other.names).all fun name => m.values name == other.values name

/-- Two maps that no look-up tells apart. -/
def Same (m other : Metadata) : Prop := ∀ key, m.values key = other.values key

/-! ## The view of each operation -/

@[simp] theorem values_empty (key : String) : empty.values key = [] := rfl

theorem values_merge (m other : Metadata) (key : String) :
    (m.merge other).values key = m.values key ++ other.values key := by
  simp [values, merge]

@[simp] theorem size_merge (m other : Metadata) :
    (m.merge other).size = m.size + other.size := by
  simp [size, merge]

@[simp] theorem merge_empty (m : Metadata) : m.merge empty = m := ext (by simp [merge, empty])

@[simp] theorem empty_merge (m : Metadata) : empty.merge m = m := ext (by simp [merge, empty])

theorem merge_assoc (a b c : Metadata) : (a.merge b).merge c = a.merge (b.merge c) :=
  ext (by simp [merge, List.append_assoc])

end Metadata

end RpcWire
