import RpcWire.Json.Token

/-!
# JSON values

The second step of reading JSON: a machine takes one token after another and
keeps a stack of the arrays and objects that are still open, so values may be
nested to any depth. `Value.parse?` reads a whole text; `Value.render` writes
one, without spaces.

A string without content and an object one of whose names has none are
`unusable`: well-formed, so that a reader may skip them, and of no other use.
-/

namespace RpcWire.Json

/-- A JSON value. The fields of an object are kept as they came, repeated names included. -/
inductive Value where
  | null
  | bool (b : Bool)
  | number (text : String)
  | string (s : String)
  | array (items : List Value)
  | object (fields : List (String × Value))
  | unusable
  deriving Repr

/-! ## Reading -/

/-- An array or object that is not closed yet, its members latest first. Of an object also whether
all its names have content, and the name whose value is due. -/
inductive Container where
  | array (items : List Value)
  | object (fields : List (String × Value)) (usable : Bool) (name : String)

/-- What the next token may be. -/
inductive Expectation where
  | value
  | valueOrClose
  | name
  | nameOrClose
  | colon
  | commaOrClose
  deriving DecidableEq, Repr

/-- The state of the machine: inside some containers, or done with the one value. -/
inductive Machine where
  | reading (expect : Expectation) (containers : List Container)
  | done (v : Value)

/-- A value is complete: it becomes a member of the innermost container. -/
def deliver (v : Value) : List Container → Machine
  | [] => .done v
  | .array items :: outer => .reading .commaOrClose (.array (v :: items) :: outer)
  | .object fields usable name :: outer =>
    .reading .commaOrClose (.object ((name, v) :: fields) usable name :: outer)

/-- The value of a container that is closed. -/
def Container.close : Container → Value
  | .array items => .array items.reverse
  | .object fields usable _ => if usable then .object fields.reverse else .unusable

/-- A token where a value may begin. -/
def beginValue (containers : List Container) : Token → Option Machine
  | .null => some (deliver .null containers)
  | .bool b => some (deliver (.bool b) containers)
  | .number text => some (deliver (.number text) containers)
  | .string (some s) => some (deliver (.string s) containers)
  | .string none => some (deliver .unusable containers)
  | .openArray => some (.reading .valueOrClose (.array [] :: containers))
  | .openObject => some (.reading .nameOrClose (.object [] true "" :: containers))
  | _ => none

/-- A token where the name of a field is due. -/
def beginField : List Container → Token → Option Machine
  | .object fields usable _ :: outer, .string (some s) =>
    some (.reading .colon (.object fields usable s :: outer))
  | .object fields _ _ :: outer, .string none =>
    some (.reading .colon (.object fields false "" :: outer))
  | _, _ => none

/-- A token that closes the innermost container. -/
def endContainer : List Container → Token → Option Machine
  | c@(.array _) :: outer, .closeArray => some (deliver c.close outer)
  | c@(.object _ _ _) :: outer, .closeObject => some (deliver c.close outer)
  | _, _ => none

def Machine.step : Machine → Token → Option Machine
  | .done _, _ => none
  | .reading .value cs, t => beginValue cs t
  | .reading .valueOrClose cs, t => (endContainer cs t).or (beginValue cs t)
  | .reading .name cs, t => beginField cs t
  | .reading .nameOrClose cs, t => (endContainer cs t).or (beginField cs t)
  | .reading .colon cs, .colon => some (.reading .value cs)
  | .reading .colon _, _ => none
  | .reading .commaOrClose (.array items :: outer), .comma =>
    some (.reading .value (.array items :: outer))
  | .reading .commaOrClose (.object fields usable name :: outer), .comma =>
    some (.reading .name (.object fields usable name :: outer))
  | .reading .commaOrClose cs, t => endContainer cs t

/-- The value of a list of tokens. -/
def Value.ofTokens? (ts : List Token) : Option Value :=
  match ts.foldlM Machine.step (.reading .value []) with
  | some (.done v) => some v
  | _ => none

def Value.parse? (text : Bytes) : Option Value :=
  (tokens? (Utf8.units text)).bind Value.ofTokens?

/-! ## Sorting -/

/-- Puts an entry into a list sorted by name, in place of the one that had the name. -/
def insertByName {α : Type} (name : String) (a : α) : List (String × α) → List (String × α)
  | [] => [(name, a)]
  | e :: es =>
    if name < e.1 then (name, a) :: e :: es
    else if name = e.1 then (name, a) :: es
    else e :: insertByName name a es

/-- The entries of a list in the order of their names, the last one of each name. -/
def sortedByName {α : Type} (entries : List (String × α)) : List (String × α) :=
  entries.foldl (fun es e => insertByName e.1 e.2 es) []

mutual

/-- The value with the fields of every object in the order of their names. -/
def Value.canonical : Value → Value
  | .array items => .array (canonicalItems items)
  | .object fields => .object (sortedByName (canonicalFields fields))
  | v => v

/-- The members of an array, each in canonical form. -/
def canonicalItems : List Value → List Value
  | [] => []
  | v :: vs => v.canonical :: canonicalItems vs

/-- The fields of an object, each value in canonical form. -/
def canonicalFields : List (String × Value) → List (String × Value)
  | [] => []
  | (name, v) :: fields => (name, v.canonical) :: canonicalFields fields

end

/-! ## Writing -/

/-- A character inside a string. Controls have a short escape or one of four digits. -/
def escape (c : Char) : List Char :=
  if c = '"' then ['\\', '"']
  else if c = '\\' then ['\\', '\\']
  else if c = '\x08' then ['\\', 'b']
  else if c = '\x0C' then ['\\', 'f']
  else if c = '\n' then ['\\', 'n']
  else if c = '\r' then ['\\', 'r']
  else if c = '\t' then ['\\', 't']
  else if c.toNat < 0x20 then
    ['\\', 'u', '0', '0', Bytes.hexDigit (c.toNat / 16), Bytes.hexDigit (c.toNat % 16)]
  else [c]

/-- A string between quotes. -/
def quote (s : String) : List Char := '"' :: s.toList.flatMap escape ++ ['"']

/-- Members with commas between them. -/
def commaSeparated : List (List Char) → List Char
  | [] => []
  | [m] => m
  | m :: ms => m ++ ',' :: commaSeparated ms

mutual

def Value.render : Value → List Char
  | .null => "null".toList
  | .bool true => "true".toList
  | .bool false => "false".toList
  | .number text => text.toList
  | .string s => quote s
  | .array items => '[' :: commaSeparated (renderItems items) ++ [']']
  | .object fields => '\x7b' :: commaSeparated (renderFields fields) ++ ['\x7d']
  | .unusable => "null".toList

/-- The texts of the members of an array. -/
def renderItems : List Value → List (List Char)
  | [] => []
  | v :: vs => v.render :: renderItems vs

/-- The texts of the fields of an object. -/
def renderFields : List (String × Value) → List (List Char)
  | [] => []
  | (name, v) :: fields => (quote name ++ ':' :: v.render) :: renderFields fields

end

def Value.encode (v : Value) : Bytes := Utf8.encodeChars v.render

/-! ## Using values -/

namespace Value

def string? : Value → Option String
  | .string s => some s
  | _ => none

def array? : Value → Option (List Value)
  | .array items => some items
  | _ => none

def object? : Value → Option (List (String × Value))
  | .object fields => some fields
  | _ => none

/-- Reads a value that may be missing or null. -/
def optional? {α : Type} (read : Value → Option α) : Option Value → Option (Option α)
  | none | some .null => some none
  | some v => (read v).map some

/-- The value of a field that may occur once at most. -/
def field? (fields : List (String × Value)) (name : String) : Option (Option Value) :=
  match fields.filter fun f => f.1 == name with
  | [] => some none
  | [f] => some (some f.2)
  | _ => none

/-- The values of the named slots of a record. A record is written as an object, whose other fields
are ignored, or as an array that has the slots in their order. -/
def slots? (names : List String) : Value → Option (List (Option Value))
  | .object fields => names.mapM (field? fields)
  | .array items => if items.length = names.length then some (items.map some) else none
  | _ => none

/-- The values of the named slots of a record whose array form may leave out the last ones. -/
def openSlots? (names : List String) : Value → Option (List (Option Value))
  | .array items =>
    if items.length ≤ names.length then
      some (items.map some ++ List.replicate (names.length - items.length) none)
    else none
  | v => slots? names v

end Value

end RpcWire.Json
