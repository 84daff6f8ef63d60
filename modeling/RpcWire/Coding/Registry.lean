import RpcWire.Coding.Pool
import RpcWire.Text.Cut
import RpcWire.Text.Number

/-!
# Negotiating compression

A `Registry` holds the pools that one side knows, in the order in which they
were registered. From it come the three answers that compression needs:

* `accept?` — what to advertise;
* `negotiate?` — which pool to use for a peer that advertised something;
* `resolve?` — which pool a payload was compressed with.

A `Threshold` says which pool compresses outgoing payloads, and from what size.
-/

namespace RpcWire

/-! ## Outgoing payloads -/

/-- Compress payloads of at least `minBytes` with `pool`. -/
structure Threshold where
  minBytes : Nat
  pool : Pool

/-- Whether a payload of this length is compressed. -/
def Threshold.admits (t : Threshold) (length : Nat) : Bool := t.minBytes ≤ length

/-- The pool that compresses this payload, if any does. -/
def Threshold.select? (t : Threshold) (payload : Bytes) : Option Pool :=
  if t.admits payload.length then some t.pool else none

/-! ## The registry -/

/-- The pools that one side knows. -/
structure Registry where
  pools : List Pool

namespace Registry

/-- The coding that changes nothing; it never names a pool. -/
def identity : String := "identity"

def empty : Registry := ⟨[]⟩

/-- Adds a pool after the others; one that had the name is forgotten. -/
def register (r : Registry) (p : Pool) : Registry :=
  ⟨r.pools.filter (fun q => q.name ≠ p.name) ++ [p]⟩

def ofList (ps : List Pool) : Registry := ps.foldl register empty

def find? (r : Registry) (name : String) : Option Pool := r.pools.find? fun p => p.name == name

/-- The names, in order of registration. -/
def names (r : Registry) : List String := r.pools.map Pool.name

def isEmpty (r : Registry) : Bool := r.pools.isEmpty

/-- What to advertise: the names between commas, or nothing at all. -/
def accept? (r : Registry) : Option String :=
  if r.isEmpty then none else some (String.intercalate "," r.names)

/-! ## What a peer sent -/

/-- The pool that an encoding header names. An absent header, a blank one, `identity` and a name
that is not registered all mean that nothing is compressed; of a list only the first counts. -/
def resolve? (r : Registry) (encoding : Option String) : Option Pool := do
  let header ← encoding
  let first ← (header.toList.splitOn ',').head?
  let name := String.ofList (Text.trim first)
  if name = "" ∨ name = identity then none else r.find? name

/-- One member of an accept header: a coding, and whether its weight refuses it. -/
structure Offer where
  coding : String
  refused : Bool
  deriving DecidableEq, Repr

/-- The weight among the parameters of an offer: the text after the first `q=`. -/
def weightText? (parameters : List Char) : Option (List Char) :=
  (parameters.splitOn ';').findSome? fun p => Text.stripStart? "q=" (Text.trim p)

/-- Whether the text of a weight refuses the coding. What is no number refuses nothing. -/
def isRefusal (weight : List Char) : Bool :=
  ((Number.Weight.parse? (Text.trim weight)).map Number.Weight.isRefusal).getD false

/-- Reads one member of an accept header; a blank one is no offer. -/
def Offer.parse? (member : List Char) : Option Offer :=
  let token := Text.trim member
  if token = [] then none
  else match Text.cutFirst? ';' token with
    | some (coding, parameters) =>
      some ⟨String.ofList (Text.trim coding), ((weightText? parameters).map isRefusal).getD false⟩
    | none => some ⟨String.ofList token, false⟩

/-- The offers of an accept header, in order of preference. -/
def offers (accept : String) : List Offer :=
  (accept.toList.splitOn ',').filterMap Offer.parse?

/-- The pool for the first offer that is not refused and either is `identity`, which means none,
or is registered. -/
def choose? (r : Registry) : List Offer → Option Pool
  | [] => none
  | o :: os =>
    if o.refused then r.choose? os
    else if o.coding = identity then none
    else (r.find? o.coding).or (r.choose? os)

/-- The pool to use for a peer that advertised `accept`. -/
def negotiate? (r : Registry) (accept : Option String) : Option Pool :=
  accept.bind fun header => r.choose? (offers header)

end Registry

end RpcWire
