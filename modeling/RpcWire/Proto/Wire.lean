import RpcWire.Text.Utf8

/-!
# The protobuf wire format

A message is a sequence of fields. Each begins with a key, that is, a number
that holds the field's tag and the kind of what follows: a variable-length
number, four or eight octets, a string of octets with its length in front, or a
group, which ends at a key of its own.

* `encodeFields` — the octets of a list of fields;
* `fields?` — the fields of an octet string.

A reader looks at the fields whose tags it knows and ignores the others, so
groups are read for their shape only. They may be nested only so deep.
-/

namespace RpcWire.Proto

/-! ## Variable-length numbers -/

/-- Seven bits an octet, least significant first; the highest bit says that more follow. -/
def encodeVarint (n : Nat) : Bytes :=
  if n < 128 then [UInt8.ofNat n] else UInt8.ofNat (n % 128 + 128) :: encodeVarint (n / 128)

/-- Reads a number of at most `room` octets and 64 bits: the number, and what follows it. -/
def varintWithin? : Nat → Bytes → Option (Nat × Bytes)
  | 0, _ => none
  | _, [] => none
  | room + 1, b :: rest =>
    if b < 0x80 then
      if room = 0 ∧ 2 ≤ b then none else some (b.toNat, rest)
    else (varintWithin? room rest).map fun (n, after) => (b.toNat % 128 + 128 * n, after)

/-- Reads a number of at most ten octets and 64 bits. -/
def varint? (bs : Bytes) : Option (Nat × Bytes) := varintWithin? 10 bs

theorem length_varintWithin? {room n : Nat} {bs after : Bytes}
    (h : varintWithin? room bs = some (n, after)) : after.length < bs.length := by
  induction room generalizing bs n with
  | zero => cases bs <;> simp [varintWithin?] at h
  | succ room ih =>
    cases bs with
    | nil => simp [varintWithin?] at h
    | cons b rest =>
      rw [varintWithin?] at h
      split at h
      · split at h
        · cases h
        · cases h; simp
      · simp only [Option.map_eq_some_iff, Prod.exists] at h
        obtain ⟨m, r, hr, h⟩ := h
        cases h
        have := ih hr
        simp only [List.length_cons]; omega

/-! ## Fields -/

/-- What follows a key. -/
inductive Content where
  | varint (n : Nat)
  | fixed64 (octets : Bytes)
  | bytes (octets : Bytes)
  | group
  | fixed32 (octets : Bytes)
  deriving DecidableEq, Repr

/-- One field of a message. -/
structure Field where
  tag : Nat
  content : Content
  deriving DecidableEq, Repr

/-- The number in a key that says what follows it. -/
inductive Kind where
  | varint
  | fixed64
  | bytes
  | openGroup
  | closeGroup
  | fixed32
  deriving DecidableEq, Repr

/-- The kind of a number. -/
def Kind.ofNumber? : Nat → Option Kind
  | 0 => some varint
  | 1 => some fixed64
  | 2 => some bytes
  | 3 => some openGroup
  | 4 => some closeGroup
  | 5 => some fixed32
  | _ => none

/-! ## Writing -/

/-- The octets of a field. Groups are not written. -/
def Field.encode (f : Field) : Bytes :=
  match f.content with
  | .varint n => encodeVarint (f.tag * 8) ++ encodeVarint n
  | .fixed64 octets => encodeVarint (f.tag * 8 + 1) ++ octets
  | .bytes octets => encodeVarint (f.tag * 8 + 2) ++ encodeVarint octets.length ++ octets
  | .group => []
  | .fixed32 octets => encodeVarint (f.tag * 8 + 5) ++ octets

def encodeFields (fs : List Field) : Bytes := fs.flatMap Field.encode

/-! ## Reading -/

/-- Reads a key: the tag, which is not zero, and the kind. A key fits 32 bits. -/
def key? (bs : Bytes) : Option (Nat × Kind × Bytes) := do
  let (n, rest) ← varint? bs
  if 0x1_0000_0000 ≤ n ∨ n / 8 = 0 then none
  else do
    let kind ← Kind.ofNumber? (n % 8)
    some (n / 8, kind, rest)

/-- Takes a number of octets off the front, if there are as many. -/
def take? (n : Nat) (bs : Bytes) : Option (Bytes × Bytes) :=
  if n ≤ bs.length then some (bs.take n, bs.drop n) else none

/-- Reads what follows a key whose kind is not about groups. -/
def scalar? : Kind → Bytes → Option (Content × Bytes)
  | .varint, bs => (varint? bs).map fun (n, rest) => (.varint n, rest)
  | .fixed64, bs => (take? 8 bs).map fun (octets, rest) => (.fixed64 octets, rest)
  | .fixed32, bs => (take? 4 bs).map fun (octets, rest) => (.fixed32 octets, rest)
  | .bytes, bs => do
    let (n, rest) ← varint? bs
    let (octets, rest) ← take? n rest
    some (.bytes octets, rest)
  | .openGroup, _ => none
  | .closeGroup, _ => none

theorem length_key? {bs after : Bytes} {tag : Nat} {kind : Kind}
    (h : key? bs = some (tag, kind, after)) : after.length < bs.length := by
  simp only [key?, Option.bind_eq_bind, Option.bind_eq_some_iff, Prod.exists] at h
  obtain ⟨n, rest, hv, h⟩ := h
  split at h
  · cases h
  · simp only [Option.bind_eq_some_iff] at h
    obtain ⟨k, _, h⟩ := h
    cases h
    exact length_varintWithin? hv

theorem length_take? {n : Nat} {bs octets after : Bytes} (h : take? n bs = some (octets, after)) :
    after.length ≤ bs.length := by
  unfold take? at h
  split at h
  · cases h; simp
  · cases h

theorem length_scalar? {kind : Kind} {bs after : Bytes} {c : Content}
    (h : scalar? kind bs = some (c, after)) : after.length ≤ bs.length := by
  cases kind with
  | varint =>
    simp only [scalar?, Option.map_eq_some_iff, Prod.exists] at h
    obtain ⟨n, r, hr, h⟩ := h
    cases h
    exact Nat.le_of_lt (length_varintWithin? hr)
  | fixed64 =>
    simp only [scalar?, Option.map_eq_some_iff, Prod.exists] at h
    obtain ⟨n, r, hr, h⟩ := h
    cases h
    exact length_take? hr
  | fixed32 =>
    simp only [scalar?, Option.map_eq_some_iff, Prod.exists] at h
    obtain ⟨n, r, hr, h⟩ := h
    cases h
    exact length_take? hr
  | bytes =>
    simp only [scalar?, Option.bind_eq_bind, Option.bind_eq_some_iff, Prod.exists] at h
    obtain ⟨n, r, hr, o, r', hr', h⟩ := h
    cases h
    exact Nat.le_trans (length_take? hr') (Nat.le_of_lt (length_varintWithin? hr))
  | openGroup => cases h
  | closeGroup => cases h

/-- Reads to the end of the innermost of some open groups and on to the end of the outermost: what
follows it. A group may hold fields only while fewer than `depth` groups are open. -/
def endOfGroup? (depth : Nat) (openTags : List Nat) (bs : Bytes) : Option Bytes :=
  match openTags with
  | [] => some bs
  | innermost :: outer =>
    match _h : key? bs with
    | none => none
    | some (tag, .closeGroup, rest) =>
      if tag = innermost then endOfGroup? depth outer rest else none
    | some (tag, .openGroup, rest) =>
      if outer.length + 1 < depth then endOfGroup? depth (tag :: innermost :: outer) rest else none
    | some (_, kind, rest) =>
      if outer.length + 1 < depth then
        match _h' : scalar? kind rest with
        | none => none
        | some (_, rest) => endOfGroup? depth (innermost :: outer) rest
      else none
termination_by bs.length
decreasing_by
  · exact length_key? _h
  · exact length_key? _h
  · exact Nat.lt_of_le_of_lt (length_scalar? _h') (length_key? _h)

theorem length_endOfGroup? {depth : Nat} {openTags : List Nat} {bs after : Bytes}
    (h : endOfGroup? depth openTags bs = some after) : after.length ≤ bs.length := by
  induction hn : bs.length using Nat.strongRecOn generalizing openTags bs with
  | ind n ih =>
    subst hn
    unfold endOfGroup? at h
    split at h
    · cases h; exact Nat.le_refl _
    · split at h
      · cases h
      · next hk =>
        split at h
        · have := length_key? hk
          have := ih _ (length_key? hk) h rfl
          omega
        · cases h
      · next hk =>
        split at h
        · have := length_key? hk
          have := ih _ (length_key? hk) h rfl
          omega
        · cases h
      · next hk =>
        split at h
        · split at h
          · cases h
          · next hs =>
            have hlt := Nat.lt_of_le_of_lt (length_scalar? hs) (length_key? hk)
            have := ih _ hlt h rfl
            omega
        · cases h

/-- The fields of a message inside which groups may be nested to a depth. -/
def fields? (depth : Nat) (bs : Bytes) : Option (List Field) :=
  if bs = [] then some []
  else
    match _h : key? bs with
    | none => none
    | some (tag, .openGroup, rest) =>
      match _h' : endOfGroup? depth [tag] rest with
      | none => none
      | some rest => (fields? depth rest).map (⟨tag, .group⟩ :: ·)
    | some (tag, kind, rest) =>
      match _h' : scalar? kind rest with
      | none => none
      | some (content, rest) => (fields? depth rest).map (⟨tag, content⟩ :: ·)
termination_by bs.length
decreasing_by
  · exact Nat.lt_of_le_of_lt (length_endOfGroup? _h') (length_key? _h)
  · exact Nat.lt_of_le_of_lt (length_scalar? _h') (length_key? _h)

/-- How deep groups may be nested in a message that is not part of another. -/
def maxDepth : Nat := 100

/-! ## Numbers and strings in fields -/

/-- A signed number as it is written: negative ones as their two's complement of 64 bits. -/
def ofSigned (n : Int) : Nat := (n % 0x1_0000_0000_0000_0000).toNat

/-- The signed number of 32 bits that the low bits of a number spell. -/
def signed32 (n : Nat) : Int := Int.bmod n 0x1_0000_0000

/-- The signed number of 64 bits that the low bits of a number spell. -/
def signed64 (n : Nat) : Int := Int.bmod n 0x1_0000_0000_0000_0000

theorem cast_ofSigned (n : Int) : (ofSigned n : Int) = n % 0x1_0000_0000_0000_0000 :=
  Int.toNat_of_nonneg (Int.emod_nonneg _ (by omega))

/-- A signed number of 64 bits is read back from what is written. -/
theorem signed64_ofSigned {n : Int} (low : -0x8000_0000_0000_0000 ≤ n)
    (high : n < 0x8000_0000_0000_0000) : signed64 (ofSigned n) = n := by
  unfold signed64
  rw [cast_ofSigned]
  refine Eq.trans (Int.emod_bmod n 0x1_0000_0000_0000_0000) (Int.bmod_eq_of_le ?_ ?_) <;> omega

/-- A signed number of 32 bits is read back from what is written. -/
theorem signed32_ofSigned {n : Int} (low : -0x8000_0000 ≤ n) (high : n < 0x8000_0000) :
    signed32 (ofSigned n) = n := by
  unfold signed32
  rw [cast_ofSigned]
  have once := Int.emod_bmod n 0x1_0000_0000
  have twice : (n % 0x1_0000_0000_0000_0000) % 0x1_0000_0000 = n % 0x1_0000_0000 := by omega
  have inner := Int.emod_bmod (n % 0x1_0000_0000_0000_0000) 0x1_0000_0000
  have small : Int.bmod n 0x1_0000_0000 = n := by apply Int.bmod_eq_of_le <;> omega
  exact inner.symm.trans
    ((congrArg (fun x => Int.bmod x 0x1_0000_0000) twice).trans (once.trans small))

/-- A field with a number; zero is not written. -/
def numberField (tag : Nat) (n : Int) : List Field :=
  if n = 0 then [] else [⟨tag, .varint (ofSigned n)⟩]

/-- A field with octets; no octets are not written. -/
def bytesField (tag : Nat) (octets : Bytes) : List Field :=
  if octets = [] then [] else [⟨tag, .bytes octets⟩]

/-- A field with a text; an empty text is not written. -/
def textField (tag : Nat) (s : String) : List Field := bytesField tag (Utf8.encode s)

/-- The content of a field with a number. -/
def Content.number? : Content → Option Nat
  | .varint n => some n
  | _ => none

/-- The content of a field with octets. -/
def Content.bytes? : Content → Option Bytes
  | .bytes octets => some octets
  | _ => none

/-- The content of a field with a text. -/
def Content.text? (c : Content) : Option String := c.bytes?.bind Utf8.decode?

end RpcWire.Proto
