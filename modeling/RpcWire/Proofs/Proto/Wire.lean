import Mathlib.Algebra.Order.Ring.Int
import RpcWire.Proto.Wire

/-!
# Protobuf fields are read back

A list of fields that fit the wire is read back from its octets
(`fields?_encodeFields`). What bounds the fields is the length of what is
written: every content is at most as long as the whole.
-/

namespace RpcWire.Proto

/-! ## Variable-length numbers -/

theorem encodeVarint_small {n : Nat} (h : n < 128) : encodeVarint n = [UInt8.ofNat n] := by
  rw [encodeVarint, if_pos h]

theorem encodeVarint_large {n : Nat} (h : ¬ n < 128) :
    encodeVarint n = UInt8.ofNat (n % 128 + 128) :: encodeVarint (n / 128) := by
  conv => lhs; rw [encodeVarint, if_neg h]

/-- A number is read back if there is room for its octets; the last of ten holds one bit. -/
theorem varintWithin?_encodeVarint {room n : Nat} (h : n < 2 ^ (7 * room + 1)) (rest : Bytes) :
    varintWithin? (room + 1) (encodeVarint n ++ rest) = some (n, rest) := by
  induction room generalizing n with
  | zero =>
    -- the last octet that there is room for holds the one bit that is left
    have small : n < 2 := by simpa using h
    rw [encodeVarint_small (by omega), List.singleton_append, varintWithin?]
    have value := UInt8.toNat_ofNat_of_lt' (show n < 256 by omega)
    have last : UInt8.ofNat n < 0x80 := by
      rw [UInt8.lt_iff_toNat_lt, value]
      show n < 128
      omega
    have fits : ¬ (0 = 0 ∧ 2 ≤ UInt8.ofNat n) := by
      rw [UInt8.le_iff_toNat_le, value]
      show ¬ (0 = 0 ∧ 2 ≤ n)
      omega
    rw [if_pos last, if_neg fits, value]
  | succ room ih =>
    by_cases small : n < 128
    · rw [encodeVarint_small small, List.singleton_append, varintWithin?]
      have value := UInt8.toNat_ofNat_of_lt' (show n < 256 by omega)
      have last : UInt8.ofNat n < 0x80 := by
        rw [UInt8.lt_iff_toNat_lt, value]
        exact small
      rw [if_pos last, if_neg (fun h => by omega), value]
    · -- seven bits go into this octet and the others into the room that is left
      rw [encodeVarint_large small, List.cons_append, varintWithin?]
      have value := UInt8.toNat_ofNat_of_lt' (show n % 128 + 128 < 256 by omega)
      have more : ¬ UInt8.ofNat (n % 128 + 128) < 0x80 := by
        rw [UInt8.lt_iff_toNat_lt, value]
        show ¬ n % 128 + 128 < 128
        omega
      have room' : n / 128 < 2 ^ (7 * room + 1) := by
        have step : 2 ^ (7 * (room + 1) + 1) = 128 * 2 ^ (7 * room + 1) := by
          rw [show 7 * (room + 1) + 1 = 7 + (7 * room + 1) by omega, Nat.pow_add]
        omega
      rw [if_neg more, ih room', Option.map_some, value]
      show some ((n % 128 + 128) % 128 + 128 * (n / 128), rest) = _
      rw [show (n % 128 + 128) % 128 + 128 * (n / 128) = n by omega]

/-- A number below two to the sixty-four is read back, and what follows is untouched. -/
theorem varint?_encodeVarint {n : Nat} (h : n < 2 ^ 64) (rest : Bytes) :
    varint? (encodeVarint n ++ rest) = some (n, rest) :=
  @varintWithin?_encodeVarint 9 n h rest

theorem encodeVarint_ne_nil (n : Nat) : encodeVarint n ≠ [] := by
  by_cases h : n < 128
  · simp [encodeVarint_small h]
  · simp [encodeVarint_large h]

/-! ## Fields -/

/-- What fits the wire: a number of 64 bits, or octets whose number is one. -/
def Content.Fits : Content → Prop
  | .varint n => n < 2 ^ 64
  | .fixed64 octets => octets.length = 8
  | .bytes octets => octets.length < 2 ^ 64
  | .group => False
  | .fixed32 octets => octets.length = 4

/-- A field that fits the wire: its tag is not zero and leaves three of 32 bits to the kind. -/
structure Field.Fits (f : Field) : Prop where
  tag_pos : 0 < f.tag
  tag_lt : f.tag < 2 ^ 29
  content : f.content.Fits

/-- The number of what follows a key. -/
def Content.kind : Content → Kind × Nat
  | .varint _ => (.varint, 0)
  | .fixed64 _ => (.fixed64, 1)
  | .bytes _ => (.bytes, 2)
  | .group => (.openGroup, 3)
  | .fixed32 _ => (.fixed32, 5)

theorem ofNumber?_kind (c : Content) : Kind.ofNumber? c.kind.2 = some c.kind.1 := by
  cases c <;> rfl

theorem kind_lt (c : Content) : c.kind.2 < 8 := by
  cases c <;> simp [Content.kind]

/-- What follows the key of a field. -/
def Content.body : Content → Bytes
  | .varint n => encodeVarint n
  | .fixed64 octets => octets
  | .bytes octets => encodeVarint octets.length ++ octets
  | .group => []
  | .fixed32 octets => octets

theorem encode_eq {f : Field} (h : f.Fits) :
    f.encode = encodeVarint (f.tag * 8 + f.content.kind.2) ++ f.content.body := by
  obtain ⟨tag, content⟩ := f
  cases content with
  | group => exact absurd h.content id
  | bytes octets => exact List.append_assoc _ _ _
  | _ => rfl

theorem key?_encodeVarint {tag : Nat} {c : Content} (hpos : 0 < tag) (hlt : tag < 2 ^ 29)
    (rest : Bytes) :
    key? (encodeVarint (tag * 8 + c.kind.2) ++ rest) = some (tag, c.kind.1, rest) := by
  have hk := kind_lt c
  have legal : ¬ (0x1_0000_0000 ≤ tag * 8 + c.kind.2 ∨ (tag * 8 + c.kind.2) / 8 = 0) := by omega
  rw [key?, varint?_encodeVarint (by omega)]
  simp only [Option.bind_eq_bind, Option.bind_some, if_neg legal]
  rw [show (tag * 8 + c.kind.2) % 8 = c.kind.2 by omega, ofNumber?_kind, Option.bind_some,
    show (tag * 8 + c.kind.2) / 8 = tag by omega]

theorem take?_append (octets rest : Bytes) :
    take? octets.length (octets ++ rest) = some (octets, rest) := by
  rw [take?, if_pos (by simp), List.take_left, List.drop_left]

theorem scalar?_body {c : Content} (h : c.Fits) (rest : Bytes) :
    scalar? c.kind.1 (c.body ++ rest) = some (c, rest) := by
  cases c with
  | varint n =>
    show (varint? (encodeVarint n ++ rest)).map _ = _
    rw [varint?_encodeVarint h]
    rfl
  | fixed64 octets =>
    show (take? 8 (octets ++ rest)).map _ = _
    rw [← show octets.length = 8 from h, take?_append]
    rfl
  | bytes octets =>
    show ((varint? (encodeVarint octets.length ++ octets ++ rest)).bind _) = _
    rw [List.append_assoc, varint?_encodeVarint h, Option.bind_some]
    show ((take? octets.length (octets ++ rest)).bind _) = _
    rw [take?_append]
    rfl
  | group => exact absurd h id
  | fixed32 octets =>
    show (take? 4 (octets ++ rest)).map _ = _
    rw [← show octets.length = 4 from h, take?_append]
    rfl

/-- A field at the front is read as it was written, at every depth of nesting. -/
theorem fields?_encode {f : Field} (h : f.Fits) (depth : Nat) (rest : Bytes) :
    fields? depth (f.encode ++ rest) = (fields? depth rest).map (f :: ·) := by
  rw [encode_eq h, List.append_assoc]
  have read := key?_encodeVarint (c := f.content) h.tag_pos h.tag_lt (f.content.body ++ rest)
  have nonempty : encodeVarint (f.tag * 8 + f.content.kind.2) ++ (f.content.body ++ rest) ≠ [] := by
    simp [encodeVarint_ne_nil]
  rw [fields?, if_neg nonempty]
  split
  · next hk =>
    rw [read] at hk
    cases hk
  · next tag after hk =>
    -- the key of a field that fits is no key of a group
    rw [read] at hk
    obtain ⟨tag, content⟩ := f
    cases content with
    | group => exact absurd h.content id
    | _ => cases hk
  · next tag kind after _ hk =>
    rw [read] at hk
    cases hk
    split
    · next hs =>
      rw [scalar?_body h.content] at hs
      cases hs
    · next content after hs =>
      rw [scalar?_body h.content] at hs
      cases hs
      rfl

/-- Fields that fit the wire are read back from their octets. -/
theorem fields?_encodeFields {fs : List Field} (h : ∀ f ∈ fs, f.Fits) (depth : Nat) :
    fields? depth (encodeFields fs) = some fs := by
  induction fs with
  | nil =>
    rw [fields?]
    rfl
  | cons f fs ih =>
    show fields? depth (f.encode ++ encodeFields fs) = _
    rw [fields?_encode (h f List.mem_cons_self), ih fun g hg => h g (List.mem_cons_of_mem _ hg)]
    rfl

/-! ## Lengths -/

theorem length_encode_le {f : Field} {fs : List Field} (h : f ∈ fs) :
    f.encode.length ≤ (encodeFields fs).length := by
  obtain ⟨before, after, rfl⟩ := List.append_of_mem h
  simp only [encodeFields, List.flatMap_append, List.flatMap_cons, List.length_append]
  omega

theorem length_bytes_le {tag : Nat} {octets : Bytes} {fs : List Field}
    (h : ⟨tag, .bytes octets⟩ ∈ fs) : octets.length ≤ (encodeFields fs).length := by
  refine Nat.le_trans ?_ (length_encode_le h)
  simp only [Field.encode, List.length_append]
  omega

end RpcWire.Proto
