import Mathlib.Data.List.Infix
import RpcWire.Proofs.Text.Percent

/-!
# The escapes of a message

Reading a message is one pass from the left over its octets, stated here as a
relation (`Pass`): a percent sign with two hexadecimal digits after it is one
octet, every other octet stands for itself. The pass is determined by the text
(`Pass.unique`), and `decode` takes it (`pass_unescape`), whether or not it looks
for escapes at all. In a written form every percent sign begins an escape
(`escaped_encodeBytes`).
-/

namespace RpcWire.Percent

/-! ## Digits -/

/-- The octet is the digit of a number below sixteen, in either case. -/
def IsDigit (b : UInt8) (n : Nat) : Prop :=
  n < 16 ∧ (b.toNat = (Bytes.hexDigit n).toNat ∨ b.toNat = (upperDigit n).toNat)

instance (b : UInt8) (n : Nat) : Decidable (IsDigit b n) := inferInstanceAs (Decidable (_ ∧ _))

theorem hexValue?_ofNat :
    ∀ m < 256, ∀ n ∈ hexValue? (UInt8.ofNat m), IsDigit (UInt8.ofNat m) n := by
  decide +kernel

theorem hexValue?_digits : ∀ n < 16, hexValue? (UInt8.ofNat (Bytes.hexDigit n).toNat) = some n ∧
    hexValue? (UInt8.ofNat (upperDigit n).toNat) = some n := by
  decide

/-- A byte is a hexadecimal digit in either case, and of one value only. -/
theorem hexValue?_eq_some_iff {b : UInt8} {n : Nat} : hexValue? b = some n ↔ IsDigit b n := by
  constructor
  · intro h
    have digit := hexValue?_ofNat b.toNat b.toNat_lt
    rw [UInt8.ofNat_toNat] at digit
    exact digit n h
  · rintro ⟨small, lower | upper⟩
    · rw [← UInt8.ofNat_toNat (x := b), lower]
      exact (hexValue?_digits n small).1
    · rw [← UInt8.ofNat_toNat (x := b), upper]
      exact (hexValue?_digits n small).2

theorem IsDigit.unique {b : UInt8} {n m : Nat} (h : IsDigit b n) (other : IsDigit b m) : n = m := by
  rw [← hexValue?_eq_some_iff] at h other
  exact Option.some.inj (h.symm.trans other)

/-! ## The pass -/

/-- The octets begin with a percent sign and two digits. -/
def Escapes (bs : Bytes) : Prop :=
  ∃ h l high low rest, bs = 0x25 :: h :: l :: rest ∧ IsDigit h high ∧ IsDigit l low

theorem escapes_iff {bs : Bytes} : Escapes bs ↔
    match bs with
    | sign :: h :: l :: _ => sign = 0x25 ∧ (hexValue? h).isSome = true ∧ (hexValue? l).isSome = true
    | _ => False := by
  constructor
  · rintro ⟨h, l, high, low, rest, rfl, upper, lower⟩
    rw [← hexValue?_eq_some_iff] at upper lower
    exact ⟨rfl, Option.isSome_of_eq_some upper, Option.isSome_of_eq_some lower⟩
  · rcases bs with _ | ⟨sign, _ | ⟨h, _ | ⟨l, rest⟩⟩⟩
    · exact False.elim
    · exact False.elim
    · exact False.elim
    · rintro ⟨rfl, isHigh, isLow⟩
      obtain ⟨high, upper⟩ := Option.isSome_iff_exists.mp isHigh
      obtain ⟨low, lower⟩ := Option.isSome_iff_exists.mp isLow
      exact ⟨h, l, high, low, rest, rfl, hexValue?_eq_some_iff.mp upper,
        hexValue?_eq_some_iff.mp lower⟩

instance (bs : Bytes) : Decidable (Escapes bs) :=
  match bs with
  | [] => decidable_of_iff _ escapes_iff.symm
  | [_] => decidable_of_iff _ escapes_iff.symm
  | [_, _] => decidable_of_iff _ escapes_iff.symm
  | _ :: _ :: _ :: _ => decidable_of_iff _ escapes_iff.symm

/-- One pass from the left over octets, and what it makes of them. -/
inductive Pass : Bytes → Bytes → Prop
  | done : Pass [] []
  | escape {h l : UInt8} {high low : Nat} {bs out : Bytes} (upper : IsDigit h high)
      (lower : IsDigit l low) (rest : Pass bs out) :
      Pass (0x25 :: h :: l :: bs) (UInt8.ofNat (high * 16 + low) :: out)
  | keep {b : UInt8} {bs out : Bytes} (literal : ¬ Escapes (b :: bs)) (rest : Pass bs out) :
      Pass (b :: bs) (b :: out)

/-- The octets decide the pass. -/
theorem Pass.unique {bs out other : Bytes} (h : Pass bs out) (h' : Pass bs other) :
    out = other := by
  induction h generalizing other with
  | done => cases h' with
    | done => rfl
  | escape upper lower _ ih =>
    cases h' with
    | escape upper' lower' rest' => rw [upper.unique upper', lower.unique lower', ih rest']
    | keep literal _ => exact absurd ⟨_, _, _, _, _, rfl, upper, lower⟩ literal
  | keep literal _ ih =>
    cases h' with
    | escape upper lower _ => exact absurd ⟨_, _, _, _, _, rfl, upper, lower⟩ literal
    | keep _ rest' => rw [ih rest']

/-- Every text is passed over, octet by octet or three octets at a time. -/
theorem pass_unescape (bs : Bytes) : Pass bs (unescape bs) := by
  fun_induction unescape bs with
  | case1 => exact .done
  | case2 h l rest high low isLow isHigh ih =>
    exact .escape (hexValue?_eq_some_iff.mp isHigh) (hexValue?_eq_some_iff.mp isLow) ih
  | case3 h l rest other ih =>
    refine .keep ?_ ih
    rintro ⟨_, _, high, low, _, same, upper, lower⟩
    cases same
    exact other high low (hexValue?_eq_some_iff.mpr upper) (hexValue?_eq_some_iff.mpr lower)
  | case4 short other ih =>
    refine .keep ?_ ih
    rintro ⟨h, l, _, _, rest, same, _⟩
    cases same
    exact other h l rest rfl
  | case5 b bs sign ih =>
    refine .keep ?_ ih
    rintro ⟨_, _, _, _, _, same, _⟩
    cases same
    exact sign rfl

/-- The decoder makes the one pass from left to right that the text allows. -/
theorem pass_iff {bs out : Bytes} : Pass bs out ↔ out = unescape bs := by
  constructor
  · intro h
    exact h.unique (pass_unescape bs)
  · rintro rfl
    exact pass_unescape bs

/-! ## Texts without escapes -/

/-- Nowhere in the octets do two digits follow a percent sign. -/
def IsLiteral (bs : Bytes) : Prop := ∀ rest, rest <:+ bs → ¬ Escapes rest

instance (bs : Bytes) : Decidable (IsLiteral bs) :=
  decidable_of_iff (∀ rest ∈ bs.tails, ¬ Escapes rest) (by simp only [List.mem_tails, IsLiteral])

theorem IsLiteral.pass {bs : Bytes} (h : IsLiteral bs) : Pass bs bs := by
  induction bs with
  | nil => exact .done
  | cons b bs ih =>
    refine .keep (h _ List.suffix_rfl) (ih ?_)
    intro rest suffix
    exact h rest (List.suffix_cons_iff.mpr (.inr suffix))

/-- Text without an escape is its own decoding. -/
theorem decode_of_isLiteral {text : String} (h : IsLiteral (Utf8.encode text)) :
    decode text = text := by
  rw [decode_eq, ← pass_iff.mp h.pass, Utf8.decodeLossy_encode]

/-! ## Written forms -/

/-- The text after a percent sign begins with the two digits of an octet. -/
def Follows (after : List Char) : Prop :=
  ∃ high < 16, ∃ low < 16, ∃ rest, after = upperDigit high :: upperDigit low :: rest

theorem upperDigit_ne_sign : ∀ n < 16, '%' ≠ upperDigit n := by decide

/-- A percent sign in a written octet and what comes after it belongs to the escape of that octet,
or it stands in what comes after it. -/
theorem sign_of_write {b : UInt8} {later before after : List Char}
    (h : write b ++ later = before ++ '%' :: after) :
    Follows after ∨ ∃ more, later = more ++ '%' :: after := by
  unfold write at h
  by_cases plain : isPlain b = true
  · rw [if_pos plain] at h
    cases before with
    | nil =>
      -- an octet that stands for itself is no percent sign
      obtain ⟨low, high, other⟩ := isPlain_iff.mp plain
      have same : Char.ofNat b.toNat = '%' := (List.cons.inj h).1
      have code := Utf8.toNat_ofNat_ascii b.toNat (by omega)
      rw [same] at code
      exact absurd code.symm other
    | cons c before => exact .inr ⟨before, (List.cons.inj h).2⟩
  · rw [if_neg plain] at h
    have small := b.toNat_lt
    have high : b.toNat / 16 < 16 := by omega
    have low : b.toNat % 16 < 16 := by omega
    rcases before with _ | ⟨c, _ | ⟨d, _ | ⟨e, before⟩⟩⟩
    · exact .inl ⟨_, high, _, low, later, (List.cons.inj h).2.symm⟩
    · exact absurd (List.cons.inj (List.cons.inj h).2).1.symm (upperDigit_ne_sign _ high)
    · exact absurd (List.cons.inj (List.cons.inj (List.cons.inj h).2).2).1.symm
        (upperDigit_ne_sign _ low)
    · exact .inr ⟨before, (List.cons.inj (List.cons.inj (List.cons.inj h).2).2).2⟩

/-- After a percent sign the encoder writes two upper-case digits. -/
theorem escaped_encodeBytes {bs : Bytes} {before after : List Char}
    (h : encodeBytes bs = before ++ '%' :: after) : Follows after := by
  induction bs generalizing before with
  | nil => exact absurd h (by simp [encodeBytes])
  | cons b bs ih =>
    have split : write b ++ encodeBytes bs = before ++ '%' :: after := h
    rcases sign_of_write split with here | ⟨more, later⟩
    · exact here
    · exact ih later

/-! ## Both directions -/

/-- A message is written in printable ASCII, in which every percent sign is followed by the two
digits of an octet, and is read back. Any text at all is read as the UTF-8 that the one pass over
its octets makes of it, what is no UTF-8 being replaced; a text without escapes is its own
reading. -/
theorem messages_survive_escapes (message text : String) :
    (∀ c ∈ (encode message).toList, 0x20 ≤ c.toNat ∧ c.toNat ≤ 0x7E) ∧
    (∀ before after, (encode message).toList = before ++ '%' :: after → Follows after) ∧
    decode (encode message) = message ∧
    (∃ octets, (∀ out, Pass (Utf8.encode text) out ↔ out = octets) ∧
      decode text = Utf8.decodeLossy octets) ∧
    (IsLiteral (Utf8.encode text) → decode text = text) := by
  refine ⟨fun c => printable_encode, ?_, decode_encode message, ?_, decode_of_isLiteral⟩
  · intro before after h
    rw [encode, String.toList_ofList] at h
    exact escaped_encodeBytes h
  · exact ⟨unescape (Utf8.encode text), fun out => pass_iff, decode_eq text⟩

/-- Signs that begin no escape are kept, up to the end of a text; digits of either case make the
octets of one character, and a sign may stand after them. -/
theorem messages_survive_escapes_mixed :
    IsLiteral (Utf8.encode "50%zz off%2") ∧ decode "50%zz off%2" = "50%zz off%2" ∧
      Pass (Utf8.encode "%e2%9C%93%4") [0xE2, 0x9C, 0x93, 0x25, 0x34] ∧
      decode "%e2%9C%93%4" = "✓%4" ∧ decode (encode "✓ 100%") = "✓ 100%" := by
  obtain ⟨-, -, back, -, kept⟩ := messages_survive_escapes "✓ 100%" "50%zz off%2"
  obtain ⟨-, -, -, ⟨octets, passes, read⟩, -⟩ := messages_survive_escapes "" "%e2%9C%93%4"
  have literal : IsLiteral (Utf8.encode "50%zz off%2") := by decide +kernel
  have pass : Pass (Utf8.encode "%e2%9C%93%4") [0xE2, 0x9C, 0x93, 0x25, 0x34] := by
    have short : IsLiteral [0x25, 0x34] := by decide
    have first : IsDigit 0x65 14 ∧ IsDigit 0x32 2 := by decide
    have second : IsDigit 0x39 9 ∧ IsDigit 0x43 12 := by decide
    have third : IsDigit 0x39 9 ∧ IsDigit 0x33 3 := by decide
    exact .escape first.1 first.2 (.escape second.1 second.2 (.escape third.1 third.2 short.pass))
  refine ⟨literal, kept literal, pass, ?_, back⟩
  rw [read, ← (passes _).mp pass]
  decide +kernel

end RpcWire.Percent
