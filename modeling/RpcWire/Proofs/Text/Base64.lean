import RpcWire.Proofs.Text.Cut
import RpcWire.Text.Base64

/-!
# Octets survive base64

What is written in either alphabet, padded or not, is read back as it was, also
by a reader that takes either padding (`decode?_encode`,
`decodeEither?_encode`). All that is written are digits and padding.
-/

namespace RpcWire.Base64

variable (a : Alphabet)

/-! ## Groups -/

theorem lastOne?_digits (x : UInt8) :
    lastOne? a (a.digit (x.toNat / 4)) (a.digit (x.toNat % 4 * 16)) = some [x] := by
  have hx := x.toNat_lt
  unfold lastOne?
  rw [a.value?_digit _ (by omega), a.value?_digit _ (by omega)]
  simp only [Option.bind_eq_bind, Option.bind_some]
  rw [if_pos (by omega), show x.toNat / 4 * 4 + x.toNat % 4 * 16 / 16 = x.toNat by omega,
    UInt8.ofNat_toNat]

theorem lastTwo?_digits (x y : UInt8) :
    lastTwo? a (a.digit (x.toNat / 4)) (a.digit (x.toNat % 4 * 16 + y.toNat / 16))
      (a.digit (y.toNat % 16 * 4)) = some [x, y] := by
  have hx := x.toNat_lt
  have hy := y.toNat_lt
  unfold lastTwo?
  rw [a.value?_digit _ (by omega), a.value?_digit _ (by omega), a.value?_digit _ (by omega)]
  simp only [Option.bind_eq_bind, Option.bind_some]
  rw [if_pos (by omega),
    show x.toNat / 4 * 4 + (x.toNat % 4 * 16 + y.toNat / 16) / 16 = x.toNat by omega,
    show (x.toNat % 4 * 16 + y.toNat / 16) % 16 * 16 + y.toNat % 16 * 4 / 4 = y.toNat by omega,
    UInt8.ofNat_toNat, UInt8.ofNat_toNat]

theorem group?_digits (x y z : UInt8) :
    group? a (a.digit (x.toNat / 4)) (a.digit (x.toNat % 4 * 16 + y.toNat / 16))
      (a.digit (y.toNat % 16 * 4 + z.toNat / 64)) (a.digit (z.toNat % 64)) = some [x, y, z] := by
  have hx := x.toNat_lt
  have hy := y.toNat_lt
  have hz := z.toNat_lt
  unfold group?
  rw [a.value?_digit _ (by omega), a.value?_digit _ (by omega), a.value?_digit _ (by omega),
    a.value?_digit _ (by omega)]
  simp only [Option.bind_eq_bind, Option.bind_some]
  rw [show x.toNat / 4 * 4 + (x.toNat % 4 * 16 + y.toNat / 16) / 16 = x.toNat by omega,
    show (x.toNat % 4 * 16 + y.toNat / 16) % 16 * 16 + (y.toNat % 16 * 4 + z.toNat / 64) / 4 =
      y.toNat by omega,
    show (y.toNat % 16 * 4 + z.toNat / 64) % 4 * 64 + z.toNat % 64 = z.toNat by omega,
    UInt8.ofNat_toNat, UInt8.ofNat_toNat, UInt8.ofNat_toNat]

/-- Four digits in front of a text are read as three octets, whatever padding is expected. -/
theorem decode?_group (p : Padding) (x y z : UInt8) (rest : List Char) :
    decode? a p (a.digit (x.toNat / 4) :: a.digit (x.toNat % 4 * 16 + y.toNat / 16) ::
      a.digit (y.toNat % 16 * 4 + z.toNat / 64) :: a.digit (z.toNat % 64) :: rest) =
      (decode? a p rest).map ([x, y, z] ++ ·) := by
  have hz := z.toNat_lt
  -- a digit is never taken for the sign of padding
  have digit : ¬ (p = .padded ∧ a.digit (z.toNat % 64) = '=' ∧ rest = []) := by
    intro h
    exact a.digit_ne_pad _ (by omega) h.2.1
  rw [decode?, if_neg digit, group?_digits]
  cases decode? a p rest <;> rfl

/-- A group that ends in padding is no group of digits. -/
theorem group?_pad (c d e : Char) : group? a c d e '=' = none := by
  have pad : a.value? '=' = none := by cases a <;> decide
  unfold group?
  rw [pad]
  cases a.value? c <;> cases a.value? d <;> cases a.value? e <;> rfl

/-! ## Whole texts -/

/-- Decoding undoes encoding, for either alphabet and with or without padding. -/
@[simp] theorem decode?_encode (p : Padding) (bs : Bytes) :
    decode? a p (encode a p bs) = some bs := by
  fun_induction encode a p bs with
  | case1 => rfl
  | case2 x n pad =>
    cases p with
    | bare => exact lastOne?_digits a x
    | padded => exact lastOne?_digits a x
  | case3 x y n m pad =>
    have hy := y.toNat_lt
    have digit : a.digit (y.toNat % 16 * 4) ≠ '=' := a.digit_ne_pad _ (by omega)
    cases p with
    | bare => exact lastTwo?_digits a x y
    | padded =>
      show (if Padding.padded = .padded ∧ '=' = '=' ∧ [] = [] then _ else _) = _
      rw [if_pos ⟨rfl, rfl, rfl⟩, if_neg digit]
      exact lastTwo?_digits a x y
  | case4 x y z rest n m k ih =>
    rw [decode?_group, ih]
    rfl

/-- A reader that expects no padding does not take padded text for anything else. -/
theorem decode?_bare_encode (p : Padding) (bs : Bytes) :
    decode? a .bare (encode a p bs) = some bs ∨ decode? a .bare (encode a p bs) = none := by
  cases p with
  | bare => exact .inl (decode?_encode a .bare bs)
  | padded =>
    generalize hp : Padding.padded = p
    -- the reader looks for digits only, so the sign of padding in the last group stops it
    fun_induction encode a p bs with
    | case1 => exact .inl rfl
    | case2 x n pad =>
      subst hp
      right
      show ((group? a _ _ _ '=').bind _) = none
      rw [group?_pad]
      rfl
    | case3 x y n m pad =>
      subst hp
      right
      show ((group? a _ _ _ '=').bind _) = none
      rw [group?_pad]
      rfl
    | case4 x y z rest n m k ih =>
      rw [decode?_group]
      rcases ih with h | h <;> rw [h]
      · exact .inl rfl
      · exact .inr rfl

/-- Octets are read back from their text, padded or not. -/
@[simp] theorem decodeEither?_encode (p : Padding) (bs : Bytes) :
    decodeEither? a (encode a p bs) = some bs := by
  unfold decodeEither?
  rcases decode?_bare_encode a p bs with h | h <;> rw [h]
  · rfl
  · cases p with
    | bare => rw [decode?_encode] at h; cases h
    | padded => exact decode?_encode a .padded bs

/-! ## Digits -/

/-- Only digits of the alphabet and, where it pads, the padding sign are written. -/
theorem mem_encode {p : Padding} {bs : Bytes} {c : Char} (h : c ∈ encode a p bs) :
    p = .padded ∧ c = '=' ∨ ∃ n < 64, c = a.digit n := by
  have digit {n : Nat} (hn : n < 64) :
      p = .padded ∧ a.digit n = '=' ∨ ∃ m < 64, a.digit n = a.digit m :=
    .inr ⟨n, hn, rfl⟩
  fun_induction encode a p bs with
  | case1 => cases h
  | case2 x n pads =>
    have hx := x.toNat_lt
    have hpads : ∀ c ∈ pads, p = .padded ∧ c = '=' := by
      intro c hc
      cases p <;> simp [pads] at hc
      exact ⟨rfl, hc⟩
    rcases List.mem_cons.mp h with rfl | h
    · exact digit (by omega)
    rcases List.mem_cons.mp h with rfl | h
    · exact digit (by omega)
    · exact .inl (hpads c h)
  | case3 x y n m pads =>
    have hx := x.toNat_lt
    have hy := y.toNat_lt
    have hpads : ∀ c ∈ pads, p = .padded ∧ c = '=' := by
      intro c hc
      cases p <;> simp [pads] at hc
      exact ⟨rfl, hc⟩
    rcases List.mem_cons.mp h with rfl | h
    · exact digit (by omega)
    rcases List.mem_cons.mp h with rfl | h
    · exact digit (by omega)
    rcases List.mem_cons.mp h with rfl | h
    · exact digit (by omega)
    · exact .inl (hpads c h)
  | case4 x y z rest n m k ih =>
    have hx := x.toNat_lt
    have hy := y.toNat_lt
    have hz := z.toNat_lt
    simp only [List.mem_cons] at h
    rcases h with rfl | rfl | rfl | rfl | h
    · exact digit (by omega)
    · exact digit (by omega)
    · exact digit (by omega)
    · exact digit (by omega)
    · exact ih h

theorem digit_printable : ∀ n < 64, 0x21 ≤ (a.digit n).toNat ∧ (a.digit n).toNat ≤ 0x7E := by
  cases a <;> decide

/-- All that is written is visible ASCII other than the space. -/
theorem printable_of_mem_encode {p : Padding} {bs : Bytes} {c : Char} (h : c ∈ encode a p bs) :
    0x21 ≤ c.toNat ∧ c.toNat ≤ 0x7E := by
  rcases mem_encode a h with ⟨-, rfl⟩ | ⟨n, hn, rfl⟩
  · decide
  · exact digit_printable a n hn

/-- Padding only adds signs at the end. -/
theorem encode_padded (bs : Bytes) :
    ∃ n, encode a .padded bs = encode a .bare bs ++ List.replicate n '=' := by
  generalize hp : Padding.padded = p
  fun_induction encode a p bs with
  | case1 => exact ⟨0, rfl⟩
  | case2 x n pad =>
    subst hp
    exact ⟨2, rfl⟩
  | case3 x y n m pad =>
    subst hp
    exact ⟨1, rfl⟩
  | case4 x y z rest n m k ih =>
    obtain ⟨signs, padded⟩ := ih
    exact ⟨signs, by rw [padded]; rfl⟩

theorem not_mem_encode_bare (bs : Bytes) : '=' ∉ encode a .bare bs := by
  intro h
  rcases mem_encode a h with ⟨padded, -⟩ | ⟨n, hn, same⟩
  · cases padded
  · exact a.digit_ne_pad n hn same.symm

/-- A text that is stripped of its padding is the text without padding. -/
theorem dropTrailing_encode (bs : Bytes) :
    Text.dropTrailing (· == '=') (encode a .padded bs) = encode a .bare bs := by
  obtain ⟨n, padded⟩ := encode_padded a bs
  rw [padded, Text.dropTrailing_append]
  · refine Text.dropTrailing_eq_self ?_
    intro c hc
    rw [beq_eq_false_iff_ne]
    rintro rfl
    exact not_mem_encode_bare a bs (List.mem_of_getLast? hc)
  · intro c hc
    rw [List.eq_of_mem_replicate hc]
    rfl

theorem digit_plain : ∀ n < 64, a.digit n ≠ '&' ∧ a.digit n ≠ '#' := by
  cases a <;> decide

/-- Nothing that is written ends a parameter or a query. -/
theorem not_mem_encode (p : Padding) (bs : Bytes) : '&' ∉ encode a p bs ∧ '#' ∉ encode a p bs := by
  have apart : ∀ c ∈ encode a p bs, c ≠ '&' ∧ c ≠ '#' := by
    intro c hc
    rcases mem_encode a hc with ⟨-, rfl⟩ | ⟨n, hn, rfl⟩
    · decide
    · exact digit_plain a n hn
  exact ⟨fun h => (apart _ h).1 rfl, fun h => (apart _ h).2 rfl⟩

end RpcWire.Base64
