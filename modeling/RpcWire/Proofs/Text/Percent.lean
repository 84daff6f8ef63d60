import RpcWire.Proofs.Text.Cut
import RpcWire.Proofs.Text.Utf8
import RpcWire.Text.Percent

/-!
# Messages survive percent coding

A message is read back from its written form (`decode_encode`). Written forms
are printable ASCII, and the only blanks in them are the spaces of the message,
so trimming a written form trims spaces off the message
(`decode_trim_encode`).
-/

namespace RpcWire.Percent

/-! ## Reading -/

theorem unescape_of_ne {b : UInt8} (h : b ≠ 0x25) (bs : Bytes) :
    unescape (b :: bs) = b :: unescape bs := by
  rw [unescape.eq_def]
  simp only [if_neg h]

theorem unescape_of_not_hasEscape {bs : Bytes} (h : hasEscape bs = false) : unescape bs = bs := by
  induction bs with
  | nil => rfl
  | cons b bs ih =>
    simp only [hasEscape, Bool.or_eq_false_iff, Bool.and_eq_false_iff, decide_eq_false_iff_not] at h
    obtain ⟨short, rest⟩ := h
    by_cases sign : b = 0x25
    · -- the sign is no escape only where fewer than two octets follow it
      rcases bs with _ | ⟨x, _ | ⟨y, more⟩⟩
      · simp [unescape]
      · simp [unescape, sign]
      · simp [sign] at short
    · rw [unescape_of_ne sign, ih rest]

/-- A text is read by undoing its escapes, if there are any. -/
theorem decode_eq (text : String) :
    decode text = Utf8.decodeLossy (unescape (Utf8.encode text)) := by
  unfold decode
  by_cases h : hasEscape (Utf8.encode text) = true
  · simp only [if_pos h]
  · have none : hasEscape (Utf8.encode text) = false := by simpa using h
    simp only [if_neg h, unescape_of_not_hasEscape none, Utf8.decodeLossy_encode]

/-! ## Writing -/

/-- The written form of one octet. -/
def write (b : UInt8) : List Char := if isPlain b then [Char.ofNat b.toNat] else escape b

theorem encodeBytes_eq (bs : Bytes) : encodeBytes bs = bs.flatMap write := rfl

theorem isPlain_iff {b : UInt8} :
    isPlain b = true ↔ 0x20 ≤ b.toNat ∧ b.toNat ≤ 0x7E ∧ b.toNat ≠ 0x25 := by
  simp only [isPlain, Bool.and_eq_true, decide_eq_true_eq, UInt8.le_iff_toNat_le, ne_eq,
    ← UInt8.toNat_inj]
  exact and_assoc

theorem upperDigit_printable :
    ∀ n < 16, 0x21 ≤ (upperDigit n).toNat ∧ (upperDigit n).toNat ≤ 0x7E := by
  decide

/-- What is written is printable ASCII; a space in it is a space of the text. -/
theorem printable_of_mem_write {b : UInt8} {c : Char} (h : c ∈ write b) :
    0x20 ≤ c.toNat ∧ c.toNat ≤ 0x7E ∧ (c.toNat = 0x20 → b.toNat = 0x20) := by
  unfold write at h
  by_cases plain : isPlain b = true
  · rw [if_pos plain, List.mem_singleton] at h
    obtain ⟨low, high, -⟩ := isPlain_iff.mp plain
    rw [h, Utf8.toNat_ofNat_ascii _ (by omega)]
    exact ⟨low, high, id⟩
  · rw [if_neg plain] at h
    have small := b.toNat_lt
    have high := upperDigit_printable (b.toNat / 16) (by omega)
    have low := upperDigit_printable (b.toNat % 16) (by omega)
    simp only [escape, List.mem_cons, List.not_mem_nil, or_false] at h
    rcases h with rfl | rfl | rfl
    · exact ⟨by decide, by decide, fun h => absurd h (by decide)⟩
    · exact ⟨by omega, high.2, fun h => by omega⟩
    · exact ⟨by omega, low.2, fun h => by omega⟩

/-- The encoded text is printable, so that it may stand in a header. -/
theorem printable_encode {message : String} {c : Char} (h : c ∈ (encode message).toList) :
    0x20 ≤ c.toNat ∧ c.toNat ≤ 0x7E := by
  rw [encode, String.toList_ofList, encodeBytes_eq] at h
  obtain ⟨b, -, hc⟩ := List.mem_flatMap.mp h
  exact ⟨(printable_of_mem_write hc).1, (printable_of_mem_write hc).2.1⟩

/-! ## Round trip -/

theorem hexValue?_upperDigit :
    ∀ n < 16, hexValue? (UInt8.ofNat (upperDigit n).toNat) = some n := by decide

/-- The written form of an octet is read as that octet. -/
theorem unescape_write (b : UInt8) (bs : Bytes) :
    unescape ((write b).map (fun c => UInt8.ofNat c.toNat) ++ bs) = b :: unescape bs := by
  unfold write
  by_cases plain : isPlain b = true
  · obtain ⟨low, high, sign⟩ := isPlain_iff.mp plain
    have hne : b ≠ 0x25 := by
      intro e
      exact sign (by rw [e]; rfl)
    rw [if_pos plain, List.map_singleton, Utf8.toNat_ofNat_ascii _ (by omega), UInt8.ofNat_toNat,
      List.singleton_append, unescape_of_ne hne]
  · have small := b.toNat_lt
    rw [if_neg plain]
    show unescape (0x25 :: UInt8.ofNat (upperDigit (b.toNat / 16)).toNat ::
      UInt8.ofNat (upperDigit (b.toNat % 16)).toNat :: bs) = _
    rw [unescape, if_pos rfl]
    simp only [hexValue?_upperDigit _ (show b.toNat / 16 < 16 by omega),
      hexValue?_upperDigit _ (show b.toNat % 16 < 16 by omega)]
    rw [show b.toNat / 16 * 16 + b.toNat % 16 = b.toNat by omega, UInt8.ofNat_toNat]

/-- Escapes are undone byte by byte. -/
theorem unescape_encodeBytes (bs : Bytes) :
    unescape (Utf8.encodeChars (encodeBytes bs)) = bs := by
  have ascii : ∀ c ∈ encodeBytes bs, c.toNat < 128 := by
    intro c hc
    obtain ⟨b, -, hb⟩ := List.mem_flatMap.mp hc
    have := (printable_of_mem_write hb).2.1
    omega
  rw [Utf8.encodeChars_ascii ascii]
  clear ascii
  induction bs with
  | nil => rfl
  | cons b bs ih =>
    have first : encodeBytes (b :: bs) = write b ++ encodeBytes bs := rfl
    rw [first, List.map_append, unescape_write, ih]

/-- A message is the same after encoding and decoding, whatever its characters. -/
@[simp] theorem decode_encode (message : String) : decode (encode message) = message := by
  rw [decode_eq, encode]
  show Utf8.decodeLossy (unescape (Utf8.encode (String.ofList _))) = _
  rw [Utf8.encode, String.toList_ofList, unescape_encodeBytes, Utf8.decodeLossy_encode]

/-! ## Trimming -/

theorem write_ne_nil (b : UInt8) : write b ≠ [] := by
  unfold write
  split <;> simp [escape]

/-- The written form of a character. -/
def writeChar (c : Char) : List Char := encodeBytes (String.utf8EncodeChar c)

theorem encodeBytes_encodeChars (cs : List Char) :
    encodeBytes (Utf8.encodeChars cs) = cs.flatMap writeChar := by
  simp only [encodeBytes_eq, Utf8.encodeChars, List.flatMap_assoc]
  rfl

/-- Only a space is written with blanks. -/
theorem isBlank_of_mem_writeChar {c d : Char} (h : d ∈ writeChar c)
    (blank : Text.isBlank d = true) :
    c = ' ' := by
  -- of the characters that are written the space is the only blank, and it stands for itself
  obtain ⟨b, hb, hd⟩ := List.mem_flatMap.mp h
  obtain ⟨low, high, space⟩ := printable_of_mem_write hd
  have hblank := Text.le_of_isBlank (by omega) blank
  have hspace : d.toNat = 0x20 := by omega
  have hc := Utf8.toNat_of_mem_utf8EncodeChar hb (by rw [space hspace]; decide)
  rw [space hspace] at hc
  rw [← Char.ofNat_toNat c, hc]

theorem writeChar_ne_nil (c : Char) : writeChar c ≠ [] := by
  intro h
  rcases hc : String.utf8EncodeChar c with _ | ⟨b, bs⟩
  · exact String.utf8EncodeChar_ne_nil hc
  · rw [writeChar, hc, encodeBytes_eq, List.flatMap_cons] at h
    exact write_ne_nil b (List.append_eq_nil_iff.mp h).1

theorem writeChar_space : writeChar ' ' = [' '] := by decide

/-- Dropping from written characters drops whole characters, if the text of a dropped one is
dropped and that of any other has nothing to drop. -/
theorem dropWhile_flatMap {α : Type} {f : α → List Char} {p : α → Bool} {q : Char → Bool}
    (dropped : ∀ a, p a = true → ∀ d ∈ f a, q d = true)
    (kept : ∀ a, p a = false → f a ≠ [] ∧ ∀ d ∈ f a, q d = false) (as : List α) :
    (as.flatMap f).dropWhile q = (as.dropWhile p).flatMap f := by
  induction as with
  | nil => rfl
  | cons a as ih =>
    rw [List.flatMap_cons]
    by_cases ha : p a = true
    · rw [List.dropWhile_cons_of_pos ha, List.dropWhile_append_of_pos (dropped a ha), ih]
    · obtain ⟨hne, none⟩ := kept a (by simpa using ha)
      obtain ⟨d, ds, hd⟩ := List.exists_cons_of_ne_nil hne
      rw [List.dropWhile_cons_of_neg ha, List.flatMap_cons, hd, List.cons_append,
        List.dropWhile_cons_of_neg]
      simp [none d (by simp [hd])]

/-- A text without the spaces at either end. -/
def trimSpaces (cs : List Char) : List Char :=
  Text.dropTrailing (· == ' ') (cs.dropWhile (· == ' '))

/-- Trimming a written form trims spaces off the message. -/
theorem trim_flatMap_writeChar (cs : List Char) :
    Text.trim (cs.flatMap writeChar) = (trimSpaces cs).flatMap writeChar := by
  have dropped : ∀ c, (c == ' ') = true → ∀ d ∈ writeChar c, Text.isBlank d = true := by
    intro c hc d hd
    rw [eq_of_beq hc, writeChar_space, List.mem_singleton] at hd
    rw [hd]
    decide
  have kept : ∀ c, (c == ' ') = false →
      writeChar c ≠ [] ∧ ∀ d ∈ writeChar c, Text.isBlank d = false := by
    intro c hc
    refine ⟨writeChar_ne_nil c, ?_⟩
    intro d hd
    cases blank : Text.isBlank d with
    | false => rfl
    | true =>
      rw [isBlank_of_mem_writeChar hd blank] at hc
      cases hc
  have reversed : ∀ cs : List Char, (cs.flatMap writeChar).reverse =
      cs.reverse.flatMap fun c => (writeChar c).reverse := by
    intro cs
    exact List.reverse_flatMap
  -- from the front, and then from the back, where every written form stands reversed
  unfold Text.trim Text.dropTrailing trimSpaces Text.dropTrailing
  rw [dropWhile_flatMap dropped kept, reversed,
    dropWhile_flatMap (f := fun c => (writeChar c).reverse) (p := (· == ' '))
      (fun c hc d hd => dropped c hc d (List.mem_reverse.mp hd))
      (fun c hc => ⟨by simpa using (kept c hc).1,
        fun d hd => (kept c hc).2 d (List.mem_reverse.mp hd)⟩)]
  simp [List.reverse_flatMap, Function.comp_def]

/-- A written form that was trimmed is read as the message without the spaces at either end. -/
theorem decode_trim_encode (message : String) :
    decode (String.ofList (Text.trim (encode message).toList)) =
      String.ofList (trimSpaces message.toList) := by
  have back := decode_encode (String.ofList (trimSpaces message.toList))
  rw [encode, Utf8.encode, String.toList_ofList, encodeBytes_encodeChars] at back
  rw [encode, String.toList_ofList, Utf8.encode, encodeBytes_encodeChars, trim_flatMap_writeChar,
    back]

end RpcWire.Percent
