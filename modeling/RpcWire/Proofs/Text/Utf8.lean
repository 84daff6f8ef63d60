import RpcWire.Text.Utf8

/-!
# Text survives UTF-8

What is written as UTF-8 is read back as it was, by either reader and whatever
follows it: each character is one run of octets that the machine of
`Utf8.units` opens, continues and completes (`unitsFrom_utf8EncodeChar`).
-/

namespace RpcWire.Utf8

/-! ## One octet -/

/-- An octet that continues a character. -/
theorem step_continue {p : Partial} {n : Nat} (low : p.low.toNat ≤ n) (high : n ≤ p.high.toNat) :
    step (some p) (UInt8.ofNat n) =
      if p.owed ≤ 1 then ([some (Char.ofNat (p.point * 64 + (n - 0x80)))], none)
      else ([], some ⟨p.owed - 1, 0x80, 0xBF, p.point * 64 + (n - 0x80)⟩) := by
  have small := p.high.toNat_lt
  have octet : (UInt8.ofNat n).toNat = n := UInt8.toNat_ofNat_of_lt' (show n < 256 by omega)
  have within : p.low ≤ UInt8.ofNat n ∧ UInt8.ofNat n ≤ p.high := by
    rw [UInt8.le_iff_toNat_le, UInt8.le_iff_toNat_le, octet]
    exact ⟨low, high⟩
  simp only [step, if_pos within, octet]

theorem lead_whole {n : Nat} (h : n < 0x80) : lead (UInt8.ofNat n) = .whole (Char.ofNat n) := by
  have octet : (UInt8.ofNat n).toNat = n := UInt8.toNat_ofNat_of_lt' (show n < 256 by omega)
  simp only [lead, octet]
  rw [if_pos h]

theorem lead_two {n : Nat} (low : 0xC2 ≤ n) (high : n < 0xE0) :
    lead (UInt8.ofNat n) = .opens ⟨1, 0x80, 0xBF, n - 0xC0⟩ := by
  have octet : (UInt8.ofNat n).toNat = n := UInt8.toNat_ofNat_of_lt' (show n < 256 by omega)
  simp only [lead, octet]
  rw [if_neg (by omega), if_neg (by omega), if_pos high]

/-- The first of three octets: what the second may be depends on it. -/
theorem lead_three {n : Nat} (low : 0xE0 ≤ n) (high : n < 0xF0) :
    lead (UInt8.ofNat n) = .opens ⟨2, if n = 0xE0 then 0xA0 else 0x80,
      if n = 0xED then 0x9F else 0xBF, n - 0xE0⟩ := by
  have octet : (UInt8.ofNat n).toNat = n := UInt8.toNat_ofNat_of_lt' (show n < 256 by omega)
  simp only [lead, octet]
  rw [if_neg (by omega), if_neg (by omega), if_neg (by omega)]
  by_cases first : n = 0xE0
  · subst first
    rfl
  · rw [if_neg first, if_neg first]
    by_cases surrogates : n = 0xED
    · subst surrogates
      rfl
    · rw [if_neg surrogates, if_neg surrogates, if_pos high]

theorem lead_four {n : Nat} (low : 0xF0 ≤ n) (high : n ≤ 0xF4) :
    lead (UInt8.ofNat n) = .opens ⟨3, if n = 0xF0 then 0x90 else 0x80,
      if n = 0xF4 then 0x8F else 0xBF, n - 0xF0⟩ := by
  have octet : (UInt8.ofNat n).toNat = n := UInt8.toNat_ofNat_of_lt' (show n < 256 by omega)
  simp only [lead, octet]
  rw [if_neg (by omega), if_neg (by omega), if_neg (by omega), if_neg (by omega),
    if_neg (by omega), if_neg (by omega)]
  by_cases first : n = 0xF0
  · subst first
    rfl
  · rw [if_neg first, if_neg first]
    by_cases last : n = 0xF4
    · subst last
      rfl
    · rw [if_neg last, if_pos (by omega), if_neg last]

/-! ## One character -/

theorem unitsFrom_cons (p : Option Partial) (b : UInt8) (bs : Bytes) :
    unitsFrom p (b :: bs) = (step p b).1 ++ unitsFrom (step p b).2 bs := by
  cases p <;> rfl

theorem unitsFrom_open {b : UInt8} {p : Partial} (h : lead b = .opens p) (bs : Bytes) :
    unitsFrom none (b :: bs) = unitsFrom (some p) bs := by
  rw [unitsFrom_cons]
  simp only [step, open?, h]
  rfl

/-- The last octet of a character. -/
theorem unitsFrom_last {low high : UInt8} {point n : Nat} (hlow : low.toNat ≤ n)
    (hhigh : n ≤ high.toNat) (bs : Bytes) :
    unitsFrom (some ⟨1, low, high, point⟩) (UInt8.ofNat n :: bs) =
      some (Char.ofNat (point * 64 + (n - 0x80))) :: unitsFrom none bs := by
  rw [unitsFrom_cons, step_continue (p := ⟨1, low, high, point⟩) hlow hhigh]
  rfl

/-- An octet of a character that is not the last. -/
theorem unitsFrom_more {owed : Nat} {low high : UInt8} {point n : Nat} (hlow : low.toNat ≤ n)
    (hhigh : n ≤ high.toNat) (bs : Bytes) :
    unitsFrom (some ⟨owed + 2, low, high, point⟩) (UInt8.ofNat n :: bs) =
      unitsFrom (some ⟨owed + 1, 0x80, 0xBF, point * 64 + (n - 0x80)⟩) bs := by
  rw [unitsFrom_cons, step_continue (p := ⟨owed + 2, low, high, point⟩) hlow hhigh]
  rfl

/-- The second octet of three lies between the bounds that the first one sets: the form is not
overlong, and the character is no surrogate. -/
theorem second_of_three {v : Nat} (long : 0x7FF < v) (short : v ≤ 0xFFFF)
    (scalar : v < 0xD800 ∨ 0xDFFF < v) :
    (if v / 4096 % 16 + 0xE0 = 0xE0 then 0xA0 else 0x80 : UInt8).toNat ≤ v / 64 % 64 + 0x80 ∧
      v / 64 % 64 + 0x80 ≤
        (if v / 4096 % 16 + 0xE0 = 0xED then 0x9F else 0xBF : UInt8).toNat := by
  constructor
  · split
    · show 0xA0 ≤ v / 64 % 64 + 0x80
      omega
    · show 0x80 ≤ v / 64 % 64 + 0x80
      omega
  · split
    · show v / 64 % 64 + 0x80 ≤ 0x9F
      omega
    · show v / 64 % 64 + 0x80 ≤ 0xBF
      omega

/-- The second octet of four: no overlong form, and nothing beyond the last character. -/
theorem second_of_four {v : Nat} (long : 0xFFFF < v) (short : v < 0x110000) :
    (if v / 262144 % 8 + 0xF0 = 0xF0 then 0x90 else 0x80 : UInt8).toNat ≤ v / 4096 % 64 + 0x80 ∧
      v / 4096 % 64 + 0x80 ≤
        (if v / 262144 % 8 + 0xF0 = 0xF4 then 0x8F else 0xBF : UInt8).toNat := by
  constructor
  · split
    · show 0x90 ≤ v / 4096 % 64 + 0x80
      omega
    · show 0x80 ≤ v / 4096 % 64 + 0x80
      omega
  · split
    · show v / 4096 % 64 + 0x80 ≤ 0x8F
      omega
    · show v / 4096 % 64 + 0x80 ≤ 0xBF
      omega

/-- The octets of a character are read as that character. -/
theorem unitsFrom_utf8EncodeChar (c : Char) (bs : Bytes) :
    unitsFrom none (String.utf8EncodeChar c ++ bs) = some c :: unitsFrom none bs := by
  have valid := c.valid
  have value : c.val.toNat = c.toNat := rfl
  have back := Char.ofNat_toNat c
  unfold String.utf8EncodeChar
  rw [value]
  generalize hv : c.toNat = v at back
  -- surrogates are no characters, which keeps the second octet within its bounds
  have scalar : v < 0xD800 ∨ 0xDFFF < v ∧ v < 0x110000 := by
    rw [← hv]
    exact valid
  -- by the number of octets, as the writer chooses it
  by_cases one : v ≤ 0x7F
  · simp only [if_pos one, List.singleton_append]
    rw [unitsFrom_cons]
    simp only [step, open?, lead_whole (show v < 0x80 by omega), back]
    rfl
  by_cases two : v ≤ 0x7FF
  · simp only [if_neg one, if_pos two, List.cons_append, List.nil_append]
    rw [unitsFrom_open (lead_two (by omega) (by omega)),
      unitsFrom_last (by simp) (by simp; omega)]
    rw [show (v / 64 % 32 + 0xC0 - 0xC0) * 64 + (v % 64 + 0x80 - 0x80) = v by omega, back]
  by_cases three : v ≤ 0xFFFF
  · simp only [if_neg one, if_neg two, if_pos three, List.cons_append, List.nil_append]
    obtain ⟨low, high⟩ := second_of_three (by omega) three (scalar.imp_right And.left)
    rw [unitsFrom_open (lead_three (by omega) (by omega)), unitsFrom_more low high,
      unitsFrom_last (by simp) (by simp; omega)]
    rw [show ((v / 4096 % 16 + 0xE0 - 0xE0) * 64 + (v / 64 % 64 + 0x80 - 0x80)) * 64 +
      (v % 64 + 0x80 - 0x80) = v by omega, back]
  · simp only [if_neg one, if_neg two, if_neg three, List.cons_append, List.nil_append]
    obtain ⟨low, high⟩ := second_of_four (v := v) (by omega) (by omega)
    rw [unitsFrom_open (lead_four (by omega) (by omega)), unitsFrom_more low high,
      unitsFrom_more (by simp) (by simp; omega), unitsFrom_last (by simp) (by simp; omega)]
    rw [show (((v / 262144 % 8 + 0xF0 - 0xF0) * 64 + (v / 4096 % 64 + 0x80 - 0x80)) * 64 +
      (v / 64 % 64 + 0x80 - 0x80)) * 64 + (v % 64 + 0x80 - 0x80) = v by omega, back]

/-! ## Whole texts -/

theorem unitsFrom_encodeChars (cs : List Char) (bs : Bytes) :
    unitsFrom none (encodeChars cs ++ bs) = cs.map some ++ unitsFrom none bs := by
  induction cs with
  | nil => rfl
  | cons c cs ih =>
    rw [encodeChars_cons, List.append_assoc, unitsFrom_utf8EncodeChar, ih]
    rfl

/-- The bytes of characters are read back as these characters, with none in doubt. -/
@[simp] theorem units_encodeChars (cs : List Char) : units (encodeChars cs) = cs.map some := by
  have h := unitsFrom_encodeChars cs []
  rw [List.append_nil] at h
  rw [units, h]
  exact List.append_nil _

@[simp] theorem decodeChars?_encodeChars (cs : List Char) :
    decodeChars? (encodeChars cs) = some cs := by
  rw [decodeChars?, units_encodeChars]
  induction cs with
  | nil => rfl
  | cons c cs ih => simp [ih]

/-- Decoding undoes encoding. -/
@[simp] theorem decode?_encode (s : String) : decode? (encode s) = some s := by
  simp [decode?, encode]

@[simp] theorem decodeCharsLossy_encodeChars (cs : List Char) :
    decodeCharsLossy (encodeChars cs) = cs := by
  rw [decodeCharsLossy, units_encodeChars, List.map_map]
  exact List.map_id cs

@[simp] theorem decodeLossy_encode (s : String) : decodeLossy (encode s) = s := by
  simp [decodeLossy, encode]

/-- Texts with the same bytes are the same. -/
theorem encode_injective {s t : String} (h : encode s = encode t) : s = t := by
  have := congrArg decode? h
  simpa using this

/-! ## ASCII -/

theorem utf8EncodeChar_ascii {c : Char} (h : c.toNat < 128) :
    String.utf8EncodeChar c = [UInt8.ofNat c.toNat] := by
  have small : c.val.toNat ≤ 0x7F := Nat.le_of_lt_succ h
  unfold String.utf8EncodeChar
  rw [if_pos small]
  rfl

theorem encodeChars_ascii {cs : List Char} (h : ∀ c ∈ cs, c.toNat < 128) :
    encodeChars cs = cs.map fun c => UInt8.ofNat c.toNat := by
  induction cs with
  | nil => rfl
  | cons c cs ih =>
    rw [encodeChars_cons, utf8EncodeChar_ascii (h c List.mem_cons_self),
      ih fun d hd => h d (List.mem_cons_of_mem _ hd)]
    rfl

/-- An octet below 128 is a character of ASCII by itself. -/
theorem toNat_of_mem_utf8EncodeChar {c : Char} {b : UInt8} (h : b ∈ String.utf8EncodeChar c)
    (small : b.toNat < 128) : c.toNat = b.toNat := by
  by_cases one : c.toNat < 128
  · rw [utf8EncodeChar_ascii one, List.mem_singleton] at h
    rw [h, UInt8.toNat_ofNat_of_lt' (show c.toNat < 256 by omega)]
  · have large : ¬ c.val.toNat ≤ 0x7F := by
      intro h
      exact one (Nat.lt_succ_of_le h)
    have no : ∀ n, 0x80 ≤ n → n < 256 → b ≠ UInt8.ofNat n := by
      intro n low high hb
      rw [hb, UInt8.toNat_ofNat_of_lt' high] at small
      omega
    unfold String.utf8EncodeChar at h
    simp only [if_neg large] at h
    -- every octet of a longer form is at least 128
    by_cases two : c.val.toNat ≤ 0x7FF
    · simp only [if_pos two, List.mem_cons, List.not_mem_nil, or_false] at h
      rcases h with h | h <;> exact absurd h (no _ (by omega) (by omega))
    by_cases three : c.val.toNat ≤ 0xFFFF
    · simp only [if_neg two, if_pos three, List.mem_cons, List.not_mem_nil, or_false] at h
      rcases h with h | h | h <;> exact absurd h (no _ (by omega) (by omega))
    · simp only [if_neg two, if_neg three, List.mem_cons, List.not_mem_nil, or_false] at h
      rcases h with h | h | h | h <;> exact absurd h (no _ (by omega) (by omega))

theorem toNat_ofNat_ascii : ∀ n < 128, (Char.ofNat n).toNat = n := by decide

theorem encodeChars_ofNat {bs : Bytes} (h : ∀ b ∈ bs, b.toNat < 128) :
    encodeChars (bs.map fun b => Char.ofNat b.toNat) = bs := by
  rw [encodeChars_ascii]
  · rw [List.map_map]
    refine (List.map_congr_left ?_).trans (List.map_id bs)
    intro b hb
    show UInt8.ofNat (Char.ofNat b.toNat).toNat = b
    rw [toNat_ofNat_ascii _ (h b hb), UInt8.ofNat_toNat]
  · intro c hc
    obtain ⟨b, hb, rfl⟩ := List.mem_map.mp hc
    rw [toNat_ofNat_ascii _ (h b hb)]
    exact h b hb

end RpcWire.Utf8
