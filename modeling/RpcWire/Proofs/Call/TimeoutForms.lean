import Mathlib.Order.Bounds.Basic
import RpcWire.Proofs.Call.Timeout

/-!
# The written forms of a timeout

Which texts are timeouts, and what is lost by writing one.

* `parseScaled?_eq_some_iff`, `parseMilliseconds?_eq_some_iff`: the texts that
  are read, and as what;
* `isGreatest_toEightDigits`: the timeout that is read back is the greatest one
  not above what was written that digits and a unit can spell out, so that order
  is kept and nothing is lost of what can be spelled out;
* `Words.span_ofCount`: in machine words the arithmetic of reading does not wrap;
* `headers_round_down`: all of it together.
-/

namespace RpcWire.Timeout

/-! ## Digits -/

/-- At least one digit, and at most so many. -/
structure IsCount (limit : Nat) (cs : List Char) : Prop where
  nonempty : cs ≠ []
  short : cs.length ≤ limit
  digits : ∀ c ∈ cs, c.isDigit = true

/-- The number that digits spell. -/
def count (cs : List Char) : Nat := Nat.ofDigitChars 10 cs 0

/-- A count is read from one or more decimal digits and from nothing else. -/
theorem digits?_eq_some_iff {cs : List Char} {n : Nat} :
    Number.digits? cs = some n ↔ cs ≠ [] ∧ (∀ c ∈ cs, c.isDigit = true) ∧ n = count cs := by
  unfold Number.digits?
  constructor
  · intro h
    split at h
    · next found =>
      cases h
      exact ⟨found.1, List.all_eq_true.mp found.2, rfl⟩
    · cases h
  · rintro ⟨nonempty, digits, rfl⟩
    exact if_pos ⟨nonempty, List.all_eq_true.mpr digits⟩

theorem count_lt {cs : List Char} (h : ∀ c ∈ cs, c.isDigit = true) : count cs < 10 ^ cs.length := by
  induction cs with
  | nil => decide
  | cons c cs ih =>
    have first := toNat_of_isDigit (h c List.mem_cons_self)
    have later := ih fun d hd => h d (List.mem_cons_of_mem _ hd)
    have split : count (c :: cs) = 10 ^ cs.length * (c.toNat - '0'.toNat) + count cs := by
      rw [count, Nat.ofDigitChars_cons, Nat.ofDigitChars_eq_ofDigitChars_zero, Nat.mul_zero,
        Nat.zero_add]
      rfl
    have digit : c.toNat - '0'.toNat ≤ 9 := by
      show c.toNat - 0x30 ≤ 9
      omega
    have scaled := Nat.mul_le_mul_left (10 ^ cs.length) digit
    rw [split, List.length_cons, Nat.pow_succ]
    omega

theorem IsCount.lt {limit : Nat} {cs : List Char} (h : IsCount limit cs) :
    count cs < 10 ^ limit :=
  Nat.lt_of_lt_of_le (count_lt h.digits) (Nat.pow_le_pow_right (by decide) h.short)

theorem isCount_toDigits {limit n : Nat} (positive : 0 < limit) (h : n < 10 ^ limit) :
    IsCount limit (Nat.toDigits 10 n) where
  nonempty := Nat.toDigits_ne_nil
  short := (Nat.length_toDigits_le_iff (by decide) positive).mpr h
  digits := fun _ hc => Nat.isDigit_of_mem_toDigits (by decide) (by decide) hc

/-! ## What is written -/

/-- The units in which timeouts are written, the finest first. -/
def Scale.written : List Scale := [nanosecond, microsecond, millisecond, second]

theorem scaleOf_mem_written (t : Nanoseconds) : scaleOf t ∈ Scale.written := by
  unfold scaleOf
  cases found : [Scale.nanosecond, .microsecond, .millisecond].find? fun s => s.suits t with
  | none => decide
  | some s =>
    have known := List.mem_of_find?_eq_some found
    have all : ∀ s ∈ [Scale.nanosecond, .microsecond, .millisecond], s ∈ Scale.written := by decide
    exact all s known

theorem scaled_form (t : Nanoseconds) :
    ∃ digits, IsCount 8 digits ∧ ∃ s ∈ Scale.written,
      (encodeScaled t).toList = digits ++ [s.letter] := by
  refine ⟨_, isCount_toDigits (by decide) ?_, _, scaleOf_mem_written t, toList_encodeScaled t⟩
  exact Nat.lt_of_le_of_lt (Nat.min_le_right _ _) (by decide)

theorem milliseconds_form (t : Nanoseconds) : IsCount 10 (encodeMilliseconds t).toList := by
  rw [encodeMilliseconds, toList_toString]
  refine isCount_toDigits (by decide) ?_
  exact Nat.lt_of_le_of_lt (Nat.min_le_right _ _) (by decide)

/-! ## What is read -/

/-- No two units share a letter. -/
theorem ofLetter?_eq_some_iff {c : Char} {s : Scale} :
    Scale.ofLetter? c = some s ↔ c = s.letter := by
  constructor
  · intro h
    have same := List.find?_some h
    exact (eq_of_beq same).symm
  · rintro rfl
    exact Scale.ofLetter?_letter s

/-- Exactly one to eight digits and the letter of a unit are read, blanks around them apart. -/
theorem parseScaled?_eq_some_iff {text : String} {t : Nanoseconds} :
    parseScaled? text = some t ↔ ∃ digits, IsCount 8 digits ∧ ∃ s : Scale,
      Text.trim text.toList = digits ++ [s.letter] ∧ t = count digits * s.length := by
  unfold parseScaled?
  simp only [Option.bind_eq_bind, Option.bind_eq_some_iff]
  constructor
  · rintro ⟨s, ⟨c, last, letter⟩, n, read, h⟩
    obtain ⟨nonempty, digits, rfl⟩ := digits?_eq_some_iff.mp read
    split at h
    · next short =>
      cases h
      refine ⟨_, ⟨nonempty, short, digits⟩, s, ?_, rfl⟩
      rw [← ofLetter?_eq_some_iff.mp letter]
      exact (List.dropLast_append_getLast? c last).symm
    · cases h
  · rintro ⟨digits, h, s, form, rfl⟩
    rw [form]
    refine ⟨s, ⟨s.letter, List.getLast?_concat, Scale.ofLetter?_letter s⟩, count digits, ?_, ?_⟩
    · rw [List.dropLast_concat]
      exact digits?_eq_some_iff.mpr ⟨h.nonempty, h.digits, rfl⟩
    · rw [List.dropLast_concat, if_pos h.short]

/-- Exactly one to ten digits are read, blanks around them apart. -/
theorem parseMilliseconds?_eq_some_iff {text : String} {t : Nanoseconds} :
    parseMilliseconds? text = some t ↔
      IsCount 10 (Text.trim text.toList) ∧ t = count (Text.trim text.toList) * 10 ^ 6 := by
  unfold parseMilliseconds?
  simp only
  constructor
  · intro h
    split at h
    · next short =>
      obtain ⟨n, read, rfl⟩ := Option.map_eq_some_iff.mp h
      obtain ⟨nonempty, digits, rfl⟩ := digits?_eq_some_iff.mp read
      exact ⟨⟨nonempty, short, digits⟩, rfl⟩
    · cases h
  · rintro ⟨h, rfl⟩
    rw [if_pos h.short, digits?_eq_some_iff.mpr ⟨h.nonempty, h.digits, rfl⟩]
    rfl

/-! ## What is lost -/

/-- A timeout that at most eight digits and a unit in which timeouts are written spell out. -/
def IsScaled (t : Nanoseconds) : Prop :=
  ∃ s ∈ Scale.written, ∃ n ≤ maxCount, t = n * s.length

theorem isScaled_of_le {t : Nanoseconds} (h : t ≤ maxCount) : IsScaled t :=
  ⟨.nanosecond, by decide, t, h, (Nat.mul_one t).symm⟩

theorem isScaled_toEightDigits (t : Nanoseconds) : IsScaled (toEightDigits t) := by
  rw [← scaled_eq]
  exact ⟨_, scaleOf_mem_written t, _, Nat.min_le_right _ _, rfl⟩

/-- A coarser unit spells out multiples of the finer ones, a finer one only what is smaller. -/
theorem le_toEightDigits {k n t : Nat} (unit : k = 1 ∨ k = 10 ^ 3 ∨ k = 10 ^ 6 ∨ k = 10 ^ 9)
    (few : n ≤ 99999999) (below : n * k ≤ t) : n * k ≤ toEightDigits t := by
  unfold toEightDigits
  rcases unit with rfl | rfl | rfl | rfl
  all_goals
    split
    · exact below
    · split
      · omega
      · split <;> omega

theorem length_of_mem_written {s : Scale} (h : s ∈ Scale.written) :
    s.length = 1 ∨ s.length = 10 ^ 3 ∨ s.length = 10 ^ 6 ∨ s.length = 10 ^ 9 := by
  have all : ∀ s ∈ Scale.written,
      s.length = 1 ∨ s.length = 10 ^ 3 ∨ s.length = 10 ^ 6 ∨ s.length = 10 ^ 9 := by decide
  exact all s h

/-- Nothing closer from below can be spelled out, in whatever unit. -/
theorem isGreatest_toEightDigits (t : Nanoseconds) :
    IsGreatest {held | IsScaled held ∧ held ≤ t} (toEightDigits t) := by
  refine ⟨⟨isScaled_toEightDigits t, toEightDigits_le t⟩, ?_⟩
  rintro _ ⟨⟨s, hs, n, few, rfl⟩, below⟩
  exact le_toEightDigits (length_of_mem_written hs) few below

theorem toEightDigits_of_isScaled {t : Nanoseconds} (h : IsScaled t) : toEightDigits t = t :=
  Nat.le_antisymm (toEightDigits_le t) ((isGreatest_toEightDigits t).2 ⟨h, Nat.le_refl t⟩)

/-- A longer timeout is never announced as a shorter one. -/
theorem toEightDigits_mono : Monotone toEightDigits := by
  intro t u h
  refine (isGreatest_toEightDigits u).2 ⟨isScaled_toEightDigits t, ?_⟩
  exact Nat.le_trans (toEightDigits_le t) h

/-- Rounding down never makes a timeout vanish. -/
theorem toEightDigits_pos {t : Nanoseconds} (h : 0 < t) : 0 < toEightDigits t :=
  (isGreatest_toEightDigits t).2 ⟨isScaled_of_le (by decide : 1 ≤ maxCount), h⟩

/-! ## Machine words -/

/-- A span of time in machine words: whole seconds, and the nanoseconds beyond them. -/
structure Words where
  seconds : UInt64
  beyond : UInt32

namespace Words

/-- So many of a unit. The operations on words wrap around. -/
def ofCount (n : UInt64) : Scale → Words
  | .hour => ⟨n * 60 * 60, 0⟩
  | .minute => ⟨n * 60, 0⟩
  | .second => ⟨n, 0⟩
  | .millisecond => ⟨n / 1_000, (n % 1_000).toUInt32 * 1_000_000⟩
  | .microsecond => ⟨n / 1_000_000, (n % 1_000_000).toUInt32 * 1_000⟩
  | .nanosecond => ⟨n / 1_000_000_000, (n % 1_000_000_000).toUInt32⟩

/-- The span that words hold. -/
def span (w : Words) : Nanoseconds := w.seconds.toNat * 10 ^ 9 + w.beyond.toNat

/-- Of the counts that are read, none is too great for its words: nothing wraps around. -/
theorem span_ofCount {n : UInt64} (h : n.toNat < 10 ^ 10) (s : Scale) :
    (ofCount n s).span = n.toNat * s.length := by
  unfold ofCount span
  cases s with
  | hour =>
    rw [UInt64.toNat_mul, UInt64.toNat_mul]
    show n.toNat * 60 % 2 ^ 64 * 60 % 2 ^ 64 * 10 ^ 9 + 0 = n.toNat * 3_600_000_000_000
    omega
  | minute =>
    rw [UInt64.toNat_mul]
    show n.toNat * 60 % 2 ^ 64 * 10 ^ 9 + 0 = n.toNat * 60_000_000_000
    omega
  | second =>
    show n.toNat * 10 ^ 9 + 0 = n.toNat * 1_000_000_000
    omega
  | millisecond =>
    rw [UInt64.toNat_div, UInt32.toNat_mul, UInt64.toNat_toUInt32, UInt64.toNat_mod]
    show n.toNat / 1000 * 10 ^ 9 + n.toNat % 1000 % 2 ^ 32 * 1_000_000 % 2 ^ 32 =
      n.toNat * 1_000_000
    omega
  | microsecond =>
    rw [UInt64.toNat_div, UInt32.toNat_mul, UInt64.toNat_toUInt32, UInt64.toNat_mod]
    show n.toNat / 1_000_000 * 10 ^ 9 + n.toNat % 1_000_000 % 2 ^ 32 * 1000 % 2 ^ 32 =
      n.toNat * 1000
    omega
  | nanosecond =>
    rw [UInt64.toNat_div, UInt64.toNat_toUInt32, UInt64.toNat_mod]
    show n.toNat / 10 ^ 9 * 10 ^ 9 + n.toNat % 10 ^ 9 % 2 ^ 32 = n.toNat * 1
    omega

end Words

/-! ## Both forms -/

/-- Digits and a unit, as well as milliseconds, are written in their form and read back rounded
down: never up, exactly below a tenth of a second, never to nothing, and in order. What is read is
exactly what has the form, and no multiplication wraps around. -/
theorem headers_round_down :
    (∀ t, (∃ digits, IsCount 8 digits ∧ ∃ s ∈ Scale.written,
        (encodeScaled t).toList = digits ++ [s.letter]) ∧
      parseScaled? (encodeScaled t) = some (toEightDigits t) ∧
      toEightDigits t ≤ t ∧ (t < 10 ^ 8 → toEightDigits t = t) ∧
      (0 < t → 0 < toEightDigits t)) ∧
    Monotone toEightDigits ∧
    (∀ t, IsCount 10 (encodeMilliseconds t).toList ∧
      parseMilliseconds? (encodeMilliseconds t) = some (toMilliseconds t) ∧
      toMilliseconds t ≤ t) ∧
    (∀ text t, parseScaled? text = some t ↔ ∃ digits, IsCount 8 digits ∧ ∃ s : Scale,
      Text.trim text.toList = digits ++ [s.letter] ∧ t = count digits * s.length) ∧
    (∀ text t, parseMilliseconds? text = some t ↔
      IsCount 10 (Text.trim text.toList) ∧ t = count (Text.trim text.toList) * 10 ^ 6) ∧
    ∀ digits, IsCount 10 digits → ∀ s,
      (Words.ofCount (UInt64.ofNat (count digits)) s).span = count digits * s.length := by
  refine ⟨?_, toEightDigits_mono, ?_, ?_, ?_, ?_⟩
  · intro t
    refine ⟨scaled_form t, parseScaled?_encodeScaled t, toEightDigits_le t, ?_, toEightDigits_pos⟩
    intro short
    have fits : t ≤ maxCount := Nat.le_of_lt_succ short
    exact toEightDigits_of_isScaled (isScaled_of_le fits)
  · intro t
    exact ⟨milliseconds_form t, parseMilliseconds?_encodeMilliseconds t, toMilliseconds_le t⟩
  · intro text t
    exact parseScaled?_eq_some_iff
  · intro text t
    exact parseMilliseconds?_eq_some_iff
  · intro digits h s
    have word : (UInt64.ofNat (count digits)).toNat = count digits :=
      UInt64.toNat_ofNat_of_lt' (Nat.lt_trans h.lt (by decide))
    have exact := Words.span_ofCount (n := UInt64.ofNat (count digits)) (by rw [word]; exact h.lt) s
    rwa [word] at exact

/-- A timeout that needs nine digits loses its nanoseconds, a short one nothing, and hours are read
although they are never written. -/
theorem headers_round_down_microseconds :
    encodeScaled 123_456_789 = "123456u" ∧
      parseScaled? (encodeScaled 123_456_789) = some 123_456_000 ∧
      1_500 < 10 ^ 8 ∧ toEightDigits 1_500 = 1_500 ∧ 0 < 7 ∧ 0 < toEightDigits 7 ∧
      parseScaled? " 2H " = some 7_200_000_000_000 := by
  obtain ⟨written, -, -, read, -, -⟩ := headers_round_down
  obtain ⟨-, long, -⟩ := written 123_456_789
  obtain ⟨-, -, -, short, -⟩ := written 1_500
  obtain ⟨-, -, -, -, positive⟩ := written 7
  refine ⟨by decide, long, by decide, short (by decide), by decide, positive (by decide), ?_⟩
  have two : IsCount 8 ['2'] := ⟨by decide, by decide, List.forall_mem_singleton.mpr rfl⟩
  exact (read _ _).mpr ⟨['2'], two, .hour, by decide, by decide⟩

end RpcWire.Timeout
