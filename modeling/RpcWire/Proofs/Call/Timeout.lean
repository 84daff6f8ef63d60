import Mathlib.Algebra.Order.Ring.Int
import RpcWire.Call.Timeout
import RpcWire.Proofs.Metadata
import RpcWire.Proofs.Text.Cut

/-!
# Timeouts are read back rounded down

Either written form of a timeout is read as the timeout rounded down to what
the form can hold: whole milliseconds of at most ten digits
(`parseMilliseconds?_encodeMilliseconds`), or at most eight digits of the finest
unit for which they are enough (`parseScaled?_encodeScaled`).
-/

namespace RpcWire.Timeout

/-! ## What the forms can hold -/

/-- A timeout rounded down to milliseconds, of which there are at most ten digits. -/
def toMilliseconds (t : Nat) : Nanoseconds := min (t / 10 ^ 6) 9999999999 * 10 ^ 6

/-- A timeout rounded down to eight digits of the finest unit for which they are enough, seconds
being the coarsest one. -/
def toEightDigits (t : Nat) : Nanoseconds :=
  if t ≤ 99999999 then t
  else if t / 10 ^ 3 ≤ 99999999 then t / 10 ^ 3 * 10 ^ 3
  else if t / 10 ^ 6 ≤ 99999999 then t / 10 ^ 6 * 10 ^ 6
  else min (t / 10 ^ 9) 99999999 * 10 ^ 9

theorem toMilliseconds_le (t : Nat) : toMilliseconds t ≤ t := by
  show min (t / 10 ^ 6) 9999999999 * 10 ^ 6 ≤ t
  omega

theorem toEightDigits_le (t : Nat) : toEightDigits t ≤ t := by
  unfold toEightDigits
  split
  · exact Nat.le_refl t
  · split
    · show t / 10 ^ 3 * 10 ^ 3 ≤ t
      omega
    · split
      · show t / 10 ^ 6 * 10 ^ 6 ≤ t
        omega
      · show min (t / 10 ^ 9) 99999999 * 10 ^ 9 ≤ t
        omega

/-! ## Digits -/

theorem toList_toString (n : Nat) : (toString n).toList = Nat.toDigits 10 n := by
  rw [Nat.toString_eq_ofList_toDigits, String.toList_ofList]

theorem toNat_of_isDigit {c : Char} (h : c.isDigit = true) : 0x30 ≤ c.toNat ∧ c.toNat ≤ 0x39 := by
  simp only [Char.isDigit, Bool.and_eq_true, decide_eq_true_eq, ge_iff_le,
    UInt32.le_iff_toNat_le] at h
  exact h

theorem toNat_of_mem_toDigits {n : Nat} {c : Char} (h : c ∈ Nat.toDigits 10 n) :
    0x30 ≤ c.toNat ∧ c.toNat ≤ 0x39 :=
  toNat_of_isDigit (Nat.isDigit_of_mem_toDigits (by decide) (by decide) h)

/-! ## Milliseconds -/

theorem isVisible_encodeMilliseconds (t : Nanoseconds) : IsVisible (encodeMilliseconds t) := by
  refine isVisible_of_printable ?_
  intro c hc
  rw [encodeMilliseconds, toList_toString] at hc
  have := toNat_of_mem_toDigits hc
  omega

/-- The server reads the whole milliseconds that the client has written. -/
theorem parseMilliseconds?_encodeMilliseconds (t : Nanoseconds) :
    parseMilliseconds? (encodeMilliseconds t) = some (toMilliseconds t) := by
  have solid : Text.trim (encodeMilliseconds t).toList =
      Nat.toDigits 10 (min (t / 10 ^ 6) maxMilliseconds) := by
    rw [encodeMilliseconds, toList_toString]
    refine Text.trim_of_not_blank ?_
    intro c hc
    have := toNat_of_mem_toDigits hc
    exact Text.isBlank_of_printable (by omega) (by omega)
  have short : (Nat.toDigits 10 (min (t / 10 ^ 6) maxMilliseconds)).length ≤ 10 := by
    rw [Nat.length_toDigits_le_iff (by decide) (by decide)]
    show min (t / 10 ^ 6) 9999999999 < 10 ^ 10
    omega
  unfold parseMilliseconds?
  simp only [solid, if_pos short, Number.digits?_toDigits, Option.map_some]
  rfl

/-! ## Digits and a unit -/

/-- The text is a count of at most eight digits and the letter of its unit. -/
theorem toList_encodeScaled (t : Nanoseconds) :
    (encodeScaled t).toList =
      Nat.toDigits 10 (min (t / (scaleOf t).length) maxCount) ++ [(scaleOf t).letter] := by
  rw [encodeScaled]
  simp only [String.toList_append, toList_toString, String.toList_singleton]

theorem toNat_letter (s : Scale) : 0x21 ≤ s.letter.toNat ∧ s.letter.toNat ≤ 0x7E := by
  cases s <;> decide

theorem printable_encodeScaled {t : Nanoseconds} {c : Char} (h : c ∈ (encodeScaled t).toList) :
    0x21 ≤ c.toNat ∧ c.toNat ≤ 0x7E := by
  rw [toList_encodeScaled] at h
  rcases List.mem_append.mp h with h | h
  · have := toNat_of_mem_toDigits h
    omega
  · rw [List.mem_singleton.mp h]
    exact toNat_letter _

theorem isVisible_encodeScaled (t : Nanoseconds) : IsVisible (encodeScaled t) := by
  apply isVisible_of_printable
  intro c hc
  have := printable_encodeScaled hc
  omega

/-- A unit suits if eight digits are enough and the next larger unit would not do as well. -/
theorem suits_iff (s : Scale) (t : Nat) :
    s.suits t = true ↔ t / s.length ≤ 99999999 ∧ t / s.length % 1000 ≠ 0 := by
  unfold Scale.suits
  rw [Bool.and_eq_true, decide_eq_true_eq, decide_eq_true_eq]
  exact Iff.rfl

theorem suits_false {s : Scale} {t : Nat} (h : ¬ s.suits t = true) :
    ¬ (t / s.length ≤ 99999999 ∧ t / s.length % 1000 ≠ 0) := by
  intro e
  exact h ((suits_iff s t).mpr e)

/-- The unit that is chosen loses nothing to the finest one for which eight digits are enough: a
count that is a multiple of a thousand is left to the next unit, which counts the same time. -/
theorem scaled_eq (t : Nat) :
    min (t / (scaleOf t).length) maxCount * (scaleOf t).length = toEightDigits t := by
  unfold scaleOf toEightDigits
  rw [List.find?_cons, List.find?_cons, List.find?_cons, List.find?_nil]
  by_cases hn : Scale.suits .nanosecond t = true
  · rw [hn]
    obtain ⟨fits, -⟩ := (suits_iff _ _).mp hn
    show min (t / 1) 99999999 * 1 = _
    have fits : t / 1 ≤ 99999999 := fits
    rw [if_pos (by omega)]
    omega
  have hn' : ¬ (t / 1 ≤ 99999999 ∧ t / 1 % 1000 ≠ 0) := suits_false hn
  rw [Bool.not_eq_true] at hn
  rw [hn]
  -- a finer unit that does not suit counts too much, or a multiple of a thousand
  by_cases hu : Scale.suits .microsecond t = true
  · rw [hu]
    have fits : t / 10 ^ 3 ≤ 99999999 := ((suits_iff _ _).mp hu).1
    show min (t / 10 ^ 3) 99999999 * 10 ^ 3 = _
    split <;> omega
  have hu' : ¬ (t / 10 ^ 3 ≤ 99999999 ∧ t / 10 ^ 3 % 1000 ≠ 0) := suits_false hu
  rw [Bool.not_eq_true] at hu
  rw [hu]
  by_cases hm : Scale.suits .millisecond t = true
  · rw [hm]
    have fits : t / 10 ^ 6 ≤ 99999999 := ((suits_iff _ _).mp hm).1
    show min (t / 10 ^ 6) 99999999 * 10 ^ 6 = _
    split
    · omega
    · split <;> omega
  -- what no finer unit suits is written in seconds
  have hm' : ¬ (t / 10 ^ 6 ≤ 99999999 ∧ t / 10 ^ 6 % 1000 ≠ 0) := suits_false hm
  rw [Bool.not_eq_true] at hm
  rw [hm]
  show min (t / 10 ^ 9) 99999999 * 10 ^ 9 = _
  split
  · omega
  · split
    · omega
    · split
      · omega
      · rfl

/-- The server reads what eight digits of the chosen unit can say of the timeout. -/
theorem parseScaled?_encodeScaled (t : Nanoseconds) :
    parseScaled? (encodeScaled t) = some (toEightDigits t) := by
  have solid : Text.trim (encodeScaled t).toList = (encodeScaled t).toList := by
    refine Text.trim_of_not_blank ?_
    intro c hc
    obtain ⟨low, high⟩ := printable_encodeScaled hc
    exact Text.isBlank_of_printable low high
  have short : (Nat.toDigits 10 (min (t / (scaleOf t).length) maxCount)).length ≤ 8 := by
    rw [Nat.length_toDigits_le_iff (by decide) (by decide)]
    exact Nat.lt_of_le_of_lt (Nat.min_le_right _ _) (by decide)
  have last : (encodeScaled t).toList.getLast? = some (scaleOf t).letter := by
    rw [toList_encodeScaled, List.getLast?_concat]
  have count : (encodeScaled t).toList.dropLast =
      Nat.toDigits 10 (min (t / (scaleOf t).length) maxCount) := by
    rw [toList_encodeScaled, List.dropLast_concat]
  unfold parseScaled?
  simp only [solid, last, count, Option.bind_eq_bind, Option.bind_some, Scale.ofLetter?_letter,
    Number.digits?_toDigits, if_pos short]
  exact congrArg some (scaled_eq t)

end RpcWire.Timeout
