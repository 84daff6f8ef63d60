import Mathlib.Algebra.Order.Field.Power
import Mathlib.Data.List.TakeWhile
import Mathlib.Data.Rat.Cast.Order
import Mathlib.Tactic.NormNum
import RpcWire.Proofs.Coding.Negotiate

/-!
# What a peer prefers

An accept header is a list of members, each of which names a coding and may give
it a weight. A weight that counts as zero or less refuses the coding.

* `Number.Weight.isRefusal_iff`: which weights do, as rational numbers;
* `Registry.Accepts`: what one member says, and `parse?_eq_some_iff` that it is
  read so;
* `Registry.negotiate?_eq_some_iff`: the pool that is chosen is that of the first
  coding that is accepted and decides the matter (`Registry.Settles`), unless
  this is `identity`.
-/

namespace RpcWire

/-! ## Weights -/

namespace Number.Weight

/-- A weight counts as zero or less: it is negative, or at most half of the smallest step, so that
rounding to an even multiple of the step leaves nothing of it. -/
def AtMostZero : Weight → Prop
  | undefined => False
  | infinite negative => negative = true
  | finite negative mantissa scale =>
    negative = true ∨ (mantissa : ℚ) * 10 ^ scale ≤ 2 ^ (-149 : ℤ) / 2

theorem pow_length_le {m : Nat} (h : m ≠ 0) : 10 ^ ((Nat.toDigits 10 m).length - 1) ≤ m := by
  by_contra small
  by_cases one : (Nat.toDigits 10 m).length - 1 = 0
  · rw [one] at small
    omega
  · have shorter := (Nat.length_toDigits_le_iff (by decide) (Nat.pos_of_ne_zero one)).mpr
      (Nat.lt_of_not_le small)
    omega

theorem lt_pow_length (m : Nat) : m < 10 ^ (Nat.toDigits 10 m).length :=
  (Nat.length_toDigits_le_iff (by decide) Nat.length_toDigits_pos).mp (Nat.le_refl _)

/-- The powers of ten between which the bound lies settle all sizes but two. -/
theorem roundsToZero_iff (m : Nat) (s : Int) :
    roundsToZero m s = true ↔ (m : ℚ) * 10 ^ s ≤ 2 ^ (-149 : ℤ) / 2 := by
  have ten : (10 : ℚ) ≠ 0 := by norm_num
  unfold roundsToZero
  simp only
  split
  · next zero =>
    rw [zero, Nat.cast_zero, zero_mul]
    exact iff_of_true rfl (by positivity)
  next nonzero =>
  have below := lt_pow_length m
  have above := pow_length_le nonzero
  have some : 0 < (Nat.toDigits 10 m).length := Nat.length_toDigits_pos
  generalize (Nat.toDigits 10 m).length = d at below above some ⊢
  split
  · next short =>
    refine iff_of_true rfl ?_
    have below : (m : ℚ) ≤ 10 ^ (d : ℤ) := by
      rw [zpow_natCast]
      exact_mod_cast below.le
    calc (m : ℚ) * 10 ^ s ≤ 10 ^ (d : ℤ) * 10 ^ s := by gcongr
      _ = 10 ^ ((d : ℤ) + s) := (zpow_add₀ ten _ _).symm
      _ ≤ 10 ^ (-46 : ℤ) := zpow_le_zpow_right₀ (by norm_num) (by omega)
      _ ≤ 2 ^ (-149 : ℤ) / 2 := by norm_num
  split
  · next long =>
    refine iff_of_false (by decide) (not_le.mpr ?_)
    have above : (10 : ℚ) ^ ((d : ℤ) - 1) ≤ m := by
      rw [show (d : ℤ) - 1 = ((d - 1 : ℕ) : ℤ) by omega, zpow_natCast]
      exact_mod_cast above
    calc (2 : ℚ) ^ (-149 : ℤ) / 2 < 10 ^ (-44 : ℤ) := by norm_num
      _ ≤ 10 ^ ((d : ℤ) - 1 + s) := zpow_le_zpow_right₀ (by norm_num) (by omega)
      _ = 10 ^ ((d : ℤ) - 1) * 10 ^ s := zpow_add₀ ten _ _
      _ ≤ m * 10 ^ s := by gcongr
  · -- the exact comparison, cleared of both denominators
    have negative : s = -((-s).toNat : ℤ) := by omega
    generalize (-s).toNat = k at negative ⊢
    have half : (2 : ℚ) ^ (-149 : ℤ) / 2 = 1 / 2 ^ 150 := by norm_num
    rw [decide_eq_true_eq, negative, zpow_neg, zpow_natCast, half, ← div_eq_mul_inv,
      div_le_div_iff₀ (by positivity) (by positivity), one_mul]
    exact_mod_cast Iff.rfl

/-- A weight is read as a refusal exactly if the number that it writes rounds to zero or less. -/
theorem isRefusal_iff (w : Weight) : w.isRefusal = true ↔ w.AtMostZero := by
  cases w with
  | undefined => exact iff_of_false (by decide) id
  | infinite negative => exact Iff.rfl
  | finite negative mantissa scale =>
    show (negative || roundsToZero mantissa scale) = true ↔ _
    rw [Bool.or_eq_true, roundsToZero_iff]
    exact Iff.rfl

end Number.Weight

namespace Registry

/-! ## Members -/

/-- The coding that a member of an accept header names: what stands before its first semicolon,
between blanks. -/
def codingOf (member : List Char) : String :=
  String.ofList (Text.trim ((Text.trim member).takeWhile (· ≠ ';')))

/-- The weight of a member: what the first of its parameters that begins with `q=` has behind it, if
that is a number. -/
def weightOf? (member : List Char) : Option Number.Weight :=
  (weightText? ((Text.trim member).dropWhile (· ≠ ';')).tail).bind fun text =>
    Number.Weight.parse? (Text.trim text)

/-- A member, which is not blank, accepts a coding: it names the coding, and its weight, if it has
one, does not count as zero or less. -/
structure Accepts (member : List Char) (coding : String) : Prop where
  solid : Text.trim member ≠ []
  coding : codingOf member = coding
  weight : ∀ w ∈ weightOf? member, ¬ w.AtMostZero

/-- A member as it is read. -/
theorem parse?_eq (member : List Char) : Offer.parse? member =
    if Text.trim member = [] then none
    else some ⟨codingOf member,
      ((weightOf? member).map Number.Weight.isRefusal).getD false⟩ := by
  unfold Offer.parse? codingOf weightOf?
  simp only [Text.cutFirst?_eq]
  split
  · rfl
  by_cases cut : ';' ∈ Text.trim member
  · rw [if_pos cut]
    dsimp only
    cases weightText? ((Text.trim member).dropWhile (· ≠ ';')).tail <;> rfl
  · -- without a semicolon all of it is the coding
    have whole : ∀ c ∈ Text.trim member, decide (c ≠ ';') = true := by
      intro c hc
      rw [decide_eq_true_eq]
      rintro rfl
      exact cut hc
    rw [if_neg cut, List.takeWhile_eq_self_iff.mpr whole, List.dropWhile_eq_nil_iff.mpr whole,
      Text.trim_trim]
    rfl

/-- A member is read as the offer of exactly the coding that it accepts. -/
theorem parse?_eq_some_iff {member : List Char} {coding : String} :
    Offer.parse? member = some ⟨coding, false⟩ ↔ Accepts member coding := by
  rw [parse?_eq]
  constructor
  · intro read
    split at read
    · cases read
    · next solid =>
      rw [Option.some.injEq, Offer.mk.injEq] at read
      refine ⟨solid, read.1, ?_⟩
      intro w hw
      rw [Option.mem_def] at hw
      rw [hw] at read
      rw [← Number.Weight.isRefusal_iff, Bool.not_eq_true]
      exact read.2
  · rintro ⟨solid, rfl, weight⟩
    rw [if_neg solid]
    cases hw : weightOf? member with
    | none => rfl
    | some w =>
      have kept := weight w hw
      rw [← Number.Weight.isRefusal_iff, Bool.not_eq_true] at kept
      rw [Option.map_some, Option.getD_some, kept]

/-! ## Choosing -/

/-- A coding decides which pool is chosen: it is `identity`, so that none is, or names a pool. -/
def Decides (r : Registry) (coding : String) : Prop := coding = identity ∨ r.find? coding ≠ none

/-- The first of the members that accepts a coding by which the matter is decided, and the coding.
-/
inductive Settles (r : Registry) : List (List Char) → String → Prop
  | here {member : List Char} {coding : String} (rest : List (List Char)) :
      Accepts member coding → r.Decides coding → Settles r (member :: rest) coding
  | later {member : List Char} {coding : String} {rest : List (List Char)} :
      (∀ other, Accepts member other → ¬ r.Decides other) → Settles r rest coding →
      Settles r (member :: rest) coding

variable {r : Registry}

theorem Accepts.unique {member : List Char} {coding other : String} (h : Accepts member coding)
    (h' : Accepts member other) : coding = other :=
  h.coding.symm.trans h'.coding

theorem Settles.unique {members : List (List Char)} {coding other : String}
    (h : r.Settles members coding) (h' : r.Settles members other) : coding = other := by
  induction h with
  | here rest accepts decides =>
    cases h' with
    | here _ accepts' _ => exact accepts.unique accepts'
    | later passed _ => exact absurd decides (passed _ accepts)
  | later passed _ ih =>
    cases h' with
    | here _ accepts' decides' => exact absurd decides' (passed _ accepts')
    | later _ h' => exact ih h'

/-- A coding that is settled on is named by a member. -/
theorem Settles.accepted {members : List (List Char)} {coding : String}
    (h : r.Settles members coding) : ∃ member ∈ members, Accepts member coding := by
  induction h with
  | here rest accepts _ => exact ⟨_, List.mem_cons_self, accepts⟩
  | later _ _ ih =>
    obtain ⟨member, hmember, accepts⟩ := ih
    exact ⟨member, List.mem_cons_of_mem _ hmember, accepts⟩

/-- A member that decides nothing is passed over. -/
theorem settles_cons_of_passed {member : List Char} {rest : List (List Char)} {coding : String}
    (passed : ∀ other, Accepts member other → ¬ r.Decides other) :
    r.Settles (member :: rest) coding ↔ r.Settles rest coding := by
  constructor
  · intro h
    cases h with
    | here _ accepts decides => exact absurd decides (passed _ accepts)
    | later _ h => exact h
  · exact .later passed

/-- A member that accepts nothing, because it is blank or refuses, is passed over. -/
theorem choose?_cons_of_refused {member : List Char} (refuses : ∀ coding, ¬ Accepts member coding)
    (members : List (List Char)) :
    r.choose? ((member :: members).filterMap Offer.parse?) =
      r.choose? (members.filterMap Offer.parse?) := by
  cases read : Offer.parse? member with
  | none => rw [List.filterMap_cons_none read]
  | some o =>
    obtain ⟨coding, refused⟩ := o
    rw [List.filterMap_cons_some read, choose?]
    cases refused with
    | true => rfl
    | false => exact absurd (parse?_eq_some_iff.mp read) (refuses coding)

/-- The pool chosen is that of the coding settled on; `identity` settles on none. -/
theorem choose?_eq_some_iff {members : List (List Char)} {p : Pool} :
    r.choose? (members.filterMap Offer.parse?) = some p ↔
      r.Settles members p.name ∧ p.name ≠ identity ∧ r.find? p.name = some p := by
  induction members with
  | nil =>
    constructor
    · intro h
      cases h
    · rintro ⟨h, -⟩
      cases h
  | cons member members ih =>
    by_cases accepted : ∃ coding, Accepts member coding
    · obtain ⟨coding, accepts⟩ := accepted
      rw [List.filterMap_cons_some (parse?_eq_some_iff.mpr accepts), choose?]
      simp only [Bool.false_eq_true, if_false]
      by_cases identical : coding = identity
      · rw [if_pos identical]
        refine iff_of_false (by simp) ?_
        rintro ⟨h, named, -⟩
        exact named (h.unique (.here _ accepts (.inl identical)) |>.trans identical)
      · rw [if_neg identical]
        cases found : r.find? coding with
        | some q =>
          have decides : r.Decides coding := .inr (by simp [found])
          have name := name_of_find? found
          constructor
          · rintro ⟨rfl⟩
            rw [name]
            exact ⟨.here _ accepts decides, identical, found⟩
          · rintro ⟨h, -, known⟩
            rw [h.unique (.here _ accepts decides), found] at known
            exact known
        | none =>
          rw [Option.none_or, ih, settles_cons_of_passed]
          rintro other accepts' (same | known)
          · exact identical ((accepts.unique accepts').trans same)
          · rw [← accepts.unique accepts'] at known
            exact known found
    · have refuses : ∀ coding, ¬ Accepts member coding :=
        fun coding accepts => accepted ⟨coding, accepts⟩
      rw [choose?_cons_of_refused refuses, ih, settles_cons_of_passed]
      exact fun other accepts => absurd accepts (refuses other)

/-- The members of an accept header. -/
def membersOf (accept : String) : List (List Char) := accept.toList.splitOn ','

/-- The pool that is chosen is the one that the peer's members settle on. -/
theorem negotiate?_eq_some_iff {accept : Option String} {p : Pool} :
    r.negotiate? accept = some p ↔ ∃ header, accept = some header ∧
      r.Settles (membersOf header) p.name ∧ p.name ≠ identity ∧ r.find? p.name = some p := by
  unfold negotiate?
  rw [Option.bind_eq_some_iff]
  refine exists_congr fun header => and_congr_right fun _ => ?_
  exact choose?_eq_some_iff

/-- What is settled on is part of the header. -/
theorem mem_of_settles {header coding : String} (h : r.Settles (membersOf header) coding) {c : Char}
    (hc : c ∈ coding.toList) : c ∈ header.toList := by
  obtain ⟨member, hmember, accepts⟩ := h.accepted
  rw [← accepts.coding, codingOf, String.toList_ofList] at hc
  have inner := (List.takeWhile_sublist _).subset (Text.mem_of_mem_trim hc)
  rw [← header.toList.intercalate_splitOn ',']
  exact Text.mem_intercalate hmember (Text.mem_of_mem_trim inner)

end Registry

end RpcWire
