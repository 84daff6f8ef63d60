import Mathlib.Data.List.Basic
import Mathlib.Data.List.TakeWhile
import RpcWire.Text.Cut

/-!
# Cut texts

What the parts of a cut text cannot hold, what trimming keeps, and which lines a
text of lines has.
-/

namespace RpcWire.Text

/-! ## Separators -/

/-- The last separator is the one that is cut at. -/
theorem not_mem_of_cutLast? {sep : Char} {cs : List Char} :
    (cutLast? sep cs = none → sep ∉ cs) ∧
      ∀ before after, cutLast? sep cs = some (before, after) → sep ∉ after := by
  induction cs with
  | nil =>
    refine ⟨fun _ => List.not_mem_nil, ?_⟩
    intro before after h
    cases h
  | cons c cs ih =>
    rw [cutLast?]
    cases hc : cutLast? sep cs with
    | some parts =>
      -- a later separator is the last one, so the first character is in front of it
      constructor
      · intro h
        cases h
      · intro before after h
        cases h
        exact ih.2 _ _ hc
    | none =>
      have none := ih.1 hc
      by_cases same : c = sep
      · simp only [if_pos same]
        constructor
        · intro h
          cases h
        · intro before after h
          cases h
          exact none
      · simp only [if_neg same]
        constructor
        · intro _ h
          rcases List.mem_cons.mp h with h | h
          · exact same h.symm
          · exact none h
        · intro before after h
          cases h

/-- A text that has a separator is cut where its first one stands. -/
theorem cutFirst?_eq (sep : Char) (cs : List Char) : cutFirst? sep cs =
    if sep ∈ cs then some (cs.takeWhile (· ≠ sep), (cs.dropWhile (· ≠ sep)).tail) else none := by
  induction cs with
  | nil => rfl
  | cons c cs ih =>
    rw [cutFirst?, ih]
    by_cases here : c = sep
    · simp [here]
    · by_cases later : sep ∈ cs
      · simp [here, later]
      · simp [here, later, Ne.symm here]

theorem not_mem_of_all {p : Char → Bool} {cs : List Char} (h : cs.all p = true) {c : Char}
    (hc : p c = false) : c ∉ cs := by
  intro mem
  rw [List.all_eq_true.mp h c mem] at hc
  cases hc

/-! ## Stems -/

theorem stripStart?_append (stem : String) (rest : List Char) :
    stripStart? stem (stem.toList ++ rest) = some rest :=
  List.isPrefixOf?_eq_some_iff_append_eq.mpr rfl

theorem stripStart?_eq_some {stem : String} {cs rest : List Char}
    (h : stripStart? stem cs = some rest) : cs = stem.toList ++ rest :=
  (List.append_eq_of_isPrefixOf?_eq_some h).symm

/-- A stem without the separator stands in front of the first separator, or not at all. -/
theorem startsWith_append {sep : Char} {stem : String} (h : sep ∉ stem.toList)
    (cs rest : List Char) : startsWith stem (cs ++ sep :: rest) = startsWith stem cs := by
  unfold startsWith
  generalize stem.toList = stem at h
  induction stem generalizing cs with
  | nil => rfl
  | cons c stem ih =>
    rw [List.mem_cons, not_or] at h
    cases cs with
    | nil =>
      have other : (c == sep) = false := beq_false_of_ne (Ne.symm h.1)
      rw [List.nil_append, List.isPrefixOf_cons_cons, other]
      rfl
    | cons d cs =>
      rw [List.cons_append, List.isPrefixOf_cons_cons, List.isPrefixOf_cons_cons, ih _ h.2]

theorem takeWhile_append_separator (sep : Char) (cs rest : List Char) :
    (cs ++ sep :: rest).takeWhile (· != sep) = cs.takeWhile (· != sep) := by
  have ends : (sep :: rest).takeWhile (· != sep) = [] :=
    List.takeWhile_cons_of_neg (by simp)
  rw [List.takeWhile_append, ends, List.append_nil]
  split
  · next all => exact ((List.takeWhile_prefix _).eq_of_length all).symm
  · rfl

/-! ## Texts between separators -/

theorem mem_intercalate {sep cs : List Char} {css : List (List Char)} {c : Char} (hcs : cs ∈ css)
    (hc : c ∈ cs) : c ∈ sep.intercalate css := by
  induction css with
  | nil => cases hcs
  | cons first css ih =>
    by_cases one : css = []
    · rw [one, List.mem_singleton] at hcs
      rw [one, ← hcs]
      simpa using hc
    · rw [List.intercalate_cons_of_ne_nil one]
      rcases List.mem_cons.mp hcs with rfl | later
      · exact List.mem_append_left _ (List.mem_append_left _ hc)
      · exact List.mem_append_right _ (ih later)

theorem mem_of_mem_intercalate {sep : List Char} {css : List (List Char)} {c : Char}
    (h : c ∈ sep.intercalate css) : c ∈ sep ∨ ∃ cs ∈ css, c ∈ cs := by
  induction css with
  | nil => exact absurd h (by simp)
  | cons first css ih =>
    by_cases one : css = []
    · rw [one, List.intercalate_singleton] at h
      exact .inr ⟨first, List.mem_cons_self, h⟩
    · rw [List.intercalate_cons_of_ne_nil one, List.mem_append, List.mem_append] at h
      rcases h with (h | h) | h
      · exact .inr ⟨first, List.mem_cons_self, h⟩
      · exact .inl h
      · rcases ih h with h | ⟨cs, hcs, h⟩
        · exact .inl h
        · exact .inr ⟨cs, List.mem_cons_of_mem _ hcs, h⟩

/-! ## Blanks -/

theorem le_of_isBlank {c : Char} (ascii : c.toNat < 128) (h : isBlank c = true) :
    c.toNat ≤ 0x20 :=
  forall_ascii (p := fun c => isBlank c = true → c.toNat ≤ 0x20) (by decide) ascii h

theorem isBlank_of_printable {c : Char} (low : 0x21 ≤ c.toNat) (high : c.toNat ≤ 0x7E) :
    isBlank c = false := by
  cases h : isBlank c with
  | false => rfl
  | true =>
    have := le_of_isBlank (by omega) h
    omega

theorem dropTrailing_eq_self {p : Char → Bool} {cs : List Char}
    (last : ∀ c ∈ cs.getLast?, p c = false) : dropTrailing p cs = cs := by
  have back : cs.reverse.dropWhile p = cs.reverse := by
    cases h : cs.reverse with
    | nil => rfl
    | cons c rest =>
      have hlast : cs.getLast? = some c := by rw [← List.head?_reverse, h, List.head?_cons]
      rw [List.dropWhile_cons_of_neg (by simp [last c hlast])]
  rw [dropTrailing, back, List.reverse_reverse]

theorem trim_eq_self {cs : List Char} (first : ∀ c ∈ cs.head?, isBlank c = false)
    (last : ∀ c ∈ cs.getLast?, isBlank c = false) : trim cs = cs := by
  have front : cs.dropWhile isBlank = cs := by
    cases cs with
    | nil => rfl
    | cons c cs => rw [List.dropWhile_cons_of_neg (by simp [first c rfl])]
  rw [trim, front, dropTrailing_eq_self last]

theorem trim_of_not_blank {cs : List Char} (h : ∀ c ∈ cs, isBlank c = false) : trim cs = cs := by
  apply trim_eq_self
  · intro c hc
    exact h c (List.mem_of_mem_head? hc)
  · intro c hc
    exact h c (List.mem_of_getLast? hc)

theorem mem_of_mem_trim {cs : List Char} {c : Char} (h : c ∈ trim cs) : c ∈ cs := by
  rw [trim, dropTrailing, List.mem_reverse] at h
  have inner := (List.dropWhile_sublist isBlank).subset h
  rw [List.mem_reverse] at inner
  exact (List.dropWhile_sublist isBlank).subset inner

theorem dropTrailing_prefix (p : Char → Bool) (cs : List Char) : dropTrailing p cs <+: cs := by
  have suffix := List.dropWhile_suffix p (l := cs.reverse)
  rwa [← List.reverse_prefix, List.reverse_reverse] at suffix

/-- Trimming twice trims no more than trimming once. -/
theorem trim_trim (cs : List Char) : trim (trim cs) = trim cs := by
  apply trim_eq_self
  · intro c hc
    have front := List.head?_dropWhile_not isBlank cs
    obtain ⟨rest, split⟩ := dropTrailing_prefix isBlank (cs.dropWhile isBlank)
    have hc : (dropTrailing isBlank (cs.dropWhile isBlank)).head? = some c := hc
    rw [← split, List.head?_append, hc] at front
    exact front
  · intro c hc
    have back := List.head?_dropWhile_not isBlank (cs.dropWhile isBlank).reverse
    rw [trim, dropTrailing, List.getLast?_reverse] at hc
    rw [hc] at back
    exact back

/-- What is dropped anyway may stand at the end. -/
theorem dropTrailing_append {p : Char → Bool} (cs : List Char) {after : List Char}
    (h : ∀ c ∈ after, p c = true) : dropTrailing p (cs ++ after) = dropTrailing p cs := by
  rw [dropTrailing, dropTrailing, List.reverse_append, List.dropWhile_append_of_pos]
  intro c hc
  exact h c (List.mem_reverse.mp hc)

/-- Blanks around a text are trimmed with its own. -/
theorem trim_between {before after : List Char} (first : ∀ c ∈ before, isBlank c = true)
    (last : ∀ c ∈ after, isBlank c = true) (cs : List Char) :
    trim (before ++ cs ++ after) = trim cs := by
  have inner : trim (cs ++ after) = trim cs := by
    rw [trim, trim, List.dropWhile_append]
    split
    · next blank =>
      -- the whole text is blank, and so is what follows it
      have none : cs.dropWhile isBlank = [] := by simpa using blank
      rw [none, List.dropWhile_eq_nil_iff.mpr last]
    · exact dropTrailing_append _ last
  rw [List.append_assoc]
  unfold trim at inner ⊢
  rw [List.dropWhile_append_of_pos first, inner]

theorem trim_space (cs : List Char) : trim (' ' :: cs) = trim cs := by
  have blank : isBlank ' ' = true := by decide
  rw [trim, trim, List.dropWhile_cons_of_pos blank]

/-! ## Lines -/

/-- A line without a CR ends at the first CRLF. -/
theorem lines_append {line : List Char} (h : '\r' ∉ line) (rest : List Char) :
    lines (line ++ '\r' :: '\n' :: rest) = line :: lines rest := by
  induction line with
  | nil => rw [List.nil_append, lines]
  | cons c line ih =>
    rw [List.mem_cons, not_or] at h
    rw [List.cons_append, lines, ih h.2]
    intro _ e
    exact absurd e.symm h.1

end RpcWire.Text
