import Mathlib.Data.List.Basic
import RpcWire.Metadata
import RpcWire.Proofs.Text.Utf8

/-!
# What look-ups see

Every change to a map, seen through `values` and `text?`: the name it is about,
in any case, and all other names, which stay as they were. A text can be looked
up again if it is visible (`IsVisible`).
-/

namespace RpcWire

/-! ## Visible texts -/

/-- A text of visible ASCII and tabs, which can stand in a field and be looked up as text. -/
def IsVisible (s : String) : Prop := (Utf8.encode s).all isVisibleByte = true

instance (s : String) : Decidable (IsVisible s) := inferInstanceAs (Decidable (_ = true))

theorem toNat_of_isVisibleByte {b : UInt8} (h : isVisibleByte b = true) : b.toNat < 128 := by
  simp only [isVisibleByte, Bool.or_eq_true, Bool.and_eq_true, decide_eq_true_eq,
    UInt8.le_iff_toNat_le] at h
  rcases h with ⟨-, h⟩ | h
  · exact Nat.lt_of_le_of_lt h (by decide)
  · rw [h]
    decide

theorem isFieldByte_of_isVisibleByte {b : UInt8} (h : isVisibleByte b = true) :
    isFieldByte b = true := by
  have small := toNat_of_isVisibleByte h
  have all : ∀ n < 128,
      isVisibleByte (UInt8.ofNat n) = true → isFieldByte (UInt8.ofNat n) = true := by
    decide
  have := all b.toNat small
  rw [UInt8.ofNat_toNat] at this
  exact this h

theorem all_isFieldByte {bs : Bytes} (h : bs.all isVisibleByte = true) :
    bs.all isFieldByte = true := by
  rw [List.all_eq_true] at h ⊢
  intro b hb
  exact isFieldByte_of_isVisibleByte (h b hb)

theorem encode_of_visibleText? {value : Bytes} {text : String}
    (h : visibleText? value = some text) : Utf8.encode text = value := by
  unfold visibleText? at h
  split at h
  · next visible =>
    cases h
    rw [List.all_eq_true] at visible
    rw [Utf8.encode, String.toList_ofList]
    exact Utf8.encodeChars_ofNat fun b hb => toNat_of_isVisibleByte (visible b hb)
  · cases h

/-- Text of visible characters is read back from its bytes as it was. -/
@[simp] theorem visibleText?_encode {s : String} (h : IsVisible s) :
    visibleText? (Utf8.encode s) = some s := by
  have found : visibleText? (Utf8.encode s) =
      some (String.ofList ((Utf8.encode s).map fun b => Char.ofNat b.toNat)) := if_pos h
  rw [found, Utf8.encode_injective (encode_of_visibleText? found)]

theorem isVisible_of_visibleText? {value : Bytes} {text : String}
    (h : visibleText? value = some text) : IsVisible text := by
  unfold IsVisible
  rw [encode_of_visibleText? h]
  unfold visibleText? at h
  split at h
  · next visible => exact visible
  · cases h

/-- The characters of a visible text. -/
def isVisibleChar (c : Char) : Bool := (0x20 ≤ c.toNat && c.toNat ≤ 0x7E) || c.toNat = 0x09

theorem isVisibleChar_ofNat :
    ∀ n < 128, isVisibleChar (Char.ofNat n) = isVisibleByte (UInt8.ofNat n) := by
  decide

theorem toNat_of_isVisibleChar {c : Char} (h : isVisibleChar c = true) : c.toNat < 128 := by
  simp only [isVisibleChar, Bool.or_eq_true, Bool.and_eq_true, decide_eq_true_eq] at h
  omega

/-- Whether text may stand as a value can be told character by character. -/
theorem isVisible_iff {s : String} : IsVisible s ↔ ∀ c ∈ s.toList, isVisibleChar c = true := by
  constructor
  · intro h c hc
    have value : visibleText? (Utf8.encode s) =
        some (String.ofList ((Utf8.encode s).map fun b => Char.ofNat b.toNat)) := if_pos h
    have same := value.symm.trans (visibleText?_encode h)
    rw [← Option.some.inj same, String.toList_ofList] at hc
    obtain ⟨b, hb, rfl⟩ := List.mem_map.mp hc
    have visible := List.all_eq_true.mp h b hb
    rw [isVisibleChar_ofNat _ (toNat_of_isVisibleByte visible), UInt8.ofNat_toNat, visible]
  · intro h
    unfold IsVisible
    rw [Utf8.encode, Utf8.encodeChars_ascii fun c hc => toNat_of_isVisibleChar (h c hc),
      List.all_eq_true]
    intro b hb
    obtain ⟨c, hc, rfl⟩ := List.mem_map.mp hb
    rw [← isVisibleChar_ofNat _ (toNat_of_isVisibleChar (h c hc)), Char.ofNat_toNat, h c hc]

theorem isVisible_of_printable {s : String}
    (h : ∀ c ∈ s.toList, 0x20 ≤ c.toNat ∧ c.toNat ≤ 0x7E) : IsVisible s :=
  isVisible_iff.mpr fun c hc => by simp [isVisibleChar, h c hc]

/-! ## Legal values -/

/-- The octets of a text that may be a value. -/
def legalValue? (text : String) : Option Bytes :=
  if (Utf8.encode text).all isFieldByte then some (Utf8.encode text) else none

/-- A text is refused as a value only for a control character other than the tab. -/
theorem legalValue?_eq_some_iff {text : String} {value : Bytes} :
    legalValue? text = some value ↔
      (Utf8.encode text).all isFieldByte = true ∧ Utf8.encode text = value := by
  simp [legalValue?]

theorem legalValue?_eq_none_iff {text : String} :
    legalValue? text = none ↔ (Utf8.encode text).all isFieldByte ≠ true := by
  simp [legalValue?]

/-! ## Letter case -/

/-- Beyond ASCII there are no capitals. -/
theorem toLower_of_le {c : Char} (h : 128 ≤ c.toNat) : c.toLower = c := by
  unfold Char.toLower
  rw [dif_neg]
  rintro ⟨-, upper⟩
  rw [UInt32.le_iff_toNat_le] at upper
  have upper : c.toNat ≤ 90 := upper
  omega

theorem isTokenChar_of_toLower {c : Char} (h : isTokenChar c.toLower = true) :
    isTokenChar c = true := by
  by_cases ascii : c.toNat < 128
  · exact Text.forall_ascii (p := fun c => isTokenChar c.toLower = true → isTokenChar c = true)
      (by decide) ascii h
  · rwa [toLower_of_le (by omega)] at h

theorem isFieldName_of_lower {key : String} (h : isFieldName (Text.lower key) = true) :
    isFieldName key = true := by
  simp only [isFieldName, Text.lower, String.toList_ofList, List.all_map, List.length_map,
    List.isEmpty_map, Bool.and_eq_true, List.all_eq_true, Function.comp] at h ⊢
  exact ⟨⟨h.1.1, fun c hc => isTokenChar_of_toLower (h.1.2 c hc)⟩, h.2⟩

theorem toLower_toLower (c : Char) : c.toLower.toLower = c.toLower := by
  by_cases ascii : c.toNat < 128
  · exact Text.forall_ascii (p := fun c => c.toLower.toLower = c.toLower) (by decide) ascii
  · have same := toLower_of_le (Nat.le_of_not_lt ascii)
    rw [same, same]

theorem lower_lower (s : String) : Text.lower (Text.lower s) = Text.lower s := by
  simp only [Text.lower, String.toList_ofList, List.map_map, Function.comp_def, toLower_toLower]

/-- Whether a text is a name does not depend on the case of its letters. -/
theorem isFieldName_congr {key other : String} (h : Text.lower key = Text.lower other) :
    isFieldName key = true ↔ isFieldName other = true := by
  constructor
  · intro legal
    apply isFieldName_of_lower
    rw [← h]
    exact (isFieldName_lower legal).1
  · intro legal
    apply isFieldName_of_lower
    rw [h]
    exact (isFieldName_lower legal).1

namespace Metadata

/-! ## Values -/

/-- Names that differ in case only name the same values. -/
theorem values_congr (m : Metadata) {key other : String} (h : Text.lower key = Text.lower other) :
    m.values key = m.values other := by
  rw [values, values, h]

theorem mem_values_iff {m : Metadata} {key : String} {value : Bytes} :
    value ∈ m.values key ↔ ∃ f ∈ m.fields, f.name = Text.lower key ∧ f.value = value := by
  unfold values
  rw [List.mem_filterMap]
  constructor
  · rintro ⟨f, hf, found⟩
    split at found
    · next named =>
      cases found
      exact ⟨f, hf, named, rfl⟩
    · cases found
  · rintro ⟨f, hf, named, rfl⟩
    exact ⟨f, hf, if_pos named⟩

/-- A field that is added comes last among the values of its name. -/
theorem values_push (m : Metadata) (f : { f : Field // f.Legal }) (key : String) :
    (m.push f).values key =
      m.values key ++ if f.1.name = Text.lower key then [f.1.value] else [] := by
  unfold values push
  rw [List.filterMap_append]
  by_cases h : f.1.name = Text.lower key <;> simp [h]

/-- Removing a name takes all its values away and no others. -/
theorem values_erase (m : Metadata) (name key : String) :
    (m.erase name).values key = if Text.lower name = Text.lower key then [] else m.values key := by
  unfold values erase keep
  rw [List.filterMap_filter]
  by_cases h : Text.lower name = Text.lower key
  · rw [if_pos h, List.filterMap_eq_nil_iff]
    intro f _
    by_cases hf : f.name = Text.lower key <;> simp [h, hf]
  · rw [if_neg h]
    refine congrArg (List.filterMap · m.fields) (funext ?_)
    intro f
    by_cases hf : f.name = Text.lower key
    · have hne : f.name ≠ Text.lower name := by
        intro e
        exact h (e.symm.trans hf)
      simp [hf, hf ▸ hne]
    · simp [hf]

theorem make?_of_legal {key : String} {value : Bytes} (hk : isFieldName key = true)
    (hv : value.all isFieldByte = true) :
    ∃ f : { f : Field // f.Legal }, Field.make? key value = some f ∧
      f.1.name = Text.lower key ∧ f.1.value = value := by
  unfold Field.make?
  rw [dif_pos ⟨hk, hv⟩]
  exact ⟨_, rfl, rfl, rfl⟩

theorem name_of_make? {key : String} {value : Bytes} {f : { f : Field // f.Legal }}
    (h : Field.make? key value = some f) : f.1.name = Text.lower key := by
  unfold Field.make? at h
  split at h
  · cases h
    rfl
  · cases h

/-- Adding appends one value to the name, and leaves every other name as it is. -/
theorem values_add {m : Metadata} {name text : String} (hk : isFieldName name = true)
    (hv : (Utf8.encode text).all isFieldByte = true) (key : String) :
    (m.add name text).values key =
      m.values key ++ if Text.lower name = Text.lower key then [Utf8.encode text] else [] := by
  obtain ⟨f, hf, hname, hvalue⟩ := make?_of_legal hk hv
  rw [add, add?, addBytes?, hf, Option.map_some, Option.getD_some, values_push, hname, hvalue]

/-- Setting leaves the new value alone under its name. -/
theorem values_set {m : Metadata} {name text : String} (hk : isFieldName name = true)
    (hv : (Utf8.encode text).all isFieldByte = true) (key : String) :
    (m.set name text).values key =
      if Text.lower name = Text.lower key then [Utf8.encode text] else m.values key := by
  obtain ⟨f, hf, hname, hvalue⟩ := make?_of_legal hk hv
  rw [set, set?, add?, addBytes?, hf, Option.map_some, Option.getD_some, values_push, values_erase,
    hname, hvalue]
  by_cases h : Text.lower name = Text.lower key <;> simp [h]

/-- Setting a text changes no other name, whether it is legal or not. -/
theorem values_set_of_ne {m : Metadata} {name key : String}
    (h : Text.lower name ≠ Text.lower key) (text : String) :
    (m.set name text).values key = m.values key := by
  unfold set set? add? addBytes?
  cases hf : Field.make? name (Utf8.encode text) with
  | none => rfl
  | some f =>
    rw [Option.map_some, Option.getD_some, values_push, values_erase, name_of_make? hf, if_neg h,
      if_neg h, List.append_nil]

theorem values_setDefault_of_ne {m : Metadata} {name key : String}
    (h : Text.lower name ≠ Text.lower key) (text : String) :
    (m.setDefault name text).values key = m.values key := by
  unfold setDefault
  split
  · rfl
  · exact values_set_of_ne h text

/-- A default does not touch a name that has a value. -/
theorem values_setDefault_of_used {m : Metadata} {key : String} (h : m.values key ≠ [])
    (name text : String) : (m.setDefault name text).values key = m.values key := by
  by_cases same : Text.lower name = Text.lower key
  · -- the name has a value already, which the default leaves alone
    have used : m.contains name = true := by
      rw [contains, m.values_congr same, List.isEmpty_eq_false_iff.mpr h]
      rfl
    rw [setDefault, if_pos used]
  · exact values_setDefault_of_ne same text

theorem set?_of_legal {name text : String} (hk : isFieldName name = true)
    (hv : (Utf8.encode text).all isFieldByte = true) (m : Metadata) :
    m.set? name text = some (m.set name text) := by
  obtain ⟨f, hf, -, -⟩ := make?_of_legal hk hv
  rw [set, set?, add?, addBytes?, hf, Option.map_some, Option.getD_some]

theorem erase_set (m : Metadata) (name text : String) :
    (m.set name text).erase name = m.erase name := by
  unfold set set? add? addBytes?
  cases hf : Field.make? name (Utf8.encode text) with
  | none => rfl
  | some f =>
    rw [Option.map_some, Option.getD_some]
    apply ext
    simp [erase, keep, push, name_of_make? hf]

/-- Of two texts for one name, one after the other, the second counts. -/
theorem set_set {name text : String} (hk : isFieldName name = true)
    (hv : (Utf8.encode text).all isFieldByte = true) (m : Metadata) (other : String) :
    (m.set name other).set name text = m.set name text := by
  have same : (m.set name other).set? name text = m.set? name text := by
    rw [set?, set?, erase_set]
  rw [set, same, set?_of_legal hk hv, Option.getD_some]

/-! ## What is refused -/

theorem make?_eq_none_iff {key : String} {value : Bytes} :
    Field.make? key value = none ↔ ¬ (isFieldName key = true ∧ value.all isFieldByte = true) := by
  unfold Field.make?
  split
  · next legal => simp [legal]
  · next illegal => exact iff_of_true rfl illegal

/-- Adding fails exactly if the name or the value is illegal. -/
theorem add?_eq_none_iff {m : Metadata} {name text : String} :
    m.add? name text = none ↔
      ¬ (isFieldName name = true ∧ (Utf8.encode text).all isFieldByte = true) := by
  rw [add?, addBytes?, Option.map_eq_none_iff, make?_eq_none_iff]

theorem set?_eq_none_iff {m : Metadata} {name text : String} :
    m.set? name text = none ↔
      ¬ (isFieldName name = true ∧ (Utf8.encode text).all isFieldByte = true) :=
  add?_eq_none_iff

theorem add_of_refused {m : Metadata} {name text : String} (h : m.add? name text = none) :
    m.add name text = m := by
  rw [add, h, Option.getD_none]

theorem set_of_refused {m : Metadata} {name text : String} (h : m.set? name text = none) :
    m.set name text = m := by
  rw [set, h, Option.getD_none]

/-! ## One name at a time -/

section Congr

variable {m other : Metadata} {key : String}

theorem values_set_congr (h : m.values key = other.values key) (name text : String) :
    (m.set name text).values key = (other.set name text).values key := by
  by_cases legal : isFieldName name = true ∧ (Utf8.encode text).all isFieldByte = true
  · rw [values_set legal.1 legal.2, values_set legal.1 legal.2, h]
  · have refused (n : Metadata) : n.set name text = n := set_of_refused (set?_eq_none_iff.mpr legal)
    rw [refused, refused, h]

theorem values_setDefault_congr (h : m.values key = other.values key) (name text : String) :
    (m.setDefault name text).values key = (other.setDefault name text).values key := by
  by_cases same : Text.lower name = Text.lower key
  · -- the two maps agree on whether the name has a value
    have used : m.contains name = other.contains name := by
      rw [contains, contains, m.values_congr same, other.values_congr same, h]
    unfold setDefault
    rw [used]
    split
    · exact h
    · exact values_set_congr h name text
  · rw [values_setDefault_of_ne same, values_setDefault_of_ne same, h]

/-- Setting a text makes no second value. -/
theorem length_values_set_le (h : (m.values key).length ≤ 1) (name text : String) :
    ((m.set name text).values key).length ≤ 1 := by
  by_cases legal : isFieldName name = true ∧ (Utf8.encode text).all isFieldByte = true
  · rw [values_set legal.1 legal.2]
    split
    · exact Nat.le_refl 1
    · exact h
  · rw [set_of_refused (set?_eq_none_iff.mpr legal)]
    exact h

end Congr

/-! ## Texts -/

theorem text?_eq_of_values {m other : Metadata} {key : String}
    (h : m.values key = other.values key) :
    m.text? key = other.text? key := by
  rw [text?, text?, h]

theorem text?_set_of_ne {m : Metadata} {name key : String}
    (h : Text.lower name ≠ Text.lower key) (text : String) :
    (m.set name text).text? key = m.text? key :=
  text?_eq_of_values (values_set_of_ne h text)

theorem text?_set {m : Metadata} {name text : String} (hk : isFieldName name = true)
    (hv : IsVisible text) : (m.set name text).text? name = some text := by
  rw [text?, values_set hk (all_isFieldByte hv), if_pos rfl, List.head?_cons, Option.bind_some,
    visibleText?_encode hv]

theorem text?_of_values {m : Metadata} {key text : String} {rest : List Bytes} (hv : IsVisible text)
    (h : m.values key = Utf8.encode text :: rest) : m.text? key = some text := by
  rw [text?, h, List.head?_cons, Option.bind_some, visibleText?_encode hv]

/-- What the first table does not name is looked up in the second one. -/
theorem text?_merge_of_none {m other : Metadata} {key : String} (h : m.values key = []) :
    (m.merge other).text? key = other.text? key := by
  rw [text?, text?, values_merge, h, List.nil_append]

theorem text?_of_values_nil {m : Metadata} {key : String} (h : m.values key = []) :
    m.text? key = none := by
  rw [text?, h]
  rfl

theorem text?_of_values_toList {m : Metadata} {key : String} {text : Option String}
    (hv : ∀ t ∈ text, IsVisible t) (h : m.values key = text.toList.map Utf8.encode) :
    m.text? key = text := by
  cases text with
  | none => exact text?_of_values_nil h
  | some text => exact text?_of_values (hv text rfl) h

theorem isEmpty_of_text? {m : Metadata} {key text : String} (h : m.text? key = some text) :
    m.isEmpty = false := by
  cases hf : m.fields with
  | nil =>
    rw [text?, values, hf] at h
    cases h
  | cons f fs => simp [isEmpty, hf]

theorem text?_merge_of_ne_nil {m : Metadata} {key : String} (h : m.values key ≠ [])
    (other : Metadata) : (m.merge other).text? key = m.text? key := by
  unfold text?
  rw [values_merge]
  cases hv : m.values key with
  | nil => exact absurd hv h
  | cons value rest => rfl

/-- A merge never hides what was there: first values come from the first table. -/
theorem text?_merge_of_some {m : Metadata} {key text : String} (h : m.text? key = some text)
    (other : Metadata) : (m.merge other).text? key = some text := by
  have used : m.values key ≠ [] := by
    intro unused
    rw [text?_of_values_nil unused] at h
    cases h
  rw [text?_merge_of_ne_nil used, h]

theorem isVisible_of_text? {m : Metadata} {key text : String} (h : m.text? key = some text) :
    IsVisible text := by
  obtain ⟨value, -, hv⟩ := Option.bind_eq_some_iff.mp h
  exact isVisible_of_visibleText? hv

theorem values_keep (m : Metadata) (p : Field → Bool) (key : String)
    (h : ∀ f ∈ m.fields, f.name = Text.lower key → p f = false) : (m.keep p).values key = [] := by
  refine List.filterMap_eq_nil_iff.mpr ?_
  intro f hf
  obtain ⟨hmem, hp⟩ := List.mem_filter.mp hf
  by_cases named : f.name = Text.lower key
  · rw [h f hmem named] at hp
    cases hp
  · exact if_neg named

/-- A text that is set is found, or nothing is, or what was there before. -/
theorem text?_set_cases (m : Metadata) {name : String} (text : String)
    (hk : isFieldName name = true) :
    (m.set name text).text? name = some text ∨ (m.set name text).text? name = none ∨
      m.set name text = m := by
  by_cases legal : (Utf8.encode text).all isFieldByte = true
  · have values := values_set (m := m) hk legal name
    rw [if_pos rfl] at values
    by_cases visible : IsVisible text
    · exact .inl (text?_set hk visible)
    · -- the value is stored, but no text is read from it
      refine .inr (.inl ?_)
      rw [text?, values, List.head?_cons, Option.bind_some, visibleText?]
      exact if_neg visible
  · exact .inr (.inr (set_of_refused (set?_eq_none_iff.mpr fun h => legal h.2)))

/-! ## Texts that may be set -/

/-- Sets a text if there is one. -/
def setIf (m : Metadata) (name : String) (text : Option String) : Metadata :=
  match text with
  | some text => m.set name text
  | none => m

theorem values_setIf {m : Metadata} {name : String} {text : Option String}
    (hk : isFieldName name = true) (hv : ∀ t ∈ text, IsVisible t) (empty : m.values name = []) :
    (m.setIf name text).values name = text.toList.map Utf8.encode := by
  cases text with
  | none => exact empty
  | some text =>
    show (m.set name text).values name = _
    rw [values_set hk (all_isFieldByte (hv text rfl)), if_pos rfl]
    rfl

theorem values_setIf_of_ne {m : Metadata} {name key : String}
    (h : Text.lower name ≠ Text.lower key) (text : Option String) :
    (m.setIf name text).values key = m.values key := by
  cases text with
  | none => rfl
  | some text => exact values_set_of_ne h text

/-- An optional field is read back as the option that was written. -/
theorem text?_setIf {m : Metadata} {name : String} {text : Option String}
    (hk : isFieldName name = true) (hv : ∀ t ∈ text, IsVisible t) (empty : m.values name = []) :
    (m.setIf name text).text? name = text :=
  text?_of_values_toList hv (values_setIf hk hv empty)

/-- A field that has not been used before shows what it is set to, or nothing. -/
theorem text?_setIf_cases {m : Metadata} {field : String} (hk : isFieldName field = true)
    (empty : m.values field = []) (text : Option String) :
    (m.setIf field text).text? field = none ∨ (m.setIf field text).text? field = text := by
  cases text with
  | none => exact .inl (text?_of_values_nil empty)
  | some text =>
    show (m.set field text).text? field = none ∨ (m.set field text).text? field = some text
    rcases m.text?_set_cases text hk with found | hidden | refused
    · exact .inr found
    · exact .inl hidden
    · rw [refused]
      exact .inl (text?_of_values_nil empty)

/-! ## Names -/

theorem nodup_eraseDups (names : List String) : names.eraseDups.Nodup := by
  induction h : names.length using Nat.strongRecOn generalizing names with
  | ind n ih =>
    cases names with
    | nil => exact List.nodup_nil
    | cons name names =>
      rw [List.eraseDups_cons, List.nodup_cons, List.mem_eraseDups, List.mem_filter]
      refine ⟨by simp, ih _ ?_ _ rfl⟩
      have := List.length_filter_le (fun other => !other == name) names
      rw [List.length_cons] at h
      omega

theorem nodup_names (m : Metadata) : m.names.Nodup := nodup_eraseDups _

theorem legal_of_mem_names {m : Metadata} {name : String} (h : name ∈ m.names) :
    isFieldName name = true ∧ Text.lower name = name := by
  unfold names at h
  rw [List.mem_eraseDups] at h
  obtain ⟨f, hf, rfl⟩ := List.mem_map.mp h
  exact ⟨(m.legal f hf).1, (m.legal f hf).2.1⟩

/-- A text that is no name has no values. -/
theorem values_of_illegal {m : Metadata} {key : String} (h : isFieldName key ≠ true) :
    m.values key = [] := by
  refine List.eq_nil_iff_forall_not_mem.mpr ?_
  intro value hvalue
  obtain ⟨f, hf, named, -⟩ := mem_values_iff.mp hvalue
  have legal := (m.legal f hf).1
  rw [named] at legal
  exact h (isFieldName_of_lower legal)

theorem values_of_not_mem_names {m : Metadata} {key : String} (h : Text.lower key ∉ m.names) :
    m.values key = [] := by
  unfold values
  refine List.filterMap_eq_nil_iff.mpr ?_
  intro f hf
  refine if_neg ?_
  intro hname
  apply h
  unfold names
  rw [List.mem_eraseDups, ← hname]
  exact List.mem_map_of_mem hf

/-- The names listed are the lower-case ones with at least one value. -/
theorem mem_names_iff {m : Metadata} {name : String} :
    name ∈ m.names ↔ Text.lower name = name ∧ m.values name ≠ [] := by
  constructor
  · intro h
    refine ⟨(legal_of_mem_names h).2, ?_⟩
    have lower := (legal_of_mem_names h).2
    unfold names at h
    rw [List.mem_eraseDups] at h
    obtain ⟨f, hf, rfl⟩ := List.mem_map.mp h
    exact List.ne_nil_of_mem (List.mem_filterMap.mpr ⟨f, hf, if_pos lower.symm⟩)
  · rintro ⟨lower, used⟩
    refine Decidable.byContradiction ?_
    intro unknown
    exact used (values_of_not_mem_names (by rwa [lower]))

/-- A name with a text has a value. -/
theorem values_ne_nil_of_texts {m : Metadata} {key : String} (h : m.texts key ≠ []) :
    m.values key ≠ [] := by
  intro none
  rw [texts, none] at h
  exact h rfl

theorem isVisible_of_mem_texts {m : Metadata} {key text : String} (h : text ∈ m.texts key) :
    IsVisible text := by
  obtain ⟨value, -, hv⟩ := List.mem_filterMap.mp h
  exact isVisible_of_visibleText? hv

theorem filterMap_visibleText? {texts : List String} (hv : ∀ text ∈ texts, IsVisible text) :
    (texts.map Utf8.encode).filterMap visibleText? = texts := by
  induction texts with
  | nil => rfl
  | cons text texts ih =>
    rw [List.map_cons, List.filterMap_cons_some (visibleText?_encode (hv text List.mem_cons_self)),
      ih fun t ht => hv t (List.mem_cons_of_mem _ ht)]

theorem texts_of_values {m : Metadata} {key : String} {texts : List String}
    (hv : ∀ text ∈ texts, IsVisible text) (h : m.values key = texts.map Utf8.encode) :
    m.texts key = texts := by
  rw [Metadata.texts, h, filterMap_visibleText? hv]

/-! ## Many values at once -/

/-- Of the texts that are added to a name, it gets those that may be values. -/
theorem values_addAll (m : Metadata) (texts : List String) {name : String}
    (hk : isFieldName name = true) (key : String) :
    (texts.foldl (fun m text => m.add name text) m).values key =
      m.values key ++
        if Text.lower name = Text.lower key then texts.filterMap legalValue? else [] := by
  induction texts generalizing m with
  | nil => simp
  | cons text texts ih =>
    rw [List.foldl_cons, ih]
    cases hv : legalValue? text with
    | none =>
      have refused : m.add? name text = none :=
        add?_eq_none_iff.mpr fun legal => legalValue?_eq_none_iff.mp hv legal.2
      rw [add_of_refused refused, List.filterMap_cons_none hv]
    | some value =>
      obtain ⟨legal, rfl⟩ := legalValue?_eq_some_iff.mp hv
      rw [values_add hk legal, List.filterMap_cons_some hv, List.append_assoc]
      split <;> rfl

theorem values_addTexts {texts : List String} (hv : ∀ text ∈ texts, IsVisible text) {name : String}
    (hk : isFieldName name = true) (m : Metadata) (key : String) :
    (texts.foldl (fun m text => m.add name text) m).values key =
      m.values key ++ if Text.lower name = Text.lower key then texts.map Utf8.encode else [] := by
  have legal : texts.filterMap legalValue? = texts.map Utf8.encode := by
    rw [← List.filterMap_eq_map]
    apply List.filterMap_congr
    intro text ht
    exact legalValue?_eq_some_iff.mpr ⟨all_isFieldByte (hv text ht), rfl⟩
  rw [values_addAll m texts hk, legal]

/-- Adding entry by entry gives each name its texts in the order of the entries. -/
theorem values_addEntries {entries : List (String × List String)}
    (h : ∀ e ∈ entries, isFieldName e.1 = true ∧ ∀ text ∈ e.2, IsVisible text) (m : Metadata)
    (key : String) :
    (entries.foldl (fun m e => e.2.foldl (fun m text => m.add e.1 text) m) m).values key =
      m.values key ++ entries.flatMap fun e =>
        if Text.lower e.1 = Text.lower key then e.2.map Utf8.encode else [] := by
  induction entries generalizing m with
  | nil => simp
  | cons e entries ih =>
    obtain ⟨hk, hv⟩ := h e List.mem_cons_self
    rw [List.foldl_cons, ih fun g hg => h g (List.mem_cons_of_mem _ hg), values_addTexts hv hk,
      List.flatMap_cons, List.append_assoc]

end Metadata

end RpcWire
