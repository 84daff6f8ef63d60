import RpcWire.Frame.Trailers
import RpcWire.Proofs.Metadata
import RpcWire.Proofs.Text.Cut

/-!
# Trailers survive the text form

Of trailers that are written as text every visible value is read back under its
name and in its order, without the blanks at its ends, and nothing else is
(`TrailerText.fields_parse_encode`, `TrailerText.trailers_survive_text`). Values
that are not visible are not written.
-/

namespace RpcWire.TrailerText

/-- A text without blanks at either end. -/
def trimmed (text : String) : String := String.ofList (Text.trim text.toList)

theorem isVisible_trimmed {text : String} (h : IsVisible text) : IsVisible (trimmed text) := by
  rw [isVisible_iff] at h ⊢
  intro c hc
  rw [trimmed, String.toList_ofList] at hc
  exact h c (Text.mem_of_mem_trim hc)

theorem trimmed_of_not_blank {text : String} (h : ∀ c ∈ text.toList, Text.isBlank c = false) :
    trimmed text = text := by
  rw [trimmed, Text.trim_of_not_blank h, String.ofList_toList]

/-! ## Names -/

theorem plain_of_isTokenChar {c : Char} (h : isTokenChar c = true) :
    c ≠ ':' ∧ c ≠ '\r' ∧ Text.isBlank c = false :=
  Text.forall_ascii (p := fun c => isTokenChar c = true →
    c ≠ ':' ∧ c ≠ '\r' ∧ Text.isBlank c = false) (by decide) (toNat_lt_of_isTokenChar h) h

theorem isTokenChar_of_mem {name : String} (h : isFieldName name = true) {c : Char}
    (hc : c ∈ name.toList) : isTokenChar c = true := by
  simp only [isFieldName, Bool.and_eq_true, List.all_eq_true] at h
  exact h.1.2 c hc

/-! ## One line -/

/-- What one line adds. -/
theorem absorb_line {name text : String} (hk : isFieldName name = true)
    (hlower : Text.lower name = name) (hv : IsVisible text) (m : Metadata) :
    absorb m (name.toList ++ ": ".toList ++ text.toList) = m.add name (trimmed text) := by
  have colon : ':' ∉ name.toList := by
    intro h
    exact (plain_of_isTokenChar (isTokenChar_of_mem hk h)).1 rfl
  have blank : ∀ c ∈ name.toList, Text.isBlank c = false := by
    intro c hc
    exact (plain_of_isTokenChar (isTokenChar_of_mem hk hc)).2.2
  -- the first colon is the one after the name, whatever the text holds
  have cut : Text.cutFirst? ':' (name.toList ++ ": ".toList ++ text.toList) =
      some (name.toList, ' ' :: text.toList) := by
    rw [List.append_assoc]
    exact Text.cutFirst?_append colon (' ' :: text.toList)
  have stored : storedValue (Text.trim text.toList) = trimmed text := by
    unfold storedValue
    exact if_pos (isVisible_trimmed hv)
  unfold absorb
  simp only [cut, Text.trim_of_not_blank blank, Text.trim_space, stored, String.ofList_toList,
    hlower]

/-- A line ends only where the encoder ends it. -/
theorem cr_not_mem_line {name text : String} (hk : isFieldName name = true) (hv : IsVisible text) :
    '\r' ∉ name.toList ++ ": ".toList ++ text.toList := by
  rw [List.mem_append, List.mem_append, not_or, not_or]
  refine ⟨⟨fun h => (plain_of_isTokenChar (isTokenChar_of_mem hk h)).2.1 rfl, by decide⟩, ?_⟩
  intro h
  have := isVisible_iff.mp hv _ h
  exact absurd this (by decide)

/-! ## All lines -/

/-- What is read back of a field: its value, if it is visible, without the blanks at its ends. -/
def kept? (f : Field) : Option Field :=
  (visibleText? f.value).map fun text => ⟨f.name, Utf8.encode (trimmed text)⟩

theorem fields_add {name text : String} (hk : isFieldName name = true) (hv : IsVisible text)
    (m : Metadata) :
    (m.add name text).fields = m.fields ++ [⟨Text.lower name, Utf8.encode text⟩] := by
  obtain ⟨⟨f, legal⟩, hf, hname, hvalue⟩ := Metadata.make?_of_legal hk (all_isFieldByte hv)
  rw [Metadata.add, Metadata.add?, Metadata.addBytes?, hf, Option.map_some, Option.getD_some]
  simp only at hname hvalue
  show m.fields ++ [f] = _
  rw [← hname, ← hvalue]

/-- Reading the lines of fields adds what is kept of each, and there are no other lines but the
empty one at the end. -/
theorem foldl_absorb_lines {fs : List Field} (legal : ∀ f ∈ fs, f.Legal) (m : Metadata) :
    ((Text.lines (fs.filterMap line?).flatten).foldl absorb m).fields =
        m.fields ++ fs.filterMap kept? ∧
      (Text.lines (fs.filterMap line?).flatten).length = (fs.filterMap kept?).length + 1 := by
  induction fs generalizing m with
  | nil => exact ⟨(List.append_nil _).symm, rfl⟩
  | cons f fs ih =>
    obtain ⟨hk, hlower, -⟩ := legal f List.mem_cons_self
    have later := ih fun g hg => legal g (List.mem_cons_of_mem _ hg)
    cases hv : visibleText? f.value with
    | none =>
      -- a value that is not visible has no line, and nothing is kept of it
      have unwritten : line? f = none := by rw [line?, hv, Option.map_none]
      have unkept : kept? f = none := by rw [kept?, hv, Option.map_none]
      rw [List.filterMap_cons_none unwritten, List.filterMap_cons_none unkept]
      exact later m
    | some text =>
      have visible := isVisible_of_visibleText? hv
      have written : line? f =
          some (f.name.toList ++ ": ".toList ++ text.toList ++ ['\r', '\n']) := by
        rw [line?, hv, Option.map_some]
      have kept : kept? f = some ⟨f.name, Utf8.encode (trimmed text)⟩ := by
        rw [kept?, hv, Option.map_some]
      have first : Text.lines ((f :: fs).filterMap line?).flatten =
          (f.name.toList ++ ": ".toList ++ text.toList) ::
            Text.lines (fs.filterMap line?).flatten := by
        rw [List.filterMap_cons_some written, List.flatten_cons, List.append_assoc]
        exact Text.lines_append (cr_not_mem_line hk visible) _
      rw [first, List.filterMap_cons_some kept, List.foldl_cons, absorb_line hk hlower visible]
      obtain ⟨fields, length⟩ := later (m.add f.name (trimmed text))
      constructor
      · rw [fields, fields_add hk (isVisible_trimmed visible), hlower, List.append_assoc]
        rfl
      · rw [List.length_cons, length, List.length_cons]

/-- The round trip works field by field: each one is kept, trimmed, or dropped by itself. -/
theorem fields_parse_encode (m : Metadata) :
    (parse (encode m)).fields = m.fields.filterMap kept? := by
  rw [parse, encode, Utf8.decodeCharsLossy_encodeChars, encodeChars,
    (foldl_absorb_lines m.legal .empty).1]
  rfl

/-- Every visible value is read back without the blanks at its ends. -/
theorem values_parse_encode (m : Metadata) (key : String) :
    (parse (encode m)).values key = (m.texts key).map fun text => Utf8.encode (trimmed text) := by
  rw [Metadata.values, fields_parse_encode, Metadata.texts, Metadata.values, List.map_filterMap,
    List.filterMap_filterMap, List.filterMap_filterMap]
  refine congrArg (List.filterMap · m.fields) (funext ?_)
  intro f
  by_cases same : f.name = Text.lower key
  · cases hv : visibleText? f.value <;> simp [kept?, same, hv]
  · cases hv : visibleText? f.value <;> simp [kept?, same, hv]

/-! ## Octets -/

/-- The space and the tab. -/
def isGap (b : UInt8) : Bool := b = 0x20 || b = 0x09

/-- A value without spaces and tabs at either end. -/
def strip (value : Bytes) : Bytes := ((value.dropWhile isGap).reverse.dropWhile isGap).reverse

/-- Of visible octets the gaps are those that read as blanks. -/
theorem isBlank_ofNat : ∀ n < 128, isVisibleByte (UInt8.ofNat n) = true →
    Text.isBlank (Char.ofNat n) = isGap (UInt8.ofNat n) := by
  decide

theorem dropWhile_congr {α : Type} {p q : α → Bool} {as : List α} (h : ∀ a ∈ as, p a = q a) :
    as.dropWhile p = as.dropWhile q := by
  induction as with
  | nil => rfl
  | cons a as ih =>
    rw [List.dropWhile_cons, List.dropWhile_cons, h a List.mem_cons_self,
      ih fun b hb => h b (List.mem_cons_of_mem _ hb)]

theorem encode_trimmed {value : Bytes} {text : String} (h : visibleText? value = some text) :
    Utf8.encode (trimmed text) = strip value := by
  have visible : ∀ b ∈ value, isVisibleByte b = true := by
    intro b hb
    have shown := isVisible_of_visibleText? h
    rw [IsVisible, encode_of_visibleText? h] at shown
    exact List.all_eq_true.mp shown b hb
  have gaps : ∀ b ∈ value, (Text.isBlank ∘ fun b : UInt8 => Char.ofNat b.toNat) b = isGap b := by
    intro b hb
    have same := isBlank_ofNat b.toNat (toNat_of_isVisibleByte (visible b hb))
    rw [UInt8.ofNat_toNat] at same
    exact same (visible b hb)
  have chars : text.toList = value.map fun b => Char.ofNat b.toNat := by
    unfold visibleText? at h
    split at h
    · cases h
      exact String.toList_ofList
    · cases h
  have front := (List.dropWhile_sublist isGap (l := value)).subset
  -- characters and octets are dropped alike, first in front and then at the end
  have trims : Text.trim text.toList = (strip value).map fun b => Char.ofNat b.toNat := by
    rw [Text.trim, Text.dropTrailing, chars, List.dropWhile_map, dropWhile_congr gaps,
      ← List.map_reverse, List.dropWhile_map, dropWhile_congr fun b hb =>
        gaps b (front (List.mem_reverse.mp hb)), ← List.map_reverse]
    rfl
  have ascii : ∀ b ∈ strip value, b.toNat < 128 := by
    intro b hb
    rw [strip, List.mem_reverse] at hb
    have hb := List.mem_reverse.mp ((List.dropWhile_sublist isGap).subset hb)
    exact toNat_of_isVisibleByte (visible b (front hb))
  rw [trimmed, trims, Utf8.encode, String.toList_ofList, Utf8.encodeChars_ofNat ascii]

/-- A field is dropped if its value is not visible text; else the blanks around it are cut off. -/
theorem kept?_eq (f : Field) :
    kept? f = if f.value.all isVisibleByte then some ⟨f.name, strip f.value⟩ else none := by
  unfold kept?
  cases hv : visibleText? f.value with
  | none =>
    unfold visibleText? at hv
    split at hv
    · cases hv
    · next hidden => rw [if_neg hidden, Option.map_none]
  | some text =>
    have visible : f.value.all isVisibleByte = true := by
      rw [← encode_of_visibleText? hv]
      exact isVisible_of_visibleText? hv
    rw [if_pos visible, Option.map_some, encode_trimmed hv]

/-! ## Whole trailers -/

/-- Of trailers that are written as text and read again, each name has exactly its visible values,
in their order and without spaces and tabs at their ends, in whatever order the names were written,
and there are no other names. Trailers of visible values without such ends are read back as they
were. There is one line for each value that is read and nothing after the last, so no value makes a
line or a field of its own. -/
theorem trailers_survive_text (m : Metadata) :
    (∀ written : Metadata, written.Same m → ∀ key, (parse (encode written)).values key =
      ((m.values key).filter fun value => value.all isVisibleByte).map strip) ∧
    (∀ name ∈ (parse (encode m)).names, name ∈ m.names) ∧
    ((∀ f ∈ m.fields, f.value.all isVisibleByte = true ∧ strip f.value = f.value) →
      parse (encode m) = m) ∧
    (parse (encode m)).size = (m.fields.countP fun f => f.value.all isVisibleByte) ∧
    (Text.lines (Utf8.decodeCharsLossy (encode m))).length = (parse (encode m)).size + 1 := by
  have keeps := fields_parse_encode m
  rw [funext kept?_eq] at keeps
  refine ⟨?_, ?_, ?_, ?_, ?_⟩
  · intro written same key
    rw [← same key, Metadata.values, fields_parse_encode, funext kept?_eq, Metadata.values,
      List.filterMap_filterMap, List.filter_filterMap, List.map_filterMap]
    refine congrArg (List.filterMap · written.fields) (funext ?_)
    intro f
    by_cases named : f.name = Text.lower key <;>
      by_cases visible : f.value.all isVisibleByte = true <;>
        simp [named, visible, Option.filter]
  · intro name hname
    rw [Metadata.names, List.mem_eraseDups, keeps] at hname
    obtain ⟨g, hg, rfl⟩ := List.mem_map.mp hname
    obtain ⟨f, hf, kept⟩ := List.mem_filterMap.mp hg
    split at kept
    · cases kept
      rw [Metadata.names, List.mem_eraseDups]
      exact List.mem_map.mpr ⟨f, hf, rfl⟩
    · cases kept
  · intro plain
    apply Metadata.ext
    rw [keeps]
    refine (List.filterMap_congr ?_).trans List.filterMap_some
    intro f hf
    rw [if_pos (plain f hf).1, (plain f hf).2]
  · rw [Metadata.size, keeps, List.length_filterMap_eq_countP]
    refine List.countP_congr ?_
    intro f _
    split <;> simp_all
  · rw [Metadata.size, fields_parse_encode, encode, Utf8.decodeCharsLossy_encodeChars, encodeChars]
    exact (foldl_absorb_lines m.legal .empty).2

/-- Two values under one name, one of them with a colon and blanks around it, and one under another,
which is opaque. -/
def mixedTrailers : Metadata :=
  ((Metadata.ofTexts [("x-note", " a: b\t"), ("X-Note", "")]).addBytes "x-raw" [0xFF])

theorem trailers_survive_text_mixed :
    (parse (encode mixedTrailers)).values "X-NOTE" = [[0x61, 0x3A, 0x20, 0x62], []] ∧
      (parse (encode mixedTrailers)).size = 2 ∧
      (∀ f ∈ (Metadata.ofTexts [("x-note", "a")]).fields,
        f.value.all isVisibleByte = true ∧ strip f.value = f.value) ∧
      parse (encode (.ofTexts [("x-note", "a")])) = .ofTexts [("x-note", "a")] := by
  obtain ⟨values, -, -, size, -⟩ := trailers_survive_text mixedTrailers
  obtain ⟨-, -, whole, -, -⟩ := trailers_survive_text (.ofTexts [("x-note", "a")])
  have plain : ∀ f ∈ (Metadata.ofTexts [("x-note", "a")]).fields,
      f.value.all isVisibleByte = true ∧ strip f.value = f.value := by
    decide
  refine ⟨?_, ?_, plain, whole plain⟩
  · rw [values mixedTrailers (fun _ => rfl)]
    decide
  · rw [size]
    decide

end RpcWire.TrailerText
