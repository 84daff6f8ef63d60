import RpcWire.Proofs.Proto.Wire
import RpcWire.Proofs.Text.Base64
import RpcWire.Proofs.Text.Cut
import RpcWire.Proofs.Text.Utf8
import RpcWire.Status.Record

/-!
# Status records are read back

A status record is read back from its text (`StatusRecord.ofText_of_spells`):
its number, its message and its details, in their order. The text may have lost
its padding and may stand between blanks. The only bounds are those of the wire
(`StatusRecord.Fits`): the number has 32 bits, and lengths are numbers of 64
bits.
-/

namespace RpcWire

namespace Proto

theorem length_le_of_bytesField {tag : Nat} {octets : Bytes} {fs : List Field}
    (h : bytesField tag octets ⊆ fs) : octets.length ≤ (encodeFields fs).length := by
  by_cases empty : octets = []
  · rw [empty]
    exact Nat.zero_le _
  · rw [bytesField, if_neg empty] at h
    exact length_bytes_le (h List.mem_cons_self)

theorem fits_bytesField {tag : Nat} {octets : Bytes} (hpos : 0 < tag) (hlt : tag < 2 ^ 29)
    (h : octets.length < 2 ^ 64) : ∀ f ∈ bytesField tag octets, f.Fits := by
  intro f hf
  rw [bytesField] at hf
  split at hf
  · cases hf
  · rw [List.mem_singleton.mp hf]
    exact ⟨hpos, hlt, h⟩

theorem ofSigned_lt (n : Int) : ofSigned n < 2 ^ 64 := by
  unfold ofSigned
  omega

theorem fits_numberField {tag : Nat} (hpos : 0 < tag) (hlt : tag < 2 ^ 29) (n : Int) :
    ∀ f ∈ numberField tag n, f.Fits := by
  intro f hf
  rw [numberField] at hf
  split at hf
  · cases hf
  · rw [List.mem_singleton.mp hf]
    exact ⟨hpos, hlt, ofSigned_lt n⟩

theorem text?_encode (s : String) : (Content.bytes (Utf8.encode s)).text? = some s :=
  Utf8.decode?_encode s

theorem eq_of_encode_nil {s : String} (h : Utf8.encode s = []) : s = "" :=
  Utf8.encode_injective h

/-! What is nothing is not written: a reader that begins with nothing is where it would be. -/

section

variable {α : Type} {absorb : α → Field → Option α} {tag : Nat} {start done : α}

theorem foldlM_bytesField {octets : Bytes} (nothing : octets = [] → start = done)
    (read : absorb start ⟨tag, .bytes octets⟩ = some done) :
    (bytesField tag octets).foldlM absorb start = some done := by
  rw [bytesField]
  split
  · next empty =>
    rw [nothing empty]
    rfl
  · rw [List.foldlM_cons, read]
    rfl

/-- An empty text is not written, and not reading it leaves it empty. -/
theorem foldlM_textField {s : String} (nothing : s = "" → start = done)
    (read : absorb start ⟨tag, .bytes (Utf8.encode s)⟩ = some done) :
    (textField tag s).foldlM absorb start = some done := by
  apply foldlM_bytesField
  · intro empty
    exact nothing (eq_of_encode_nil empty)
  · exact read

theorem foldlM_numberField {n : Int} (nothing : n = 0 → start = done)
    (read : absorb start ⟨tag, .varint (ofSigned n)⟩ = some done) :
    (numberField tag n).foldlM absorb start = some done := by
  rw [numberField]
  split
  · next zero =>
    rw [nothing zero]
    rfl
  · rw [List.foldlM_cons, read]
    rfl

end

end Proto

/-! ## Details -/

namespace Detail

/-- A detail is read back with its type and octets, at any depth. -/
theorem decode?_encode {d : Detail} (h : d.encode.length < 2 ^ 64) (depth : Nat) :
    decode? depth d.encode = some d := by
  have url : (Utf8.encode d.typeUrl).length < 2 ^ 64 :=
    Nat.lt_of_le_of_lt (Proto.length_le_of_bytesField (List.subset_append_left _ _)) h
  have value : d.value.length < 2 ^ 64 :=
    Nat.lt_of_le_of_lt (Proto.length_le_of_bytesField (List.subset_append_right _ _)) h
  have fits : ∀ f ∈ Proto.textField 1 d.typeUrl ++ Proto.bytesField 2 d.value, f.Fits := by
    intro f hf
    rcases List.mem_append.mp hf with hf | hf
    · exact Proto.fits_bytesField (by decide) (by decide) url f hf
    · exact Proto.fits_bytesField (by decide) (by decide) value f hf
  have typed : (Proto.textField 1 d.typeUrl).foldlM absorb ⟨"", []⟩ = some ⟨d.typeUrl, []⟩ := by
    apply Proto.foldlM_textField
    · intro empty
      rw [empty]
    · rw [absorb, Proto.text?_encode]
      rfl
  have valued : (Proto.bytesField 2 d.value).foldlM absorb ⟨d.typeUrl, []⟩ = some d := by
    apply Proto.foldlM_bytesField
    · intro empty
      rw [← empty]
    · rfl
  rw [decode?, encode, Proto.fields?_encodeFields fits, Option.bind_some, List.foldlM_append, typed]
  exact valued

/-- A detail keeps its type name when it is put under a type that has a slash. -/
theorem typeName_qualified (d : Detail) : d.qualified.typeName = d.typeName := by
  unfold qualified
  by_cases slash : d.typeUrl.toList.contains '/' = true
  · rw [if_pos slash]
  · rw [if_neg slash]
    have none : '/' ∉ d.typeUrl.toList := by simpa using slash
    have stem : (defaultStem ++ d.typeUrl).toList =
        "type.googleapis.com".toList ++ '/' :: d.typeUrl.toList := by
      have cut : defaultStem.toList = "type.googleapis.com".toList ++ ['/'] := by decide +kernel
      rw [String.toList_append, cut, List.append_assoc, List.singleton_append]
    unfold typeName
    simp only [stem, Text.cutLast?_append _ none, Text.cutLast?_eq_none none, String.ofList_toList]

theorem value_qualified (d : Detail) : d.qualified.value = d.value := by
  unfold qualified
  split <;> rfl

end Detail

/-! ## Records -/

namespace StatusRecord

/-- Details are collected in the order in which they are written. -/
theorem foldlM_details {ds : List Detail} (h : ∀ d ∈ ds, d.encode.length < 2 ^ 64) (n : Int)
    (message : String) (read : List Detail) :
    (ds.map fun d => (⟨3, .bytes d.encode⟩ : Proto.Field)).foldlM absorb ⟨n, message, read⟩ =
      some ⟨n, message, read ++ ds⟩ := by
  induction ds generalizing read with
  | nil =>
    rw [List.append_nil]
    rfl
  | cons d ds ih =>
    rw [List.map_cons, List.foldlM_cons]
    show Option.bind ((Detail.decode? _ d.encode).bind fun d =>
      some (⟨n, message, read ++ [d]⟩ : StatusRecord)) _ = _
    rw [Detail.decode?_encode (h d List.mem_cons_self), Option.bind_some, Option.bind_some,
      ih fun e he => h e (List.mem_cons_of_mem _ he), List.append_assoc, List.singleton_append]

/-- The number has 32 bits, and every length in the record is a number of 64 bits. The record as a
whole has no length in front. -/
structure Fits (r : StatusRecord) : Prop where
  low : -2 ^ 31 ≤ r.number
  high : r.number < 2 ^ 31
  message : (Utf8.encode r.message).length < 2 ^ 64
  details : ∀ d ∈ r.details, d.encode.length < 2 ^ 64

/-- Every part is bounded by the whole, of which it is written as a part. -/
theorem fits_of_length {r : StatusRecord} (low : -2 ^ 31 ≤ r.number) (high : r.number < 2 ^ 31)
    (h : r.encode.length < 2 ^ 64) : r.Fits := by
  refine ⟨low, high, ?_, ?_⟩
  · have written : Proto.bytesField 2 (Utf8.encode r.message) ⊆ Proto.numberField 1 r.number ++
        Proto.textField 2 r.message ++ r.details.map fun d => ⟨3, .bytes d.encode⟩ :=
      fun f hf => List.mem_append_left _ (List.mem_append_right _ hf)
    exact Nat.lt_of_le_of_lt (Proto.length_le_of_bytesField written) h
  · intro d hd
    have written : (⟨3, .bytes d.encode⟩ : Proto.Field) ∈ Proto.numberField 1 r.number ++
        Proto.textField 2 r.message ++ r.details.map fun d => ⟨3, .bytes d.encode⟩ :=
      List.mem_append_right _ (List.mem_map_of_mem hd)
    exact Nat.lt_of_le_of_lt (Proto.length_bytes_le written) h

theorem decode?_encode {r : StatusRecord} (h : r.Fits) : decode? r.encode = some r := by
  have fits : ∀ f ∈ Proto.numberField 1 r.number ++ Proto.textField 2 r.message ++
      r.details.map fun d => (⟨3, .bytes d.encode⟩ : Proto.Field), f.Fits := by
    intro f hf
    rcases List.mem_append.mp hf with hf | hf
    · rcases List.mem_append.mp hf with hf | hf
      · exact Proto.fits_numberField (by decide) (by decide) r.number f hf
      · exact Proto.fits_bytesField (by decide) (by decide) h.message f hf
    · obtain ⟨d, hd, rfl⟩ := List.mem_map.mp hf
      exact ⟨Nat.succ_pos 2, show 3 < 2 ^ 29 by decide, h.details d hd⟩
  have numbered : (Proto.numberField 1 r.number).foldlM absorb ⟨0, "", []⟩ =
      some ⟨r.number, "", []⟩ := by
    apply Proto.foldlM_numberField
    · intro zero
      rw [zero]
    · show some (⟨Proto.signed32 (Proto.ofSigned r.number), "", []⟩ : StatusRecord) = _
      rw [Proto.signed32_ofSigned h.low h.high]
  have worded : (Proto.textField 2 r.message).foldlM absorb ⟨r.number, "", []⟩ =
      some ⟨r.number, r.message, []⟩ := by
    apply Proto.foldlM_textField
    · intro empty
      rw [empty]
    · rw [absorb, Proto.text?_encode]
      rfl
  rw [decode?, encode, Proto.fields?_encodeFields fits, Option.bind_some, List.foldlM_append,
    List.foldlM_append, numbered]
  show (((Proto.textField 2 r.message).foldlM absorb ⟨r.number, "", []⟩).bind _) = _
  rw [worded, Option.bind_some, foldlM_details h.details, List.nil_append]

/-! ## Spellings -/

/-- A text of the record as it may arrive: with the padding or stripped of it, between blanks. -/
def Spells (r : StatusRecord) (text : String) : Prop :=
  ∃ before body after : List Char, text.toList = before ++ body ++ after ∧
    (body = r.toText.toList ∨ body = Text.dropTrailing (· == '=') r.toText.toList) ∧
    (∀ c ∈ before, Text.isBlank c = true) ∧ ∀ c ∈ after, Text.isBlank c = true

theorem spells_toText (r : StatusRecord) : r.Spells r.toText :=
  ⟨[], r.toText.toList, [], (List.append_nil _).symm, .inl rfl, nofun, nofun⟩

/-- Between the blanks stands base64 under one of the two rules about padding. -/
theorem Spells.trim {r : StatusRecord} {text : String} (h : r.Spells text) :
    ∃ p, Text.trim text.toList = Base64.encode .standard p r.encode := by
  obtain ⟨before, body, after, parts, spelled, first, last⟩ := h
  have padding : ∃ p, body = Base64.encode .standard p r.encode := by
    rw [toText, String.toList_ofList, Base64.dropTrailing_encode] at spelled
    rcases spelled with padded | bare
    · exact ⟨.padded, padded⟩
    · exact ⟨.bare, bare⟩
  obtain ⟨p, rfl⟩ := padding
  refine ⟨p, ?_⟩
  rw [parts, Text.trim_between first last]
  refine Text.trim_of_not_blank ?_
  intro c hc
  obtain ⟨low, high⟩ := Base64.printable_of_mem_encode _ hc
  exact Text.isBlank_of_printable low high

/-- Padding and blanks around the text do not matter for what is read. -/
theorem ofText_of_spells {r : StatusRecord} (fits : r.Fits) {text : String} (h : r.Spells text) :
    ofText text = .ok r := by
  obtain ⟨p, trimmed⟩ := h.trim
  unfold ofText
  rw [trimmed, Base64.decodeEither?_encode]
  simp only [decode?_encode fits]

theorem ofText_toText {r : StatusRecord} (low : -2 ^ 31 ≤ r.number) (high : r.number < 2 ^ 31)
    (h : r.encode.length < 2 ^ 64) : ofText r.toText = .ok r :=
  ofText_of_spells (fits_of_length low high h) (spells_toText r)

theorem number_of_bounds (code : Code) (message : Option String) (details : List Detail) :
    -2 ^ 31 ≤ (of code message details).number ∧ (of code message details).number < 2 ^ 31 := by
  have small : code.number ≤ 16 := by cases code <;> decide
  show -2 ^ 31 ≤ (code.number : Int) ∧ (code.number : Int) < 2 ^ 31
  omega

end StatusRecord

end RpcWire
