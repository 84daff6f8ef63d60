import RpcWire.Client.Connect
import RpcWire.Proofs.Metadata
import RpcWire.Proofs.Text.Cut
import RpcWire.Server.Response

/-!
# Trailers among headers

A unary response of Connect has no trailers of its own: they travel among its
headers, with a stem before their names. A server puts the visible ones there
(`values_embedTrailers`) and a client takes them out again, so that they mix
with no header (`values_splitTrailers_fst`, `values_splitTrailers_snd`).
-/

namespace RpcWire

open FieldName (trailerStem)

/-! ## One name at a time -/

/-- What is seen of a state that each element of a list adds to. -/
theorem foldl_view {σ β γ : Type} (view : σ → List γ) {step : σ → β → σ} {taken : β → List γ}
    {bs : List β} (h : ∀ b ∈ bs, ∀ s, view (step s b) = view s ++ taken b) (s : σ) :
    view (bs.foldl step s) = view s ++ bs.flatMap taken := by
  induction bs generalizing s with
  | nil => simp
  | cons b bs ih =>
    rw [List.foldl_cons, ih fun c hc => h c (List.mem_cons_of_mem _ hc), h b List.mem_cons_self,
      List.flatMap_cons, List.append_assoc]

/-- The text of a field, if the field has the name and the text is visible. -/
def Field.shown (name : String) (f : Field) : List Bytes :=
  if f.name = name then (visibleText? f.value).toList.map Utf8.encode else []

namespace Metadata

/-- Field by field, the values shown under a name are its texts. -/
theorem flatMap_shown (m : Metadata) (key : String) :
    m.fields.flatMap (Field.shown (Text.lower key)) = (m.texts key).map Utf8.encode := by
  unfold texts values
  induction m.fields with
  | nil => rfl
  | cons f fields ih =>
    rw [List.flatMap_cons, ih]
    by_cases named : f.name = Text.lower key
    · cases hv : visibleText? f.value <;> simp [Field.shown, named, hv]
    · simp [Field.shown, named]

/-- Adding to a name, legal or not, changes no other. -/
theorem values_add_of_ne {m : Metadata} {name key : String} (h : Text.lower name ≠ Text.lower key)
    (text : String) : (m.add name text).values key = m.values key := by
  unfold add add? addBytes?
  cases hf : Field.make? name (Utf8.encode text) with
  | none => rfl
  | some f =>
    rw [Option.map_some, Option.getD_some, values_push, name_of_make? hf, if_neg h, List.append_nil]

end Metadata

/-! ## The stem -/

theorem lower_stem (key : String) :
    Text.lower (trailerStem ++ key) = trailerStem ++ Text.lower key := by
  have own : trailerStem.toList.map Char.toLower = trailerStem.toList := by decide
  apply String.toList_injective
  simp only [Text.lower, String.toList_ofList, String.toList_append, List.map_append, own]

theorem stripStart?_stem (key : String) :
    Text.stripStart? trailerStem (trailerStem ++ key).toList = some key.toList := by
  rw [String.toList_append]
  exact Text.stripStart?_append _ _

/-- What follows the stem in a name is a name unless it is empty. -/
theorem isFieldName_of_stem {key : String} (named : key ≠ "")
    (h : isFieldName (trailerStem ++ key) = true) : isFieldName key = true := by
  simp only [isFieldName, String.toList_append, List.all_append, List.length_append,
    Bool.and_eq_true, decide_eq_true_eq, Bool.not_eq_true', List.isEmpty_eq_false_iff] at h ⊢
  refine ⟨⟨?_, h.1.2.2⟩, by omega⟩
  intro empty
  exact named (String.toList_injective empty)

/-! ## The server's side -/

/-- A name without the stem keeps its values. -/
theorem Server.Response.values_embedTrailers (headers trailers : Metadata) {key : String}
    (plain : Text.stripStart? trailerStem (Text.lower key).toList = none) :
    (embedTrailers headers trailers).values key = headers.values key := by
  have nothing : trailers.fields.flatMap (fun _ => ([] : List Bytes)) = [] :=
    List.flatMap_eq_nil_iff.mpr fun _ _ => rfl
  rw [← List.append_nil (headers.values key), ← nothing, embedTrailers]
  refine foldl_view (fun m : Metadata => m.values key) ?_ headers
  intro f hf m
  rw [List.append_nil]
  cases visibleText? f.value with
  | none => rfl
  | some text =>
    refine Metadata.values_add_of_ne ?_ text
    intro same
    rw [← same, lower_stem, stripStart?_stem] at plain
    cases plain

/-- The visible trailers of a name stand under the name with the stem, if that can be a name. -/
theorem Server.Response.values_embedTrailers_stem (headers trailers : Metadata) {key : String}
    (fits : isFieldName (trailerStem ++ key) = true) :
    (embedTrailers headers trailers).values (trailerStem ++ key) =
      headers.values (trailerStem ++ key) ++ (trailers.texts key).map Utf8.encode := by
  rw [← trailers.flatMap_shown, embedTrailers]
  refine foldl_view (fun m : Metadata => m.values (trailerStem ++ key)) ?_ headers
  intro f hf m
  have lower := (trailers.legal f hf).2.1
  unfold Field.shown
  by_cases named : f.name = Text.lower key
  · rw [if_pos named]
    cases hv : visibleText? f.value with
    | none => simp
    | some text =>
      have legal : isFieldName (trailerStem ++ f.name) = true := by
        rw [named, ← lower_stem]
        exact (isFieldName_lower fits).1
      show (m.add (trailerStem ++ f.name) text).values _ = _
      rw [Metadata.values_add legal (all_isFieldByte (isVisible_of_visibleText? hv)), lower_stem,
        lower_stem, lower, named, if_pos rfl]
      rfl
  · rw [if_neg named, List.append_nil]
    cases visibleText? f.value with
    | none => rfl
    | some text =>
      refine Metadata.values_add_of_ne ?_ text
      rw [lower_stem, lower_stem, lower]
      exact fun same => named ((String.append_right_inj _).mp same)

/-! ## The client's side -/

namespace Connect

variable {f : Field} {key : String}

/-- A field whose name has no stem stays among the headers. -/
theorem values_sortField_fst (legal : f.Legal)
    (plain : Text.stripStart? trailerStem (Text.lower key).toList = none)
    (parts : Metadata × Metadata) :
    (sortField parts f).1.values key = parts.1.values key ++ f.shown (Text.lower key) := by
  have lower := legal.2.1
  unfold sortField Field.shown
  cases hv : visibleText? f.value with
  | none => simp
  | some text =>
    cases hs : Text.stripStart? trailerStem f.name.toList with
    | some name =>
      -- a field with the stem goes to the trailers, and has another name
      have other : f.name ≠ Text.lower key := by
        intro named
        rw [named, plain] at hs
        cases hs
      rw [if_neg other, List.append_nil]
    | none =>
      show (parts.1.add f.name text).values key = _
      rw [Metadata.values_add legal.1 (all_isFieldByte (isVisible_of_visibleText? hv)), lower]
      rfl

/-- A field whose name has the stem is moved to the trailers, without it. -/
theorem values_sortField_snd (legal : f.Legal) (hk : isFieldName key = true)
    (parts : Metadata × Metadata) :
    (sortField parts f).2.values key =
      parts.2.values key ++ f.shown (Text.lower (trailerStem ++ key)) := by
  have lower := legal.2.1
  rw [lower_stem]
  unfold sortField Field.shown
  cases hv : visibleText? f.value with
  | none => simp
  | some text =>
    cases hs : Text.stripStart? trailerStem f.name.toList with
    | none =>
      have other : f.name ≠ trailerStem ++ Text.lower key := by
        intro named
        rw [named, stripStart?_stem] at hs
        cases hs
      rw [if_neg other, List.append_nil]
    | some rest =>
      have named : f.name = trailerStem ++ String.ofList rest := by
        apply String.toList_injective
        rw [String.toList_append, String.toList_ofList]
        exact Text.stripStart?_eq_some hs
      -- what follows the stem is in lower case as the whole name is
      have small : Text.lower (String.ofList rest) = String.ofList rest := by
        rw [named, lower_stem] at lower
        exact (String.append_right_inj _).mp lower
      show (parts.2.add (String.ofList rest) text).values key = _
      rw [named]
      by_cases same : String.ofList rest = Text.lower key
      · have known : isFieldName (String.ofList rest) = true := by
          rw [same]
          exact (isFieldName_lower hk).1
        rw [Metadata.values_add known (all_isFieldByte (isVisible_of_visibleText? hv)), small, same,
          if_pos rfl, if_pos rfl]
        rfl
      · rw [Metadata.values_add_of_ne (by rw [small]; exact same),
          if_neg fun e => same ((String.append_right_inj _).mp e), List.append_nil]

/-- The headers keep the visible values of names without the stem. -/
theorem values_splitTrailers_fst (headers trailers : Metadata)
    (plain : Text.stripStart? trailerStem (Text.lower key).toList = none) :
    (splitTrailers headers trailers).1.values key = (headers.texts key).map Utf8.encode := by
  have step : ∀ f ∈ headers.fields, ∀ parts : Metadata × Metadata,
      (sortField parts f).1.values key = parts.1.values key ++ f.shown (Text.lower key) := by
    intro f hf parts
    exact values_sortField_fst (headers.legal f hf) plain parts
  unfold splitTrailers
  refine (foldl_view (fun parts : Metadata × Metadata => parts.1.values key) step _).trans ?_
  rw [headers.flatMap_shown, Metadata.values_empty, List.nil_append]

/-- The trailers gain the visible values of names with the stem. -/
theorem values_splitTrailers_snd (headers trailers : Metadata) (hk : isFieldName key = true) :
    (splitTrailers headers trailers).2.values key =
      trailers.values key ++ (headers.texts (trailerStem ++ key)).map Utf8.encode := by
  have step : ∀ f ∈ headers.fields, ∀ parts : Metadata × Metadata,
      (sortField parts f).2.values key =
        parts.2.values key ++ f.shown (Text.lower (trailerStem ++ key)) := by
    intro f hf parts
    exact values_sortField_snd (headers.legal f hf) hk parts
  unfold splitTrailers
  refine (foldl_view (fun parts : Metadata × Metadata => parts.2.values key) step _).trans ?_
  rw [headers.flatMap_shown]

end Connect

end RpcWire
