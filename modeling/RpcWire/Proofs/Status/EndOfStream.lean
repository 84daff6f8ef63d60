import RpcWire.Proofs.Json.Written
import RpcWire.Proofs.Metadata
import RpcWire.Proofs.Text.Base64
import RpcWire.Proofs.Text.Cut
import RpcWire.Status.Json

/-!
# What Connect writes as JSON is read back

A failure that is written is read as the same failure
(`Failure.parseJson?_encodeJson`): it keeps its code, its message and its
details under their type names. The end of a stream that is written is read as
the same end (`EndOfStream.parse?_encode`): besides the failure, every name
keeps its visible values in their order. The names are written in their own
order, which no look-up sees.
-/

namespace RpcWire

open Json (Value)

/-! ## Lists that are sorted by name -/

namespace Json

variable {α : Type}

/-- Reading a list member by member, where every member can be read. -/
theorem mapM_eq_some_map {β γ : Type} {f : β → Option γ} {g : β → γ} {bs : List β}
    (h : ∀ b ∈ bs, f b = some (g b)) : bs.mapM f = some (bs.map g) := by
  induction bs with
  | nil => rfl
  | cons b bs ih =>
    rw [List.mapM_cons, h b List.mem_cons_self, ih fun c hc => h c (List.mem_cons_of_mem _ hc)]
    rfl

theorem insertByName_perm {name : String} {es : List (String × α)} (h : name ∉ es.map Prod.fst)
    (a : α) : (insertByName name a es).Perm ((name, a) :: es) := by
  induction es with
  | nil => exact List.Perm.refl _
  | cons e es ih =>
    rw [List.map_cons, List.mem_cons, not_or] at h
    rw [insertByName]
    split
    · exact List.Perm.refl _
    · rw [if_neg h.1]
      exact ((ih h.2).cons e).trans (List.Perm.swap _ _ _)

/-- Sorting by name loses no entry and adds none. -/
theorem foldl_insertByName_perm {es acc : List (String × α)}
    (h : (es.map Prod.fst ++ acc.map Prod.fst).Nodup) :
    (es.foldl (fun es e => insertByName e.1 e.2 es) acc).Perm (es ++ acc) := by
  induction es generalizing acc with
  | nil => exact List.Perm.refl _
  | cons e es ih =>
    rw [List.map_cons, List.cons_append, List.nodup_cons, List.mem_append, not_or] at h
    obtain ⟨⟨other, fresh⟩, rest⟩ := h
    -- the entry is new, so nothing is replaced, and the names still differ
    have inserted := insertByName_perm fresh e.2
    have names : (es.map Prod.fst ++ (insertByName e.1 e.2 acc).map Prod.fst).Nodup := by
      refine (((inserted.map Prod.fst).append_left _).nodup_iff).mpr ?_
      rw [List.map_cons]
      refine (List.perm_middle.nodup_iff).mpr (List.nodup_cons.mpr ⟨?_, rest⟩)
      rw [List.mem_append, not_or]
      exact ⟨other, fresh⟩
    rw [List.foldl_cons, List.cons_append]
    exact (ih names).trans ((inserted.append_left es).trans List.perm_middle)

/-- Sorting entries of different names only reorders them. -/
theorem sortedByName_perm {es : List (String × α)} (h : (es.map Prod.fst).Nodup) :
    (sortedByName es).Perm es := by
  have names : (es.map Prod.fst ++ ([] : List (String × α)).map Prod.fst).Nodup := by simpa using h
  have := foldl_insertByName_perm names
  rwa [List.append_nil] at this

end Json

/-! ## Details -/

namespace Detail

theorem slash_not_mem_typeName (d : Detail) : '/' ∉ d.typeName.toList := by
  unfold typeName
  split
  · next name h =>
    rw [String.toList_ofList]
    exact Text.not_mem_of_cutLast?.2 _ _ h
  · next h => exact Text.not_mem_of_cutLast?.1 h

/-- The detail under its type name alone. -/
def bare (d : Detail) : Detail := ⟨d.typeName, d.value⟩

@[simp] theorem typeName_bare (d : Detail) : d.bare.typeName = d.typeName := by
  -- the name of a type holds no slash, so it is its own name
  have whole : Text.cutLast? '/' d.bare.typeUrl.toList = none :=
    Text.cutLast?_eq_none d.slash_not_mem_typeName
  show d.bare.typeName = d.bare.typeUrl
  unfold typeName
  rw [whole]

/-- A detail comes back without the prefix of its type address. -/
theorem ofJson?_toJson (d : Detail) : Detail.ofJson? d.toJson = some (some d.bare) := by
  have value : valueOfText (String.ofList (Base64.encode .standard .bare d.value)) = d.value := by
    rw [valueOfText, String.toList_ofList, Base64.decodeEither?_encode, Option.getD_some]
  show some (some (⟨d.typeName, valueOfText _⟩ : Detail)) = _
  rw [value]
  rfl

theorem isText_toJson (d : Detail) : d.toJson.IsText := by
  refine .object ?_
  intro f hf
  simp only [List.mem_cons, List.not_mem_nil, or_false] at hf
  rcases hf with rfl | rfl <;> exact .string _

end Detail

/-! ## Failures -/

namespace Failure

theorem detailsOfJson?_toJson (ds : List Detail) :
    detailsOfJson? (.array (ds.map Detail.toJson)) = some (ds.map Detail.bare) := by
  unfold detailsOfJson?
  rw [Value.array?, Option.bind_eq_bind, Option.bind_some, List.mapM_map,
    Json.mapM_eq_some_map fun d _ => d.ofJson?_toJson]
  simp [List.filterMap_map]

theorem ofJson?_toJson (f : Failure) :
    ofJson? f.toJson = some ⟨f.code, f.message, f.details.map Detail.bare, .empty, none⟩ := by
  unfold toJson ofJson?
  by_cases none : f.details = []
  · cases hm : f.message <;>
      simp [Value.slots?, Value.field?, Value.optional?, Value.string?, none, Code.ofName_name]
  · cases hm : f.message <;>
      simp [Value.slots?, Value.field?, Value.optional?, Value.string?, none, Code.ofName_name,
        detailsOfJson?_toJson]

theorem isText_toJson (f : Failure) : f.toJson.IsText := by
  refine .object ?_
  intro field h
  rcases List.mem_append.mp h with h | h
  · rcases List.mem_append.mp h with h | h
    · rw [List.mem_singleton.mp h]
      exact .string _
    · cases hm : f.message with
      | none =>
        rw [hm] at h
        cases h
      | some m =>
        rw [hm] at h
        rw [List.mem_singleton.mp h]
        exact .string _
  · split at h
    · cases h
    · rw [List.mem_singleton.mp h]
      refine .array ?_
      intro v hv
      obtain ⟨d, -, rfl⟩ := List.mem_map.mp hv
      exact d.isText_toJson

/-- A failure written as JSON is read back with its code, message and details; metadata and cause
are not written. -/
theorem parseJson?_encodeJson (f : Failure) :
    parseJson? f.encodeJson =
      some ⟨f.code, f.message, f.details.map Detail.bare, .empty, none⟩ := by
  rw [parseJson?, encodeJson, Value.parse?_encode f.isText_toJson, Option.bind_some,
    ofJson?_toJson]

end Failure

/-! ## The end of a stream -/

namespace EndOfStream

/-- The object has one field for each name, in some order. -/
theorem metadataFields_perm (m : Metadata) :
    (Json.sortedByName (m.names.map fun name =>
      (name, Value.array ((m.texts name).map Value.string)))).Perm
        (m.names.map fun name => (name, Value.array ((m.texts name).map Value.string))) := by
  refine Json.sortedByName_perm ?_
  rw [List.map_map]
  show (m.names.map id).Nodup
  rw [List.map_id]
  exact m.nodup_names

theorem isText_metadataToJson (m : Metadata) : (metadataToJson m).IsText := by
  refine .object ?_
  intro f hf
  obtain ⟨name, -, rfl⟩ := List.mem_map.mp ((metadataFields_perm m).mem_iff.mp hf)
  refine .array ?_
  intro v hv
  obtain ⟨text, -, rfl⟩ := List.mem_map.mp hv
  exact .string text

theorem isText_toJson (e : EndOfStream) : e.toJson.IsText := by
  refine .object ?_
  intro field h
  rcases List.mem_append.mp h with h | h
  · cases hf : e.failure with
    | none =>
      rw [hf] at h
      cases h
    | some f =>
      rw [hf] at h
      rw [List.mem_singleton.mp h]
      exact f.isText_toJson
  · split at h
    · cases h
    · rw [List.mem_singleton.mp h]
      exact isText_metadataToJson e.metadata

theorem stringsOfJson?_strings (texts : List String) :
    stringsOfJson? (.array (texts.map Value.string)) = some texts := by
  have read : ∀ v ∈ texts.map Value.string, v.string? = some (v.string?.getD "") := by
    intro v hv
    obtain ⟨text, -, rfl⟩ := List.mem_map.mp hv
    rfl
  rw [stringsOfJson?, Value.array?, Option.bind_some, Json.mapM_eq_some_map read, List.map_map]
  exact congrArg some (List.map_id texts)

/-- Of different names only one is the wanted one. -/
theorem flatMap_wanted {β : Type} {names : List String} (h : names.Nodup) (wanted : String)
    (f : String → List β) :
    (names.flatMap fun name => if name = wanted then f name else []) =
      if wanted ∈ names then f wanted else [] := by
  induction names with
  | nil => rfl
  | cons name names ih =>
    rw [List.nodup_cons] at h
    rw [List.flatMap_cons, ih h.2]
    by_cases same : name = wanted
    · subst same
      simp [h.1]
    · simp [same, Ne.symm same]

/-- Entries that have every name of some trailers once, each with its visible values. -/
structure Lists (m : Metadata) (entries : List (String × List String)) : Prop where
  names : (entries.map Prod.fst).Perm m.names
  texts : ∀ e ∈ entries, e.2 = m.texts e.1

namespace Lists

variable {m : Metadata} {entries : List (String × List String)}

theorem nodup (h : Lists m entries) : (entries.map Prod.fst).Nodup :=
  h.names.nodup_iff.mpr m.nodup_names

theorem mem_names (h : Lists m entries) {e : String × List String} (he : e ∈ entries) :
    e.1 ∈ m.names :=
  h.names.mem_iff.mp (List.mem_map_of_mem he)

theorem sorted (h : Lists m entries) : Lists m (Json.sortedByName entries) := by
  have perm := Json.sortedByName_perm h.nodup
  exact ⟨(perm.map Prod.fst).trans h.names, fun e he => h.texts e (perm.mem_iff.mp he)⟩

/-- Trailers are made again of their entries, in whatever order these come. -/
theorem values (h : Lists m entries) (key : String) :
    (entries.foldl (fun m e => e.2.foldl (fun m text => m.add e.1 text) m) Metadata.empty).values
      key = (m.texts key).map Utf8.encode := by
  rw [Metadata.values_addEntries, Metadata.values_empty, List.nil_append]
  · -- the names are in lower case and differ, so at most one of them is the key
    have byName : (entries.flatMap fun e =>
        if Text.lower e.1 = Text.lower key then e.2.map Utf8.encode else []) =
        (entries.map Prod.fst).flatMap fun name =>
          if name = Text.lower key then (m.texts name).map Utf8.encode else [] := by
      rw [List.flatMap_map]
      refine List.flatMap_congr ?_
      intro e he
      rw [(Metadata.legal_of_mem_names (h.mem_names he)).2, h.texts e he]
    rw [byName, flatMap_wanted h.nodup]
    split
    · next known =>
      have lower := (Metadata.legal_of_mem_names (h.names.mem_iff.mp known)).2
      rw [Metadata.texts, Metadata.texts, Metadata.values, Metadata.values, lower]
    · next unknown =>
      rw [Metadata.texts, Metadata.values_of_not_mem_names fun known =>
        unknown (h.names.mem_iff.mpr known)]
      rfl
  · intro e he
    refine ⟨(Metadata.legal_of_mem_names (h.mem_names he)).1, ?_⟩
    intro text ht
    rw [h.texts e he] at ht
    exact Metadata.isVisible_of_mem_texts ht

end Lists

/-- The fields of an object that is written for trailers are read as their entries. -/
theorem mapM_metadataFields (m : Metadata) :
    ∃ entries, (Json.sortedByName (m.names.map fun name =>
        (name, Value.array ((m.texts name).map Value.string)))).mapM
          (fun f => (stringsOfJson? f.2).map fun texts => (f.1, texts)) = some entries ∧
      Lists m entries := by
  have perm := metadataFields_perm m
  refine ⟨_, Json.mapM_eq_some_map (g := fun f => (f.1, m.texts f.1)) ?_, ?_, ?_⟩
  · intro f hf
    obtain ⟨name, -, rfl⟩ := List.mem_map.mp (perm.mem_iff.mp hf)
    rw [stringsOfJson?_strings, Option.map_some]
  · have names := perm.map Prod.fst
    rw [List.map_map] at names ⊢
    rw [show (Prod.fst ∘ fun name => (name, Value.array ((m.texts name).map Value.string))) = id
      from rfl, List.map_id] at names
    exact names
  · intro e he
    obtain ⟨f, -, rfl⟩ := List.mem_map.mp he
    rfl

/-- Trailers are read back with their visible values. -/
theorem metadataOfJson?_metadataToJson (m : Metadata) :
    ∃ back, metadataOfJson? (metadataToJson m) = some back ∧
      ∀ key, back.values key = (m.texts key).map Utf8.encode := by
  obtain ⟨entries, read, lists⟩ := mapM_metadataFields m
  refine ⟨(Json.sortedByName entries).foldl
    (fun m e => e.2.foldl (fun m text => m.add e.1 text) m) .empty, ?_, lists.sorted.values⟩
  show Option.bind (List.mapM _ _) _ = _
  rw [read, Option.bind_some]

theorem slots?_toJson (e : EndOfStream) :
    e.toJson.slots? ["error", "metadata"] = some [e.failure.map Failure.toJson,
      if e.metadata.isEmpty then none else some (metadataToJson e.metadata)] := by
  obtain ⟨failure, metadata⟩ := e
  cases failure <;> cases h : metadata.isEmpty <;> simp [toJson, Value.slots?, Value.field?, h]

theorem optional?_failure (failure : Option Failure) :
    Value.optional? Failure.ofJson? (failure.map Failure.toJson) =
      some (failure.map fun f => ⟨f.code, f.message, f.details.map Detail.bare, .empty, none⟩) := by
  cases failure with
  | none => rfl
  | some f =>
    show (Failure.ofJson? f.toJson).map some = _
    rw [Failure.ofJson?_toJson]
    rfl

/-- The end of a stream is read back: the failure with its code, its message and its details under
their type names, and of the trailers the visible values. -/
theorem parse?_encode (e : EndOfStream) :
    ∃ trailers, parse? e.encode = some ⟨e.failure.map fun f =>
        ⟨f.code, f.message, f.details.map Detail.bare, trailers, none⟩, trailers⟩ ∧
      ∀ key, trailers.values key = (e.metadata.texts key).map Utf8.encode := by
  have slots : ∀ metadata, Value.optional? metadataOfJson?
      (if e.metadata.isEmpty then none else some (metadataToJson e.metadata)) = some metadata →
      parse? e.encode = some ⟨e.failure.map fun f => ⟨f.code, f.message,
        f.details.map Detail.bare, metadata.getD .empty, none⟩, metadata.getD .empty⟩ := by
    intro metadata h
    rw [parse?, encode, Value.parse?_encode e.isText_toJson, Option.bind_some, ofJson?]
    simp only [slots?_toJson, optional?_failure, h, Option.bind_eq_bind, Option.bind_some,
      Option.map_map]
    rfl
  by_cases none : e.metadata.isEmpty = true
  · -- no trailers are not written at all, and read as none
    have read := slots Option.none (by rw [if_pos none]; rfl)
    refine ⟨_, read, ?_⟩
    intro key
    have nofields : e.metadata.fields = [] := List.isEmpty_iff.mp none
    show Metadata.empty.values key = _
    rw [Metadata.values_empty, Metadata.texts, Metadata.values, nofields]
    rfl
  · obtain ⟨back, hback, hvalues⟩ := metadataOfJson?_metadataToJson e.metadata
    have read := slots (some back) (by
      rw [if_neg none]
      show (metadataOfJson? (metadataToJson e.metadata)).map some = _
      rw [hback, Option.map_some])
    exact ⟨back, read, hvalues⟩

end EndOfStream

/-- What is written is read back, whatever the failure and the trailers. A failure keeps its code,
its message, which may be missing or empty, and its details in order. The trailers keep exactly the
names that have a visible value, and those values in order; a failure that was given carries them.
-/
theorem json_roundTrip :
    (∀ f : Failure, ∃ back, Failure.parseJson? f.encodeJson = some back ∧
      back.code = f.code ∧ back.message = f.message ∧ back.details = f.details.map Detail.bare) ∧
    ∀ (failure : Option Failure) (trailers : Metadata),
      ∃ last, EndOfStream.parse? (EndOfStream.encode ⟨failure, trailers⟩) = some last ∧
        (∀ name, name ∈ last.metadata.names ↔ name ∈ trailers.names ∧ trailers.texts name ≠ []) ∧
        (∀ key, last.metadata.values key = (trailers.texts key).map Utf8.encode) ∧
        last.failure = failure.map fun f =>
          ⟨f.code, f.message, f.details.map Detail.bare, last.metadata, none⟩ := by
  constructor
  · intro f
    exact ⟨_, f.parseJson?_encodeJson, rfl, rfl, rfl⟩
  · intro failure trailers
    obtain ⟨back, read, values⟩ := EndOfStream.parse?_encode ⟨failure, trailers⟩
    refine ⟨_, read, ?_, values, rfl⟩
    intro name
    rw [Metadata.mem_names_iff, Metadata.mem_names_iff, values, ne_eq, List.map_eq_nil_iff]
    constructor
    · rintro ⟨lower, visible⟩
      exact ⟨⟨lower, Metadata.values_ne_nil_of_texts visible⟩, visible⟩
    · rintro ⟨⟨lower, -⟩, visible⟩
      exact ⟨lower, visible⟩

end RpcWire
