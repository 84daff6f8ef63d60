import RpcWire.Proofs.Client.Trailers

/-!
# What is handed on of a response's headers

A unary response of Connect is taken apart before anything else is looked at:
its headers become the headers and the trailers of the call, whether that
succeeds or fails (`parts_unaryResponse`). What is visible is handed on under its
name and in its order, and nothing else is; so all headers are handed on if and
only if all of them are visible (`Connect.hands_on_iff_visible`).
-/

namespace RpcWire

open FieldName (trailerStem)

/-! ## Values and their fields -/

namespace Metadata

/-- The texts of a name are its visible values, the others being passed over. -/
theorem texts_eq_filter (m : Metadata) (key : String) :
    (m.texts key).map Utf8.encode = (m.values key).filter fun value => value.all isVisibleByte := by
  unfold texts
  induction m.values key with
  | nil => rfl
  | cons value values ih =>
    by_cases visible : value.all isVisibleByte = true
    · have shown : visibleText? value =
          some (String.ofList (value.map fun b => Char.ofNat b.toNat)) := if_pos visible
      rw [List.filterMap_cons_some shown, List.map_cons, ih, encode_of_visibleText? shown,
        List.filter_cons, if_pos visible]
    · have hidden : visibleText? value = none := if_neg visible
      rw [List.filterMap_cons_none hidden, ih, List.filter_cons, if_neg visible]

end Metadata

/-! ## Taking a response apart -/

namespace Connect

variable {σ : Type}

/-- A name that begins with the stem of trailers. -/
def HasStem (name : String) : Prop := Text.stripStart? trailerStem name.toList ≠ none

instance (name : String) : Decidable (HasStem name) := inferInstanceAs (Decidable (_ ≠ _))

theorem hasStem_iff {name : String} : HasStem name ↔ ∃ rest, name = trailerStem ++ rest := by
  constructor
  · intro h
    obtain ⟨rest, found⟩ := Option.ne_none_iff_exists'.mp h
    refine ⟨String.ofList rest, String.toList_injective ?_⟩
    rw [String.toList_append, String.toList_ofList]
    exact Text.stripStart?_eq_some found
  · rintro ⟨rest, rfl⟩ none
    rw [stripStart?_stem] at none
    cases none

theorem eq_empty_of_bare {key : String} (h : Text.lower (trailerStem ++ key) = trailerStem) :
    key = "" := by
  rw [lower_stem] at h
  have behind := congrArg String.toList h
  rw [String.toList_append, List.append_right_eq_self, Text.lower, String.toList_ofList,
    List.map_eq_nil_iff] at behind
  exact String.toList_injective behind

/-- The headers that `p` lets through are handed on, each under its name and in its order: one with
the stem as a trailer, after those that were there, without the stem; unless nothing follows it. The
call has no other headers and trailers. -/
structure HandsOn (p : Bytes → Bool) (r out : Http.Response) : Prop where
  headers : ∀ key, out.headers.values key =
    if HasStem (Text.lower key) then [] else (r.headers.values key).filter p
  trailers : ∀ key, out.trailers.values key = r.trailers.values key ++
    if key = "" then [] else (r.headers.values (trailerStem ++ key)).filter p

namespace HandsOn

variable {p q : Bytes → Bool} {r out : Http.Response}

/-- What lets the same headers through hands on the same. -/
theorem congr (h : HandsOn p r out)
    (same : ∀ f ∈ r.headers.fields, f.name = trailerStem ∨ p f.value = q f.value) :
    HandsOn q r out := by
  have through : ∀ key, Text.lower key ≠ trailerStem →
      (r.headers.values key).filter p = (r.headers.values key).filter q := by
    intro key named
    refine List.filter_congr ?_
    intro value hvalue
    obtain ⟨f, hf, name, rfl⟩ := Metadata.mem_values_iff.mp hvalue
    exact (same f hf).resolve_left fun bare => named (name.symm.trans bare)
  constructor
  · intro key
    rw [h.headers key]
    by_cases stem : HasStem (Text.lower key)
    · rw [if_pos stem, if_pos stem]
    · rw [if_neg stem, if_neg stem, through key]
      intro bare
      rw [bare] at stem
      exact stem (by decide)
  · intro key
    rw [h.trailers key]
    by_cases empty : key = ""
    · rw [if_pos empty, if_pos empty]
    · rw [if_neg empty, if_neg empty, through]
      intro bare
      exact empty (eq_empty_of_bare bare)

/-- What hands on the same lets the same headers through. -/
theorem agree (h : HandsOn p r out) (other : HandsOn q r out) :
    ∀ f ∈ r.headers.fields, f.name = trailerStem ∨ p f.value = q f.value := by
  intro f hf
  have lower := (r.headers.legal f hf).2.1
  have mem : f.value ∈ r.headers.values f.name :=
    Metadata.mem_values_iff.mpr ⟨f, hf, lower.symm, rfl⟩
  have through : (r.headers.values f.name).filter p = (r.headers.values f.name).filter q →
      p f.value = q f.value := by
    intro same
    have both := congrArg (f.value ∈ ·) same
    simp only [List.mem_filter, mem, true_and, eq_iff_iff] at both
    exact Bool.eq_iff_iff.mpr both
  by_cases stem : HasStem f.name
  · obtain ⟨rest, name⟩ := hasStem_iff.mp stem
    by_cases bare : rest = ""
    · exact .inl (by rw [name, bare, String.append_empty])
    · have same := (h.trailers rest).symm.trans (other.trailers rest)
      rw [if_neg bare, if_neg bare, ← name] at same
      exact .inr (through (List.append_cancel_left same))
  · have same := (h.headers f.name).symm.trans (other.headers f.name)
    rw [lower, if_neg stem, if_neg stem] at same
    exact .inr (through same)

end HandsOn

/-- No header of the call has the stem. -/
theorem values_splitTrailers_of_hasStem (headers trailers : Metadata) {key : String}
    (h : HasStem (Text.lower key)) : (splitTrailers headers trailers).1.values key = [] := by
  have step : ∀ f ∈ headers.fields, ∀ parts : Metadata × Metadata,
      (sortField parts f).1.values key = parts.1.values key ++ [] := by
    intro f hf parts
    rw [List.append_nil]
    unfold sortField
    cases visibleText? f.value with
    | none => rfl
    | some text =>
      cases hs : Text.stripStart? trailerStem f.name.toList with
      | some name => rfl
      | none =>
        refine Metadata.values_add_of_ne ?_ text
        intro same
        rw [(headers.legal f hf).2.1] at same
        rw [← same] at h
        exact h hs
  unfold splitTrailers
  refine (foldl_view (fun parts : Metadata × Metadata => parts.1.values key) step _).trans ?_
  rw [Metadata.values_empty, List.nil_append]
  exact List.flatMap_eq_nil_iff.mpr fun _ _ => rfl

/-- A success and every failure have the same headers and trailers. -/
theorem parts_unaryResponse (c : ClientConfig σ) {r : Http.Response} {status : Nat}
    (arrived : r.status = some status) (sound : r.cause = none) :
    ((unaryResponse c r).headers, (unaryResponse c r).trailers) =
      splitTrailers r.headers r.trailers := by
  unfold unaryResponse
  rw [sound, arrived]
  simp only
  split <;> rfl

theorem handsOn_of_arrived (c : ClientConfig σ) {r : Http.Response} {status : Nat}
    (arrived : r.status = some status) (sound : r.cause = none) :
    HandsOn (fun value => value.all isVisibleByte) r (unaryResponse c r) := by
  have parts := parts_unaryResponse c arrived sound
  have headers := congrArg Prod.fst parts
  have trailers := congrArg Prod.snd parts
  simp only at headers trailers
  constructor
  · intro key
    rw [headers]
    by_cases stem : HasStem (Text.lower key)
    · rw [if_pos stem, values_splitTrailers_of_hasStem _ _ stem]
    · have plain : Text.stripStart? trailerStem (Text.lower key).toList = none := by
        by_contra found
        exact stem found
      rw [if_neg stem, values_splitTrailers_fst _ _ plain, Metadata.texts_eq_filter]
  · intro key
    rw [trailers]
    by_cases legal : isFieldName key = true
    · have named : key ≠ "" := by
        rintro rfl
        exact absurd legal (by decide)
      rw [if_neg named, values_splitTrailers_snd _ _ legal, Metadata.texts_eq_filter]
    · -- what is no name behind the stem is none with it, unless it is empty
      rw [Metadata.values_of_illegal legal, Metadata.values_of_illegal legal, List.nil_append]
      by_cases empty : key = ""
      · rw [if_pos empty]
      · have illegal : isFieldName (trailerStem ++ key) ≠ true :=
          fun whole => legal (isFieldName_of_stem empty whole)
        rw [if_neg empty, Metadata.values_of_illegal illegal]
        rfl

/-- Of the headers of a response that arrived, whether it means a success or a failure, exactly the
visible ones are handed on. So all of them are if and only if all of them are visible, but for one
whose name is the bare stem, which is never handed on. -/
theorem hands_on_iff_visible (c : ClientConfig σ) {r : Http.Response} {status : Nat}
    (arrived : r.status = some status) (sound : r.cause = none) :
    HandsOn (fun value => value.all isVisibleByte) r (unaryResponse c r) ∧
      (HandsOn (fun _ => true) r (unaryResponse c r) ↔
        ∀ f ∈ r.headers.fields, f.name = trailerStem ∨ f.value.all isVisibleByte = true) := by
  have visible := handsOn_of_arrived c arrived sound
  exact ⟨visible, fun all => visible.agree all, fun all => visible.congr all⟩

/-- A response with two values under one name, one of them opaque, and a trailer. -/
def opaqueResponse : Http.Response :=
  .arrived 200 (((Metadata.ofTexts [("content-type", "application/proto"), ("x-note", "a"),
    ("trailer-x-sum", "7")]).addBytes "x-note" [0xFF])) [] .empty

def plainClient : ClientConfig Unit := .new "http://h"

theorem hands_on_iff_visible_opaque :
    opaqueResponse.status = some 200 ∧ opaqueResponse.cause = none ∧
      (unaryResponse plainClient opaqueResponse).headers.values "X-Note" = [[0x61]] ∧
      (unaryResponse plainClient opaqueResponse).trailers.values "x-sum" = [[0x37]] := by
  have arrived : opaqueResponse.status = some 200 := rfl
  obtain ⟨visible, -⟩ := hands_on_iff_visible plainClient arrived rfl
  refine ⟨arrived, rfl, ?_, ?_⟩
  · rw [visible.headers]
    decide
  · rw [visible.trailers]
    decide

/-- The opaque value is lost: not every header is handed on. -/
theorem opaque_value_lost :
    opaqueResponse.status = some 200 ∧ opaqueResponse.cause = none ∧
      opaqueResponse.headers.values "x-note" = [[0x61], [0xFF]] ∧
      ¬ HandsOn (fun _ => true) opaqueResponse (unaryResponse plainClient opaqueResponse) := by
  refine ⟨rfl, rfl, by decide, ?_⟩
  intro all
  have lost : (unaryResponse plainClient opaqueResponse).headers.values "x-note" = [[0x61]] := by
    decide +kernel
  rw [all.headers "x-note"] at lost
  exact absurd lost (by decide)

end Connect

end RpcWire
