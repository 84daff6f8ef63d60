import Mathlib.Data.List.Forall2
import RpcWire.Json.Value
import RpcWire.Proofs.Text.Utf8

/-!
# What is written as JSON is read back

Values made of strings, arrays and objects, nested to any depth, are read back
from their text as they were (`Value.parse?_encode`). `Cut` says which tokens a
text is cut into, whatever follows it, and `Builds` which value the machine
makes of some tokens, wherever a value may stand; the texts and the tokens of a
value are put together in the same way. Any characters may stand in the strings
and any names may be repeated.
-/

namespace RpcWire.Json

/-! ## Strings -/

/-- The piece that a character is read as: a control without a short escape is written by its
number. -/
def pieceOf (c : Char) : Piece :=
  if c.toNat < 0x20 ∧ c ∉ ['\x08', '\x0C', '\n', '\r', '\t'] then .unit c.toNat else .char c

theorem hexValue?_zero : Bytes.hexValue? '0' = some 0 := by decide

theorem unit?_control {n : Nat} (h : n < 0x20) :
    unit? (some '0') (some '0') (some (Bytes.hexDigit (n / 16))) (some (Bytes.hexDigit (n % 16))) =
      some n := by
  simp only [unit?, Option.bind_eq_bind, Option.bind_some, hexValue?_zero,
    Bytes.hexValue?_hexDigit (n / 16) (by omega), Bytes.hexValue?_hexDigit (n % 16) (by omega)]
  congr 1
  omega

theorem scanPieces_plain {c : Char} (hquote : c ≠ '"') (hback : c ≠ '\\') (h : ¬ c.toNat < 0x20)
    (rest : List Mark) :
    scanPieces (some c :: rest) = (scanPieces rest).map fun r => (.char c :: r.1, r.2) := by
  have ordinary : ¬ (c.toNat < 0x20 ∨ c = '\\') := fun e => e.elim h hback
  rw [scanPieces, if_neg ordinary]
  · cases scanPieces rest <;> rfl
  · exact hquote
  all_goals
    intros
    contradiction

/-- Every character is read back as one piece from its escape. -/
theorem scanPieces_escape (c : Char) (rest : List Mark) :
    scanPieces ((escape c).map some ++ rest) =
      (scanPieces rest).map fun r => (pieceOf c :: r.1, r.2) := by
  -- the short escapes, one by one, then the controls without one, then all other characters
  by_cases short : c ∈ ['"', '\\', '\x08', '\x0C', '\n', '\r', '\t']
  · simp only [List.mem_cons, List.not_mem_nil, or_false] at short
    rcases short with rfl | rfl | rfl | rfl | rfl | rfl | rfl
    all_goals
      show scanPieces (some '\\' :: some _ :: rest) = _
      rw [scanPieces]
      rotate_left
      · intro _ _ _ _ _ _ h
        exact absurd h (by decide)
      · cases scanPieces rest <;> rfl
  · simp only [List.mem_cons, List.not_mem_nil, or_false, not_or] at short
    obtain ⟨hquote, hback, h8, hC, hn, hr, ht⟩ := short
    by_cases control : c.toNat < 0x20
    · have piece : pieceOf c = .unit c.toNat := by simp [pieceOf, control, h8, hC, hn, hr, ht]
      have text : escape c = ['\\', 'u', '0', '0', Bytes.hexDigit (c.toNat / 16),
          Bytes.hexDigit (c.toNat % 16)] := by
        simp [escape, control, hquote, hback, h8, hC, hn, hr, ht]
      rw [piece, text]
      show scanPieces
        (some '\\' :: some 'u' :: some '0' :: some '0' :: some _ :: some _ :: rest) = _
      rw [scanPieces, unit?_control control]
      cases scanPieces rest <;> rfl
    · have piece : pieceOf c = .char c := by simp [pieceOf, control]
      have text : escape c = [c] := by
        simp [escape, control, hquote, hback, h8, hC, hn, hr, ht]
      rw [piece, text]
      exact scanPieces_plain hquote hback control rest

theorem spell?_unit {n : Nat} (h : n < 0xD800) (rest : List Piece) :
    spell? (.unit n :: rest) = (spell? rest).map (Char.ofNat n :: ·) := by
  rw [spell?.eq_def]
  exact if_pos (Or.inl h)

theorem spell?_pieces (cs : List Char) : spell? (cs.map pieceOf) = some cs := by
  induction cs with
  | nil => rfl
  | cons c cs ih =>
    rw [List.map_cons, pieceOf]
    split
    · next control =>
      rw [spell?_unit (by omega), ih, Char.ofNat_toNat]
      rfl
    · rw [spell?, ih]
      rfl

/-- A quoted string ends at its own quotation mark and not before. -/
theorem scanPieces_quoted (cs : List Char) (rest : List Mark) :
    scanPieces ((cs.flatMap escape).map some ++ some '"' :: rest) =
      some (cs.map pieceOf, rest) := by
  induction cs with
  | nil => simp [scanPieces]
  | cons c cs ih =>
    rw [List.flatMap_cons, List.map_append, List.append_assoc, scanPieces_escape, ih]
    rfl

/-! ## Tokens -/

/-- The text is cut into these tokens and then what follows it is cut. -/
def Cut (text : List Char) (ts : List Token) : Prop :=
  ∀ rest, tokens? (text.map some ++ rest) = (tokens? rest).map (ts ++ ·)

namespace Cut

theorem nil : Cut [] [] := by
  intro rest
  simp

theorem append {a b : List Char} {s t : List Token} (ha : Cut a s) (hb : Cut b t) :
    Cut (a ++ b) (s ++ t) := by
  intro rest
  rw [List.map_append, List.append_assoc, ha, hb, Option.map_map]
  simp [Function.comp_def]

theorem punctuation {c : Char} {t : Token} (h : punctuation? c = some t) (hs : isSpace c = false) :
    Cut [c] [t] := by
  intro rest
  show tokens? (some c :: rest) = _
  rw [tokens?]
  simp only [hs, h]
  rfl

theorem quote (s : String) : Cut (quote s) [.string (some s)] := by
  intro rest
  have shape : (Json.quote s).map some ++ rest =
      some '"' :: ((s.toList.flatMap escape).map some ++ some '"' :: rest) := by
    simp [Json.quote]
  rw [shape, tokens?]
  -- the mark is neither blank nor punctuation: a string begins
  have notSpace : ¬ isSpace '"' = true := by decide
  have notMark : punctuation? '"' = none := by decide
  rw [if_neg notSpace]
  simp only [notMark, if_true]
  split
  · next none =>
    rw [scanPieces_quoted] at none
    cases none
  · next pieces after found =>
    rw [scanPieces_quoted] at found
    cases found
    rw [spell?_pieces, Option.map_some, String.ofList_toList]
    rfl

end Cut

/-! ## Values -/

/-- Values made of strings, arrays and objects only. -/
inductive Value.IsText : Value → Prop where
  | string (s : String) : IsText (.string s)
  | array {items : List Value} (h : ∀ v ∈ items, v.IsText) : IsText (.array items)
  | object {fields : List (String × Value)} (h : ∀ f ∈ fields, f.2.IsText) : IsText (.object fields)

/-- The machine makes this value of these tokens wherever a value may stand. -/
structure Builds (v : Value) (ts : List Token) : Prop where
  opens : ∃ t rest, ts = t :: rest ∧ t ≠ .closeArray ∧ t ≠ .closeObject
  delivers : ∀ containers, ts.foldlM Machine.step (.reading .value containers) =
    some (deliver v containers)

/-- Members with commas between them. -/
def commaJoined : List (List Token) → List Token
  | [] => []
  | m :: ms => m ++ ms.flatMap (.comma :: ·)

theorem endContainer_eq_none {t : Token} (ha : t ≠ .closeArray) (ho : t ≠ .closeObject)
    (containers : List Container) : endContainer containers t = none := by
  rcases containers with _ | ⟨c | c, outer⟩
  · rfl
  · cases t <;> first | rfl | exact absurd rfl ha
  · cases t <;> first | rfl | exact absurd rfl ho

/-- Where a container may be closed, a value may stand instead. -/
theorem Builds.delivers_orClose {v : Value} {ts : List Token} (h : Builds v ts)
    (containers : List Container) :
    ts.foldlM Machine.step (.reading .valueOrClose containers) = some (deliver v containers) := by
  obtain ⟨t, rest, rfl, ha, ho⟩ := h.opens
  rw [← h.delivers containers, List.foldlM_cons, List.foldlM_cons]
  have same : Machine.step (.reading .valueOrClose containers) t =
      Machine.step (.reading .value containers) t := by
    show (endContainer containers t).or (beginValue containers t) = beginValue containers t
    rw [endContainer_eq_none ha ho, Option.none_or]
  rw [same]

/-- What a value is written as builds that value, whatever containers are open. -/
theorem builds_string (s : String) : Builds (.string s) [.string (some s)] where
  opens := ⟨_, _, rfl, (nomatch ·), (nomatch ·)⟩
  delivers _ := rfl

/-- The members of an array after the first one, and the end of the array. -/
theorem foldlM_items {vs : List Value} {tss : List (List Token)} (h : List.Forall₂ Builds vs tss)
    (read : List Value) (outer : List Container) :
    (tss.flatMap (Token.comma :: ·) ++ [Token.closeArray]).foldlM Machine.step
        (.reading .commaOrClose (.array read :: outer)) =
      some (deliver (.array (read.reverse ++ vs)) outer) := by
  induction h generalizing read with
  | nil =>
    rw [List.append_nil]
    rfl
  | @cons v ts vs tss hv _ ih =>
    rw [List.flatMap_cons, List.append_assoc, List.cons_append, List.foldlM_cons]
    show (ts ++ _).foldlM Machine.step (.reading .value (.array read :: outer)) = _
    rw [List.foldlM_append, hv.delivers]
    -- the member stands on the stack, the newest first
    show List.foldlM Machine.step (.reading .commaOrClose (.array (v :: read) :: outer)) _ = _
    rw [ih, List.reverse_cons, List.append_assoc, List.singleton_append]

theorem builds_array {vs : List Value} {tss : List (List Token)}
    (h : List.Forall₂ Builds vs tss) :
    Builds (.array vs) (.openArray :: commaJoined tss ++ [.closeArray]) where
  opens := ⟨_, _, rfl, (nomatch ·), (nomatch ·)⟩
  delivers containers := by
    -- the first member has no comma in front of it, and it may be missing
    show (commaJoined tss ++ [Token.closeArray]).foldlM Machine.step
      (.reading .valueOrClose (.array [] :: containers)) = _
    cases h with
    | nil => rfl
    | @cons v ts vs tss hv rest =>
      rw [commaJoined, List.append_assoc, List.foldlM_append, hv.delivers_orClose]
      exact foldlM_items rest [v] containers

/-- The tokens of a field build its value under its name. -/
def BuildsField (f : String × Value) (ts : List Token) : Prop :=
  ∃ vs, ts = .string (some f.1) :: .colon :: vs ∧ Builds f.2 vs

/-- The fields of an object after the first one, and the end of the object. -/
theorem foldlM_fields {fs : List (String × Value)} {tss : List (List Token)}
    (h : List.Forall₂ BuildsField fs tss) (read : List (String × Value)) (name : String)
    (outer : List Container) :
    (tss.flatMap (Token.comma :: ·) ++ [Token.closeObject]).foldlM Machine.step
        (.reading .commaOrClose (.object read true name :: outer)) =
      some (deliver (.object (read.reverse ++ fs)) outer) := by
  induction h generalizing read name with
  | nil =>
    rw [List.append_nil]
    rfl
  | @cons f ts fs tss hf _ ih =>
    obtain ⟨vs, rfl, hv⟩ := hf
    rw [List.flatMap_cons, List.append_assoc, List.cons_append, List.foldlM_cons]
    show (vs ++ _).foldlM Machine.step (.reading .value (.object read true f.1 :: outer)) = _
    rw [List.foldlM_append, hv.delivers]
    show List.foldlM Machine.step
      (.reading .commaOrClose (.object (f :: read) true f.1 :: outer)) _ = _
    rw [ih, List.reverse_cons, List.append_assoc, List.singleton_append]

theorem builds_object {fs : List (String × Value)} {tss : List (List Token)}
    (h : List.Forall₂ BuildsField fs tss) :
    Builds (.object fs) (.openObject :: commaJoined tss ++ [.closeObject]) where
  opens := ⟨_, _, rfl, (nomatch ·), (nomatch ·)⟩
  delivers containers := by
    -- here as well the first member is the only one without a comma
    show (commaJoined tss ++ [Token.closeObject]).foldlM Machine.step
      (.reading .nameOrClose (.object [] true "" :: containers)) = _
    cases h with
    | nil => rfl
    | @cons f ts fs tss hf rest =>
      obtain ⟨vs, rfl, hv⟩ := hf
      rw [commaJoined, List.append_assoc]
      show (vs ++ _).foldlM Machine.step (.reading .value (.object [] true f.1 :: containers)) = _
      rw [List.foldlM_append, hv.delivers]
      exact foldlM_fields rest [f] f.1 containers

/-! ## Texts of values -/

theorem renderItems_eq_map (vs : List Value) : renderItems vs = vs.map Value.render := by
  induction vs with
  | nil => rfl
  | cons v vs ih => rw [renderItems, ih, List.map_cons]

theorem renderFields_eq_map (fs : List (String × Value)) :
    renderFields fs = fs.map fun f => quote f.1 ++ ':' :: f.2.render := by
  induction fs with
  | nil => rfl
  | cons f fs ih => rw [renderFields, ih, List.map_cons]

theorem Cut.commas {texts : List (List Char)} {tss : List (List Token)}
    (h : List.Forall₂ Cut texts tss) : Cut (commaSeparated texts) (commaJoined tss) := by
  have comma : Cut [','] [.comma] := .punctuation rfl rfl
  -- the members after the first one, each behind its comma
  have later : ∀ {texts tss}, List.Forall₂ Cut texts tss →
      Cut (texts.flatMap (',' :: ·)) (tss.flatMap (.comma :: ·)) := by
    intro texts tss h
    induction h with
    | nil => exact .nil
    | cons hm _ ih => exact (comma.append hm).append ih
  have shape : ∀ m ms, commaSeparated (m :: ms) = m ++ ms.flatMap (',' :: ·) := by
    intro m ms
    induction ms generalizing m with
    | nil => exact (List.append_nil m).symm
    | cons n ms ih => rw [commaSeparated, ih, List.flatMap_cons, List.cons_append]; simp
  cases h with
  | nil => exact .nil
  | cons hm rest =>
    rw [shape, commaJoined]
    exact hm.append (later rest)

theorem exists_forall₂ {β γ : Type} {R : β → γ → Prop} {bs : List β} (h : ∀ b ∈ bs, ∃ c, R b c) :
    ∃ cs, List.Forall₂ R bs cs := by
  induction bs with
  | nil => exact ⟨[], .nil⟩
  | cons b bs ih =>
    obtain ⟨c, hc⟩ := h b List.mem_cons_self
    obtain ⟨cs, hcs⟩ := ih fun d hd => h d (List.mem_cons_of_mem _ hd)
    exact ⟨c :: cs, .cons hc hcs⟩

/-- A value's text is cut into tokens that build the value. -/
theorem Value.IsText.spelled {v : Value} (h : v.IsText) :
    ∃ ts, Cut v.render ts ∧ Builds v ts := by
  -- on the nesting: the members of a container are cut and built one by one
  induction h with
  | string s => exact ⟨_, .quote s, builds_string s⟩
  | @array items _ ih =>
    obtain ⟨tss, members⟩ := exists_forall₂ ih
    have cuts : List.Forall₂ Cut (renderItems items) tss := by
      rw [renderItems_eq_map, List.forall₂_map_left_iff]
      exact members.imp fun _ _ h => h.1
    refine ⟨_, ?_, builds_array (members.imp fun _ _ h => h.2)⟩
    rw [Value.render]
    exact ((Cut.punctuation (c := '[') rfl rfl).append (.commas cuts)).append (.punctuation rfl rfl)
  | @object fields _ ih =>
    have field : ∀ f ∈ fields,
        ∃ ts, Cut (quote f.1 ++ ':' :: f.2.render) ts ∧ BuildsField f ts := by
      intro f hf
      obtain ⟨ts, hcut, hbuild⟩ := ih f hf
      exact ⟨_, (Cut.quote f.1).append ((Cut.punctuation (c := ':') rfl rfl).append hcut), ts, rfl,
        hbuild⟩
    obtain ⟨tss, members⟩ := exists_forall₂ field
    have cuts : List.Forall₂ Cut (renderFields fields) tss := by
      rw [renderFields_eq_map, List.forall₂_map_left_iff]
      exact members.imp fun _ _ h => h.1
    refine ⟨_, ?_, builds_object (members.imp fun _ _ h => h.2)⟩
    rw [Value.render]
    exact ((Cut.punctuation (c := '\x7b') rfl rfl).append (.commas cuts)).append
      (.punctuation rfl rfl)

/-- Values made of texts survive being written and read. -/
theorem Value.parse?_encode {v : Value} (h : v.IsText) : Value.parse? v.encode = some v := by
  obtain ⟨ts, cut, build⟩ := h.spelled
  have tokens : tokens? (v.render.map some) = some ts := by
    have := cut []
    rwa [List.append_nil, tokens?, Option.map_some, List.append_nil] at this
  rw [Value.parse?, Value.encode, Utf8.units_encodeChars, tokens, Option.bind_some,
    Value.ofTokens?, build.delivers]
  rfl

end RpcWire.Json
