import Mathlib.Data.List.TakeWhile
import RpcWire.Http.Target
import RpcWire.Proofs.Text.Cut

/-!
# Targets of whole URLs

There are four ways to read a target (`Reads`, `parse?_eq_some_iff`). A URL that
is put together from a scheme, an authority, a path and perhaps a query is taken
apart in the same way, if it is a legal target at all (`parts_of_parse?`). A
query that is appended to any URL without one changes nothing else of the
target (`parse?_of_asked`).
-/

namespace RpcWire.Http.Target

/-! ## Schemes -/

theorem eq_colon_of_toLower {c : Char} (h : c.toLower = ':') : c = ':' := by
  unfold Char.toLower at h
  split at h
  · next upper =>
    have value := congrArg Char.toNat h
    have low : (0x41 : UInt32).toNat ≤ c.val.toNat := upper.1
    have high : c.val.toNat ≤ (0x5A : UInt32).toNat := upper.2
    have low : 0x41 ≤ c.val.toNat := low
    have high : c.val.toNat ≤ 0x5A := high
    have sum : (c.val + (0x20 : UInt32)).toNat = c.val.toNat + 0x20 := by
      rw [UInt32.toNat_add]
      show (c.val.toNat + 0x20) % 2 ^ 32 = _
      omega
    have value : (c.val + (0x20 : UInt32)).toNat = 0x3A := value
    omega
  · exact h

/-- What begins with a stem in any case, and has its first colon where the stem has it, goes on
right after the stem. -/
theorem drop_of_stem {scheme rest : List Char} (stem : List Char) (hscheme : ':' ∉ scheme)
    (hstem : ':' ∉ stem)
    (h : ((scheme ++ ':' :: '/' :: '/' :: rest).take (stem.length + 3)).map Char.toLower =
      stem ++ [':', '/', '/']) :
    (scheme ++ ':' :: '/' :: '/' :: rest).drop (stem.length + 3) = rest := by
  -- both go on, character by character, until the first colon of both
  induction scheme generalizing stem with
  | nil =>
    cases stem with
    | nil => rfl
    | cons s stem =>
      rw [List.length_cons, Nat.add_right_comm, List.nil_append, List.take_succ_cons, List.map_cons,
        List.cons_append] at h
      have first : Char.toLower ':' = s := (List.cons.inj h).1
      exact absurd (List.mem_cons.mpr (.inl first)) hstem
  | cons c scheme ih =>
    cases stem with
    | nil =>
      have first : c.toLower = ':' := (List.cons.inj h).1
      exact absurd (List.mem_cons.mpr (.inl (eq_colon_of_toLower first).symm)) hscheme
    | cons s stem =>
      rw [List.length_cons, Nat.add_right_comm, List.cons_append, List.take_succ_cons,
        List.map_cons, List.cons_append] at h
      rw [List.length_cons, Nat.add_right_comm, List.cons_append, List.drop_succ_cons]
      exact ih stem (fun e => hscheme (List.mem_cons_of_mem _ e))
        (fun e => hstem (List.mem_cons_of_mem _ e)) (List.cons.inj h).2

theorem three_lt_length {cs : List Char} (h : 3 < cs.length) :
    3 < (Utf8.encodeChars cs).length := by
  have grows : ∀ cs : List Char, cs.length ≤ (Utf8.encodeChars cs).length := by
    intro cs
    induction cs with
    | nil => exact Nat.le_refl 0
    | cons c cs ih =>
      rw [Utf8.encodeChars_cons, List.length_append, List.length_cons]
      have one := String.utf8EncodeChar_ne_nil (c := c)
      have := List.length_pos_iff.mpr one
      omega
  exact Nat.lt_of_lt_of_le h (grows cs)

/-- A scheme is cut off, or it is too long. -/
theorem cutScheme_url {scheme rest : List Char} (hscheme : scheme.all isSchemeChar = true)
    (hrest : rest ≠ []) :
    cutScheme (scheme ++ ':' :: '/' :: '/' :: rest) = .tooLong ∨
      ∃ s, cutScheme (scheme ++ ':' :: '/' :: '/' :: rest) = .present s rest := by
  have colon : ':' ∉ scheme := Text.not_mem_of_all hscheme (by decide)
  unfold cutScheme
  split
  · next usual =>
    exact .inr ⟨_, congrArg _ (drop_of_stem "http".toList colon (by decide) usual)⟩
  · split
    · next usual =>
      exact .inr ⟨_, congrArg _ (drop_of_stem "https".toList colon (by decide) usual)⟩
    · -- any other scheme ends at the first character that cannot stand in one: the colon
      have ends : (scheme ++ ':' :: '/' :: '/' :: rest).dropWhile isSchemeChar =
          "://".toList ++ rest := by
        rw [List.dropWhile_append_of_pos fun c hc => List.all_eq_true.mp hscheme c hc]
        rfl
      have long : ¬ (Utf8.encodeChars (scheme ++ ':' :: '/' :: '/' :: rest)).length ≤ 3 := by
        have := List.length_pos_iff.mpr hrest
        refine Nat.not_le_of_lt (three_lt_length ?_)
        simp only [List.length_append, List.length_cons]
        omega
      simp only [ends, Text.stripStart?_append, if_neg long]
      split
      · exact .inl rfl
      · exact .inr ⟨_, rfl⟩

theorem suffix_of_cutScheme {cs rest : List Char} {scheme : String}
    (h : cutScheme cs = .present scheme rest) : rest <:+ cs := by
  unfold cutScheme at h
  split at h
  · obtain ⟨-, rfl⟩ := SchemePart.present.inj h
    exact List.drop_suffix 7 cs
  split at h
  · obtain ⟨-, rfl⟩ := SchemePart.present.inj h
    exact List.drop_suffix 8 cs
  cases hs : Text.stripStart? "://" (cs.dropWhile isSchemeChar) with
  | none =>
    simp only [hs] at h
    cases h
  | some after =>
    simp only [hs] at h
    split at h
    · cases h
    split at h
    · cases h
    obtain ⟨-, rfl⟩ := SchemePart.present.inj h
    have behind : after <:+ cs.dropWhile isSchemeChar := ⟨_, (Text.stripStart?_eq_some hs).symm⟩
    exact behind.trans (List.dropWhile_suffix isSchemeChar)

/-- What has a scheme is neither a star nor a path. -/
theorem head_of_cutScheme {cs : List Char} (h : cutScheme cs ≠ .absent) :
    cs ≠ ['*'] ∧ cs.head? ≠ some '/' := by
  constructor
  · rintro rfl
    exact h rfl
  · intro rooted
    cases cs with
    | nil => cases rooted
    | cons c cs =>
      cases rooted
      have other : ∀ n, ∀ stem : List Char, stem.head? = some 'h' →
          ¬ (('/' :: cs).take (n + 1)).map Char.toLower = stem := by
        rintro n stem hstem rfl
        cases hstem
      unfold cutScheme at h
      rw [if_neg (other 6 _ rfl), if_neg (other 7 _ rfl)] at h
      exact h rfl

/-! ## Paths and queries -/

/-- A query behind its question mark, if there is one. -/
def tail : Option (List Char) → List Char
  | none => []
  | some query => '?' :: query

theorem beforeFragment_eq_self {cs : List Char} (h : '#' ∉ cs) : beforeFragment cs = cs := by
  refine List.takeWhile_eq_self_iff.mpr ?_
  intro c hc
  have other : c ≠ '#' := by
    intro e
    exact h (e ▸ hc)
  simpa using other

theorem parts_of_cutQuery? {path : List Char} {query : Option (List Char)}
    (hpath : path.all isPathChar = true) (hquery : ∀ q ∈ query, '#' ∉ q)
    {parts : List Char × Option (List Char)} (h : cutQuery? (path ++ tail query) = some parts) :
    parts = (path, query) := by
  have unmarked : '#' ∉ path := Text.not_mem_of_all hpath (by decide)
  have unasked : '?' ∉ path := Text.not_mem_of_all hpath (by decide)
  unfold cutQuery? at h
  cases query with
  | none =>
    rw [tail, List.append_nil] at h
    simp only [beforeFragment_eq_self unmarked, Text.cutFirst?_eq_none unasked, if_pos hpath] at h
    exact (Option.some.inj h).symm
  | some q =>
    have whole : '#' ∉ path ++ '?' :: q := by
      rw [List.mem_append, List.mem_cons, not_or, not_or]
      exact ⟨unmarked, by decide, hquery q rfl⟩
    rw [tail] at h
    simp only [beforeFragment_eq_self whole, Text.cutFirst?_append unasked] at h
    split at h
    · exact (Option.some.inj h).symm
    · cases h

/-! ## Whole targets -/

/-- How a text is read as a target. -/
inductive Reads (cs : List Char) : Target → Prop where
  | star (h : cs = ['*']) : Reads cs ⟨none, "", "*", none⟩
  | path {target : Target} (rooted : cs.head? = some '/')
      (parts : ofParts? none [] cs = some target) : Reads cs target
  | authority (full : cs ≠ []) (other : cs ≠ ['*'] ∧ cs.head? ≠ some '/')
      (absent : cutScheme cs = .absent) (legal : isAuthority cs = true) :
      Reads cs ⟨none, String.ofList cs, "", none⟩
  | url {scheme : String} {rest : List Char} {target : Target}
      (present : cutScheme cs = .present scheme rest)
      (full : rest.takeWhile (fun c => !endsAuthority c) ≠ [])
      (legal : isAuthority (rest.takeWhile fun c => !endsAuthority c) = true)
      (parts : ofParts? (some scheme) (rest.takeWhile fun c => !endsAuthority c)
        (rest.dropWhile fun c => !endsAuthority c) = some target) : Reads cs target

/-- What is read is an address of the grammar, and not too long. -/
theorem reads_of_parse? {url : String} {target : Target} (h : parse? url = some target) :
    (Utf8.encodeChars url.toList).length ≤ maxLength ∧ Reads url.toList target := by
  simp only [parse?] at h
  split at h
  · cases h
  next fits =>
  refine ⟨Nat.le_of_not_lt fits, ?_⟩
  split at h
  · next star =>
    cases h
    exact .star star
  next notStar =>
  split at h
  · next rooted => exact .path rooted h
  next notSlash =>
  cases cut : cutScheme url.toList with
  | tooLong =>
    simp only [cut] at h
    cases h
  | absent =>
    simp only [cut] at h
    split at h
    · next legal =>
      cases h
      have read := Reads.authority legal.1 ⟨notStar, notSlash⟩ cut legal.2
      rw [String.ofList_toList] at read
      exact read
    · cases h
  | present scheme rest =>
    simp only [cut] at h
    split at h
    · next legal => exact .url cut legal.1 legal.2 h
    · cases h

/-- Each form of the grammar is told from the others by how it begins. -/
theorem parse?_of_reads {url : String} {target : Target}
    (fits : (Utf8.encodeChars url.toList).length ≤ maxLength) (reads : Reads url.toList target) :
    parse? url = some target := by
  have fits := Nat.not_lt_of_le fits
  unfold parse?
  cases reads with
  | star star => simp only [if_neg fits, if_pos star]
  | path rooted parts =>
    have notStar : url.toList ≠ ['*'] := by
      intro e
      rw [e] at rooted
      cases rooted
    simp only [if_neg fits, if_neg notStar, if_pos rooted]
    exact parts
  | authority full other absent legal =>
    simp only [if_neg fits, if_neg other.1, if_neg other.2, absent, String.ofList_toList]
    exact if_pos ⟨full, legal⟩
  | url present full legal parts =>
    obtain ⟨notStar, notSlash⟩ := head_of_cutScheme (by rw [present]; exact nofun)
    simp only [if_neg fits, if_neg notStar, if_neg notSlash, present]
    exact (if_pos ⟨full, legal⟩).trans parts

/-- An address is read exactly if it is short enough and the grammar reads it, and as the grammar
says. -/
theorem parse?_eq_some_iff {url : String} {target : Target} :
    parse? url = some target ↔
      (Utf8.encodeChars url.toList).length ≤ maxLength ∧ Reads url.toList target :=
  ⟨reads_of_parse?, fun h => parse?_of_reads h.1 h.2⟩

/-! ## Whole URLs -/

/-- The path and the query of a URL that is a legal target are those it was put together from. -/
theorem parts_of_parse? {url : String} {scheme authority path : List Char}
    {query : Option (List Char)} (hscheme : scheme.all isSchemeChar = true)
    (hauthority : ∀ c ∈ authority, endsAuthority c = false) (hpath : path.all isPathChar = true)
    (hquery : ∀ q ∈ query, '#' ∉ q)
    (made : url.toList = scheme ++ ':' :: '/' :: '/' :: (authority ++ ('/' :: path ++ tail query)))
    {target : Target} (h : parse? url = some target) :
    target.path = String.ofList ('/' :: path) ∧ target.query = query.map String.ofList := by
  have rooted : ('/' :: path).all isPathChar = true := by
    rw [List.all_cons, hpath]
    decide
  have goesOn : authority ++ ('/' :: path ++ tail query) ≠ [] := by simp
  have cut := cutScheme_url hscheme goesOn
  have schemed : cutScheme url.toList ≠ .absent := by
    rw [made]
    rcases cut with cut | ⟨s, cut⟩ <;> rw [cut] <;> exact nofun
  obtain ⟨notStar, notSlash⟩ := head_of_cutScheme schemed
  obtain ⟨-, reads⟩ := parse?_eq_some_iff.mp h
  cases reads with
  | star star => exact absurd star notStar
  | path rooted _ => exact absurd rooted notSlash
  | authority _ _ absent _ => exact absurd absent schemed
  | url present _ _ parts =>
    rw [made] at present
    rcases cut with cut | ⟨s, cut⟩ <;> rw [cut] at present <;> cases present
    have taken : (authority ++ ('/' :: path ++ tail query)).dropWhile (fun c => !endsAuthority c) =
        '/' :: path ++ tail query := by
      rw [List.dropWhile_append_of_pos fun c hc => by rw [hauthority c hc]; rfl]
      rfl
    rw [taken] at parts
    unfold ofParts? at parts
    obtain ⟨cutParts, hcut, parts⟩ := Option.bind_eq_some_iff.mp parts
    have same := parts_of_cutQuery? rooted hquery hcut
    rw [same] at parts
    cases parts
    exact ⟨rfl, rfl⟩

/-! ## URLs with a query appended -/

/-- A text without a query or a fragment. -/
def IsBare (cs : List Char) : Prop := '?' ∉ cs ∧ '#' ∉ cs

instance (cs : List Char) : Decidable (IsBare cs) :=
  inferInstanceAs (Decidable (_ ∧ _))

theorem IsBare.append {cs rest : List Char} (h : IsBare cs) (h' : IsBare rest) :
    IsBare (cs ++ rest) := by
  constructor
  · rw [List.mem_append, not_or]
    exact ⟨h.1, h'.1⟩
  · rw [List.mem_append, not_or]
    exact ⟨h.2, h'.2⟩

theorem IsBare.subset {cs part : List Char} (h : IsBare cs) (inside : part ⊆ cs) : IsBare part :=
  ⟨fun mem => h.1 (inside mem), fun mem => h.2 (inside mem)⟩

/-- What is read up to a question mark does not see what follows it. -/
theorem span_of_asked {p : Char → Bool} (stops : p '?' = false) (cs query : List Char) :
    (cs ++ '?' :: query).takeWhile p = cs.takeWhile p ∧
      (cs ++ '?' :: query).dropWhile p = cs.dropWhile p ++ '?' :: query := by
  induction cs with
  | nil =>
    have not : ¬ p '?' = true := by rw [stops]; decide
    exact ⟨List.takeWhile_cons_of_neg not, List.dropWhile_cons_of_neg not⟩
  | cons c cs ih =>
    rw [List.cons_append]
    by_cases hc : p c = true
    · rw [List.takeWhile_cons_of_pos hc, List.takeWhile_cons_of_pos hc,
        List.dropWhile_cons_of_pos hc, List.dropWhile_cons_of_pos hc, ih.1]
      exact ⟨rfl, ih.2⟩
    · rw [List.takeWhile_cons_of_neg hc, List.takeWhile_cons_of_neg hc,
        List.dropWhile_cons_of_neg hc, List.dropWhile_cons_of_neg hc]
      exact ⟨rfl, rfl⟩

/-- A stem without a question mark stands in front of the first one. -/
theorem stem_of_asked {cs query : List Char} (stem : List Char) (hstem : '?' ∉ stem)
    (h : ((cs ++ '?' :: query).take stem.length).map Char.toLower = stem) :
    (cs.take stem.length).map Char.toLower = stem ∧
      (cs ++ '?' :: query).drop stem.length = cs.drop stem.length ++ '?' :: query := by
  induction stem generalizing cs with
  | nil => exact ⟨rfl, rfl⟩
  | cons s stem ih =>
    rw [List.mem_cons, not_or] at hstem
    cases cs with
    | nil =>
      have first : Char.toLower '?' = s := (List.cons.inj h).1
      exact absurd first hstem.1
    | cons c cs =>
      rw [List.length_cons, List.cons_append, List.take_succ_cons, List.map_cons] at h
      obtain ⟨first, later⟩ := List.cons.inj h
      obtain ⟨front, back⟩ := ih hstem.2 later
      rw [List.length_cons, List.take_succ_cons, List.map_cons, first, front, List.cons_append,
        List.drop_succ_cons, List.drop_succ_cons]
      exact ⟨rfl, back⟩

theorem stem_of_take {cs : List Char} (stem query : List Char)
    (h : (cs.take stem.length).map Char.toLower = stem) :
    ((cs ++ '?' :: query).take stem.length).map Char.toLower = stem := by
  have long : stem.length ≤ cs.length := by
    have := congrArg List.length h
    rw [List.length_map, List.length_take] at this
    omega
  rw [List.take_append_of_le_length long]
  exact h

theorem stripStart?_of_asked {stem : String} {cs query rest : List Char} (hstem : '?' ∉ stem.toList)
    (h : Text.stripStart? stem (cs ++ '?' :: query) = some rest) :
    ∃ before, Text.stripStart? stem cs = some before ∧ rest = before ++ '?' :: query := by
  rcases List.append_eq_append_iff.mp (Text.stripStart?_eq_some h) with
    ⟨more, hstem', hrest⟩ | ⟨before, hcs, hrest⟩
  · -- the stem would go on with the question mark
    cases more with
    | nil =>
      rw [List.append_nil] at hstem'
      refine ⟨[], ?_, hrest.symm⟩
      rw [← hstem', ← List.append_nil stem.toList]
      exact Text.stripStart?_append stem []
    | cons c more =>
      have first : '?' = c := (List.cons.inj hrest).1
      rw [hstem', first] at hstem
      exact absurd (List.mem_append_right _ List.mem_cons_self) hstem
  · rw [hcs]
    exact ⟨before, Text.stripStart?_append stem before, hrest⟩

/-- A URL with a scheme that is none of the usual ones, and something after it. -/
theorem cutScheme_of_stripped {cs rest : List Char}
    (plain : ¬ (cs.take 7).map Char.toLower = "http://".toList)
    (secure : ¬ (cs.take 8).map Char.toLower = "https://".toList)
    (stripped : Text.stripStart? "://" (cs.dropWhile isSchemeChar) = some rest)
    (goesOn : rest ≠ []) (short : ¬ maxScheme < (cs.takeWhile isSchemeChar).length) :
    cutScheme cs = .present (String.ofList (cs.takeWhile isSchemeChar)) rest := by
  -- a text of at most three characters would end with the scheme
  have long : ¬ (Utf8.encodeChars cs).length ≤ 3 := by
    have whole := List.takeWhile_append_dropWhile (p := isSchemeChar) (l := cs)
    rw [Text.stripStart?_eq_some stripped] at whole
    refine Nat.not_le_of_lt (three_lt_length ?_)
    rw [← whole, List.length_append, List.length_append]
    have mark : "://".toList.length = 3 := by decide
    have := List.length_pos_iff.mpr goesOn
    omega
  unfold cutScheme
  simp only [if_neg plain, if_neg secure, stripped, if_neg long, if_neg short]

/-- The scheme of a URL that goes on after it does not depend on a query. -/
theorem cutScheme_of_asked {cs query rest : List Char} {scheme : String}
    (h : cutScheme (cs ++ '?' :: query) = .present scheme rest) :
    ∃ before, rest = before ++ '?' :: query ∧
      (before ≠ [] → cutScheme cs = .present scheme before) := by
  unfold cutScheme at h
  split at h
  · next usual =>
    obtain ⟨front, back⟩ := stem_of_asked "http://".toList (by decide) usual
    obtain ⟨rfl, rfl⟩ := SchemePart.present.inj h
    refine ⟨_, back, fun _ => ?_⟩
    unfold cutScheme
    exact if_pos front
  · next plain =>
    have plain : ¬ (cs.take 7).map Char.toLower = "http://".toList := fun e =>
      plain (stem_of_take "http://".toList query e)
    split at h
    · next usual =>
      obtain ⟨front, back⟩ := stem_of_asked "https://".toList (by decide) usual
      obtain ⟨rfl, rfl⟩ := SchemePart.present.inj h
      refine ⟨_, back, fun _ => ?_⟩
      unfold cutScheme
      rw [if_neg plain]
      exact if_pos front
    · next secure =>
      have secure : ¬ (cs.take 8).map Char.toLower = "https://".toList := fun e =>
        secure (stem_of_take "https://".toList query e)
      obtain ⟨front, back⟩ := span_of_asked (p := isSchemeChar) (by decide) cs query
      simp only [front, back] at h
      cases hs : Text.stripStart? "://" (cs.dropWhile isSchemeChar ++ '?' :: query) with
      | none =>
        rw [hs] at h
        cases h
      | some after =>
        simp only [hs] at h
        obtain ⟨before, stripped, hafter⟩ := stripStart?_of_asked (by decide) hs
        split at h
        · cases h
        split at h
        · cases h
        next short =>
        obtain ⟨rfl, rfl⟩ := SchemePart.present.inj h
        exact ⟨before, hafter, fun goesOn =>
          cutScheme_of_stripped plain secure stripped goesOn short⟩

theorem isAuthority_of_asked {cs : List Char} (h : '?' ∈ cs) : isAuthority cs = false := by
  have stuck : ∀ s, cs.foldlM AuthorityScan.step s = none := by
    induction cs with
    | nil => cases h
    | cons c cs ih =>
      intro s
      rw [List.foldlM_cons]
      rcases List.mem_cons.mp h with rfl | later
      · rfl
      · cases AuthorityScan.step s c with
        | none => rfl
        | some s => exact ih later s
  rw [isAuthority, stuck]

theorem ofParts?_of_asked {scheme : Option String} {authority path query : List Char}
    {target : Target} (hpath : IsBare path) (hquery : '#' ∉ query)
    (h : ofParts? scheme authority (path ++ '?' :: query) = some target) :
    target.query = some (String.ofList query) ∧
      ofParts? scheme authority path = some { target with query := none } := by
  obtain ⟨unasked, unmarked⟩ := hpath
  have whole : '#' ∉ path ++ '?' :: query := by
    rw [List.mem_append, List.mem_cons, not_or, not_or]
    exact ⟨unmarked, by decide, hquery⟩
  unfold ofParts? at h
  obtain ⟨parts, hparts, h⟩ := Option.bind_eq_some_iff.mp h
  unfold cutQuery? at hparts
  simp only [beforeFragment_eq_self whole, Text.cutFirst?_append unasked] at hparts
  split at hparts
  · next legal =>
    cases hparts
    cases h
    refine ⟨rfl, ?_⟩
    unfold ofParts? cutQuery?
    simp only [beforeFragment_eq_self unmarked, Text.cutFirst?_eq_none unasked, if_pos legal.1]
    rfl
  · cases hparts

/-- A URL without a query that is a legal target with one is a legal target without one, and the
rest of it is the same. -/
theorem parse?_of_asked {url query : String} {target : Target}
    (plain : IsBare url.toList) (hquery : '#' ∉ query.toList)
    (h : parse? (url ++ "?" ++ query) = some target) :
    target.query = some query ∧ parse? url = some { target with query := none } := by
  have whole : (url ++ "?" ++ query).toList = url.toList ++ '?' :: query.toList := by
    rw [String.toList_append, String.toList_append, List.append_assoc]
    rfl
  have asked : '?' ∈ url.toList ++ '?' :: query.toList :=
    List.mem_append_right _ List.mem_cons_self
  obtain ⟨fits, reads⟩ := parse?_eq_some_iff.mp h
  rw [whole] at fits reads
  rw [Utf8.encodeChars_append, List.length_append] at fits
  have fits : (Utf8.encodeChars url.toList).length ≤ maxLength := by omega
  rw [parse?_eq_some_iff, ← String.ofList_toList (s := query)]
  cases reads with
  | star star =>
    rw [star] at asked
    exact absurd asked (by decide)
  | authority _ _ _ legal =>
    rw [isAuthority_of_asked asked] at legal
    cases legal
  | path rooted parts =>
    obtain ⟨found, bare⟩ := ofParts?_of_asked plain hquery parts
    refine ⟨found, fits, .path ?_ bare⟩
    cases hu : url.toList with
    | nil =>
      rw [hu] at rooted
      cases rooted
    | cons c cs =>
      rw [hu] at rooted
      exact rooted
  | url present full legal parts =>
    obtain ⟨before, rfl, bare⟩ := cutScheme_of_asked present
    obtain ⟨front, back⟩ := span_of_asked (p := fun c => !endsAuthority c) rfl before query.toList
    rw [front] at full legal parts
    rw [back] at parts
    -- an authority that is not empty goes on after the scheme
    have present := bare (by rintro rfl; exact full rfl)
    have inside : before.dropWhile (fun c => !endsAuthority c) <:+ url.toList :=
      (List.dropWhile_suffix _).trans (suffix_of_cutScheme present)
    obtain ⟨found, bare⟩ := ofParts?_of_asked (plain.subset inside.subset) hquery parts
    exact ⟨found, fits, .url present full legal bare⟩

end RpcWire.Http.Target
