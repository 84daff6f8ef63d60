import RpcWire.Coding.Registry
import RpcWire.Proofs.Text.Cut

/-!
# Negotiating agrees with advertising and resolving

What a server picks for what a client advertised is a pool that the client knows
under the same name, as long as the client's names can stand in a list
(`IsListed`), and the client resolves that name to it (`find?_of_negotiate?`).
-/

namespace RpcWire.Registry

/-! ## Names -/

/-- A name that can stand in a list: it holds neither a separator nor blanks at an end. -/
structure IsListed (name : String) : Prop where
  comma : ',' ∉ name.toList
  semicolon : ';' ∉ name.toList
  trimmed : Text.trim name.toList = name.toList

/-- A name that stands for a pool where a coding is named: it is not blank and not `identity`. -/
def Names (name : String) : Prop := name ≠ "" ∧ name ≠ identity

/-- A pool is found under its own name only. -/
theorem name_of_find? {r : Registry} {name : String} {p : Pool} (h : r.find? name = some p) :
    p.name = name := by
  have := List.find?_some h
  exact eq_of_beq this

theorem find?_of_mem_names {r : Registry} {name : String} (h : name ∈ r.names) :
    ∃ p, r.find? name = some p := by
  obtain ⟨p, hp, hname⟩ := List.mem_map.mp h
  cases hf : r.find? name with
  | some q => exact ⟨q, rfl⟩
  | none =>
    have := List.find?_eq_none.mp hf p hp
    rw [hname] at this
    exact absurd (beq_self_eq_true name) this

/-- A name that stands alone in a header is looked up as it is. -/
theorem resolve?_of_isListed (r : Registry) {name : String} (listed : IsListed name)
    (h : Names name) : r.resolve? (some name) = r.find? name := by
  have one : (name.toList.splitOn ',').head? = some name.toList := by
    rw [List.splitOn_eq_singleton listed.comma]
    rfl
  have named : ¬ (name = "" ∨ name = identity) := by
    intro e
    exact e.elim h.1 h.2
  unfold resolve?
  simp only [Option.bind_eq_bind, Option.bind_some, one, listed.trimmed, String.ofList_toList,
    if_neg named]

/-! ## Offers -/

theorem accept?_eq (r : Registry) :
    r.accept? = if r.names = [] then none else some (String.intercalate "," r.names) :=
  if_congr (by simp [isEmpty, names]) rfl rfl

/-- A name in a list is an offer unless it is blank. -/
theorem parse?_of_isListed {name : String} (h : IsListed name) :
    Offer.parse? name.toList = if name = "" then none else some ⟨name, false⟩ := by
  unfold Offer.parse?
  simp only [h.trimmed, Text.cutFirst?_eq_none h.semicolon, String.ofList_toList,
    String.toList_eq_nil_iff]

/-- A list of names offers those that are not blank, in the same order. -/
theorem offers_names {names : List String} (hne : names ≠ []) (h : ∀ n ∈ names, IsListed n) :
    offers (String.intercalate "," names) =
      (names.filter (· ≠ "")).map fun n => ⟨n, false⟩ := by
  have apart : (String.intercalate "," names).toList.splitOn ',' = names.map String.toList := by
    rw [String.toList_intercalate]
    refine List.splitOn_intercalate ',' ?_ (by simpa using hne)
    intro cs hcs
    obtain ⟨n, hn, rfl⟩ := List.mem_map.mp hcs
    exact (h n hn).comma
  rw [offers, apart]
  clear apart hne
  induction names with
  | nil => rfl
  | cons name names ih =>
    have first := parse?_of_isListed (h name List.mem_cons_self)
    have later := ih fun n hn => h n (List.mem_cons_of_mem _ hn)
    by_cases blank : name = ""
    · rw [if_pos blank] at first
      rw [List.map_cons, List.filterMap_cons_none first, later,
        List.filter_cons_of_neg (by simpa using blank)]
    · rw [if_neg blank] at first
      rw [List.map_cons, List.filterMap_cons_some first, later,
        List.filter_cons_of_pos (by simpa using blank), List.map_cons]

theorem mem_offers_names {names : List String} (hne : names ≠ []) (h : ∀ n ∈ names, IsListed n)
    {o : Offer} (ho : o ∈ offers (String.intercalate "," names)) :
    ∃ n ∈ names, o = ⟨n, false⟩ ∧ n ≠ "" := by
  rw [offers_names hne h] at ho
  obtain ⟨n, hn, rfl⟩ := List.mem_map.mp ho
  obtain ⟨hn, nonempty⟩ := List.mem_filter.mp hn
  exact ⟨n, hn, rfl, by simpa using nonempty⟩

/-- The pool chosen is one that was offered, not refused, and registered. -/
theorem mem_of_choose? {r : Registry} {offers : List Offer} {p : Pool}
    (h : r.choose? offers = some p) :
    ∃ o ∈ offers, o.refused = false ∧ o.coding ≠ identity ∧ r.find? o.coding = some p := by
  induction offers with
  | nil => cases h
  | cons o offers ih =>
    have later : r.choose? offers = some p →
        ∃ o' ∈ o :: offers, o'.refused = false ∧ o'.coding ≠ identity ∧
          r.find? o'.coding = some p := by
      intro h
      obtain ⟨o', ho', found⟩ := ih h
      exact ⟨o', List.mem_cons_of_mem _ ho', found⟩
    unfold choose? at h
    by_cases refused : o.refused = true
    · -- an offer that is refused is passed over
      rw [if_pos refused] at h
      exact later h
    · rw [if_neg refused] at h
      by_cases identical : o.coding = identity
      · rw [if_pos identical] at h
        cases h
      · rw [if_neg identical] at h
        cases hf : r.find? o.coding with
        | none =>
          rw [hf] at h
          exact later h
        | some q =>
          rw [hf] at h
          cases h
          exact ⟨o, List.mem_cons_self, by simpa using refused, identical, hf⟩

/-! ## Both sides -/

/-- The pool that a server picks for what a client advertised is one that the client knows under
that name. -/
theorem find?_of_negotiate? {client server : Registry} (listed : ∀ n ∈ client.names, IsListed n)
    {p : Pool} (h : server.negotiate? client.accept? = some p) :
    p.name ∈ client.names ∧ Names p.name ∧ server.find? p.name = some p ∧
      ∃ q, client.find? p.name = some q := by
  rw [negotiate?, accept?_eq] at h
  by_cases none : client.names = []
  · rw [if_pos none] at h
    cases h
  · rw [if_neg none] at h
    -- what was chosen is one of the offers, and every offer is a name of the client
    obtain ⟨o, ho, -, coding, found⟩ := mem_of_choose? h
    obtain ⟨n, hn, rfl, nonempty⟩ := mem_offers_names none listed ho
    have named : p.name = n := name_of_find? found
    rw [named]
    exact ⟨hn, ⟨nonempty, coding⟩, found, find?_of_mem_names hn⟩

/-- A payload that the one side's pool of a name has compressed is given back by the other side's
pool of that name. -/
def UndoneBy (server client : Registry) : Prop :=
  ∀ name p q, server.find? name = some p → client.find? name = some q →
    ∀ payload packed, p.compress payload = .ok packed → q.decompress packed = .ok payload

/-- A name that means the same pool on both sides, one whose decompression undoes its compression,
is undone. -/
theorem undoneBy_of_same {server client : Registry}
    (same : ∀ name p q, server.find? name = some p → client.find? name = some q → p = q)
    (roundTrips : ∀ name p, server.find? name = some p → p.RoundTrips) :
    server.UndoneBy client := by
  intro name p q hp hq payload packed hpacked
  rw [← same name p q hp hq]
  exact roundTrips name p hp payload packed hpacked

end RpcWire.Registry
